import LeakScan.Grammar.Tree
import LeakScan.Scope.Skeleton
import LeakScan.Text.Character
import LeakScan.Text.Offset

/-!
# LeakScan.Grammar.Skeleton

The skeleton of a text whose constructs are known.

* `Place` — what the constructs around a closure say about it.
* `Tree.skeleton` — the scopes, guards and return statements, from outside to inside.
-/

namespace LeakScan.Grammar

open Text Scope

/-- The last part of a dotted or qualified name. -/
def lastSegment (cs : List Char) : List Char :=
  trim (cs.reverse.takeWhile fun c => c != '.' && c != ':').reverse

def dropQuotes (cs : List Char) : List Char :=
  let isQuote c := c == '"' || c == '\''
  ((cs.dropWhile isQuote).reverse.dropWhile isQuote).reverse

/-- The text of a stretch without the white space around it. -/
def textAt (source : List Char) (s : Span) : List Char := trim ((slice? source s).getD [])

structure Place where
  /-- What names a value here. -/
  name : Option Span := none
  /-- The function of the call that stands around this place. -/
  called : Option Span := none
  /-- The function that a value is passed to here. -/
  callee : Option Span := none
  /-- A value here is given back. -/
  returned : Bool := false
  deriving DecidableEq, Repr

namespace Tree

def partSpan? (t : Tree) (p : Part) : Option Span := (t.part? p).map span

/-- The place of a child in some role, for a construct that itself stands at a place. -/
def inside (t : Tree) (here : Place) (role : Part) : Place :=
  match t.kind with
  | .return => { returned := true }
  | .expressions | .parenthesized => { returned := here.returned }
  | .arrow => { returned := role == .body }
  | .binding => { name := t.partSpan? .name }
  | .call => { called := t.partSpan? .callee }
  | .arguments => { callee := here.called }
  | _ => {}

/-- The name that a declaration gives itself. -/
def ownName (source : List Char) (t : Tree) : Option String :=
  nonEmpty? ((t.partSpan? .name).map fun s => String.ofList (textAt source s))

/-- The name that a closure gets from where it is stored. -/
def givenName (source : List Char) (place : Option Span) : Option String :=
  nonEmpty? (place.map fun s => String.ofList (lastSegment (dropQuotes (textAt source s))))

def calleeName (source : List Char) (place : Option Span) : Option String :=
  nonEmpty? (place.map fun s => String.ofList (lastSegment (textAt source s)))

/-- What a construct itself contributes. -/
def own (source : List Char) (t : Tree) (here : Place) : Skeleton :=
  match t.kind with
  | .classLike => { scopes := [{ kind := .classLike, span := t.span, name := t.ownName source }] }
  | .function => { scopes := [{ kind := .function, span := t.span, name := t.ownName source }] }
  | .closure | .arrow =>
    { scopes := [{ kind := .closure, span := t.span, name := givenName source here.name
                   callee := calleeName source here.callee, returned := here.returned }] }
  | .finally => { guards := [⟨.finally, t.span⟩] }
  | .managed => { guards := [⟨.managed, t.span⟩] }
  | .deferred => { guards := [⟨.deferred, t.span⟩] }
  | .return => { returns := [t.span] }
  | _ => {}

mutual

def skeletonAt (source : List Char) (here : Place) : Tree → Skeleton
  | .node k s cs =>
    own source (.node k s cs) here ++
      childSkeletons source (inside (.node k s cs) here) cs

def childSkeletons (source : List Char) (place : Part → Place) : List (Part × Tree) → Skeleton
  | [] => {}
  | (role, t) :: rest => skeletonAt source (place role) t ++ childSkeletons source place rest

end

def skeleton (source : List Char) (t : Tree) : Skeleton := skeletonAt source {} t

end Tree

end LeakScan.Grammar
