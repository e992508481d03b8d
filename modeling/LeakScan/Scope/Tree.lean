import LeakScan.Lifecycle
import LeakScan.Scope.Skeleton

/-!
# LeakScan.Scope.Tree

Scope trees: the scopes of a file with their nesting, kinds and guards.

* `Scope`, `ScopeTree` — scope `i` has id `i`, and scope 0 is the whole file.
* `ScopeTree.build` — nests the scopes of a skeleton. A scope that reaches over the end of the one
  it starts in is cut off there. A function directly inside a class is a method; a method with a
  lifecycle name and a closure passed to a hook are lifecycle callbacks; a closure that starts in
  a guarded stretch of its parent is deferred.
* `ScopeTree.scopeAt` — the innermost scope at an offset.
* `ScopeTree.ancestors`, `enclosingClass`, `owner` — the way up.
* `ScopeTree.positionOf` — how an offset stands in its scope.
-/

namespace LeakScan

open Text

namespace Scope

inductive Kind where
  | module
  | classLike
  | function
  | method
  | closure
  | lifecycleCallback
  deriving DecidableEq, Repr, Inhabited

def Kind.name : Kind → String
  | .module => "module"
  | .classLike => "class"
  | .function => "function"
  | .method => "method"
  | .closure => "closure"
  | .lifecycleCallback => "lifecycle_callback"

inductive Position where
  | plain
  | finally
  | deferred
  | managed
  | returnedExpression
  deriving DecidableEq, Repr, Inhabited

def Position.name : Position → String
  | .plain => "plain"
  | .finally => "finally"
  | .deferred => "deferred"
  | .managed => "managed"
  | .returnedExpression => "returned_expression"

end Scope

structure Scope where
  id : Nat
  kind : Scope.Kind
  name : Option String := none
  parent : Option Nat := none
  span : Span
  returned : Bool := false
  deferred : Bool := false
  deriving DecidableEq, Repr, Inhabited

structure ScopeTree where
  scopes : List Scope
  /-- Guards with the scope that each starts in. -/
  guards : List (Scope.Guard × Nat) := []
  /-- Return statements with the scope that each starts in. -/
  returns : List (Span × Nat) := []
  precise : Bool
  deriving DecidableEq, Repr, Inhabited

namespace ScopeTree

open Scope

/-! ## Nesting -/

/-- Scopes that can be placed: not empty and inside the text. -/
def isPlaceable (textSize : Nat) (r : RawScope) : Bool :=
  r.span.start < r.span.stop && r.span.stop ≤ textSize

/-- Outer scopes before inner ones: by start, and the longer one first. -/
def outerFirst (a b : Span) : Bool :=
  a.start < b.start || (a.start == b.start && b.stop ≤ a.stop)

/-- Leaves out what repeats the span before it. -/
def dropRepeats (last : Span) : List RawScope → List RawScope
  | [] => []
  | r :: rest => if r.span == last then dropRepeats last rest else r :: dropRepeats r.span rest

/-- Keeps the first of neighbours with the same span. -/
def dedupSpans : List RawScope → List RawScope
  | [] => []
  | r :: rest => r :: dropRepeats r.span rest

/-- The scopes to place, in the order of placing. -/
def ordered (textSize : Nat) (scopes : List RawScope) : List RawScope :=
  dedupSpans ((scopes.filter (isPlaceable textSize)).mergeSort fun a b => outerFirst a.span b.span)

/-- Leaves the open scopes that end at or before an offset; the whole file stays. -/
def closeUntil (start : Nat) (stack : List Scope) : List Scope :=
  stack.dropWhile fun s => s.id != 0 && s.span.stop ≤ start

/-- Kind and name of a scope that opens directly inside `parent`. -/
def classify (lifecycle : Lifecycle) (parent : Kind) (r : RawScope) : Kind × Option String :=
  match r.kind with
  | .classLike => (.classLike, r.name)
  | raw =>
    let isMethod := parent == .classLike && (raw == .function || r.name.isSome)
    let hook := r.callee.filter fun c => raw == .closure && lifecycle.isHook c
    let isCallback := isMethod && r.name.any lifecycle.isCallback
    match hook with
    | some h => (.lifecycleCallback, some h)
    | none =>
      if isCallback then (.lifecycleCallback, r.name)
      else if isMethod then (.method, r.name)
      else if raw == .function then (.function, r.name)
      else (.closure, r.name)

/-- The scopes placed so far, latest first, and those that are open, innermost first. -/
structure Nesting where
  placed : List Scope
  stack : List Scope

def Nesting.place (lifecycle : Lifecycle) (n : Nesting) (r : RawScope) : Nesting :=
  let stack := closeUntil r.span.start n.stack
  match stack with
  | [] => n
  | parent :: _ =>
    let (kind, name) := classify lifecycle parent.kind r
    let scope : Scope := {
      id := n.placed.length
      kind := kind
      name := name
      parent := some parent.id
      span := ⟨r.span.start, min r.span.stop parent.span.stop⟩
      returned := r.returned && r.kind == .closure }
    { placed := scope :: n.placed, stack := scope :: stack }

/-- The scope of the whole file. -/
def module (textSize : Nat) : Scope := { id := 0, kind := .module, span := ⟨0, textSize⟩ }

def nest (lifecycle : Lifecycle) (textSize : Nat) (scopes : List RawScope) : List Scope :=
  let start : Nesting := { placed := [module textSize], stack := [module textSize] }
  ((ordered textSize scopes).foldl (Nesting.place lifecycle) start).placed.reverse

/-! ## Look-up -/

/-- The scope of an id; an id beyond the last scope stands for the last one. -/
def get (t : ScopeTree) (id : Nat) : Scope :=
  (t.scopes[min id (t.scopes.length - 1)]?).getD default

/-- Later start, then earlier end, then later id. -/
def isInner (a b : Scope) : Bool :=
  b.span.start < a.span.start ||
    (b.span.start == a.span.start &&
      (a.span.stop < b.span.stop || (a.span.stop == b.span.stop && b.id < a.id)))

/-- The innermost of some scopes that hold an offset. -/
def innermost : List Scope → Option Scope
  | [] => none
  | s :: rest =>
    match innermost rest with
    | none => some s
    | some best => some (if isInner best s then best else s)

def scopeIn (scopes : List Scope) (offset : Nat) : Nat :=
  match innermost (scopes.filter (·.span.holds offset)) with
  | some s => s.id
  | none => 0

/-- The innermost scope that holds an offset, or the whole file. -/
def scopeAt (t : ScopeTree) (offset : Nat) : Nat := scopeIn t.scopes offset

/-- Parents from the nearest to the whole file. Ids fall on the way, so their number bounds it. -/
def ancestorsWithin (t : ScopeTree) : Nat → Option Nat → List Nat
  | 0, _ => []
  | _ + 1, none => []
  | fuel + 1, some p => p :: ancestorsWithin t fuel (t.get p).parent

def ancestors (t : ScopeTree) (id : Nat) : List Nat :=
  t.ancestorsWithin t.scopes.length (t.get id).parent

/-- The nearest class around a scope, the scope itself included. -/
def enclosingClass (t : ScopeTree) (id : Nat) : Option Nat :=
  (id :: t.ancestors id).find? fun s => (t.get s).kind == .classLike

/-- The nearest class above a scope, or its parent when there is none. -/
def owner (t : ScopeTree) (id : Nat) : Option Nat :=
  match (t.ancestors id).find? fun s => (t.get s).kind == .classLike with
  | some c => some c
  | none => (t.get id).parent

def hasGuard (t : ScopeTree) (kind : GuardKind) (offset scope : Nat) : Bool :=
  t.guards.any fun (g, o) => g.kind == kind && o == scope && g.span.holds offset

/-- How an offset stands in a scope. -/
def positionOf (t : ScopeTree) (offset scope : Nat) : Position :=
  if t.hasGuard .managed offset scope then .managed
  else if t.hasGuard .finally offset scope then .finally
  else if t.hasGuard .deferred offset scope then .deferred
  else if t.returns.any fun (r, o) => o == scope && r.holds offset then .returnedExpression
  else .plain

/-! ## Building -/

/-- A callback that starts in a `finally` or deferred stretch of its parent. -/
def isDeferred (guards : List (Guard × Nat)) (s : Scope) : Bool :=
  (s.kind == .closure || s.kind == .lifecycleCallback) &&
    guards.any fun (g, o) =>
      g.kind != .managed && some o == s.parent && g.span.holds s.span.start

def build (skeleton : Skeleton) (textSize : Nat) (precise : Bool) (lifecycle : Lifecycle) :
    ScopeTree :=
  let scopes := nest lifecycle textSize skeleton.scopes
  let guards := (skeleton.guards.filter fun g => g.span.start < g.span.stop).map fun g =>
    (g, scopeIn scopes g.span.start)
  { scopes := scopes.map fun s => { s with deferred := isDeferred guards s }
    guards := guards
    returns := skeleton.returns.map fun r => (r, scopeIn scopes r.start)
    precise := precise }

end ScopeTree

end LeakScan
