import LeakScan.Text.Span

/-!
# LeakScan.Scope.Skeleton

The outline of a file as it is collected, before nesting is known.

* `RawScope` — a stretch of text that opens a scope of its own.
* `Guard` — a stretch of text that runs on every way out, later, or under management.
* `Skeleton` — the scopes, guards and return statements of a file, in any order.
-/

namespace LeakScan.Scope

open Text

inductive RawKind where
  | classLike
  | function
  | closure
  deriving DecidableEq, Repr, Inhabited

namespace RawKind

def all : List RawKind := [.classLike, .function, .closure]

def name : RawKind → String
  | .classLike => "class"
  | .function => "function"
  | .closure => "closure"

def ofName? (s : String) : Option RawKind := all.find? fun k => k.name == s

end RawKind

structure RawScope where
  kind : RawKind
  span : Span
  name : Option String := none
  /-- The function that a closure is passed to. -/
  callee : Option String := none
  /-- The closure is what a `return` gives back, or the body of another closure. -/
  returned : Bool := false
  deriving DecidableEq, Repr, Inhabited

/-- A text that says something. -/
def nonEmpty? (s : Option String) : Option String := s.filter (· != "")

inductive GuardKind where
  | finally
  | deferred
  | managed
  deriving DecidableEq, Repr, Inhabited

namespace GuardKind

def all : List GuardKind := [.finally, .deferred, .managed]

def name : GuardKind → String
  | .finally => "finally"
  | .deferred => "deferred"
  | .managed => "managed"

def ofName? (s : String) : Option GuardKind := all.find? fun k => k.name == s

end GuardKind

structure Guard where
  kind : GuardKind
  span : Span
  deriving DecidableEq, Repr, Inhabited

structure Skeleton where
  scopes : List RawScope := []
  guards : List Guard := []
  returns : List Span := []
  deriving DecidableEq, Repr, Inhabited

namespace Skeleton

def append (a b : Skeleton) : Skeleton :=
  ⟨a.scopes ++ b.scopes, a.guards ++ b.guards, a.returns ++ b.returns⟩

instance : Append Skeleton := ⟨append⟩

end Skeleton

end LeakScan.Scope
