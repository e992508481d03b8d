import LeakScan.Text.Span

/-!
# LeakScan.Grammar.Tree

What a grammar finds in a text.

* `Kind` — the constructs that matter for scopes. Everything else is `other`.
* `Part` — the role of a construct inside another one.
* `Tree` — constructs with their spans and what they hold.
-/

namespace LeakScan.Grammar

open Text

inductive Kind where
  | classLike
  | function
  | closure
  /-- A closure whose body may be an expression that it gives back. -/
  | arrow
  | finally
  | managed
  | deferred
  | return
  /-- Something that gets a name: a declared variable, a field, an entry, an assignment. -/
  | binding
  | call
  /-- A value that is written out. -/
  | literal
  | arguments
  | parenthesized
  | expressions
  | other
  deriving DecidableEq, Repr, Inhabited

inductive Part where
  | name
  | callee
  | body
  | plain
  deriving DecidableEq, Repr, Inhabited

inductive Tree where
  | node (kind : Kind) (span : Span) (children : List (Part × Tree))
  deriving Repr, Inhabited

namespace Tree

def kind : Tree → Kind
  | .node k _ _ => k

def span : Tree → Span
  | .node _ s _ => s

def children : Tree → List (Part × Tree)
  | .node _ _ cs => cs

/-- The first child in a role. -/
def part? (t : Tree) (p : Part) : Option Tree := (t.children.find? (·.1 == p)).map (·.2)

end Tree

end LeakScan.Grammar
