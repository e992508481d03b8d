import LeakScan.Bindings
import LeakScan.Finding
import LeakScan.Rule
import LeakScan.Scope.Tree
import LeakScan.Source

/-!
# LeakScan.Match

Places where a pattern matched.

* `RawMatch` — as a matcher reports it.
* `Match` — with its line, column, scope and position, by `Match.resolve`.
-/

namespace LeakScan

open Text

structure RawMatch where
  ruleId : String
  role : Role
  /-- The place of the pattern among those of its role. -/
  pattern : Nat
  span : Span
  bindings : Bindings
  text : String
  mode : MatchMode
  deriving DecidableEq

structure Match where
  ruleId : String
  role : Role
  kind : String
  path : String
  span : Span
  line : Nat
  column : Nat
  bindings : Bindings
  text : String
  scope : Nat
  position : Scope.Position
  mode : MatchMode
  deriving DecidableEq

namespace RawMatch

/-- The span from the first character that is not white space. -/
def trimmedSpan (m : RawMatch) : Span :=
  let start := min (m.span.start + byteSize (m.text.toList.takeWhile isBlank)) m.span.stop
  ⟨start, max m.span.stop start⟩

end RawMatch

namespace Match

/-- Places a match in its file and scope tree. -/
def resolve (m : RawMatch) (kind : String) (source : Source) (tree : ScopeTree) : Match :=
  let span := m.trimmedSpan
  let (line, column) := source.lineColumn span.start
  let scope := tree.scopeAt span.start
  { ruleId := m.ruleId, role := m.role, kind := kind, path := source.display, span := span
    line := line, column := column, bindings := m.bindings, text := m.text, scope := scope
    position := tree.positionOf span.start scope, mode := m.mode }

/-- One match lies inside another and does not fill it. -/
def contains (outer inner : Match) : Bool :=
  outer.span.covers inner.span && outer.span != inner.span

end Match

end LeakScan
