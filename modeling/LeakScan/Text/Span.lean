/-!
# LeakScan.Text.Span

Half-open ranges of byte offsets into a text.

* `Span` — from `start` up to, not including, `stop`.
* `Span.holds` — a single offset lies in the span.
* `Span.covers` — one span lies inside another, ends included.
-/

namespace LeakScan.Text

structure Span where
  start : Nat
  stop : Nat
  deriving DecidableEq, Repr, Inhabited

namespace Span

def isEmpty (s : Span) : Bool := s.stop ≤ s.start

def length (s : Span) : Nat := s.stop - s.start

def holds (s : Span) (offset : Nat) : Bool := s.start ≤ offset && offset < s.stop

def covers (outer inner : Span) : Bool := outer.start ≤ inner.start && inner.stop ≤ outer.stop

end Span

end LeakScan.Text
