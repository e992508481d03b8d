import LeakScan.Regex.Basic
import LeakScan.Text.Offset

/-!
# LeakScan.Regex.Search

Searching a text for a regular expression.

* `Regex.search` — the leftmost match at or after a cursor.
* `Regex.find?`, `Regex.isMatch` — the leftmost match of a whole text.
* `Regex.findAll` — all matches from left to right, none overlapping the one before. An empty
  match that touches the end of the match before it is passed over.
-/

namespace LeakScan.Regex

open Text

/-- The leftmost match of the rest of a text, which starts at byte `offset` after `before`. -/
def searchFrom (r : Regex) (before : Option Char) (offset : Nat) :
    List Char → Option (Match × Cursor)
  | [] => r.matchAt { before := before, rest := [], offset := offset }
  | c :: cs =>
    match r.matchAt { before := before, rest := c :: cs, offset := offset } with
    | some found => some found
    | none => searchFrom r (some c) (offset + c.utf8Size) cs

def search (r : Regex) (p : Cursor) : Option (Match × Cursor) :=
  searchFrom r p.before p.offset p.rest

def find? (r : Regex) (cs : List Char) : Option Match :=
  (r.search (.ofText cs)).map (·.1)

def isMatch (r : Regex) (cs : List Char) : Bool := (r.find? cs).isSome

/-- The matches from a cursor on. Every round but the last leaves a shorter rest, so `fuel` never
runs out when it starts above the length of the rest. -/
def collect (r : Regex) : Nat → Option Nat → Cursor → List Match
  | 0, _, _ => []
  | fuel + 1, lastStop, p =>
    match r.search p with
    | none => []
    | some (m, q) =>
      if m.span.start < m.span.stop then m :: collect r fuel (some m.span.stop) q
      else
        let onward := if q.rest.isEmpty then [] else collect r fuel (some m.span.stop) q.next
        if lastStop == some m.span.stop then onward else m :: onward

def findAll (r : Regex) (cs : List Char) : List Match :=
  r.collect (cs.length + 1) none (.ofText cs)

/-- The text of a group of a match in `cs`. -/
def groupText? (cs : List Char) (m : Match) (name : String) : Option (List Char) :=
  (m.group? name).bind (slice? cs)

end LeakScan.Regex
