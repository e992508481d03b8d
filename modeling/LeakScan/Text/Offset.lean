import LeakScan.Text.Span

/-!
# LeakScan.Text.Offset

Byte offsets into a text given as its characters. A character takes as many bytes as its UTF-8
form, and an offset is *sound* when it falls between two characters.

* `byteSize` — the number of bytes.
* `splitAt?` — the two parts at a sound offset.
* `slice?` — the characters of a span with sound ends.
-/

namespace LeakScan.Text

def byteSize : List Char → Nat
  | [] => 0
  | c :: cs => c.utf8Size + byteSize cs

/-- The text before and after byte offset `n`; `none` when `n` is inside a character or past the
end. -/
def splitAt? : List Char → Nat → Option (List Char × List Char)
  | cs, 0 => some ([], cs)
  | [], _ + 1 => none
  | c :: cs, n + 1 =>
    if c.utf8Size ≤ n + 1 then
      match splitAt? cs (n + 1 - c.utf8Size) with
      | some (front, back) => some (c :: front, back)
      | none => none
    else none

def slice? (cs : List Char) (s : Span) : Option (List Char) :=
  if s.start ≤ s.stop then
    match splitAt? cs s.start with
    | some (_, back) => (splitAt? back (s.stop - s.start)).map (·.1)
    | none => none
  else none

/-- The text up to byte offset `n`, empty when the offset is not sound. -/
def takeBytes (cs : List Char) (n : Nat) : List Char :=
  match splitAt? cs n with
  | some (front, _) => front
  | none => []

end LeakScan.Text
