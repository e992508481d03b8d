/-!
# LeakScan.Text.Digits

Numbers written in ASCII digits.

* `digitsValue` — the number that some digits write.
* `readNumber?`, `readCount?` — an unsigned number of 64 bits, without and with a plus sign
  before it.
-/

namespace LeakScan.Text

def digitsValue (cs : List Char) : Nat := cs.foldl (fun n c => n * 10 + (c.toNat - '0'.toNat)) 0

/-- The least number that does not fit in 64 bits. -/
def wordLimit : Nat := 18446744073709551616

/-- An unsigned number of 64 bits in ASCII digits. -/
def readNumber? (cs : List Char) : Option Nat :=
  if cs.isEmpty || !cs.all Char.isDigit then none
  else if digitsValue cs < wordLimit then some (digitsValue cs)
  else none

/-- Such a number after an optional plus sign. -/
def readCount? : List Char → Option Nat
  | '+' :: ds => readNumber? ds
  | ds => readNumber? ds

end LeakScan.Text
