import LeakScan.Text.Unicode

/-!
# LeakScan.Text.Character

Classes of characters that rules and texts are written with. Each agrees with its ASCII part
below `0x80` and with the tables of `LeakScan.Text.Unicode` above.

* `isBlank` — white space.
* `isDecimal` — decimal digits of any script.
* `isAlphanumeric` — letters and numbers of any script.
* `isWordChar` — what a regular expression calls a word character.
-/

namespace LeakScan.Text

def isAscii (c : Char) : Bool := c.toNat < 0x80

def isBlank (c : Char) : Bool :=
  c == ' ' || (0x09 ≤ c.toNat && c.toNat ≤ 0x0D) || spaceRanges.contains c.toNat

def isDecimal (c : Char) : Bool :=
  c.isDigit || decimalRanges.contains c.toNat

def isAlphabetic (c : Char) : Bool :=
  c.isAlpha || alphabeticRanges.contains c.toNat

def isAlphanumeric (c : Char) : Bool :=
  c.isAlphanum || alphabeticRanges.contains c.toNat || numberRanges.contains c.toNat

/-- Letters, marks, decimal digits, connectors and the two join controls. -/
def isWordChar (c : Char) : Bool :=
  c.isAlphanum || c == '_' || (!isAscii c &&
    (alphabeticRanges.contains c.toNat || markRanges.contains c.toNat ||
      decimalRanges.contains c.toNat || connectorRanges.contains c.toNat ||
      c.toNat == 0x200C || c.toNat == 0x200D))

/-- Removes white space from both ends. -/
def trim (cs : List Char) : List Char :=
  ((cs.dropWhile isBlank).reverse.dropWhile isBlank).reverse

def trimStart (cs : List Char) : List Char := cs.dropWhile isBlank

def trimEnd (cs : List Char) : List Char := (cs.reverse.dropWhile isBlank).reverse

def trimString (s : String) : String := String.ofList (trim s.toList)

end LeakScan.Text
