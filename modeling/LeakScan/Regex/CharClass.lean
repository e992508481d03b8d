import LeakScan.Text.CaseFold
import LeakScan.Text.Character

/-!
# LeakScan.Regex.CharClass

Sets of characters, as a regular expression writes them.

* `CharClass` — ranges, the named classes, and the set operations.
* `CharClass.contains` — membership.
-/

namespace LeakScan.Regex

open Text

inductive CharClass where
  | range (lo hi : Char)
  /-- A range together with everything equal to a member up to case. -/
  | foldedRange (lo hi : Char)
  | everything
  | nothing
  | word
  | decimal
  | blank
  | union (a b : CharClass)
  | inter (a b : CharClass)
  | compl (a : CharClass)
  deriving Repr, DecidableEq, Inhabited

namespace CharClass

def contains : CharClass → Char → Bool
  | .range lo hi, c => lo.toNat ≤ c.toNat && c.toNat ≤ hi.toNat
  | .foldedRange lo hi, c => (foldClass c.toNat).any fun n => lo.toNat ≤ n && n ≤ hi.toNat
  | .everything, _ => true
  | .nothing, _ => false
  | .word, c => isWordChar c
  | .decimal, c => isDecimal c
  | .blank, c => isBlank c
  | .union a b, c => a.contains c || b.contains c
  | .inter a b, c => a.contains c && b.contains c
  | .compl a, c => !a.contains c

def one (c : Char) : CharClass := .range c c

def diff (a b : CharClass) : CharClass := .inter a (.compl b)

def symmDiff (a b : CharClass) : CharClass := .union (diff a b) (diff b a)

/-- The characters of a list. -/
def ofList : List Char → CharClass
  | [] => .nothing
  | [c] => one c
  | c :: cs => .union (one c) (ofList cs)

def ofRanges : List (Char × Char) → CharClass
  | [] => .nothing
  | [(lo, hi)] => .range lo hi
  | (lo, hi) :: rest => .union (.range lo hi) (ofRanges rest)

/-- The characters of a string, and no others. -/
def ofChars (s : String) : CharClass := ofList s.toList

/-- Every character that the string does not hold. -/
def noneOf (s : String) : CharClass := .compl (ofChars s)

end CharClass

end LeakScan.Regex
