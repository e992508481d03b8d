import LeakScan.SortedMap
import LeakScan.Text.Split

/-!
# LeakScan.Bindings

Texts captured by the names of a pattern.

* `normalize` — forgets layout: white space goes, except for one blank between two words.
* `Bindings` — captured text by name, normalized on the way in.
* `unify` — whether an acquisition and a cleanup can speak of the same resource.
-/

namespace LeakScan

open Text

/-- A character of a word in code. -/
def isWordPart (c : Char) : Bool := isAlphanumeric c || c == '_' || c == '$'

/-- Writes the characters that are not blank. `last` is the character written before, and `gap`
says whether blanks were passed since. -/
def normalizeFrom (last : Option Char) (gap : Bool) : List Char → List Char
  | [] => []
  | c :: cs =>
    if isBlank c then normalizeFrom last true cs
    else if gap && last.any isWordPart && isWordPart c then
      ' ' :: c :: normalizeFrom (some c) false cs
    else c :: normalizeFrom (some c) false cs

def normalize (cs : List Char) : List Char := normalizeFrom none false cs

def normalizeString (s : String) : String := String.ofList (normalize s.toList)

/-- Captured text by name. -/
abbrev Bindings := SortedMap String String

namespace Bindings

def bind (b : Bindings) (name : String) (value : List Char) : Bindings :=
  b.insert name (String.ofList (normalize value))

def ofPairs (pairs : List (String × String)) : Bindings :=
  pairs.foldl (fun b p => bind b p.1 p.2.toList) .empty

end Bindings

/-- The text between the quotes, when one kind of quote stands at both ends. -/
def unquoted (value : List Char) : List Char :=
  let strip (q : Char) : Option (List Char) := (stripPrefix? [q] value).bind (stripSuffix? [q])
  match strip '"' with
  | some inner => inner
  | none =>
    match strip '\'' with
    | some inner => inner
    | none => (strip '\x60').getD value

/-- Equal up to one pair of quotes. A receiver counts: `this.timer` is not `timer`. -/
def sameValue (a b : String) : Bool := a == b || unquoted a.toList == unquoted b.toList

/-- Names that both captured have to agree. An acquisition that captured nothing only goes with a
cleanup that captured nothing either. -/
def unify (acquisition cleanup : Bindings) : Bool :=
  if acquisition.isEmpty then cleanup.isEmpty
  else acquisition.entries.all fun (name, value) =>
    match cleanup.get? name with
    | some other => sameValue value other
    | none => true

end LeakScan
