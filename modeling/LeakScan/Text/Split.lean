import LeakScan.Text.Character

/-!
# LeakScan.Text.Split

Cutting texts into pieces.

* `splitOn` — the pieces between occurrences of a character, one more than there are occurrences.
* `textLines` — the lines of a text without their ends.
* `words` — the pieces between runs of white space.
* `stripPrefix?`, `holds` — a text at the start of another, and anywhere in it.
-/

namespace LeakScan.Text

def splitOn (sep : Char) : List Char → List (List Char)
  | [] => [[]]
  | c :: cs =>
    if c == sep then [] :: splitOn sep cs
    else
      match splitOn sep cs with
      | piece :: pieces => (c :: piece) :: pieces
      | [] => [[c]]

/-- The piece without one carriage return at its end. -/
def dropReturn (line : List Char) : List Char :=
  match line.reverse with
  | '\r' :: rest => rest.reverse
  | _ => line

/-- Lines end in a line feed, before which a carriage return is dropped; a text that ends in a
line feed has no further line. -/
def textLines (cs : List Char) : List (List Char) :=
  match (splitOn '\n' cs).reverse with
  | [] => []
  | [] :: rest => (rest.reverse).map dropReturn
  | last :: rest => (rest.reverse).map dropReturn ++ [last]

/-- The pieces between runs of white space, none of them empty. -/
def words : List Char → List (List Char)
  | [] => []
  | c :: cs =>
    if isBlank c then words cs
    else
      match cs with
      | [] => [[c]]
      | d :: _ =>
        if isBlank d then [c] :: words cs
        else
          match words cs with
          | w :: ws => (c :: w) :: ws
          | [] => [[c]]

def joinWith (sep : List Char) : List (List Char) → List Char
  | [] => []
  | [piece] => piece
  | piece :: pieces => piece ++ sep ++ joinWith sep pieces

def stripPrefix? : List Char → List Char → Option (List Char)
  | [], cs => some cs
  | _ :: _, [] => none
  | p :: ps, c :: cs => if p == c then stripPrefix? ps cs else none

def startsWith (start cs : List Char) : Bool := (stripPrefix? start cs).isSome

def stripSuffix? (suffix cs : List Char) : Option (List Char) :=
  (stripPrefix? suffix.reverse cs.reverse).map List.reverse

/-- The text occurs somewhere in `cs`. -/
def occursIn (needle : List Char) : List Char → Bool
  | [] => needle.isEmpty
  | c :: cs => startsWith needle (c :: cs) || occursIn needle cs

/-- The parts before and after the last `sep`. -/
def splitLast? (sep : Char) (cs : List Char) : Option (List Char × List Char) :=
  let back := cs.reverse.takeWhile (· != sep)
  match cs.reverse.dropWhile (· != sep) with
  | [] => none
  | _ :: front => some (front.reverse, back.reverse)

/-- The parts before and after the first `sep`. -/
def splitFirst? (sep : Char) (cs : List Char) : Option (List Char × List Char) :=
  match cs.dropWhile (· != sep) with
  | [] => none
  | _ :: back => some (cs.takeWhile (· != sep), back)

def lowerAscii (s : String) : String := String.ofList (s.toList.map Char.toLower)

def holdsText (s needle : String) : Bool := occursIn needle.toList s.toList

end LeakScan.Text
