import LeakScan.Grammar.Phrase
import LeakScan.Text.Character

/-!
# LeakScan.Grammar.Blank

White space and comments of languages with braces, and their numbers and quoted texts.

* `skipAll`, `skipLine` — what may stand between words, with and without line ends.
* `quotedText`, `number` — literals that several languages share.
-/

namespace LeakScan.Grammar

open Text Regex

/-- Where between two words a reader stands. -/
inductive Between where
  | blanks
  | lineComment
  | blockComment
  deriving DecidableEq, Repr

/-- Whether a block comment is closed. -/
def isClosed : List Item → Bool
  | .char '*' _ :: .char '/' _ :: _ => true
  | _ :: rest => isClosed rest
  | [] => false

/-- Leaves out blanks and comments. A line comment ends before its line end; a block comment without
an end is none. -/
def skipFrom (isGap : Char → Bool) : Between → List Item → List Item
  | .blanks, .char '/' _ :: .char '/' _ :: rest => skipFrom isGap .lineComment rest
  | .blanks, .char '/' o :: .char '*' o' :: rest =>
    if isClosed rest then skipFrom isGap .blockComment rest
    else .char '/' o :: .char '*' o' :: rest
  | .blanks, .char c offset :: rest =>
    if isGap c then skipFrom isGap .blanks rest else .char c offset :: rest
  | .lineComment, .char '\n' offset :: rest =>
    if isGap '\n' then skipFrom isGap .blanks rest else .char '\n' offset :: rest
  | .blockComment, .char '*' _ :: .char '/' _ :: rest => skipFrom isGap .blanks rest
  | .lineComment, _ :: rest => skipFrom isGap .lineComment rest
  | .blockComment, _ :: rest => skipFrom isGap .blockComment rest
  | _, rest => rest

/-- White space; a byte order mark counts as such. -/
def isGapChar (c : Char) : Bool := isBlank c || c == '\uFEFF'

def skipAll (rest : List Item) : List Item := skipFrom isGapChar .blanks rest

def skipLine (rest : List Item) : List Item :=
  skipFrom (fun c => isGapChar c && c != '\n') .blanks rest

/-- Text between two marks on one line, with backslashes before what is taken literally. -/
def quotedText (quote : Char) : Phrase σ :=
  .seqs [.one (.one quote),
    .many (.alt (.seq (.one (.one '\\')) (.one .everything))
      (.one (.compl (.ofList [quote, '\\', '\n'])))),
    .one (.one quote)]

def digit : CharClass := .range '0' '9'

def digitPart : CharClass :=
  .union digit (.union (.range 'a' 'z') (.union (.range 'A' 'Z') (.one '_')))

/-- A number: digits and letters, points between them, and signs of exponents. -/
def number : Phrase σ :=
  .seqs [.gap, .alt (.one digit) (.seq (.text ['.']) (.one digit)),
    .many (.alts [.seq (.one (.ofChars "eEpP")) (.one (.ofChars "+-")), .one digitPart,
      .seq (.text ['.']) (.absent (.one (.union (.range 'a' 'z') (.range 'A' 'Z'))))])]

end LeakScan.Grammar
