import LeakScan.Language
import LeakScan.Regex.Search
import LeakScan.Scope.Skeleton

/-!
# LeakScan.Scope.Outline.Line

Lines of a text with their byte offsets, and the statements that one line shows.

* `Line`, `linesOf` — the text of each line without its end, and where it starts.
* `Line.indent` — the width of its leading white space, a tab counting four.
* `lineStatements` — `return` lines, and `defer` lines of Go.
-/

namespace LeakScan.Scope.Outline

open Text

structure Line where
  start : Nat
  text : List Char
  deriving DecidableEq, Repr, Inhabited

namespace Line

def stop (l : Line) : Nat := l.start + byteSize l.text

/-- The text without leading white space. -/
def body (l : Line) : List Char := trimStart l.text

/-- Where the text without leading white space starts. -/
def bodyStart (l : Line) : Nat := l.start + byteSize (l.text.takeWhile isBlank)

def trimmed (l : Line) : List Char := trim l.text

def indent (l : Line) : Nat :=
  (l.text.takeWhile isBlank).foldl (fun n c => n + if c == '\t' then 4 else 1) 0

end Line

/-- A line without the line feeds and carriage returns at its end. -/
def dropLineEnd (line : List Char) : List Char :=
  (line.reverse.dropWhile fun c => c == '\n' || c == '\r').reverse

/-- The lines from a byte offset on. -/
def placeLines (offset : Nat) : List (List Char) → List Line
  | [] => []
  | piece :: rest =>
    { start := offset, text := dropLineEnd piece } :: placeLines (offset + byteSize piece + 1) rest

/-- The lines of a text; nothing follows a final line feed. -/
def linesOf (cs : List Char) : List Line :=
  match (splitOn '\n' cs).reverse with
  | [] :: rest => placeLines 0 rest.reverse
  | pieces => placeLines 0 pieces.reverse

/-- `^\s*return\b` -/
def returnLine : Regex :=
  Regex.seqs [.anchor .textStart, .many .blank, .text "return", .anchor .boundary]

/-- The `return` statement of a line: from its first character to the end of the line. -/
def Line.return? (l : Line) : Option Span :=
  if returnLine.isMatch l.body then some ⟨l.bodyStart, l.stop⟩ else none

/-- A `defer` statement that does not open a block. -/
def Line.defer? (l : Line) : Option Guard :=
  if startsWith "defer ".toList l.body && (trimEnd l.body).getLast? != some '\x7b' then
    some ⟨.deferred, ⟨l.bodyStart, l.stop⟩⟩
  else none

def lineStatements (language : Language) (lines : List Line) : Skeleton where
  guards := if language == .go then lines.filterMap Line.defer? else []
  returns := lines.filterMap Line.return?

end LeakScan.Scope.Outline
