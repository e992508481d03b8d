import LeakScan.Directory
import LeakScan.Failure
import LeakScan.Imports
import LeakScan.Language
import LeakScan.Text.Offset
import LeakScan.Text.Utf8

/-!
# LeakScan.Source

Source files, with a table of their lines.

* `Source.ofText` — a file with a given text.
* `Source.load` — a file from its entry; files that are too large, binary or not UTF-8 are
  skipped.
* `Source.lineColumn` — line and column of a byte offset. Lines count from one, columns count
  characters from zero.
* `Source.isCommentLine` — whether the line of an offset is a comment.
-/

namespace LeakScan

open Text

structure Source where
  /-- Where the file is found. -/
  path : String
  /-- How the file is called in a report. -/
  display : String
  language : Language
  text : List Char
  /-- Import aliases; empty outside Python. -/
  imports : ImportAliases

namespace Source

/-- Byte offsets after each line feed, `offset` being that of the text. -/
def startsAfter (offset : Nat) : List Char → List Nat
  | [] => []
  | c :: cs =>
    let next := offset + c.utf8Size
    if c == '\n' then next :: startsAfter next cs else startsAfter next cs

def lineStarts (s : Source) : List Nat := 0 :: startsAfter 0 s.text

def size (s : Source) : Nat := byteSize s.text

def lineCount (s : Source) : Nat := s.lineStarts.length

def ofChars (path display : String) (language : Language) (text : List Char) : Source where
  path := path
  display := display
  language := language
  text := text
  imports := if language == .python then ImportAliases.ofPython text else {}

def ofText (display : String) (language : Language) (text : String) : Source :=
  ofChars display display language text.toList

/-- How many bytes are looked at to tell a binary file. -/
def sniffLength : Nat := 8 * 1024

/-- The file of an entry, or why it is left out. A file is binary when a zero byte is among its
first ones. -/
def load (path display : String) (language : Language) (limit : Nat) (entry : Option Entry) :
    Except Failure Source :=
  match entry with
  | none => .error (.skippedFile display .unreadable)
  | some e =>
    if limit < e.size then .error (.skippedFile display (.oversized e.size limit))
    else
      match e with
      | .directory _ => .error (.skippedFile display .unreadable)
      | .file bytes =>
        if (bytes.take sniffLength).contains 0 then .error (.skippedFile display .binary)
        else
          match decode? bytes with
          | some text => .ok (ofChars path display language text)
          | none => .error (.skippedFile display .notUtf8)

/-- Line and column of a byte offset. An offset past the end counts as the end; inside a character
the column counts bytes. -/
def lineColumn (s : Source) (offset : Nat) : Nat × Nat :=
  let offset := min offset s.size
  let before := s.lineStarts.takeWhile (· ≤ offset)
  let start := before.getLast?.getD 0
  match slice? s.text ⟨start, offset⟩ with
  | some cs => (before.length, cs.length)
  | none => (before.length, offset - start)

/-- Byte offset of the start of a line. -/
def lineStart? (s : Source) (line : Nat) : Option Nat :=
  if line == 0 then none else s.lineStarts[line - 1]?

def dropReturns (cs : List Char) : List Char := (cs.reverse.dropWhile (· == '\r')).reverse

/-- The text of a line without its end. -/
def lineText (s : Source) (line : Nat) : List Char :=
  match s.lineStart? line with
  | none => []
  | some start =>
    let stop :=
      match s.lineStarts[line]? with
      | some next => next - 1
      | none => s.size
    dropReturns ((slice? s.text ⟨start, stop⟩).getD [])

def isCommentText (language : Language) (line : List Char) : Bool :=
  let body := trimStart line
  startsWith language.lineComment.toList body ||
    (language.hasBlockComments &&
      (startsWith ['/', '*'] body || startsWith ['*', ' '] body || body == ['*']))

/-- The line of an offset is a comment, or looks like the inside of one. -/
def isCommentLine (s : Source) (offset : Nat) : Bool :=
  isCommentText s.language (s.lineText (s.lineColumn offset).1)

def slice (s : Source) (span : Span) : List Char := (slice? s.text span).getD []

def snippetLimit : Nat := 160

/-- The first line of a stretch of text without blanks around it, cut to a fixed length. -/
def snippet (s : Source) (span : Span) : List Char :=
  let first := trim ((textLines (s.slice span)).head?.getD [])
  if snippetLimit < first.length then first.take snippetLimit ++ ['…'] else first

end Source

end LeakScan
