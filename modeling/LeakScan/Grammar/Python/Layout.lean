import LeakScan.Grammar.Phrase

/-!
# LeakScan.Grammar.Python.Layout

Lines of Python and the marks that they imply.

* `Line`, `linesFrom` — logical lines: brackets, long strings and backslashes join several lines.
* `arrange` — the items of a text. A mark stands at the end of every statement line, and where
  deeper lines begin and end.

A comment line after a block belongs to the block as long as it is indented as deep as the block.
-/

namespace LeakScan.Grammar.Python

/-- What is open at some character. -/
inductive Frame where
  | bracket
  | quoted (mark : Char) (long formatted : Bool)
  /-- A value inside a formatted string. -/
  | field
  /-- How that value is to be written. -/
  | spec
  deriving DecidableEq, Repr

inductive LineKind where
  | blank
  | comment
  | code
  deriving DecidableEq, Repr

structure Line where
  kind : LineKind
  indent : Nat
  /-- Where the last word or comment ends. -/
  stop : Nat
  /-- The line ends in a colon and a block follows. -/
  opens : Bool
  body : List Item
  /-- White space after the body. -/
  tail : List Item
  deriving Repr

structure LineState where
  frames : List Frame := []
  /-- The letters of the word that was read last, from its end. -/
  letters : List Char := []
  last : Option Char := none
  inComment : Bool := false
  /-- How many of the next characters are already decided about. -/
  taken : Nat := 0
  indent : Nat := 0
  stop : Nat := 0
  /-- From its end. -/
  body : List Item := []
  /-- White space after the body, from its end. -/
  tail : List Item := []

namespace LineState

def add (st : LineState) (c : Char) (offset : Nat) : LineState :=
  { st with
    body := .char c offset :: (st.tail ++ st.body), tail := [], stop := offset + c.utf8Size }

def addCode (st : LineState) (c : Char) (offset : Nat) : LineState :=
  { st.add c offset with last := some c, letters := [] }

def addBlank (st : LineState) (c : Char) (offset : Nat) : LineState :=
  let indent :=
    if st.body.isEmpty then
      if c == ' ' then st.indent + 1 else if c == '\t' then st.indent + 8 else 0
    else st.indent
  { st with tail := .char c offset :: st.tail, letters := [], indent := indent }

def close (st : LineState) : Line where
  kind := if st.last.isSome then .code else if st.inComment then .comment else .blank
  indent := st.indent
  stop := st.stop
  opens := st.last == some ':'
  body := st.body.reverse
  tail := st.tail.reverse

def isPrefixLetter (c : Char) : Bool := "fFrRbBuU".toList.contains c

def isBlankChar (c : Char) : Bool := c == ' ' || c == '\t' || c == '\r' || c == '\x0c'

/-- A quote: the letters before it say what kind of text it opens. -/
def openQuote (st : LineState) (mark : Char) (long : Bool) : LineState :=
  let isStart := st.letters.all isPrefixLetter
  let formatted := isStart && (st.letters.contains 'f' || st.letters.contains 'F')
  { st with frames := .quoted mark long formatted :: st.frames }

/-- A character inside a string. -/
def stepQuoted (st : LineState) (mark : Char) (long formatted : Bool) (outer : List Frame)
    (c : Char) (offset : Nat) (rest : List Char) : LineState :=
  let st' := st.addCode c offset
  if c == '\\' then
    let isBrace := rest.head? == some '\x7b' || rest.head? == some '\x7d'
    { st' with taken := if formatted && isBrace then 0 else 1 }
  else if c == '\x7b' && formatted then
    if rest.head? == some c then { st' with taken := 1 }
    else { st' with frames := .field :: st.frames }
  else if c == mark then
    if !long then { st' with frames := outer }
    else if rest.take 2 == [mark, mark] then { st' with frames := outer, taken := 2 }
    else st'
  else st'

/-- A character of code. -/
def stepCode (st : LineState) (c : Char) (offset : Nat) (rest : List Char) : LineState :=
  let st' := st.addCode c offset
  if c == '#' then { st.add c offset with inComment := true }
  else if c == '\\' && rest.head? == some '\n' then { st.add c offset with taken := 1 }
  else if c == '\\' && rest.take 2 == ['\r', '\n'] then { st.add c offset with taken := 2 }
  else if c == '"' || c == '\'' then
    if rest.take 2 == [c, c] then { (st.openQuote c true).addCode c offset with taken := 2 }
    else (st.openQuote c false).addCode c offset
  else if c == '(' || c == '[' || c == '\x7b' then { st' with frames := .bracket :: st.frames }
  else if c == ')' || c == ']' || c == '\x7d' then { st' with frames := st.frames.drop 1 }
  else if c == ':' && st.frames.head? == some .field then
    { st' with frames := .spec :: st.frames.drop 1 }
  else if isBlankChar c || c == '\n' then st.addBlank c offset
  else if c.isAlphanum || c == '_' || 0x80 ≤ c.toNat then
    { st' with letters := c :: st.letters }
  else st'

def step (st : LineState) (c : Char) (offset : Nat) (rest : List Char) : LineState :=
  if 0 < st.taken then { st.add c offset with taken := st.taken - 1 }
  else if st.inComment then
    if c == '\n' then { st.addBlank c offset with inComment := false } else st.add c offset
  else
    match st.frames with
    | .quoted mark long formatted :: outer => st.stepQuoted mark long formatted outer c offset rest
    | .spec :: outer =>
      let frames :=
        if c == '\x7b' then .field :: st.frames else if c == '\x7d' then outer else st.frames
      { st.addCode c offset with frames := frames }
    | _ => st.stepCode c offset rest

/-- A line end that no bracket, string or backslash takes in. -/
def endsLine (st : LineState) (c : Char) : Bool :=
  c == '\n' && st.frames.isEmpty && st.taken == 0

end LineState

/-- The logical lines of a text. -/
def linesFrom (st : LineState) (offset : Nat) : List Char → List Line
  | [] => [st.close]
  | c :: rest =>
    let next := offset + c.utf8Size
    if st.endsLine c then (st.addBlank c offset).close :: linesFrom {} next rest
    else linesFrom (st.step c offset rest) next rest

/-- The indentation of the next line of code; at the end of the text it is zero. -/
def nextIndent : List Line → Nat
  | [] => 0
  | l :: rest => if l.kind == .code then l.indent else nextIndent rest

/-- The indentation of the first comment line before the next line of code. -/
def nextComment? : List Line → Option Nat
  | [] => none
  | l :: rest =>
    match l.kind with
    | .code => none
    | .comment => some l.indent
    | .blank => nextComment? rest

/-- The blocks that end here: those deeper than the next line, unless a comment stays inside. -/
def closeBlocks (next : Nat) (comment : Option Nat) (offset : Nat) :
    List Nat → List Item × List Nat
  | [] => ([], [])
  | top :: outer =>
    if next < top && comment.all (· < top) then
      let (marks, left) := closeBlocks next comment offset outer
      (.mark .dedent offset :: marks, left)
    else ([], top :: outer)

/-- Puts the marks between lines; `indents` are those of the open blocks, the innermost first. -/
def arrangeFrom (indents : List Nat) : List Line → List Item
  | [] => []
  | l :: rest =>
    let next := nextIndent rest
    let (ending, marks, indents) :=
      match l.kind with
      | .blank => ([], [], indents)
      | .comment =>
        let (marks, left) := closeBlocks next (nextComment? rest) l.stop indents
        ([], marks, left)
      | .code =>
        let ending := [Item.mark .newline l.stop]
        if l.opens && indents.headD 0 < next then
          (ending, [.mark .indent l.stop], next :: indents)
        else
          let (marks, left) := closeBlocks next (nextComment? rest) l.stop indents
          (ending, marks, left)
    l.body ++ ending ++ marks ++ l.tail ++ arrangeFrom indents rest

def arrange (cs : List Char) : List Item := arrangeFrom [] (linesFrom {} 0 cs)

end LeakScan.Grammar.Python
