import LeakScan.Scope.Outline.Header

/-!
# LeakScan.Scope.Outline.Braces

The outline of a text whose blocks stand in braces.

* `Lexeme`, `lexemes` — the text cut into code characters, string literals, comments and
  preprocessor lines. Nothing is lost: the lexemes joined are the text.
* `braceBlocks` — one pass over the lexemes with a stack of open blocks. A block is judged by the
  text in front of its opening brace; blocks that are never closed end with the text.
-/

namespace LeakScan.Scope.Outline

open Text

inductive Lexeme where
  | code (c : Char)
  | string (cs : List Char)
  | comment (cs : List Char)
  | directive (cs : List Char)
  deriving DecidableEq, Repr

def Lexeme.chars : Lexeme → List Char
  | .code c => [c]
  | .string cs => cs
  | .comment cs => cs
  | .directive cs => cs

/-! ## Cutting the text -/

/-- A string literal after its opening quote: up to the closing quote, or up to the end of the line
unless the quote is a backtick. A backslash takes the next character with it. -/
def stringRest (quote : Char) : List Char → List Char × List Char
  | [] => ([], [])
  | c :: cs =>
    if c == '\\' then
      match cs with
      | [] => ([c], [])
      | d :: ds =>
        let (taken, rest) := stringRest quote ds
        (c :: d :: taken, rest)
    else if c == '\n' && quote != '\x60' then ([], c :: cs)
    else if c == quote then ([c], cs)
    else
      let (taken, rest) := stringRest quote cs
      (c :: taken, rest)

/-- The text up to and including the next `mark`, or all of it. -/
def through (mark : List Char) : List Char → List Char × List Char
  | [] => ([], [])
  | c :: cs =>
    match stripPrefix? mark (c :: cs) with
    | some rest => (mark, rest)
    | none =>
      let (taken, rest) := through mark cs
      (c :: taken, rest)

def restOfLine (cs : List Char) : List Char × List Char :=
  (cs.takeWhile (· != '\n'), cs.dropWhile (· != '\n'))

def isAsciiBlank (c : Char) : Bool :=
  c == ' ' || c == '\t' || c == '\n' || c == '\x0c' || c == '\r'

/-- A string literal, comment or preprocessor line that starts here. A preprocessor line needs a
line that was blank so far. -/
def longLexeme? (directives blankSoFar : Bool) : List Char → Option (Lexeme × List Char)
  | '"' :: '"' :: '"' :: cs =>
    let (taken, rest) := through ['"', '"', '"'] cs
    some (.string ('"' :: '"' :: '"' :: taken), rest)
  | '/' :: '/' :: cs =>
    let (taken, rest) := restOfLine cs
    some (.comment ('/' :: '/' :: taken), rest)
  | '/' :: '*' :: cs =>
    let (taken, rest) := through ['*', '/'] cs
    some (.comment ('/' :: '*' :: taken), rest)
  | c :: cs =>
    if c == '"' || c == '\'' || c == '\x60' then
      let (taken, rest) := stringRest c cs
      some (.string (c :: taken), rest)
    else if c == '#' && directives && blankSoFar then
      let (taken, rest) := restOfLine cs
      some (.directive (c :: taken), rest)
    else none
  | [] => none

/-- The lexemes of a text. Each takes at least one character, so `fuel` suffices when it starts at
the length of the text. -/
def lexemesFrom (directives : Bool) : Nat → Bool → List Char → List Lexeme
  | 0, _, _ => []
  | _ + 1, _, [] => []
  | fuel + 1, blankSoFar, c :: cs =>
    match longLexeme? directives blankSoFar (c :: cs) with
    | some (l, rest) => l :: lexemesFrom directives fuel false rest
    | none =>
      let blank := c == '\n' || (blankSoFar && isAsciiBlank c)
      .code c :: lexemesFrom directives fuel blank cs

def lexemes (language : Language) (cs : List Char) : List Lexeme :=
  lexemesFrom (language == .cpp) cs.length true cs

/-! ## Blocks -/

structure OpenBlock where
  headerStart : Nat
  brace : Nat
  block : Block
  side : Option SideGuard

/-- What a block adds to the outline when it closes at `stop`. -/
def OpenBlock.close (b : OpenBlock) (stop : Nat) : Skeleton :=
  let own : Skeleton :=
    match b.block with
    | .scope kind name callee returned =>
      { scopes := [{ kind := kind, span := ⟨b.brace, stop⟩, name := name, callee := callee,
                     returned := returned }] }
    | .guard kind => { guards := [⟨kind, ⟨b.headerStart, stop⟩⟩] }
    | .plain => {}
  let side : Skeleton :=
    match b.side with
    | some (.resources span) => { guards := [⟨.managed, span⟩] }
    | some (.deferredFrom start) => { guards := [⟨.deferred, ⟨start, stop⟩⟩] }
    | none => {}
  own ++ side

/-- The state of the pass: where it stands, the text since the last statement, latest character
first, and the open blocks, innermost first. -/
structure BraceState where
  offset : Nat := 0
  statementStart : Nat := 0
  pending : List Char := []
  stack : List OpenBlock := []
  outline : Skeleton := {}

/-- A new statement starts at `offset`. -/
def BraceState.restart (st : BraceState) (offset : Nat) : BraceState :=
  { st with offset := offset, statementStart := offset, pending := [] }

def BraceState.step (language : Language) (st : BraceState) (l : Lexeme) : BraceState :=
  let next := st.offset + byteSize l.chars
  match l with
  | .directive _ => st.restart next
  | .code c =>
    if c == '\x7b' then
      let (start, header) := lastSegment st.statementStart st.pending.reverse
      let (block, side) := classify language header start
      { st.restart next with
        stack := { headerStart := start, brace := st.offset, block := block, side := side } ::
          st.stack }
    else if c == '\x7d' then
      match st.stack with
      | [] => st.restart next
      | top :: below =>
        { st.restart next with stack := below, outline := st.outline ++ top.close next }
    else if c == ';' then st.restart next
    else { st with offset := next, pending := c :: st.pending }
  | _ => { st with offset := next, pending := l.chars.reverse ++ st.pending }

/-- Closes what is still open at the end of the text. -/
def BraceState.finish (st : BraceState) : Skeleton :=
  st.stack.foldl (fun acc b => acc ++ b.close st.offset) st.outline

def braceBlocks (language : Language) (cs : List Char) : Skeleton :=
  ((lexemes language cs).foldl (BraceState.step language) {}).finish

end LeakScan.Scope.Outline
