import LeakScan.Scope.Outline.Header
import LeakScan.Scope.Outline.Line

/-!
# LeakScan.Scope.Outline.Indentation

The outline of a text whose blocks are indented, as in Python.

* `lineBlock` — what a line opens: a function, a class, a `finally` stretch, or nothing.
* `isCode` — whether a place of a line lies outside string literals and comments.
* `IndentState.step` — one line: blocks close at the first line that is not indented deeper.
  Blank lines, comment lines and the inside of documentation strings close nothing, and neither
  do lines that continue an open bracket.
* `indentationBlocks` — all lines.
-/

namespace LeakScan.Scope.Outline

open Text Regex

/-- `^(?:async\s+)?def\s+(NAME)` -/
def defLine : Regex :=
  seqs [
    .anchor .textStart, opt (.seq (text "async") someBlanks), text "def", someBlanks,
    .group "name" (.seq (.char nameStart) (many word))]

/-- `^class\s+(NAME)` -/
def classLine : Regex :=
  seqs [
    .anchor .textStart, text "class", someBlanks,
    .group "name" (.seq (.char nameStart) (many word))]

/-- `^(?:async\s+)?with\s+(ITEMS):` -/
def withLine : Regex :=
  seqs [
    .anchor .textStart, opt (.seq (text "async") someBlanks), text "with", someBlanks,
    .group "items" (plus (noneOf "\n")), one ':']

/-- `\blambda\b` -/
def lambdaWord : Regex := seqs [.anchor .boundary, text "lambda", .anchor .boundary]

/-- What a line without blanks around it opens. -/
def lineBlock (trimmed : List Char) : Block :=
  match defLine.find? trimmed with
  | some m => .scope .function (nonEmpty? (some (nameOf trimmed m))) none false
  | none =>
    match classLine.find? trimmed with
    | some m => .scope .classLike (nonEmpty? (some (nameOf trimmed m))) none false
    | none =>
      if startsWith "finally".toList trimmed && trimmed.getLast? == some ':' then .guard .finally
      else .plain

/-- The quote of the string literal that is open after some characters; `none` inside a comment. -/
inductive CodeState where
  | code
  | string (quote : Char) (escaped : Bool)
  | comment
  deriving DecidableEq, Repr

def CodeState.step : CodeState → Char → CodeState
  | .comment, _ => .comment
  | .string q true, _ => .string q false
  | .string q false, c =>
    if c == '\\' then .string q true else if c == q then .code else .string q false
  | .code, c =>
    if c == '#' then .comment else if c == '"' || c == '\'' then .string c false else .code

/-- A place of a line is code when no string literal or comment is open before it. -/
def isCode (line : List Char) (offset : Nat) : Bool :=
  (takeBytes line offset).foldl CodeState.step .code == .code

/-- The first `lambda` of a line that is code. -/
def lambdaAt? (line : List Char) : Option Nat :=
  ((lambdaWord.findAll line).map (·.span.start)).find? (isCode line)

/-- A lambda reaches to the end of its line. -/
def lambdaScope? (l : Line) : Option RawScope :=
  match lambdaAt? l.text with
  | none => none
  | some offset =>
    let before := takeBytes l.text offset
    some {
      kind := .closure, span := ⟨l.start + offset, l.stop⟩
      callee := calleeOf (trimEnd before), returned := returnLine.isMatch before }

/-- Opening minus closing brackets of a line up to its first `#`. -/
def bracketDelta (line : List Char) : Int :=
  (line.takeWhile (· != '#')).foldl (fun n c =>
    if c == '(' || c == '[' || c == '\x7b' then n + 1
    else if c == ')' || c == ']' || c == '\x7d' then n - 1
    else n) 0

/-- The number of times that three quotes of one kind occur, none overlapping another. -/
def countTriple (quote : Char) : List Char → Nat
  | a :: b :: c :: rest =>
    if a == quote && b == quote && c == quote then countTriple quote rest + 1
    else countTriple quote (b :: c :: rest)
  | _ => 0

/-- The quote of the documentation string that a line leaves open. -/
def opensTriple? (trimmed : List Char) : Option Char :=
  if countTriple '"' trimmed % 2 == 1 then some '"'
  else if countTriple '\'' trimmed % 2 == 1 then some '\''
  else none

structure IndentBlock where
  indent : Nat
  start : Nat
  block : Block

def IndentBlock.close (b : IndentBlock) (stop : Nat) : Skeleton :=
  let span : Span := ⟨b.start, max stop (b.start + 1)⟩
  match b.block with
  | .scope kind name callee returned =>
    { scopes := [{ kind := kind, span := span, name := name, callee := callee,
                   returned := returned }] }
  | .guard kind => { guards := [⟨kind, span⟩] }
  | .plain => {}

structure IndentState where
  stack : List IndentBlock := []
  /-- Where the last line with content ended. -/
  contentEnd : Nat := 0
  depth : Int := 0
  docstring : Option Char := none
  outline : Skeleton := {}

/-- Closes the blocks that a line of this indentation leaves. -/
def IndentState.closeTo (st : IndentState) (indent : Nat) : IndentState :=
  let left := st.stack.takeWhile fun b => indent ≤ b.indent
  { st with
    stack := st.stack.dropWhile fun b => indent ≤ b.indent
    outline := left.foldl (fun acc b => acc ++ b.close st.contentEnd) st.outline }

def withGuard? (start : Nat) (trimmed : List Char) : Option Guard :=
  match withLine.find? trimmed with
  | some m =>
    (m.group? "items").map fun items => ⟨.managed, ⟨start + items.start, start + items.stop⟩⟩
  | none => none

/-- A line that starts a statement. -/
def IndentState.statement (st : IndentState) (l : Line) : IndentState :=
  let st := st.closeTo l.indent
  let start := l.bodyStart
  let block := lineBlock l.trimmed
  let st := { st with outline :=
    st.outline ++ { guards := (withGuard? start l.trimmed).toList } }
  if block == .plain then st
  else { st with stack := { indent := l.indent, start := start, block := block } :: st.stack }

def IndentState.step (st : IndentState) (l : Line) : IndentState :=
  match st.docstring with
  | some quote =>
    { st with
      docstring := if occursIn [quote, quote, quote] l.trimmed then none else some quote
      contentEnd := l.stop }
  | none =>
    if l.trimmed.isEmpty || l.trimmed.head? == some '#' then st
    else
      let st := if st.depth ≤ 0 then st.statement l else st
      { st with
        outline := st.outline ++ { scopes := (lambdaScope? l).toList }
        docstring := opensTriple? l.trimmed
        depth := st.depth + bracketDelta l.text
        contentEnd := l.stop }

def IndentState.finish (st : IndentState) (textSize : Nat) : Skeleton :=
  st.stack.foldl (fun acc b => acc ++ b.close textSize) st.outline

def indentationBlocks (lines : List Line) (textSize : Nat) : Skeleton :=
  (lines.foldl IndentState.step {}).finish textSize

end LeakScan.Scope.Outline
