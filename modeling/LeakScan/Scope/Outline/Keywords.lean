import LeakScan.Scope.Outline.Header
import LeakScan.Scope.Outline.Line

/-!
# LeakScan.Scope.Outline.Keywords

The outline of a text whose blocks run from a keyword to `end`, as in Ruby.

* `opens?` — what a line opens, if anything.
* `KeywordState.step` — one line; `ensure` guards the rest of its block.
* `keywordBlocks` — all lines.
-/

namespace LeakScan.Scope.Outline

open Text Regex

/-- `^(class|module|…)\b\s*([\w.?!=]*)` -/
def openingLine : Regex :=
  seqs [
    .anchor .textStart,
    .group "keyword" (oneOf ["class", "module", "def", "begin", "if", "unless", "while", "until",
      "case", "for"]),
    .anchor .boundary, blanks,
    .group "name" (many (.char (.union .word (.ofChars ".?!="))))]

/-- `(?:\.|\b)(NAME[?!]?)\s*(?:\([^)]*\))?\s+do\s*(?:\|[^|]*\|)?\s*$` -/
def doLine : Regex :=
  seqs [
    .alt (one '.') (.anchor .boundary),
    .group "name" (seqs [.char nameStart, many word, opt (chars "?!")]),
    blanks, opt parenthesised, someBlanks, text "do", blanks,
    opt (seqs [one '|', many (noneOf "|"), one '|']), blanks, .anchor .textEnd]

/-- The text before the first blank that a `#` follows. -/
def beforeComment : List Char → List Char
  | [] => []
  | c :: cs => if c == ' ' && cs.head? == some '#' then [] else c :: beforeComment cs

/-- The name without any `self.` in front. -/
def dropSelf : Nat → List Char → List Char
  | 0, cs => cs
  | fuel + 1, cs =>
    match stripPrefix? "self.".toList cs with
    | some rest => dropSelf fuel rest
    | none => cs

/-- What a keyword opens; a definition written with ` = ` on one line opens nothing. -/
def keywordBlock? (keyword : String) (name trimmed : List Char) : Option Block :=
  let name := nonEmpty? (some (String.ofList (dropSelf name.length name)))
  if keyword == "class" || keyword == "module" then some (.scope .classLike name none false)
  else if keyword == "def" then
    if occursIn [' ', '=', ' '] trimmed && trimmed.getLast? != some '=' then none
    else some (.scope .function name none false)
  else some .plain

/-- What a line without blanks around it opens. -/
def opens? (trimmed : List Char) : Option Block :=
  match openingLine.find? trimmed with
  | some m =>
    keywordBlock? (String.ofList ((groupText? trimmed m "keyword").getD []))
      ((groupText? trimmed m "name").getD []) trimmed
  | none =>
    match doLine.find? trimmed with
    | some m =>
      some (.scope .closure none (nonEmpty? (some (nameOf trimmed m))) (returnLine.isMatch trimmed))
    | none => none

structure KeywordBlock where
  start : Nat
  block : Block
  ensure : Option Nat := none

def KeywordBlock.close (b : KeywordBlock) (stop : Nat) : Skeleton where
  guards := b.ensure.toList.map fun start => ⟨.finally, ⟨start, stop⟩⟩
  scopes :=
    match b.block with
    | .scope kind name callee returned =>
      [{ kind := kind, span := ⟨b.start, stop⟩, name := name, callee := callee,
         returned := returned }]
    | _ => []

structure KeywordState where
  stack : List KeywordBlock := []
  outline : Skeleton := {}

def KeywordState.close (st : KeywordState) (stop : Nat) : KeywordState :=
  match st.stack with
  | [] => st
  | top :: below => { stack := below, outline := st.outline ++ top.close stop }

def isEndLine (trimmed : List Char) : Bool :=
  trimmed == "end".toList || startsWith "end.".toList trimmed || startsWith "end)".toList trimmed

def endsBlock (trimmed : List Char) : Bool :=
  (stripSuffix? " end".toList trimmed).isSome || (stripSuffix? ";end".toList trimmed).isSome

def KeywordState.step (st : KeywordState) (l : Line) : KeywordState :=
  let trimmed := trim (beforeComment l.text)
  let start := l.bodyStart
  if trimmed.isEmpty || trimmed.head? == some '#' then st
  else if trimmed == "ensure".toList then
    match st.stack with
    | [] => st
    | top :: below => { st with stack := { top with ensure := some start } :: below }
  else if isEndLine trimmed then st.close l.stop
  else
    match opens? trimmed with
    | none => st
    | some block =>
      let opened : KeywordBlock := { start := start, block := block }
      if endsBlock trimmed then { st with outline := st.outline ++ opened.close l.stop }
      else { st with stack := opened :: st.stack }

def KeywordState.finish (st : KeywordState) (textSize : Nat) : Skeleton :=
  st.stack.foldl (fun acc b => acc ++ b.close textSize) st.outline

def keywordBlocks (lines : List Line) (textSize : Nat) : Skeleton :=
  (lines.foldl KeywordState.step {}).finish textSize

end LeakScan.Scope.Outline
