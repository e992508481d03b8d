import LeakScan.Regex.Basic
import LeakScan.Text.Digits

/-!
# LeakScan.Regex.Pattern

Reading a regular expression from its text.

* `PatternError` — why a text is no expression.
* `Flags` — the switches a pattern can set for the rest of a group.
* `readClass` — bracketed classes, with nesting and set operations.
* `ofPattern` — the whole text. One pass over the characters keeps a stack of open groups; every
  step consumes at least one character, so the length of the text bounds the pass.
-/

namespace LeakScan.Regex

open Text

inductive PatternError where
  | unclosedClass
  | classRangeReversed
  | classRangeEnd
  | classEscape
  | unclosedGroup
  | unopenedGroup
  | lookAround
  | backReference
  | badEscape
  | escapeAtEnd
  | badCodePoint
  | badFlag
  | badGroupName
  | repeatedGroupName (name : String)
  | nothingToRepeat
  | badCount
  | badBoundary
  | unknownProperty (name : String)
  | notText
  | tooDeep
  | tooLarge
  deriving Repr, DecidableEq

namespace PatternError

def message : PatternError → String
  | .unclosedClass => "unclosed character class"
  | .classRangeReversed => "invalid character class range, the start must be <= the end"
  | .classRangeEnd => "invalid range boundary, must be a literal"
  | .classEscape => "invalid escape sequence found in character class"
  | .unclosedGroup => "unclosed group"
  | .unopenedGroup => "unopened group"
  | .lookAround => "look-around, including look-ahead and look-behind, is not supported"
  | .backReference => "backreferences are not supported"
  | .badEscape => "unrecognized escape sequence"
  | .escapeAtEnd => "incomplete escape sequence, reached end of pattern prematurely"
  | .badCodePoint => "hexadecimal literal is not a Unicode scalar value"
  | .badFlag => "unrecognized flag"
  | .badGroupName => "invalid capture group character"
  | .repeatedGroupName name => s!"duplicate capture group name: {name}"
  | .nothingToRepeat => "repetition operator missing expression"
  | .badCount => "invalid repetition count range"
  | .badBoundary => "special word boundary assertion is unrecognized"
  | .unknownProperty name => s!"Unicode property not found: {name}"
  | .notText => "pattern can match invalid UTF-8"
  | .tooDeep => "exceeded the maximum number of nested parentheses/brackets"
  | .tooLarge => "compiled regex exceeds size limit"

end PatternError

structure Flags where
  ignoreCase : Bool := false
  multiLine : Bool := false
  dotAll : Bool := false
  swapGreed : Bool := false
  unicode : Bool := true
  verbose : Bool := false
  crlf : Bool := false
  deriving Repr, DecidableEq

/-! ## Characters and escapes -/

def isMeta (c : Char) : Bool :=
  "\\.+*?()|[]\x7b\x7d^$#&-~".toList.contains c

/-- Writes a text so that it stands for itself in a pattern. -/
def escape (cs : List Char) : List Char :=
  cs.flatMap fun c => if isMeta c then ['\\', c] else [c]

/-- ASCII characters that may be escaped although they need no escape. -/
def isEscapable (c : Char) : Bool :=
  isMeta c || (isAscii c && !c.isAlphanum && c != '<' && c != '>')

def asciiDigits : CharClass := .range '0' '9'

def asciiWord : CharClass :=
  .union (.range 'a' 'z') (.union (.range 'A' 'Z') (.union asciiDigits (.one '_')))

def asciiBlank : CharClass := .union (.range '\t' '\r') (.one ' ')

/-- A range under the flags in force: with case ignored it takes in the other case. -/
def rangeClass (f : Flags) (lo hi : Char) : CharClass :=
  if f.ignoreCase then .foldedRange lo hi else .range lo hi

/-- What an escape stands for. -/
inductive Atom where
  | literal (c : Char)
  | klass (k : CharClass)
  | anchor (a : Anchor)
  deriving Repr

def hexValue? (c : Char) : Option Nat :=
  if '0' ≤ c ∧ c ≤ '9' then some (c.toNat - '0'.toNat)
  else if 'a' ≤ c ∧ c ≤ 'f' then some (c.toNat - 'a'.toNat + 10)
  else if 'A' ≤ c ∧ c ≤ 'F' then some (c.toNat - 'A'.toNat + 10)
  else none

def hexNumber? (cs : List Char) : Option Nat :=
  cs.foldl (fun acc c =>
    match acc, hexValue? c with
    | some n, some d => some (n * 16 + d)
    | _, _ => none) (some 0)

def scalar? (n : Nat) : Option Char :=
  if n < 0xD800 || (0xDFFF < n && n < 0x110000) then some (Char.ofNat n) else none

def codePoint (digits rest : List Char) : Except PatternError (Char × List Char) :=
  match hexNumber? digits with
  | none => .error .badCodePoint
  | some n =>
    match scalar? n with
    | some c => .ok (c, rest)
    | none => .error .badCodePoint

/-- The digits of `\x`, `\u` or `\U`: in braces, or exactly `width` of them. -/
def readHex (width : Nat) (cs : List Char) : Except PatternError (Char × List Char) :=
  match cs with
  | '\x7b' :: rest =>
    let digits := rest.takeWhile (· != '\x7d')
    match rest.dropWhile (· != '\x7d') with
    | [] => .error .escapeAtEnd
    | _ :: after => if digits.isEmpty then .error .badCodePoint else codePoint digits after
  | _ =>
    if cs.length < width then .error .escapeAtEnd
    else codePoint (cs.take width) (cs.drop width)

def perlClass (f : Flags) (wide narrow : CharClass) (negated : Bool) :
    Except PatternError Atom :=
  if f.unicode then .ok (.klass (if negated then .compl wide else wide))
  else if negated then .error .notText
  else .ok (.klass narrow)

/-- General classes by property name; names are compared without case, spaces, `-` and `_`. -/
def property? (name : String) : Option CharClass :=
  let key := (name.toList.filter fun c => c != ' ' && c != '-' && c != '_').map Char.toLower
  match String.ofList key with
  | "any" => some .everything
  | "ascii" => some (.range '\x00' '\x7f')
  | "whitespace" | "wspace" | "space" => some .blank
  | "nd" | "digit" | "decimalnumber" => some .decimal
  | "word" | "perlword" => some .word
  | _ => none

/-- The property after `\p` or `\P`: one letter, or a name in braces that `^` negates. -/
def readProperty (f : Flags) (negated : Bool) (cs : List Char) :
    Except PatternError (Atom × List Char) :=
  let pick (name : List Char) (negate : Bool) (rest : List Char) :=
    match property? (String.ofList name) with
    | some k => .ok (.klass (if negate then .compl k else k), rest)
    | none => .error (.unknownProperty (String.ofList name))
  if !f.unicode then .error .notText
  else
    match cs with
    | [] => .error .escapeAtEnd
    | '\x7b' :: rest =>
      let name := rest.takeWhile (· != '\x7d')
      match rest.dropWhile (· != '\x7d') with
      | [] => .error .escapeAtEnd
      | _ :: after =>
        match name with
        | '^' :: name' => pick name' (!negated) after
        | _ => pick name negated after
    | c :: rest => pick [c] negated rest

/-- A word boundary, which may be followed by the name of a special kind in braces. Braces that
hold no such name are left to be read as a count. -/
def readBoundary (f : Flags) (cs : List Char) : Except PatternError (Atom × List Char) :=
  let plain : Atom := .anchor (if f.unicode then .boundary else .asciiBoundary)
  match cs with
  | '\x7b' :: c :: rest =>
    let named := fun x : Char => x.isAlpha || x == '-'
    if named c then
      let name := (c :: rest).takeWhile named
      match (c :: rest).dropWhile named with
      | '\x7d' :: after =>
        match String.ofList name with
        | "start" => .ok (.anchor .wordStart, after)
        | "end" => .ok (.anchor .wordEnd, after)
        | "start-half" => .ok (.anchor .wordStartHalf, after)
        | "end-half" => .ok (.anchor .wordEndHalf, after)
        | _ => .error .badBoundary
      | _ => .error .badBoundary
    else .ok (plain, cs)
  | ['\x7b'] => .error .badBoundary
  | _ => .ok (plain, cs)

/-- What follows a backslash. -/
def readEscape (f : Flags) (cs : List Char) : Except PatternError (Atom × List Char) :=
  let literal (c : Char) (rest : List Char) := .ok (.literal c, rest)
  let perl (wide narrow : CharClass) (negated : Bool) (rest : List Char) :=
    match perlClass f wide narrow negated with
    | .ok a => .ok (a, rest)
    | .error e => .error e
  let hex (width : Nat) (rest : List Char) :=
    match readHex width rest with
    | .ok (c, after) => .ok (.literal c, after)
    | .error e => .error e
  match cs with
  | [] => .error .escapeAtEnd
  | 'x' :: rest => hex 2 rest
  | 'u' :: rest => hex 4 rest
  | 'U' :: rest => hex 8 rest
  | 'p' :: rest => readProperty f false rest
  | 'P' :: rest => readProperty f true rest
  | 'd' :: rest => perl .decimal asciiDigits false rest
  | 'D' :: rest => perl .decimal asciiDigits true rest
  | 's' :: rest => perl .blank asciiBlank false rest
  | 'S' :: rest => perl .blank asciiBlank true rest
  | 'w' :: rest => perl .word asciiWord false rest
  | 'W' :: rest => perl .word asciiWord true rest
  | 'a' :: rest => literal '\x07' rest
  | 'f' :: rest => literal '\x0c' rest
  | 't' :: rest => literal '\t' rest
  | 'n' :: rest => literal '\n' rest
  | 'r' :: rest => literal '\r' rest
  | 'v' :: rest => literal '\x0b' rest
  | 'A' :: rest => .ok (.anchor .textStart, rest)
  | 'z' :: rest => .ok (.anchor .textEnd, rest)
  | 'b' :: rest => readBoundary f rest
  | 'B' :: rest => .ok (.anchor (if f.unicode then .noBoundary else .noAsciiBoundary), rest)
  | '<' :: rest => .ok (.anchor .wordStart, rest)
  | '>' :: rest => .ok (.anchor .wordEnd, rest)
  | c :: rest =>
    if isEscapable c then literal c rest
    else if c.isDigit then .error .backReference
    else .error .badEscape

/-! ## Bracketed classes -/

/-- White space and comments, which the verbose flag makes invisible. -/
def skipLayout (f : Flags) : Nat → List Char → List Char
  | 0, cs => cs
  | fuel + 1, cs =>
    if !f.verbose then cs
    else
      match cs with
      | '#' :: rest => skipLayout f fuel ((rest.dropWhile (· != '\n')).drop 1)
      | c :: rest => if isBlank c then skipLayout f fuel rest else cs
      | [] => []

inductive SetOp where
  | inter
  | diff
  | symmDiff
  deriving Repr

def SetOp.apply : SetOp → CharClass → CharClass → CharClass
  | .inter, a, b => .inter a b
  | .diff, a, b => .diff a b
  | .symmDiff, a, b => .symmDiff a b

/-- An open bracket: whether it negates, the operand and operator already read, and the items
since. -/
structure ClassFrame where
  negated : Bool
  pending : Option (CharClass × SetOp) := none
  items : CharClass := .nothing

def ClassFrame.add (fr : ClassFrame) (k : CharClass) : ClassFrame :=
  { fr with items := .union fr.items k }

/-- The operands so far, joined from the left. -/
def ClassFrame.joined (fr : ClassFrame) : CharClass :=
  match fr.pending with
  | some (left, op) => op.apply left fr.items
  | none => fr.items

def ClassFrame.operator (fr : ClassFrame) (op : SetOp) : ClassFrame :=
  { fr with pending := some (fr.joined, op), items := .nothing }

def ClassFrame.close (fr : ClassFrame) : CharClass :=
  if fr.negated then .compl fr.joined else fr.joined

/-- The classes written `[:name:]` inside brackets. -/
def namedAscii? (f : Flags) (name : String) : Option CharClass :=
  let r := rangeClass f
  let alpha := CharClass.union (r 'a' 'z') (r 'A' 'Z')
  match name with
  | "alnum" => some (.union alpha asciiDigits)
  | "alpha" => some alpha
  | "ascii" => some (.range '\x00' '\x7f')
  | "blank" => some (.ofChars " \t")
  | "cntrl" => some (.union (.range '\x00' '\x1f') (.one '\x7f'))
  | "digit" => some asciiDigits
  | "graph" => some (.range '!' '~')
  | "lower" => some (r 'a' 'z')
  | "print" => some (.range ' ' '~')
  | "punct" => some (.union (.range '!' '/') (.union (.range ':' '@')
      (.union (.range '[' '\x60') (.range '\x7b' '~'))))
  | "space" => some asciiBlank
  | "upper" => some (r 'A' 'Z')
  | "word" => some asciiWord
  | "xdigit" => some (.union asciiDigits (.union (r 'a' 'f') (r 'A' 'F')))
  | _ => none

/-- A class such as `[:alpha:]` or `[:^alpha:]`, when the text after `[` is one. -/
def readNamedAscii? (f : Flags) (cs : List Char) : Option (CharClass × List Char) :=
  match cs with
  | ':' :: rest =>
    let (negated, body) := match rest with
      | '^' :: body => (true, body)
      | body => (false, body)
    let name := body.takeWhile (· != ':')
    match body.dropWhile (· != ':') with
    | ':' :: ']' :: after =>
      match namedAscii? f (String.ofList name) with
      | some k => some (if negated then .compl k else k, after)
      | none => none
    | _ => none
  | _ => none

/-- The first items after an opening bracket: `^`, then any number of `-`, or one `]`. -/
def openClass (f : Flags) (cs : List Char) : Except PatternError (ClassFrame × List Char) :=
  let skip (xs : List Char) := skipLayout f xs.length xs
  let cs := skip cs
  let (negated, cs) := match cs with
    | '^' :: rest => (true, skip rest)
    | _ => (false, cs)
  let dashes := cs.takeWhile (· == '-')
  let rest := skip (cs.dropWhile (· == '-'))
  let frame : ClassFrame := { negated := negated }
  if !dashes.isEmpty then
    if rest.isEmpty then .error .unclosedClass else .ok (frame.add (.one '-'), rest)
  else
    match rest with
    | [] => .error .unclosedClass
    | ']' :: after =>
      if after.isEmpty then .error .unclosedClass else .ok (frame.add (.one ']'), skip after)
    | _ => .ok (frame, rest)

/-- One character or escape of a class. -/
def readItem (f : Flags) (cs : List Char) : Except PatternError (Atom × List Char) :=
  match cs with
  | [] => .error .unclosedClass
  | '\\' :: rest => readEscape f rest
  | c :: rest => .ok (.literal c, rest)

def itemClass (f : Flags) : Atom → Except PatternError CharClass
  | .literal c => .ok (rangeClass f c c)
  | .klass k => .ok k
  | .anchor _ => .error .classEscape

/-- An item, or a range when a `-` follows that is neither the last character nor doubled. -/
def readRange (f : Flags) (cs : List Char) : Except PatternError (CharClass × List Char) :=
  let skip (xs : List Char) := skipLayout f xs.length xs
  match readItem f cs with
  | .error e => .error e
  | .ok (first, rest) =>
    let rest := skip rest
    let alone :=
      match itemClass f first with
      | .ok k => .ok (k, rest)
      | .error e => .error e
    match rest with
    | [] => .error .unclosedClass
    | '-' :: tail =>
      match skip tail with
      | ']' :: _ => alone
      | '-' :: _ => alone
      | tail' =>
        match readItem f tail' with
        | .error e => .error e
        | .ok (last, after) =>
          match first, last with
          | .literal lo, .literal hi =>
            if lo.toNat ≤ hi.toNat then .ok (rangeClass f lo hi, after)
            else .error .classRangeReversed
          | _, _ => .error .classRangeEnd
    | _ => alone

/-- Reads on until the outermost bracket closes. -/
def readClassItems (f : Flags) (depth : Nat) :
    Nat → List ClassFrame → List Char → Except PatternError (CharClass × List Char)
  | 0, _, _ => .error .unclosedClass
  | _ + 1, [], _ => .error .unclosedClass
  | fuel + 1, top :: below, cs =>
    match skipLayout f cs.length cs with
    | [] => .error .unclosedClass
    | '[' :: rest =>
      match readNamedAscii? f rest with
      | some (k, after) => readClassItems f depth fuel (top.add k :: below) after
      | none =>
        if 250 < depth + below.length + 2 then .error .tooDeep
        else
          match openClass f rest with
          | .ok (inner, after) => readClassItems f depth fuel (inner :: top :: below) after
          | .error e => .error e
    | ']' :: rest =>
      if top.negated && !f.unicode then .error .notText
      else
        match below with
        | [] => .ok (top.close, rest)
        | outer :: below' => readClassItems f depth fuel (outer.add top.close :: below') rest
    | '&' :: '&' :: rest => readClassItems f depth fuel (top.operator .inter :: below) rest
    | '-' :: '-' :: rest => readClassItems f depth fuel (top.operator .diff :: below) rest
    | '~' :: '~' :: rest => readClassItems f depth fuel (top.operator .symmDiff :: below) rest
    | cs' =>
      match readRange f cs' with
      | .ok (k, after) => readClassItems f depth fuel (top.add k :: below) after
      | .error e => .error e

/-- The class whose opening bracket has just been read. -/
def readClass (f : Flags) (depth : Nat) (cs : List Char) :
    Except PatternError (CharClass × List Char) :=
  match openClass f cs with
  | .ok (frame, rest) => readClassItems f depth (rest.length + 1) [frame] rest
  | .error e => .error e

/-! ## Repetition counts -/

/-- Digits with white space around them. -/
def readCount (cs : List Char) : Except PatternError (Nat × List Char) :=
  let cs := cs.dropWhile isBlank
  let digits := cs.takeWhile Char.isDigit
  let rest := (cs.dropWhile Char.isDigit).dropWhile isBlank
  let value := digitsValue digits
  if digits.isEmpty || 4294967295 < value then .error .badCount else .ok (value, rest)

/-- The counts after an opening brace, with the least and the greatest number of rounds. -/
def readCounts (cs : List Char) : Except PatternError (Nat × Option Nat × List Char) :=
  match readCount cs with
  | .error e => .error e
  | .ok (least, rest) =>
    match rest with
    | '\x7d' :: after => .ok (least, some least, after)
    | ',' :: rest' =>
      match rest' with
      | '\x7d' :: after => .ok (least, none, after)
      | _ =>
        match readCount rest' with
        | .error e => .error e
        | .ok (most, '\x7d' :: after) =>
          if least ≤ most then .ok (least, some most, after) else .error .badCount
        | .ok _ => .error .badCount
    | _ => .error .badCount

/-! ## Flags and group openings -/

def Flags.set (f : Flags) (c : Char) (on : Bool) : Option Flags :=
  match c with
  | 'i' => some { f with ignoreCase := on }
  | 'm' => some { f with multiLine := on }
  | 's' => some { f with dotAll := on }
  | 'U' => some { f with swapGreed := on }
  | 'u' => some { f with unicode := on }
  | 'x' => some { f with verbose := on }
  | 'R' => some { f with crlf := on }
  | _ => none

/-- Reads flag letters up to `:` or `)`. A letter occurs once, `-` once and not last. -/
def readFlags (f : Flags) (on : Bool) (seen : List Char) :
    List Char → Except PatternError (Flags × List Char × List Char)
  | [] => .error .badFlag
  | c :: rest =>
    if c == ':' || c == ')' then
      if seen.head? == some '-' then .error .badFlag else .ok (f, seen, c :: rest)
    else if seen.contains c then .error .badFlag
    else if c == '-' then readFlags f false (c :: seen) rest
    else
      match f.set c on with
      | some f' => readFlags f' on (c :: seen) rest
      | none => .error .badFlag

def isNameChar (first : Bool) (c : Char) : Bool :=
  if first then c == '_' || isAlphabetic c
  else c == '_' || c == '.' || c == '[' || c == ']' || isAlphanumeric c

/-- The name of a group up to its closing angle bracket. -/
def readGroupName (cs : List Char) : Except PatternError (String × List Char) :=
  let name := cs.takeWhile (· != '>')
  match name, cs.dropWhile (· != '>') with
  | first :: others, _ :: rest =>
    if isNameChar true first && others.all (isNameChar false) then
      .ok (String.ofList name, rest)
    else .error .badGroupName
  | _, _ => .error .badGroupName

/-! ## The whole pattern -/

/-- An open group: its name, the flags outside it, its finished alternatives, and the items of the
current one, latest first. An item `none` only sets flags and cannot be repeated. -/
structure Frame where
  name : Option String := none
  outer : Flags
  alternatives : List Regex := []
  items : List (Option Regex) := []

def Frame.branch (fr : Frame) : Regex := seqs (fr.items.reverse.filterMap id)

def Frame.close (fr : Frame) : Regex :=
  let body := alts ((fr.branch :: fr.alternatives).reverse)
  match fr.name with
  | some name => .group name body
  | none => body

def Frame.push (fr : Frame) (r : Regex) : Frame := { fr with items := some r :: fr.items }

structure ReadState where
  flags : Flags := {}
  names : List String := []
  frame : Frame
  below : List Frame := []

def ReadState.push (st : ReadState) (r : Regex) : ReadState :=
  { st with frame := st.frame.push r }

def ReadState.open (st : ReadState) (name : Option String) (inside : Flags) :
    Except PatternError ReadState :=
  if 250 < st.below.length + 1 then .error .tooDeep
  else
    .ok { st with
      flags := inside
      frame := { name := name, outer := st.flags }
      below := st.frame :: st.below }

def ReadState.repeat (st : ReadState) (least : Nat) (most : Option Nat) (rest : List Char) :
    Except PatternError (ReadState × List Char) :=
  match st.frame.items with
  | some r :: items =>
    let (lazyMark, rest) := match rest with
      | '?' :: after => (true, after)
      | _ => (false, rest)
    let greedy := lazyMark == st.flags.swapGreed
    let node : Regex :=
      match least, most with
      | 0, none => .star greedy r
      | _, _ => .rep greedy least most r
    .ok ({ st with frame := { st.frame with items := some node :: items } }, rest)
  | _ => .error .nothingToRepeat

/-- What follows an opening parenthesis. -/
def ReadState.group (st : ReadState) (cs : List Char) :
    Except PatternError (ReadState × List Char) :=
  let cs := skipLayout st.flags cs.length cs
  let named (body : List Char) :=
    match readGroupName body with
    | .error e => .error e
    | .ok (name, rest) =>
      if st.names.contains name then .error (.repeatedGroupName name)
      else
        match ReadState.open { st with names := name :: st.names } (some name) st.flags with
        | .ok st' => .ok (st', rest)
        | .error e => .error e
  match cs with
  | '?' :: '=' :: _ => .error .lookAround
  | '?' :: '!' :: _ => .error .lookAround
  | '?' :: '<' :: '=' :: _ => .error .lookAround
  | '?' :: '<' :: '!' :: _ => .error .lookAround
  | '?' :: 'P' :: '<' :: body => named body
  | '?' :: '<' :: body => named body
  | '?' :: body =>
    match readFlags st.flags true [] body with
    | .error e => .error e
    | .ok (flags, seen, ')' :: rest) =>
      if seen.isEmpty then .error .nothingToRepeat
      else
        .ok ({ st with
          flags := flags, frame := { st.frame with items := none :: st.frame.items } }, rest)
    | .ok (flags, _, _ :: rest) =>
      match st.open none flags with
      | .ok st' => .ok (st', rest)
      | .error e => .error e
    | .ok (_, _, []) => .error .badFlag
  | _ =>
    match st.open none st.flags with
    | .ok st' => .ok (st', cs)
    | .error e => .error e

def ReadState.dot (st : ReadState) : Except PatternError Regex :=
  if !st.flags.unicode then .error .notText
  else if st.flags.dotAll then .ok (.char .everything)
  else if st.flags.crlf then .ok (.char (.compl (.ofChars "\r\n")))
  else .ok (.char (.compl (.one '\n')))

def ReadState.lineStart (st : ReadState) : Regex :=
  .anchor (if !st.flags.multiLine then .textStart
    else if st.flags.crlf then .wideLineStart else .lineStart)

def ReadState.lineEnd (st : ReadState) : Regex :=
  .anchor (if !st.flags.multiLine then .textEnd
    else if st.flags.crlf then .wideLineEnd else .lineEnd)

def ReadState.atom (st : ReadState) : Atom → Regex
  | .literal c => .char (rangeClass st.flags c c)
  | .klass k => .char k
  | .anchor a => .anchor a

/-- One item of the pattern, which starts with `c`. -/
def ReadState.step (st : ReadState) (c : Char) (rest : List Char) :
    Except PatternError (ReadState × List Char) :=
  match c with
  | '(' => st.group rest
  | ')' =>
    match st.below with
    | [] => .error .unopenedGroup
    | outer :: below =>
      .ok ({ st with
        flags := st.frame.outer, frame := outer.push st.frame.close, below := below }, rest)
  | '|' =>
    .ok ({ st with
      frame := { st.frame with
        alternatives := st.frame.branch :: st.frame.alternatives, items := [] } }, rest)
  | '[' =>
    match readClass st.flags (st.below.length + 1) rest with
    | .ok (k, after) => .ok (st.push (.char k), after)
    | .error e => .error e
  | '?' => st.repeat 0 (some 1) rest
  | '*' => st.repeat 0 none rest
  | '+' => st.repeat 1 none rest
  | '\x7b' =>
    match st.frame.items with
    | some _ :: _ =>
      match readCounts rest with
      | .ok (least, most, after) => st.repeat least most after
      | .error e => .error e
    | _ => .error .nothingToRepeat
  | '.' =>
    match st.dot with
    | .ok r => .ok (st.push r, rest)
    | .error e => .error e
  | '^' => .ok (st.push st.lineStart, rest)
  | '$' => .ok (st.push st.lineEnd, rest)
  | '\\' =>
    match readEscape st.flags rest with
    | .ok (a, after) => .ok (st.push (st.atom a), after)
    | .error e => .error e
  | _ => .ok (st.push (st.atom (.literal c)), rest)

def ReadState.readAll : Nat → ReadState → List Char → Except PatternError ReadState
  | 0, st, _ => .ok st
  | fuel + 1, st, cs =>
    match skipLayout st.flags cs.length cs with
    | [] => .ok st
    | c :: rest =>
      match st.step c rest with
      | .ok (st', after) => readAll fuel st' after
      | .error e => .error e

/-- The number of character tests after every count is written out. -/
def weight : Regex → Nat
  | .empty => 0
  | .char _ => 1
  | .anchor _ => 1
  | .seq a b => weight a + weight b
  | .alt a b => weight a + weight b + 1
  | .star _ r => weight r + 1
  | .rep _ least none r => weight r * max least 1 + 1
  | .rep _ _ (some most) r => weight r * most + 1
  | .group _ r => weight r + 2

/-- The expression that a text writes. -/
def ofPattern (source : String) : Except PatternError Regex :=
  let cs := source.toList
  match ReadState.readAll (cs.length + 1) { frame := { outer := {} } } cs with
  | .error e => .error e
  | .ok st =>
    if !st.below.isEmpty then .error .unclosedGroup
    else
      let r := st.frame.close
      if 300000 < weight r then .error .tooLarge else .ok r

end LeakScan.Regex
