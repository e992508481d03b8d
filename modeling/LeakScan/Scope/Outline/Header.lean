import LeakScan.Language
import LeakScan.Regex.Search
import LeakScan.Scope.Skeleton

/-!
# LeakScan.Scope.Outline.Header

What the text in front of a block says about the block.

* `lastSegment` — the part of the text since the last statement that heads the block.
* `calleeOf`, `assignedName` — the call that a closure is passed to, and the name it is given.
* `Block`, `classify` — what a block is: a scope, a guarded stretch, or neither.
-/

namespace LeakScan.Scope.Outline

open Text Regex

/-- A character of a name. -/
def isNameChar (c : Char) : Bool := isAlphanumeric c || c == '_' || c == '$'

/-- What a block turns out to be. The span of a scope is known when the block closes. -/
inductive Block where
  | scope (kind : RawKind) (name callee : Option String) (returned : Bool)
  | guard (kind : GuardKind)
  | plain
  deriving DecidableEq, Repr

/-- A guard that a block brings along: a resource list, or a deferred call that runs until the
block closes. -/
inductive SideGuard where
  | resources (span : Span)
  | deferredFrom (start : Nat)
  deriving DecidableEq, Repr

/-! ## The heading segment -/

/-- Cuts a text after each line feed that stands outside parentheses and brackets. -/
def cutLines (depth : Int) : List Char → List (List Char)
  | [] => [[]]
  | c :: cs =>
    let depth' :=
      if c == '(' || c == '[' then depth + 1
      else if c == ')' || c == ']' then depth - 1
      else depth
    if c == '\n' && depth ≤ 0 then [c] :: cutLines depth' cs
    else
      match cutLines depth' cs with
      | piece :: pieces => (c :: piece) :: pieces
      | [] => [[c]]

/-- The last piece that is not blank, with its byte offset. -/
def lastPiece (offset : Nat) : List (List Char) → Option (Nat × List Char)
  | [] => none
  | piece :: pieces =>
    match lastPiece (offset + byteSize piece) pieces with
    | some found => some found
    | none => if (trim piece).isEmpty then none else some (offset, piece)

/-- The header of a block: where it starts and its text without blanks around it. `start` is the
offset of the text since the last statement. -/
def lastSegment (start : Nat) (cs : List Char) : Nat × List Char :=
  match lastPiece start (cutLines 0 cs) with
  | some (offset, piece) => (offset + byteSize (piece.takeWhile isBlank), trim piece)
  | none => (start + byteSize cs, [])

/-! ## Names -/

/-- What stands before the last `(` that is not closed, both read from the end. -/
def beforeOpen (depth : Nat) : List Char → Option (List Char)
  | [] => none
  | c :: rest =>
    if c == ')' then beforeOpen (depth + 1) rest
    else if c == '(' then if depth == 0 then some rest else beforeOpen (depth - 1) rest
    else beforeOpen depth rest

/-- What stands before the `(` that closes at depth zero, both read from the end. -/
def beforePartner (depth : Nat) : List Char → Option (List Char)
  | [] => none
  | c :: rest =>
    if c == ')' then beforePartner (depth + 1) rest
    else if c == '(' then if depth ≤ 1 then some rest else beforePartner (depth - 1) rest
    else beforePartner depth rest

/-- The text in front of the call that a block is passed to, read from the end. -/
def beforeCall (reversed : List Char) : Option (List Char) :=
  match beforeOpen 0 reversed with
  | some before => some before
  | none => if reversed.head? == some ')' then beforePartner 0 reversed else some reversed

/-- Name of the call that a closure is passed to: the name before the last `(` that is not closed,
or before the argument list that ends the header. -/
def calleeOf (header : List Char) : Option String :=
  match beforeCall header.reverse with
  | none => none
  | some before =>
    let name := (before.dropWhile isBlank).takeWhile isNameChar
    if name.isEmpty then none else some (String.ofList name.reverse)

def asciiLetter : CharClass := .union (.range 'A' 'Z') (.range 'a' 'z')

/-- `[A-Za-z_]` -/
def nameStart : CharClass := .union asciiLetter (.one '_')

/-- `[\w$]` -/
def nameClass : CharClass := .union .word (.one '$')

def blanks : Regex := many blank

def someBlanks : Regex := plus blank

/-- Some of the words, each followed by white space. -/
def leadingWords (words : List String) : Regex := many (.seq (oneOf words) someBlanks)

/-- `^(?:(?:export|const|…)\s+)*(?:this\.|self\.)?(NAME)\s*(?::[^=]*)?[:=]\s*(?:async\s+)?` -/
def assignment : Regex :=
  seqs [
    .anchor .textStart,
    leadingWords ["export", "const", "let", "var", "public", "private", "protected", "readonly",
      "static"],
    opt (oneOf ["this.", "self."]),
    .group "name" (plus (.char nameClass)),
    blanks,
    opt (.seq (one ':') (many (noneOf "="))),
    chars ":=",
    blanks,
    opt (.seq (text "async") someBlanks)]

/-- The name that a block is assigned to, when something follows the assignment sign. -/
def assignedName (header : List Char) : Option String :=
  match assignment.find? header with
  | some m =>
    if m.span.stop < byteSize header then
      (groupText? header m "name").map String.ofList
    else none
  | none => none

/-! ## Headers -/

/-- `(?:^|\s)(?:class|…)(?:\s+(NAME))?` -/
def classHeader : Regex :=
  seqs [
    .alt (.anchor .textStart) blank,
    oneOf ["class", "struct", "interface", "enum", "extension", "protocol", "record"],
    opt (seqs [someBlanks, .group "name"
      (.seq (.char (.union nameStart (.one '$'))) (many (.char nameClass)))])]

/-- `\([^)]*\)` -/
def parenthesised : Regex := seqs [one '(', many (noneOf ")"), one ')']

/-- `\bnew\s+[\w.<>]+\s*\([^)]*\)\s*$` -/
def anonymousClass : Regex :=
  seqs [
    .anchor .boundary, text "new", someBlanks, plus (.char (.union .word (.ofChars ".<>"))), blanks,
    parenthesised, blanks, .anchor .textEnd]

/-- `^(?:export\s+)?(?:default\s+)?(?:async\s+)?function\s*\*?\s*(NAME)\s*\(` -/
def namedFunction : Regex :=
  seqs [
    .anchor .textStart,
    opt (.seq (text "export") someBlanks),
    opt (.seq (text "default") someBlanks),
    opt (.seq (text "async") someBlanks),
    text "function", blanks, opt (one '*'), blanks,
    .group "name" (plus (.char nameClass)), blanks, one '(']

/-- `\bfunction\b|\bfunc\s*\(` -/
def anonymousFunction : Regex :=
  .alt (seqs [.anchor .boundary, text "function", .anchor .boundary])
    (seqs [.anchor .boundary, text "func", blanks, one '('])

/-- `^func\s*(?:\([^)]*\)\s*)?(NAME)\s*[\[(]` -/
def goFunction : Regex :=
  seqs [
    .anchor .textStart, text "func", blanks, opt (.seq parenthesised blanks),
    .group "name" (.seq (.char nameStart) (many word)), blanks, chars "[("]

/-- `(?:^|\s)func\s+(NAME)|^(?:[@\w]+\s+)*(init|deinit)\b` -/
def swiftFunction : Regex :=
  .alt
    (seqs [.alt (.anchor .textStart) blank, text "func", someBlanks,
      .group "name" (.seq (.char nameStart) (many word))])
    (seqs [.anchor .textStart,
      many (.seq (plus (.char (.union .word (.one '@')))) someBlanks),
      .group "name" (oneOf ["init", "deinit"]), .anchor .boundary])

/-- A word or type that may follow the parameter list of a method. -/
def methodSuffix : Regex :=
  alts [
    text "const", text "override", text "noexcept", text "final", text "async",
    seqs [text "throws", someBlanks,
      plus (.char (.union .word (.union (.ofChars ".,") .blank)))],
    seqs [text "->", blanks,
      plus (.char (.union .word (.union (.ofChars "<>[]?.:&*") .blank)))]]

/-- `^(?:TYPE\s+)*(?:NAME::)*(NAME)\s*\([^;]*\)\s*(?:SUFFIX\s*)*(?::[^=]+)?$`. What follows a colon
reaches to the end, because no suffix holds an equals sign. -/
def methodHeader : Regex :=
  seqs [
    .anchor .textStart,
    many (.seq (plus (.char (.union nameClass (.ofChars "<>[],.?*&@~")))) someBlanks),
    many (.seq (plus (.char nameClass)) (text "::")),
    .group "name" (plus (.char (.union nameClass (.one '~')))),
    blanks, one '(', many (noneOf ";"), one ')', blanks,
    many (.seq methodSuffix blanks),
    opt (.seq (one ':') (plus (noneOf "="))),
    .anchor .textEnd]

/-- `\[[^\]]*\]\s*(?:\([^)]*\))?\s*(?:mutable)?\s*(?:->\s*[\w:<>]+)?\s*$` -/
def captureList : Regex :=
  seqs [
    one '[', many (noneOf "]"), one ']', blanks, opt parenthesised, blanks,
    opt (text "mutable"), blanks,
    opt (seqs [text "->", blanks, plus (.char (.union .word (.ofChars ":<>")))]),
    blanks, .anchor .textEnd]

/-- Words that head a block of control flow, or otherwise name no function. -/
def controlWords : List String :=
  ["if", "else", "for", "foreach", "while", "switch", "catch", "try", "do", "with", "synchronized",
    "using", "lock", "guard", "repeat", "case", "default", "when", "return", "get", "set",
    "willSet", "didSet", "function", "func", "new", "throw", "typeof", "await", "in"]

/-- The length in bytes up to and including the `)` that closes the first `(`, from there on. -/
def closedLength (depth : Nat) (length : Nat) : List Char → Option Nat
  | [] => none
  | c :: rest =>
    let length := length + c.utf8Size
    if c == '(' then closedLength (depth + 1) length rest
    else if c == ')' then
      if depth ≤ 1 then some length else closedLength (depth - 1) length rest
    else closedLength depth length rest

/-- The resource list of `try (…)`: the first parentheses of the header, if they close. -/
def resourceList (header : List Char) (start : Nat) : Option SideGuard :=
  let before := header.takeWhile (· != '(')
  match closedLength 0 0 (header.dropWhile (· != '(')) with
  | some length =>
    let first := start + byteSize before
    some (.resources ⟨first, first + length⟩)
  | none => none

/-- The name group of a match, as a name. -/
def nameOf (header : List Char) (m : Match) : String :=
  String.ofList ((groupText? header m "name").getD [])

def function (name : String) : Block := .scope .function (nonEmpty? (some name)) none false

/-- A closure under the name it is assigned to and the call it is passed to. -/
def closure (header : List Char) (returned : Bool) : Block :=
  .scope .closure (nonEmpty? (assignedName header)) (calleeOf header) returned

def classifyGo (header : List Char) (start : Nat) (firstWord : String) (returned : Bool) :
    Block × Option SideGuard :=
  match goFunction.find? header with
  | some m => (function (nameOf header m), none)
  | none =>
    if anonymousFunction.isMatch header then
      (closure header returned, if firstWord == "defer" then some (.deferredFrom start) else none)
    else (.plain, none)

def classifySwift (header : List Char) (firstWord : String) (returned : Bool) : Block :=
  match swiftFunction.find? header with
  | some m => function (nameOf header m)
  | none =>
    if controlWords.contains firstWord && !returned then .plain
    else if (startsWith "var ".toList header || startsWith "let ".toList header) &&
        !header.contains '=' then .plain
    else closure header returned

/-- A method, unless its name or its first word belongs to control flow, or it is the end of a
longer expression. -/
def classifyMethod (header : List Char) (firstWord : String) : Block :=
  match methodHeader.find? header with
  | none => .plain
  | some m =>
    let name := nameOf header m
    let before := takeBytes header ((m.group? "name").getD ⟨0, 0⟩).start
    if controlWords.contains name || controlWords.contains firstWord ||
        (trimEnd before).getLast? == some '.' || before.contains '=' then .plain
    else function name

def classifyCurly (language : Language) (header : List Char) (firstWord : String)
    (returned : Bool) : Block :=
  match namedFunction.find? header with
  | some m => function (nameOf header m)
  | none =>
    if (stripSuffix? ['=', '>'] header).isSome || (stripSuffix? ['-', '>'] header).isSome ||
        anonymousFunction.isMatch header then closure header returned
    else if language == .cpp && captureList.isMatch header && occursIn [']', '('] header then
      closure header returned
    else classifyMethod header firstWord

/-- What the block after a header is, and the guard that it brings along. `start` is the offset of
the header. -/
def classify (language : Language) (header : List Char) (start : Nat) :
    Block × Option SideGuard :=
  let firstWord := String.ofList (header.takeWhile isNameChar)
  let returned := firstWord == "return"
  if header.isEmpty then (.plain, none)
  else if firstWord == "finally" then (.guard .finally, none)
  else if header == "defer".toList then (.guard .deferred, none)
  else if firstWord == "try" || firstWord == "using" then (.plain, resourceList header start)
  else if anonymousClass.isMatch header then (.scope .classLike none none false, none)
  else
    let asClass :=
      if header.contains '(' || occursIn ['=', '>'] header then none else classHeader.find? header
    match asClass with
    | some m =>
      let name := (groupText? header m "name").map String.ofList
      (.scope .classLike (nonEmpty? name) none false, none)
    | none =>
      match language with
      | .go => classifyGo header start firstWord returned
      | .swift => (classifySwift header firstWord returned, none)
      | _ => (classifyCurly language header firstWord returned, none)

end LeakScan.Scope.Outline
