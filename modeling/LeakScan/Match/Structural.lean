import LeakScan.Json.Reader
import LeakScan.Match.Chain
import LeakScan.Rule.Document
import LeakScan.Text.Digits
import LeakScan.Tool
import LeakScan.Yaml.Scalar

/-!
# LeakScan.Match.Structural

Matching by an external program that knows the grammars.

* `InlineRule` — one structural pattern as the program is asked for it; its id names the role and
  the place of the pattern.
* `inlineRules`, `InlineRule.text` — the request for a rule.
* `StreamRecord`, `parseStream` — the answer, one JSON record a line.
* `StructuralTool.probe`, `StructuralTool.matcher` — finding the program and running it.
-/

namespace LeakScan

open Text

/-! ## Requests -/

@[ext]
structure PatternId where
  role : Role
  index : Nat
  deriving DecidableEq, Repr

namespace PatternId

def text (p : PatternId) : String := s!"{p.role.name}#{p.index}"

def ofText? (s : String) : Option PatternId :=
  match splitFirst? '#' s.toList with
  | none => none
  | some (role, index) =>
    match Role.ofName? (String.ofList role), readCount? index with
    | some role, some index => some ⟨role, index⟩
    | _, _ => none

end PatternId

structure InlineRule where
  id : PatternId
  language : String
  pattern : String
  deriving DecidableEq, Repr

def InlineRule.text (r : InlineRule) : String :=
  Yaml.field 0 "id" r.id.text ++ Yaml.field 0 "language" r.language ++
    Yaml.field 0 "severity" "warning" ++ "rule:\n" ++ Yaml.field 2 "pattern" r.pattern

/-- One request for each structural pattern, acquisitions first. -/
def inlineRules (rule : Rule) (language : String) : List InlineRule :=
  Role.all.flatMap fun role =>
    (rule.patterns role).zipIdx.filterMap fun (p, index) =>
      p.structural.map fun pattern => ⟨⟨role, index⟩, language, pattern⟩

/-- The requests of a rule as documents of one text. -/
def inlineText (rule : Rule) (language : String) : String :=
  String.intercalate "---\n" ((inlineRules rule language).map (·.text))

/-! ## Answers -/

structure StreamRecord where
  text : String
  span : Span
  ruleId : Option String := none
  captures : List (String × String) := []
  deriving DecidableEq, Repr

namespace Json

/-- An offset: an integer within 64 bits. -/
def asOffset : Json → Except String Nat
  | .num (.natural n) => .ok n
  | v => .error (mismatch v "usize")

/-- A field that has to be there. -/
def need (name : String) : Option Json → Except String Json
  | some v => .ok v
  | none => .error s!"missing field `{name}`"

end Json

open Json

namespace StreamRecord

def readSpan (v : Json) : Except String Span := do
  match ← recordFields ["byteOffset"] "struct AstGrepRange" v with
  | [offsets] =>
    match ← recordFields ["start", "end"] "struct AstGrepByteOffset"
        (← need "byteOffset" offsets) with
    | [start, stop] => return ⟨← asOffset (← need "start" start), ← asOffset (← need "end" stop)⟩
    | _ => .error "missing field"
  | _ => .error "missing field"

def readCapture (v : Json) : Except String String := do
  match ← recordFields ["text"] "struct AstGrepCapture" v with
  | [text] => asString (← need "text" text)
  | _ => .error "missing field"

def readCaptures : List (String × Json) → Except String (List (String × String))
  | [] => .ok []
  | (name, v) :: rest =>
    match readCapture v with
    | .error e => .error e
    | .ok text =>
      match readCaptures rest with
      | .ok more => .ok ((name, text) :: more)
      | .error e => .error e

def readVariables (v : Json) : Except String (List (String × String)) := do
  match ← recordFields ["single"] "struct AstGrepMetaVariables" v with
  | [some (.obj fields)] => readCaptures fields
  | [some v] => .error (mismatch v "a map")
  | _ => .ok []

/-- A record given as an array has to reach as far as its id. -/
def isComplete : Json → Bool
  | .arr items => 3 ≤ items.length
  | _ => true

def ofJson (v : Json) : Except String StreamRecord := do
  if !isComplete v then .error "invalid length"
  match ← recordFields ["text", "range", "ruleId", "metaVariables"] "struct AstGrepRecord" v with
  | [text, range, ruleId, metaVariables] =>
    let text ← asString (← need "text" text)
    let span ← readSpan (← need "range" range)
    let ruleId ← (ruleId.map (asOption asString)).getD (.ok none)
    let captures ← (metaVariables.map (asOption readVariables)).getD (.ok none)
    return { text := text, span := span, ruleId := ruleId, captures := captures.getD [] }
  | _ => .error "missing field"

def ofLine (line : List Char) : Except Failure StreamRecord :=
  match Json.parse (String.ofList line) with
  | .error e => .error (.badJson e.message)
  | .ok v =>
    match ofJson v with
    | .ok r => .ok r
    | .error reason => .error (.badJson reason)

/-- The match that a record reports; records under other ids report none. -/
def toMatch? (ruleId : String) (r : StreamRecord) : Option RawMatch :=
  match r.ruleId.bind PatternId.ofText? with
  | none => none
  | some id =>
    some {
      ruleId := ruleId, role := id.role, pattern := id.index, span := r.span
      bindings := Bindings.ofPairs r.captures, text := r.text, mode := .structural }

end StreamRecord

def parseLines (ruleId : String) : List (List Char) → Except Failure (List RawMatch)
  | [] => .ok []
  | line :: rest =>
    match StreamRecord.ofLine line with
    | .error e => .error e
    | .ok r =>
      match parseLines ruleId rest with
      | .error e => .error e
      | .ok more => .ok ((r.toMatch? ruleId).toList ++ more)

/-- The lines of an output that hold records. -/
def recordLines (output : List Char) : List (List Char) :=
  ((textLines output).map trim).filter (!·.isEmpty)

def parseStream (ruleId : String) (output : List Char) : Except Failure (List RawMatch) :=
  parseLines ruleId (recordLines output)

/-! ## The program -/

structure StructuralTool where
  program : String
  version : String
  timeout : Nat
  deriving Repr

namespace StructuralTool

def name : String := "ast-grep"

/-- Tries programs in turn. A program that has to identify itself names the tool in its version. -/
def probeFirst (tools : Toolbox) (timeout : Nat) :
    List (String × Bool) → Except Failure StructuralTool
  | [] => .error (.toolUnavailable name "neither `ast-grep` nor `sg` could be run")
  | (program, mustIdentify) :: rest =>
    match versionOf? tools program with
    | none => probeFirst tools timeout rest
    | some version =>
      if mustIdentify && !holdsText (lowerAscii version) name then probeFirst tools timeout rest
      else .ok ⟨program, version, timeout⟩

def probe (tools : Toolbox) (program : Option String) (timeout : Nat) :
    Except Failure StructuralTool :=
  probeFirst tools timeout <|
    match program with
    | some p => [(p, false)]
    | none => [("ast-grep", false), ("sg", true)]

/-- Some releases end with 1 whenever something matched. -/
def isSuccess (code : Option Nat) : Bool := code == some 0 || code == some 1

/-- The first line of the messages, for a failure. -/
def firstMessage (o : ToolOutput) : String :=
  String.ofList (trim ((textLines o.stderrText).head?.getD []))

def readOutput (ruleId : String) (o : ToolOutput) : Except Failure (List RawMatch) :=
  if !isSuccess o.code then
    .error (.toolFailed name s!"exit status {o.codeText}: {firstMessage o}")
  else if o.truncated then .error (.toolFailed name "output incomplete")
  else
    match parseStream ruleId o.stdoutText with
    | .ok found => .ok found
    | .error e => .error (.toolFailed name s!"unparseable output: {e.message}")

def matcher (t : StructuralTool) (tools : Toolbox) (cancelled : Bool) : StructuralMatcher :=
  fun source rule =>
    let request := inlineText rule (source.language.grammarName source.path)
    if request == "" then .ok []
    else
      let call : ToolCall := {
        program := t.program
        arguments := ["scan", "--inline-rules", request, "--json=stream", source.path] }
      match call.run tools cancelled t.timeout with
      | .error e => .error e
      | .ok output => readOutput rule.id output

end StructuralTool

end LeakScan
