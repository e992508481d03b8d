import LeakScan.Configuration
import LeakScan.Text.Digits
import LeakScan.Text.Split

/-!
# LeakScan.CommandLine.Arguments

Reading command line arguments.

* `OptionSpec`, `OptionUse` — the options of a command, and their occurrences.
* `readOptions` — splits arguments into occurrences of options and what follows them.
* `Command`, `Command.ofArguments` — what the user asks for. Arguments that make no command are
  answered with a word on usage.
-/

namespace LeakScan.CommandLine

open Text

structure OptionSpec where
  long : String
  short : Option Char := none
  takesValue : Bool := false
  /-- The option may be given more than once. -/
  repeats : Bool := false
  /-- What a help page calls the value. -/
  valueName : String := ""
  about : String := ""
  /-- The values that are understood, if not all are. -/
  choices : List String := []
  deriving DecidableEq, Repr

structure OptionUse where
  option : String
  value : Option String := none
  deriving DecidableEq, Repr

/-- Where reading options stopped: at a word, or at an option that ends the program. -/
inductive Stop where
  | word (word : String) (rest : List String)
  | done
  | help
  | version
  deriving DecidableEq, Repr

def verboseOption : OptionSpec where
  long := "verbose"
  short := some 'v'
  repeats := true
  about := "Log verbosity: -v info, -vv debug, -vvv trace (RUST_LOG wins when set)"

def helpOption : OptionSpec := { long := "help", short := some 'h', about := "Print help" }

def versionOption : OptionSpec :=
  { long := "version", short := some 'V', about := "Print version" }

/-- A word that cannot be the value of an option. -/
def isDashed (s : String) : Bool :=
  match s.toList with
  | '-' :: _ :: _ => true
  | _ => false

/-- The options in a cluster of short ones. The last may take the rest of the cluster, or the next
word, as its value. -/
def readCluster (specs : List OptionSpec) (next : List String) :
    Nat → List Char → Option (List OptionUse × List String)
  | 0, _ => none
  | _, [] => some ([], next)
  | fuel + 1, c :: cs =>
    match specs.find? (·.short == some c) with
    | none => none
    | some spec =>
      if spec.takesValue then
        match cs, next with
        | [], [] => none
        | [], v :: rest => if isDashed v then none else some ([⟨spec.long, some v⟩], rest)
        | '=' :: v, _ => some ([⟨spec.long, some (String.ofList v)⟩], next)
        | v, _ => some ([⟨spec.long, some (String.ofList v)⟩], next)
      else
        match readCluster specs next fuel cs with
        | some (uses, rest) => some (⟨spec.long, none⟩ :: uses, rest)
        | none => none

/-- One long option without its dashes. -/
def readLong (specs : List OptionSpec) (body : List Char) (next : List String) :
    Option (List OptionUse × List String) :=
  let (name, attached) :=
    match splitFirst? '=' body with
    | some (n, v) => (String.ofList n, some (String.ofList v))
    | none => (String.ofList body, none)
  match specs.find? (·.long == name) with
  | none => none
  | some spec =>
    match spec.takesValue, attached, next with
    | true, some v, _ => some ([⟨name, some v⟩], next)
    | true, none, v :: rest => if isDashed v then none else some ([⟨name, some v⟩], rest)
    | true, none, [] => none
    | false, none, _ => some ([⟨name, none⟩], next)
    | false, some _, _ => none

/-- The options at the start of some arguments. Every round takes a word, so `fuel` starts above
their number. -/
def readOptions (specs : List OptionSpec) :
    Nat → List String → Option (List OptionUse × Stop)
  | 0, _ => none
  | _, [] => some ([], .done)
  | fuel + 1, arg :: rest =>
    let onward (found : Option (List OptionUse × List String)) : Option (List OptionUse × Stop) :=
      match found with
      | none => none
      | some (uses, rest) =>
        match uses.find? fun u => u.option == "help" || u.option == "version" with
        | some u => some (uses, if u.option == "help" then .help else .version)
        | none =>
          match readOptions specs fuel rest with
          | some (more, stop) => some (uses ++ more, stop)
          | none => none
    match arg.toList with
    | ['-', '-'] =>
      match rest with
      | [] => some ([], .done)
      | _ => none
    | '-' :: '-' :: body => onward (readLong specs body rest)
    | '-' :: c :: cs => onward (readCluster specs rest (cs.length + 2) (c :: cs))
    | _ => some ([], .word arg rest)

/-- No option is given twice that may be given once only. -/
def areDistinct (specs : List OptionSpec) (uses : List OptionUse) : Bool :=
  specs.all fun s => s.repeats || uses.countP (·.option == s.long) ≤ 1

/-! ## Commands -/

structure ScanArguments where
  input : String
  config : Option String := none
  format : Option OutputFormat := none
  output : Option String := none
  includes : List String := []
  excludes : List String := []
  only : List String := []
  skip : List String := []
  sampleLimit : Option Nat := none
  toolTimeout : Option Nat := none
  baseline : Option String := none
  failOnWarning : Bool := false
  noStructural : Bool := false
  heuristicScopes : Bool := false
  fileSizeLimit : Option Nat := none
  ruleFiles : List String := []
  linters : List Linter := []
  threads : Option Nat := none
  escalationThreshold : Option Nat := none
  noEscalation : Bool := false
  noSearch : Bool := false
  structuralProgram : Option String := none
  deriving DecidableEq, Repr

structure ListArguments where
  language : Option String := none
  ruleFiles : List String := []
  json : Bool := false
  deriving DecidableEq, Repr

/-- What a help page is about. -/
inductive Topic where
  | program
  | scan
  | scanRun
  | rules
  | rulesList
  deriving DecidableEq, Repr

inductive Command where
  | scan (arguments : ScanArguments)
  | listRules (arguments : ListArguments)
  | help (topic : Topic)
  | version
  deriving DecidableEq, Repr

def flag (long : String) (about : String) : OptionSpec := { long := long, about := about }

def valued (long valueName about : String) : OptionSpec :=
  { long := long, takesValue := true, valueName := valueName, about := about }

def listed (long valueName about : String) : OptionSpec :=
  { valued long valueName about with repeats := true }

/-- The options of a scan, as a help page lists them. -/
def scanOptions : List OptionSpec :=
  [{ valued "input" "INPUT" "Project root (or a single file) to scan" with short := some 'i' },
    verboseOption,
    valued "config" "CONFIG" "JSON config file; flags override its values",
    { valued "format" "FORMAT" "" with choices := ["console", "json", "markdown"] },
    { valued "output" "OUTPUT" "Write the report to a file instead of stdout" with
      short := some 'o' },
    listed "include" "INCLUDE" "Only scan paths matching these globs",
    listed "exclude" "EXCLUDE" "Additional globs to exclude",
    listed "only" "ONLY" "Only run rules in these categories",
    listed "skip" "SKIP" "Skip rules in these categories",
    valued "sample-cap" "SAMPLE_CAP" "Location samples kept per finding",
    valued "tool-timeout-ms" "TOOL_TIMEOUT_MS"
      "Timeout for each external tool invocation, in milliseconds",
    valued "baseline" "BASELINE" "Previous JSON report to compare against",
    flag "fail-on-warning" "",
    flag "no-structural" "Never use ast-grep; match with the built-in regex patterns only",
    flag "heuristic-scopes" "Skip tree-sitter and resolve scopes heuristically",
    valued "max-file-size" "MAX_FILE_SIZE" "Files larger than this many bytes are skipped",
    listed "rules" "RULE_FILES" "Extra rule files, applied after the built-in catalog",
    listed "linter" "LINTERS" "Supplementary linter as `name=command args...`",
    valued "threads" "THREADS" "",
    valued "escalation-threshold" "ESCALATION_THRESHOLD"
      "Escalate a finding one severity level above this many occurrences",
    flag "no-escalation" "",
    flag "no-ripgrep" "Do not prefilter files with ripgrep",
    valued "ast-grep" "AST_GREP" "Path to the ast-grep binary",
    helpOption]

def listOptions : List OptionSpec :=
  [valued "language" "LANGUAGE"
      "Only rules applying to this language (TypeScript includes JavaScript rules)",
    verboseOption,
    listed "rules" "RULE_FILES" "Extra rule files, applied after the built-in catalog",
    flag "json" "",
    helpOption]

def groupOptions : List OptionSpec := [verboseOption, helpOption]

def topOptions : List OptionSpec := [verboseOption, helpOption, versionOption]

def valuesOf (uses : List OptionUse) (name : String) : List String :=
  (uses.filter (·.option == name)).filterMap (·.value)

def isGiven (uses : List OptionUse) (name : String) : Bool := uses.any (·.option == name)

/-- The values of an option, each of which has to be readable. -/
def readAll (f : String → Option α) : List String → Option (List α)
  | [] => some []
  | v :: vs =>
    match f v, readAll f vs with
    | some a, some as => some (a :: as)
    | _, _ => none

/-- The value of an option that is given once at most. -/
def readOne (f : String → Option α) (uses : List OptionUse) (name : String) :
    Option (Option α) :=
  (readAll f (valuesOf uses name)).map (·.head?)

def readPath (s : String) : Option String := if s == "" then none else some s

/-- Digits after an optional plus sign, within 64 bits. -/
def readCount (s : String) : Option Nat := readCount? s.toList

/-- A linter as `name=command arguments`. -/
def readLinter (s : String) : Option Linter :=
  match splitFirst? '=' s.toList with
  | none => none
  | some (name, command) =>
    let name := trim name
    let command := (words command).map String.ofList
    if name.isEmpty || command.isEmpty then none
    else some { name := String.ofList name, command := command }

/-- Values divided by commas. -/
def splitValues (values : List String) : List String :=
  values.flatMap fun v => (splitOn ',' v.toList).map String.ofList

def scanCommand? (uses : List OptionUse) : Option Command := do
  let some input ← readOne readPath uses "input" | none
  if isGiven uses "escalation-threshold" && isGiven uses "no-escalation" then none
  return .scan {
    input := input
    config := ← readOne readPath uses "config"
    format := ← readOne OutputFormat.ofName? uses "format"
    output := ← readOne readPath uses "output"
    includes := valuesOf uses "include"
    excludes := valuesOf uses "exclude"
    only := splitValues (valuesOf uses "only")
    skip := splitValues (valuesOf uses "skip")
    sampleLimit := ← readOne readCount uses "sample-cap"
    toolTimeout := ← readOne readCount uses "tool-timeout-ms"
    baseline := ← readOne readPath uses "baseline"
    failOnWarning := isGiven uses "fail-on-warning"
    noStructural := isGiven uses "no-structural"
    heuristicScopes := isGiven uses "heuristic-scopes"
    fileSizeLimit := ← readOne readCount uses "max-file-size"
    ruleFiles := ← readAll readPath (valuesOf uses "rules")
    linters := ← readAll readLinter (valuesOf uses "linter")
    threads := ← readOne readCount uses "threads"
    escalationThreshold := ← readOne readCount uses "escalation-threshold"
    noEscalation := isGiven uses "no-escalation"
    noSearch := isGiven uses "no-ripgrep"
    structuralProgram := ← readOne readPath uses "ast-grep" }

def listCommand? (uses : List OptionUse) : Option Command := do
  return .listRules {
    language := (valuesOf uses "language").head?
    ruleFiles := ← readAll readPath (valuesOf uses "rules")
    json := isGiven uses "json" }

/-- A command that takes options only. -/
def readLeaf (topic : Topic) (specs : List OptionSpec) (build : List OptionUse → Option Command)
    (args : List String) : Option Command :=
  match readOptions specs (args.length + 1) args with
  | some (_, .help) => some (.help topic)
  | some (uses, .done) => if areDistinct specs uses then build uses else none
  | _ => none

/-- A command whose first word names another one, or asks for help about one. -/
def readGroup (topic : Topic) (child : String) (childTopic : Topic)
    (read : List String → Option Command) (args : List String) : Option Command :=
  match readOptions groupOptions (args.length + 1) args with
  | some (_, .help) => some (.help topic)
  | some (_, .word "help" []) => some (.help topic)
  | some (_, .word "help" [name]) => if name == child then some (.help childTopic) else none
  | some (_, .word name rest) => if name == child then read rest else none
  | _ => none

/-- The topic that some words name. -/
def Topic.ofWords? : List String → Option Topic
  | [] => some .program
  | ["scan"] => some .scan
  | ["scan", "run"] => some .scanRun
  | ["rules"] => some .rules
  | ["rules", "list"] => some .rulesList
  | _ => none

/-- What the arguments ask for. -/
def Command.ofArguments (args : List String) : Option Command :=
  match readOptions topOptions (args.length + 1) args with
  | some (_, .help) => some (.help .program)
  | some (_, .version) => some .version
  | some (_, .word "help" rest) => (Topic.ofWords? rest).map .help
  | some (_, .word "scan" rest) =>
    readGroup .scan "run" .scanRun (readLeaf .scanRun scanOptions scanCommand?) rest
  | some (_, .word "rules" rest) =>
    readGroup .rules "list" .rulesList (readLeaf .rulesList listOptions listCommand?) rest
  | _ => none

end LeakScan.CommandLine
