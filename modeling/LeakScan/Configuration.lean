import LeakScan.Baseline
import LeakScan.Catalog
import LeakScan.Linter

/-!
# LeakScan.Configuration

What a scan is asked to do.

* `Configuration` — all settings with their defaults.
* `Configuration.parse` — reading settings from JSON; missing fields keep their defaults.
* `Configuration.check` — settings that make no scan.
-/

namespace LeakScan

inductive StructuralMode where
  | auto
  | disabled
  deriving DecidableEq, Repr, Inhabited

def StructuralMode.all : List StructuralMode := [.auto, .disabled]

def StructuralMode.name : StructuralMode → String
  | .auto => "auto"
  | .disabled => "disabled"

/-- How scopes are found: with a grammar where there is one, or always by the look of the text. -/
inductive ScopeMode where
  | auto
  | heuristic
  deriving DecidableEq, Repr, Inhabited

def ScopeMode.all : List ScopeMode := [.auto, .heuristic]

def ScopeMode.name : ScopeMode → String
  | .auto => "auto"
  | .heuristic => "heuristic"

inductive OutputFormat where
  | console
  | json
  | markdown
  deriving DecidableEq, Repr, Inhabited

def OutputFormat.all : List OutputFormat := [.console, .json, .markdown]

def OutputFormat.name : OutputFormat → String
  | .console => "console"
  | .json => "json"
  | .markdown => "markdown"

def StructuralMode.ofName? (s : String) : Option StructuralMode := all.find? fun m => m.name == s

def ScopeMode.ofName? (s : String) : Option ScopeMode := all.find? fun m => m.name == s

def OutputFormat.ofName? (s : String) : Option OutputFormat := all.find? fun f => f.name == s

/-- Directories of dependencies and build products, and minified files. -/
def defaultExcludes : List String :=
  ["**/node_modules/**", "**/.git/**", "**/target/**", "**/dist/**", "**/build/**",
    "**/vendor/**", "**/*.min.js"]

structure Configuration where
  root : String := "."
  includes : List String := []
  excludes : List String := defaultExcludes
  categories : CategorySelection := {}
  sampleLimit : Nat := 5
  /-- How long an external tool may run, in milliseconds. -/
  toolTimeout : Nat := 10000
  format : OutputFormat := .console
  baseline : Option String := none
  failOnWarning : Bool := false
  structural : StructuralMode := .auto
  scopes : ScopeMode := .auto
  /-- Larger files are skipped; in bytes. -/
  fileSizeLimit : Nat := 1024 * 1024
  ruleFiles : List String := []
  linters : List Linter := []
  threads : Option Nat := none
  escalationThreshold : Option Nat := some 10
  useSearch : Bool := true
  structuralProgram : Option String := none
  deriving DecidableEq, Repr, Inhabited

namespace Configuration

open Json

def asBool : Json → Except String Bool
  | .bool b => .ok b
  | v => .error (mismatch v "a boolean")

def readLinter (v : Json) : Except String Linter := do
  match ← recordFields ["name", "command", "timeout_ms"] "struct LinterSpec" v with
  | [name, command, timeout] =>
    return {
      name := ← requiredField "name" asString name
      command := ← requiredField "command" (asList asString) command
      timeout := ← optionalField none (asOption asCount) timeout }
  | _ => .error "missing field"

def readSelection (v : Json) : Except String CategorySelection := do
  match ← recordFields ["only", "skip"] "struct CategorySelection" v with
  | [only, skip] =>
    return {
      only := ← optionalField [] (asList asString) only
      skip := ← optionalField [] (asList asString) skip }
  | _ => .error "missing field"

def fieldNames : List String :=
  ["root", "include", "exclude", "categories", "sample_cap", "tool_timeout_ms", "format",
    "baseline", "fail_on_warning", "structural", "scope_resolution", "max_file_size",
    "rule_files", "linters", "threads", "escalation_threshold", "use_ripgrep",
    "ast_grep_binary"]

def ofJson (v : Json) : Except String Configuration := do
  let d : Configuration := {}
  match ← recordFields fieldNames "struct ScanConfig" v with
  | [root, includes, excludes, categories, sampleLimit, toolTimeout, format, baseline,
      failOnWarning, structural, scopes, fileSizeLimit, ruleFiles, linters, threads,
      escalationThreshold, useSearch, structuralProgram] =>
    return {
      root := ← optionalField d.root asString root
      includes := ← optionalField d.includes (asList asString) includes
      excludes := ← optionalField d.excludes (asList asString) excludes
      categories := ← optionalField d.categories readSelection categories
      sampleLimit := ← optionalField d.sampleLimit asCount sampleLimit
      toolTimeout := ← optionalField d.toolTimeout asCount toolTimeout
      format := ← optionalField d.format (asNamed OutputFormat.ofName?) format
      baseline := ← optionalField d.baseline (asOption asString) baseline
      failOnWarning := ← optionalField d.failOnWarning asBool failOnWarning
      structural := ← optionalField d.structural (asNamed StructuralMode.ofName?) structural
      scopes := ← optionalField d.scopes (asNamed ScopeMode.ofName?) scopes
      fileSizeLimit := ← optionalField d.fileSizeLimit asCount fileSizeLimit
      ruleFiles := ← optionalField d.ruleFiles (asList asString) ruleFiles
      linters := ← optionalField d.linters (asList readLinter) linters
      threads := ← optionalField d.threads (asOption asCount) threads
      escalationThreshold :=
        ← optionalField d.escalationThreshold (asOption asCount) escalationThreshold
      useSearch := ← optionalField d.useSearch asBool useSearch
      structuralProgram := ← optionalField d.structuralProgram (asOption asString)
        structuralProgram }
  | _ => .error "missing field"

def parse (text : String) : Except String Configuration :=
  match Json.parse text with
  | .error e => .error e.message
  | .ok v => ofJson v

/-- The settings in a file with the given content, or with the reason why it cannot be read. -/
def load (path : String) (content : Except String String) : Except Failure Configuration :=
  match content with
  | .error reason => .error (.invalidInput s!"cannot read config {path}: {reason}")
  | .ok text =>
    match parse text with
    | .ok c => .ok c
    | .error reason => .error (.invalidInput s!"invalid config {path}: {reason}")

/-- The first thing that keeps a scan from being run, `rootExists` telling whether the root is
there. -/
def check (c : Configuration) (rootExists : Bool) : Except Failure Unit :=
  if !rootExists then .error (.invalidInput s!"input path does not exist: {c.root}")
  else if c.toolTimeout == 0 then
    .error (.invalidInput "tool timeout must be greater than zero")
  else if c.threads == some 0 then
    .error (.invalidInput "thread count must be greater than zero")
  else
    match c.linters.find? (·.command.isEmpty) with
    | some l => .error (.invalidInput s!"linter `{l.name}` has an empty command")
    | none => .ok ()

end Configuration

end LeakScan
