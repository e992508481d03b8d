import LeakScan.CommandLine.Help
import LeakScan.Report.Console
import LeakScan.Report.Json
import LeakScan.Report.Markdown
import LeakScan.Scan

/-!
# LeakScan.CommandLine

The program as seen from a terminal.

* `Outcome` — exit code, outputs, and files written.
* `ScanArguments.configuration` — settings from a file, with those of the command line over them.
* `run` — everything that a list of arguments leads to.
-/

namespace LeakScan.CommandLine

structure Outcome where
  exit : Nat := 0
  stdout : String := ""
  stderr : String := ""
  written : List (String × String) := []
  /-- The arguments were not understood. -/
  isUsage : Bool := false
  deriving Repr

/-- What is said about a failure: its message and, after it, the message of its cause. -/
def causes (f : Failure) : String :=
  match f with
  | .badGlob reason => s!"{f.message}: {reason}"
  | .badJson reason => s!"{f.message}: {reason}"
  | .badYaml reason => s!"{f.message}: {reason}"
  | .fileAccess reason => s!"{f.message}: {reason}"
  | _ => f.message

def failure (colored : Bool) (text : String) : Outcome where
  exit := 2
  stderr := paint colored (.bright "red") "error:" ++ s!" {text}\n"

/-! ## Scanning -/

namespace ScanArguments

/-- Settings of the command line over those of a file. -/
def override (a : ScanArguments) (c : Configuration) : Configuration :=
  { c with
    root := a.input
    includes := if a.includes.isEmpty then c.includes else a.includes
    excludes := c.excludes ++ a.excludes
    categories := {
      only := if a.only.isEmpty then c.categories.only else a.only
      skip := c.categories.skip ++ a.skip }
    sampleLimit := a.sampleLimit.getD c.sampleLimit
    toolTimeout := a.toolTimeout.getD c.toolTimeout
    format := a.format.getD c.format
    baseline := a.baseline.orElse fun _ => c.baseline
    failOnWarning := c.failOnWarning || a.failOnWarning
    structural := if a.noStructural then .disabled else c.structural
    scopes := if a.heuristicScopes then .heuristic else c.scopes
    fileSizeLimit := a.fileSizeLimit.getD c.fileSizeLimit
    ruleFiles := c.ruleFiles ++ a.ruleFiles
    linters := c.linters ++ a.linters
    threads := a.threads.orElse fun _ => c.threads
    escalationThreshold :=
      if a.noEscalation then none
      else a.escalationThreshold.orElse fun _ => c.escalationThreshold
    useSearch := c.useSearch && !a.noSearch
    structuralProgram := a.structuralProgram.orElse fun _ => c.structuralProgram }

def configuration (a : ScanArguments) (w : Workspace) : Except Failure Configuration :=
  match a.config with
  | none => .ok (a.override {})
  | some path =>
    match Configuration.load path (w.text path) with
    | .ok c => .ok (a.override c)
    | .error e => .error e

end ScanArguments

def render (colored : Bool) (format : OutputFormat) (r : Report) : String :=
  match format with
  | .console => r.console colored
  | .json => r.jsonText
  | .markdown => r.markdown

/-- Prints a report or writes it to a file. From then on nothing is shown in colours. -/
def deliver (w : Workspace) (output : Option String) (format : OutputFormat) (r : Report)
    (exit : Nat) : Outcome :=
  match output with
  | none => { exit := exit, stdout := render w.colored format r ++ "\n" }
  | some path =>
    match w.files.writeError? path with
    | some e => failure false s!"Failed to write report: {path}: {e.message}"
    | none => { exit := exit, written := [(path, render false format r)] }

def runScan (w : Workspace) (a : ScanArguments) (startedAt : String) (elapsed : Nat) : Outcome :=
  match a.configuration w with
  | .error e => failure w.colored (causes e)
  | .ok c =>
    match c.check (w.files.exists? c.root) with
    | .error e => failure w.colored (causes e)
    | .ok () =>
      match Scanner.start w c with
      | .error e => failure w.colored s!"Failed to start scan: {causes e}"
      | .ok s =>
        match s.run w false startedAt elapsed with
        | .error e => failure w.colored s!"Failed to scan {c.root}: {causes e}"
        | .ok r => deliver w a.output c.format r (r.exitCode c.failOnWarning)

/-! ## Listing rules -/

def ruleJson (r : Rule) : Json :=
  .obj [("category", .str r.category), ("contexts", .arr (r.contexts.map fun c => .str c.name)),
    ("id", .str r.id), ("kind", .str r.kind), ("language", .str r.language.name),
    ("severity", .str r.severity.name), ("summary", .str r.summary)]

def ruleLine (colored : Bool) (r : Rule) : String :=
  let id := paint colored { bold := true } (padRight 28 r.id)
  let summary := paint colored { dimmed := true } r.summary
  s!"  {r.severity.emoji} {id} {padRight 11 r.language.name} " ++
    s!"{padRight 16 r.kind} {padRight 18 r.category} {summary}\n"

def listRules (colored asJson : Bool) (rules : List Rule) : String :=
  if asJson then (Json.arr (rules.map ruleJson)).pretty ++ "\n"
  else
    paint colored (.bright "blue") s!"{rules.length} rules" ++ "\n" ++
      String.join (rules.map (ruleLine colored))

def runList (w : Workspace) (a : ListArguments) : Outcome :=
  let catalog := Catalog.load (a.ruleFiles.map (ruleFile w))
  let warning := paint w.colored (.strong "yellow") "warning:"
  let warnings := String.join (catalog.diagnostics.map fun d => s!"{warning} {d.message}\n")
  match a.language with
  | none => { stdout := listRules w.colored a.json catalog.rules, stderr := warnings }
  | some name =>
    match Language.ofName? name with
    | some l => { stdout := listRules w.colored a.json (catalog.rulesFor l), stderr := warnings }
    | none =>
      let o := failure w.colored s!"unknown language `{name}`"
      { o with stderr := warnings ++ o.stderr }

/-! ## Everything -/

/-- What the arguments lead to, at a time and with a duration that reports show. -/
def run (w : Workspace) (args : List String) (startedAt : String) (elapsed : Nat) : Outcome :=
  match Command.ofArguments args with
  | none => { exit := 2, stderr := Topic.program.page, isUsage := true }
  | some (.help topic) => { stdout := topic.page }
  | some .version => { stdout := s!"{programName} {toolVersion}\n" }
  | some (.scan a) => runScan w a startedAt elapsed
  | some (.listRules a) => runList w a

end LeakScan.CommandLine
