import LeakScan.Configuration
import LeakScan.Discovery
import LeakScan.Match.Structural
import LeakScan.Prefilter
import LeakScan.Report
import LeakScan.Scope.Resolution
import LeakScan.Workspace

/-!
# LeakScan.Scan

Scanning a file or a directory.

* `analyze` — matches, scopes and correlations of one file.
* `Scanner` — a configuration with its rules and the tools that were found.
* `Scanner.scanFile` — the totals of one file. Nothing that goes wrong in a file ends a scan.
* `Scanner.run` — the report on everything below the root.
-/

namespace LeakScan

open Text

/-! ## One file -/

structure Analysis where
  found : FileMatches
  tree : ScopeTree
  results : List Correlation

/-- The rule of a match; of rules with one id the last counts. -/
def ruleOf? (rules : List Rule) (ruleId : String) : Option Rule :=
  rules.reverse.find? (·.id == ruleId)

/-- Matches with their places; a match whose rule is not known is left out. -/
def resolveMatches (rules : List Rule) (source : Source) (tree : ScopeTree)
    (found : List RawMatch) : List Match :=
  found.filterMap fun m =>
    (ruleOf? rules m.ruleId).map fun r => Match.resolve m r.kind source tree

def analyze (structural : Option StructuralMatcher) (mode : ScopeMode) (cancelled : Bool)
    (rules : List Rule) (lifecycle : Lifecycle) (source : Source) : Except Failure Analysis :=
  match matchFile structural source cancelled rules with
  | .error e => .error e
  | .ok found =>
    let tree := resolveScopes mode lifecycle source
    let matched := resolveMatches rules source tree found.found
    .ok { found := found, tree := tree, results := correlate ⟨rules, tree, lifecycle⟩ matched }

/-! ## Scanners -/

structure Scanner where
  configuration : Configuration
  catalog : Catalog
  structural : Option StructuralTool
  searchAvailable : Bool
  /-- What was found wrong with the rules and the tools. -/
  startup : List Diagnostic

/-- Text of a rule file. -/
def ruleFile (w : Workspace) (path : String) : Catalog.RuleFile where
  path := path
  content := match w.text path with
    | .ok s => .ok s
    | .error reason => .error (.fileAccess reason)

namespace Scanner

def ofCatalog (w : Workspace) (c : Configuration) (catalog : Catalog) : Scanner :=
  let structural :=
    match c.structural with
    | .disabled => none
    | .auto => some (StructuralTool.probe w.tools c.structuralProgram c.toolTimeout)
  let (tool, missing) :=
    match structural with
    | none => (none, [])
    | some (.ok t) => (some t, [])
    | some (.error e) => (none, [Diagnostic.ofFailure e])
  { configuration := c
    catalog := catalog.select c.categories
    structural := tool
    searchAvailable := detectSearch w.tools c.useSearch
    startup := catalog.diagnostics ++ missing }

def start (w : Workspace) (c : Configuration) : Except Failure Scanner :=
  match c.check (w.files.exists? c.root) with
  | .error e => .error e
  | .ok () => .ok (ofCatalog w c (Catalog.load (c.ruleFiles.map (ruleFile w))))

def matcher (s : Scanner) (w : Workspace) (cancelled : Bool) : Option StructuralMatcher :=
  s.structural.map fun t => t.matcher w.tools cancelled

/-- The totals of a file that was read. -/
def scanSource (s : Scanner) (w : Workspace) (cancelled : Bool) (source : Source) : Totals :=
  let start := Totals.ofLimit s.configuration.sampleLimit
  let rules := s.catalog.rulesFor source.language
  match analyze (s.matcher w cancelled) s.configuration.scopes cancelled rules
      s.catalog.lifecycle source with
  | .error .cancelled => start
  | .error e => start.addDiagnostic ((Diagnostic.ofFailure e).withPath source.display)
  | .ok a =>
    let start := a.found.diagnostics.foldl Totals.addDiagnostic start
    start.addFile rules a.tree.precise a.results

def scanFile (s : Scanner) (w : Workspace) (cancelled : Bool) (f : DiscoveredFile) : Totals :=
  let start := Totals.ofLimit s.configuration.sampleLimit
  if cancelled then start
  else
    match Source.load f.path f.display f.language s.configuration.fileSizeLimit
        (w.files.find f.path).toOption with
    | .error e => start.addSkip ((Diagnostic.ofFailure e).withPath f.display)
    | .ok source => s.scanSource w cancelled source

/-- The files that the search keeps, and a diagnostic when it failed. -/
def selectFiles (s : Scanner) (w : Workspace) (cancelled : Bool) (files : List DiscoveredFile) :
    List DiscoveredFile × List Diagnostic :=
  let kept := prefilter w.tools s.searchAvailable s.configuration.toolTimeout cancelled
    s.configuration.root (files.map (·.path)) s.catalog.anchors
  (files.filter fun f => kept.files.contains f.path, kept.diagnostic.toList)

def matcherMode (s : Scanner) (t : Totals) : MatcherMode :=
  if s.structural.isNone then .textual
  else if t.textualMatches == 0 then .structural
  else if t.structuralMatches == 0 then .textual
  else .mixed

/-- Where linters are started: the root, or the directory that holds it. -/
def linterDirectory (w : Workspace) (root : String) : String :=
  if w.files.isDirectoryAt root then root else (Path.parent? root).getD root

/-- The report on some totals. -/
def report (s : Scanner) (totals : Totals) (lints : List LintFinding) (before : Option Counts)
    (cancelled : Bool) (startedAt : String) (elapsed : Nat) : Report :=
  let findings := totals.findings s.catalog s.configuration.escalationThreshold
  { schemaVersion := schemaVersion
    toolVersion := toolVersion
    summary := {
      root := s.configuration.root
      startedAt := startedAt
      elapsed := elapsed
      filesScanned := totals.filesScanned
      filesSkipped := totals.filesSkipped
      rulesLoaded := s.catalog.rules.length
      matcherMode := s.matcherMode totals
      structuralVersion := s.structural.map (·.version)
      severityCounts := .ofFindings findings
      leaked := occurrencesOf .leaked findings
      ambiguous := occurrencesOf .ambiguous findings
      status := .of findings lints totals.isDegraded
      degraded := totals.isDegraded
      cancelled := cancelled }
    findings := findings
    categories := totals.categories
    diagnosticCounts := totals.diagnosticCounts
    diagnostics := totals.diagnostics
    lints := lints
    baseline := before.map fun b => b.delta (Counts.ofFindings findings) }

/-- The counts of the configured baseline. -/
def loadBaseline (s : Scanner) (w : Workspace) : Except Failure (Option Counts) :=
  match s.configuration.baseline with
  | none => .ok none
  | some path =>
    match Baseline.load path (w.text path) with
    | .ok counts => .ok (some counts)
    | .error e => .error e

/-- The files below the root. -/
def discoverFiles (s : Scanner) (w : Workspace) : Except Failure (List DiscoveredFile) :=
  match FileFilter.ofPatterns s.configuration.includes s.configuration.excludes with
  | .error e => .error e
  | .ok filter => discover filter w.files s.configuration.root

/-- What is recorded about a scan that was cancelled. -/
def partialResults : Diagnostic := .info .cancelled "scan cancelled; results are partial"

/-- The totals of some files together. -/
def scanFiles (s : Scanner) (w : Workspace) (cancelled : Bool) (files : List DiscoveredFile) :
    Totals :=
  (files.map (s.scanFile w cancelled)).foldl Totals.merge
    (Totals.ofLimit s.configuration.sampleLimit)

def run (s : Scanner) (w : Workspace) (cancelled : Bool) (startedAt : String) (elapsed : Nat) :
    Except Failure Report :=
  match s.loadBaseline w with
  | .error e => .error e
  | .ok before =>
    match s.discoverFiles w with
    | .error e => .error e
    | .ok discovered =>
      let (files, searchDiagnostics) := s.selectFiles w cancelled discovered
      let totals := s.scanFiles w cancelled files
      let c := s.configuration
      let (lints, lintDiagnostics) :=
        if cancelled then ([], [])
        else runLinters w.tools (linterDirectory w c.root) c.toolTimeout c.sampleLimit false
          c.linters
      let log := ((DiagnosticLog.empty.extend s.startup).extend searchDiagnostics).extend
        lintDiagnostics
      let log := if cancelled then log.push partialResults else log
      let totals := log.drain.1.foldl Totals.addDiagnostic totals
      .ok (s.report totals lints before cancelled startedAt elapsed)

end Scanner

end LeakScan
