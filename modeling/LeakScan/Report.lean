import LeakScan.Baseline
import LeakScan.Linter
import LeakScan.Totals

/-!
# LeakScan.Report

The outcome of a scan.

* `Summary`, `Report` — what a scan found and how it went.
* `RunStatus`, `MatcherMode` — how a scan ended, and how it matched.
* `Report.exitCode` — 1 for a confirmed leak that is severe enough, else 0.
-/

namespace LeakScan

inductive RunStatus where
  | clean
  | cleanDegraded
  | issues
  deriving DecidableEq, Repr, Inhabited

namespace RunStatus

def all : List RunStatus := [.clean, .cleanDegraded, .issues]

def name : RunStatus → String
  | .clean => "clean"
  | .cleanDegraded => "clean_degraded"
  | .issues => "issues"

def ofName? (s : String) : Option RunStatus := all.find? fun v => v.name == s

def label : RunStatus → String
  | .clean => "clean"
  | .cleanDegraded => "clean (degraded)"
  | .issues => "issues found"

end RunStatus

/-- How a whole scan matched. -/
abbrev MatcherMode := FindingMode

structure SeverityCount where
  critical : Nat := 0
  warning : Nat := 0
  info : Nat := 0
  deriving DecidableEq, Repr, Inhabited

def SeverityCount.ofFindings (findings : List Finding) : SeverityCount where
  critical := findings.countP (·.severity == .critical)
  warning := findings.countP (·.severity == .warning)
  info := findings.countP (·.severity == .info)

structure Summary where
  root : String
  startedAt : String
  /-- In milliseconds. -/
  elapsed : Nat
  filesScanned : UInt64
  filesSkipped : UInt64
  rulesLoaded : Nat
  matcherMode : MatcherMode
  structuralVersion : Option String
  severityCounts : SeverityCount
  leaked : UInt64
  ambiguous : UInt64
  status : RunStatus
  degraded : Bool
  cancelled : Bool
  deriving DecidableEq, Repr

structure Report where
  schemaVersion : Nat
  toolVersion : String
  summary : Summary
  findings : List Finding
  categories : SortedMap String CategoryTally
  diagnosticCounts : SortedMap String UInt64
  diagnostics : List Diagnostic
  lints : List LintFinding := []
  baseline : Option Delta := none

/-- Version of the JSON form of a report. -/
def schemaVersion : Nat := 1

def toolVersion : String := "0.3.0"

/-- Occurrences of findings with a verdict. -/
def occurrencesOf (verdict : Verdict) (findings : List Finding) : UInt64 :=
  (findings.filter (·.verdict == verdict)).foldl (fun n f => n + f.occurrences) 0

def RunStatus.of (findings : List Finding) (lints : List LintFinding) (degraded : Bool) :
    RunStatus :=
  if !findings.isEmpty || lints.any fun l => 0 < l.count then .issues
  else if degraded then .cleanDegraded
  else .clean

namespace Report

def confirmed (r : Report) : List Finding := r.findings.filter (·.isConfirmed)

/-- Whether a finding makes a scan fail. -/
def isFailing (failOnWarning : Bool) (f : Finding) : Bool :=
  f.isConfirmed && (f.severity == .critical || (failOnWarning && f.severity == .warning))

def exitCodeOf (failOnWarning : Bool) (findings : List Finding) : Nat :=
  if findings.any (isFailing failOnWarning) then 1 else 0

def exitCode (r : Report) (failOnWarning : Bool) : Nat := exitCodeOf failOnWarning r.findings

end Report

end LeakScan
