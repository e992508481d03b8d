import LeakScan.Json.Printer
import LeakScan.Report

/-!
# LeakScan.Report.Json

Reports as JSON. Fields come in a fixed order, and optional ones are left out when absent.

* `Finding.toJson`, `Location.toJson`, `Diagnostic.toJson` — parts of a report.
* `Report.toJson`, `Report.jsonText` — a whole report.
-/

namespace LeakScan

open Json

/-- A field that may be left out. -/
def optionalEntry (name : String) (v : Option Json) : List (String × Json) :=
  v.toList.map (name, ·)

def listEntry (name : String) (items : List Json) : List (String × Json) :=
  if items.isEmpty then [] else [(name, .arr items)]

/-- A share of one hundred as a decimal fraction. -/
def shareJson (percent : Nat) : Json := .num (.decimal ⟨false, percent, -2⟩)

def nullable (s : Option String) : Json := (s.map .str).getD .null

def Location.toJson (l : Location) : Json :=
  .obj ([("file", .str l.file), ("line", .nat l.line), ("column", .nat l.column)] ++
    optionalEntry "snippet" (l.snippet.map .str))

def Diagnostic.toJson (d : Diagnostic) : Json :=
  .obj ([("kind", .str d.kind.name), ("level", .str d.level.name)] ++
    optionalEntry "path" (d.path.map .str) ++ optionalEntry "rule_id" (d.ruleId.map .str) ++
    [("message", .str d.message)])

def Finding.toJson (f : Finding) : Json :=
  .obj ([("rule_id", .str f.ruleId), ("verdict", .str f.verdict.name),
      ("severity", .str f.severity.name), ("base_severity", .str f.baseSeverity.name),
      ("confidence", .str f.confidence.name), ("confidence_score", shareJson f.score),
      ("resource_kind", .str f.resourceKind), ("category", .str f.category),
      ("language", .str f.language), ("title", .str f.title),
      ("description", .str f.description)] ++
    optionalEntry "remediation" (f.remediation.map .str) ++
    [("occurrences", .nat f.occurrences), ("files", .nat f.files),
      ("locations", .arr (f.locations.map (·.toJson))), ("mode", .str f.mode.name)] ++
    listEntry "escalation_factors" (f.escalationFactors.map .str))

def SeverityCount.toJson (c : SeverityCount) : Json :=
  .obj [("critical", .nat c.critical), ("warning", .nat c.warning), ("info", .nat c.info)]

def CategoryTally.toJson (c : CategoryTally) : Json :=
  .obj [("cleaned", .nat c.cleaned), ("leaked", .nat c.leaked), ("ambiguous", .nat c.ambiguous)]

def LintFinding.toJson (l : LintFinding) : Json :=
  .obj [("linter", .str l.linter), ("count", .nat l.count),
    ("samples", .arr (l.samples.map (·.toJson)))]

def DeltaEntry.toJson (e : DeltaEntry) : Json :=
  .obj [("rule_id", .str e.ruleId), ("verdict", .str e.verdict.name),
    ("occurrences", .nat e.occurrences)]

def DeltaChange.toJson (c : DeltaChange) : Json :=
  .obj [("rule_id", .str c.ruleId), ("verdict", .str c.verdict.name), ("before", .nat c.before),
    ("after", .nat c.after)]

def Delta.toJson (d : Delta) : Json :=
  .obj [("new", .arr (d.new.map (·.toJson))), ("resolved", .arr (d.resolved.map (·.toJson))),
    ("changed", .arr (d.changed.map (·.toJson)))]

def Summary.toJson (s : Summary) : Json :=
  .obj [("root", .str s.root), ("started_at", .str s.startedAt), ("elapsed_ms", .nat s.elapsed),
    ("files_scanned", .nat s.filesScanned), ("files_skipped", .nat s.filesSkipped),
    ("rules_loaded", .nat s.rulesLoaded), ("matcher_mode", .str s.matcherMode.name),
    ("ast_grep_version", nullable s.structuralVersion),
    ("severity_counts", s.severityCounts.toJson), ("leaked", .nat s.leaked),
    ("ambiguous", .nat s.ambiguous), ("status", .str s.status.name),
    ("degraded", .bool s.degraded), ("cancelled", .bool s.cancelled)]

namespace Report

def toJson (r : Report) : Json :=
  .obj ([("schema_version", .nat r.schemaVersion), ("tool_version", .str r.toolVersion),
      ("summary", r.summary.toJson), ("findings", .arr (r.findings.map (·.toJson))),
      ("categories", .obj (r.categories.entries.map fun (n, c) => (n, c.toJson))),
      ("diagnostics", .obj [
        ("counts", .obj (r.diagnosticCounts.entries.map fun (n, c) => (n, .nat c))),
        ("samples", .arr (r.diagnostics.map (·.toJson)))])] ++
    listEntry "supplementary" (r.lints.map (·.toJson)) ++
    optionalEntry "baseline" (r.baseline.map (·.toJson)))

def jsonText (r : Report) : String := r.toJson.pretty

end Report

end LeakScan
