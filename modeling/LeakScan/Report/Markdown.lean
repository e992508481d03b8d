import LeakScan.Report

/-!
# LeakScan.Report.Markdown

Reports as Markdown: a summary, one section a finding, and tables of what else there is.

* `Report.markdown` — the whole document.
-/

namespace LeakScan.Report

/-- Lines, each with its end. -/
def lines (ls : List String) : String := String.join (ls.map (· ++ "\n"))

/-- A code span ends at a backtick, so those inside become apostrophes. -/
def codeSpan (s : String) : String :=
  let inner := s.toList.map fun c => if c == '\x60' then '\'' else c
  "`" ++ String.ofList inner ++ "`"

def locationLine (l : Location) : String :=
  match l.snippet with
  | some s => s!"- {l.text} " ++ codeSpan s
  | none => s!"- {l.text}"

def findingSection (f : Finding) : String :=
  lines [s!"### {f.severity.emoji} {f.severity.title}: {f.title}", "",
      s!"**Rule:** `{f.ruleId}` ({f.verdict.name})",
      s!"**Occurrences:** {f.occurrences} in {f.files} file(s)",
      s!"**Confidence:** {f.confidence.title}", "", f.description, ""] ++
    (match f.remediation with
      | some r => lines [s!"**Fix:** {r}", ""]
      | none => "") ++
    if f.locations.isEmpty then ""
    else lines (["**Locations:**"] ++ f.locations.map locationLine ++ [""])

def summarySection (s : Summary) : String :=
  lines (["# Resource Lifecycle Report", "", "## Summary", "", s!"- Status: {s.status.label}",
      s!"- Files: {s.filesScanned} scanned, {s.filesSkipped} skipped",
      s!"- Matcher: {s.matcherMode.name}", s!"- Critical: {s.severityCounts.critical}",
      s!"- Warning: {s.severityCounts.warning}", s!"- Info: {s.severityCounts.info}"] ++
    (if s.cancelled then ["- Cancelled: partial results"] else []) ++ [""])

/-- A section with a heading, left out when it has no lines. -/
def sectionOf (heading : List String) (body : List String) (ending : List String) : String :=
  if body.isEmpty then "" else lines (heading ++ body ++ ending)

def categoryRow (name : String) (c : CategoryTally) : String :=
  s!"| {name} | {c.cleaned} | {c.leaked} | {c.ambiguous} |"

def markdown (r : Report) : String :=
  summarySection r.summary ++
    (if r.findings.isEmpty then ""
      else lines ["## Findings", ""] ++ String.join (r.findings.map findingSection)) ++
    sectionOf
      ["## Categories", "", "| Category | Cleaned | Leaked | Ambiguous |", "|---|---|---|---|"]
      (r.categories.entries.map fun (n, c) => categoryRow n c) [""] ++
    sectionOf ["## Linters", ""] (r.lints.map fun l => s!"- {l.linter}: {l.count} issue(s)") [""] ++
    (match r.baseline with
      | some d =>
        lines ["## Baseline", "", s!"- New: {d.new.length}", s!"- Resolved: {d.resolved.length}",
          s!"- Changed: {d.changed.length}", ""]
      | none => "") ++
    sectionOf ["## Diagnostics", ""]
      (r.diagnosticCounts.entries.map fun (n, c) => s!"- {n}: {c}") []

end LeakScan.Report
