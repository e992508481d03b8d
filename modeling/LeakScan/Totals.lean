import LeakScan.Catalog
import LeakScan.Correlation
import LeakScan.Finding

/-!
# LeakScan.Totals

Totals of a scan. The totals of single files are merged in any order. Counts have 64 bits and wrap
around.

* `FindingKey`, `Tally` — what is counted for a rule and a verdict.
* `Totals` — tallies, categories and diagnostics. Samples and diagnostics are kept up to a limit,
  always the smallest ones.
* `Totals.addFile`, `addSkip`, `addDiagnostic`, `merge` — how totals grow.
* `Totals.findings` — the findings of a report.
-/

namespace LeakScan

open Text

/-- The first `limit` elements of two lists together, in ascending order. -/
def smallest [Ord α] (limit : Nat) (a b : List α) : List α :=
  ((a ++ b).mergeSort fun x y => (compare x y).isLE).take limit

structure FindingKey where
  ruleId : String
  verdict : Verdict
  deriving DecidableEq, Repr

namespace FindingKey

instance : Ord FindingKey := ⟨compareLex (compareOn ruleId) (compareOn verdict)⟩

instance : Std.TransOrd FindingKey :=
  inferInstanceAs (Std.TransCmp (compareLex (compareOn ruleId) (compareOn verdict)))

end FindingKey

structure Tally where
  occurrences : UInt64 := 0
  files : UInt64 := 0
  samples : List Location := []
  /-- Occurrences that were found structurally. -/
  structural : UInt64 := 0
  /-- Those of them in files whose scopes are known precisely. -/
  exact : UInt64 := 0
  deriving DecidableEq, Repr, Inhabited

namespace Tally

def merge (limit : Nat) (a b : Tally) : Tally where
  occurrences := a.occurrences + b.occurrences
  files := a.files + b.files
  samples := smallest limit a.samples b.samples
  structural := a.structural + b.structural
  exact := a.exact + b.exact

def confidence (t : Tally) (verdict : Verdict) : Confidence :=
  if verdict == .ambiguous || t.exact == 0 then .low
  else if t.exact == t.occurrences then .high
  else .medium

def mode (t : Tally) : FindingMode :=
  if t.structural == t.occurrences then .structural
  else if t.structural == 0 then .textual
  else .mixed

end Tally

structure CategoryTally where
  cleaned : UInt64 := 0
  leaked : UInt64 := 0
  ambiguous : UInt64 := 0
  deriving DecidableEq, Repr, Inhabited

namespace CategoryTally

def add (t : CategoryTally) : Verdict → CategoryTally
  | .cleaned => { t with cleaned := t.cleaned + 1 }
  | .leaked => { t with leaked := t.leaked + 1 }
  | .ambiguous => { t with ambiguous := t.ambiguous + 1 }

def merge (a b : CategoryTally) : CategoryTally :=
  ⟨a.cleaned + b.cleaned, a.leaked + b.leaked, a.ambiguous + b.ambiguous⟩

end CategoryTally

structure Totals where
  /-- How many samples are kept for a tally. -/
  sampleLimit : Nat
  tallies : SortedMap FindingKey Tally := .empty
  categories : SortedMap String CategoryTally := .empty
  /-- Diagnostics by the name of their kind. -/
  diagnosticCounts : SortedMap String UInt64 := .empty
  diagnostics : List Diagnostic := []
  /-- Diagnostics that lower the trust in a clean result. -/
  degraded : UInt64 := 0
  filesScanned : UInt64 := 0
  filesSkipped : UInt64 := 0
  structuralMatches : UInt64 := 0
  textualMatches : UInt64 := 0
  deriving DecidableEq

namespace Totals

def ofLimit (limit : Nat) : Totals := { sampleLimit := limit }

/-- How many diagnostics are kept. The product has 64 bits. -/
def diagnosticLimit (sampleLimit : Nat) : Nat := max sampleLimit 1 * 10 % wordLimit

def isDegraded (t : Totals) : Bool := 0 < t.degraded

/-! ## Adding -/

def snippetLimit : Nat := 120

/-- The first line of a match, cut to a fixed length. -/
def snippetOf (text : String) : String :=
  String.ofList ((trim ((textLines text.toList).head?.getD [])).take snippetLimit)

def locationOf (m : Match) : Location where
  file := m.path
  line := m.line
  column := m.column
  snippet := some (snippetOf m.text)

def keyOf (r : Correlation) : FindingKey := ⟨r.acquisition.ruleId, r.verdict⟩

def isStructural (r : Correlation) : Bool := r.acquisition.mode == .structural

/-- The category of a rule; one that is not known has the empty name. -/
def categoryOf (rules : List Rule) (ruleId : String) : String :=
  match rules.find? (·.id == ruleId) with
  | some r => r.category
  | none => ""

/-- What one acquisition adds to the tally of its key. -/
def single (precise : Bool) (r : Correlation) : Tally where
  occurrences := 1
  samples := [locationOf r.acquisition]
  structural := if isStructural r then 1 else 0
  exact := if isStructural r && precise then 1 else 0

def addResult (rules : List Rule) (precise : Bool) (t : Totals) (r : Correlation) : Totals :=
  { t with
    structuralMatches := t.structuralMatches + if isStructural r then 1 else 0
    textualMatches := t.textualMatches + if isStructural r then 0 else 1
    categories := t.categories.alter (categoryOf rules r.acquisition.ruleId) fun c =>
      (c.getD {}).add r.verdict
    tallies :=
      if r.verdict == .cleaned then t.tallies
      else t.tallies.alter (keyOf r) fun v =>
        (v.getD {}).merge t.sampleLimit (single precise r) }

/-- The keys of some results, each once. -/
def touched (results : List Correlation) : List FindingKey :=
  (SortedMap.ofList
    ((results.filter (·.verdict != .cleaned)).map fun r => (keyOf r, ()))).keys

def countFile (tallies : SortedMap FindingKey Tally) (key : FindingKey) :
    SortedMap FindingKey Tally :=
  tallies.alter key fun v => { v.getD {} with files := (v.getD {}).files + 1 }

/-- Adds the results of one file. Each key that they touch counts the file once. -/
def addFile (rules : List Rule) (precise : Bool) (t : Totals) (results : List Correlation) :
    Totals :=
  let t := results.foldl (addResult rules precise) t
  { t with
    tallies := (touched results).foldl countFile t.tallies
    filesScanned := t.filesScanned + 1 }

def addDiagnostic (t : Totals) (d : Diagnostic) : Totals :=
  { t with
    diagnosticCounts := t.diagnosticCounts.alter d.kind.name fun n => n.getD 0 + 1
    degraded := t.degraded + if d.kind.degrades then 1 else 0
    diagnostics := smallest (diagnosticLimit t.sampleLimit) t.diagnostics [d] }

def addSkip (t : Totals) (d : Diagnostic) : Totals :=
  ({ t with filesSkipped := t.filesSkipped + 1 }).addDiagnostic d

/-! ## Merging -/

/-- The tallies of both, cut to a new limit. -/
def mergeTallies (limit : Nat) (a b : SortedMap FindingKey Tally) : SortedMap FindingKey Tally :=
  let cut (t : Tally) : Tally := { t with samples := t.samples.take limit }
  let both := b.entries.foldl (fun m e => m.alter e.1 fun v => (v.getD {}).merge limit e.2) a
  SortedMap.mapValues cut both

def merge (a b : Totals) : Totals :=
  let limit := max a.sampleLimit b.sampleLimit
  { sampleLimit := limit
    tallies := mergeTallies limit a.tallies b.tallies
    categories := a.categories.mergeWith CategoryTally.merge b.categories
    diagnosticCounts := a.diagnosticCounts.mergeWith (· + ·) b.diagnosticCounts
    diagnostics := smallest (diagnosticLimit limit) a.diagnostics b.diagnostics
    degraded := a.degraded + b.degraded
    filesScanned := a.filesScanned + b.filesScanned
    filesSkipped := a.filesSkipped + b.filesSkipped
    structuralMatches := a.structuralMatches + b.structuralMatches
    textualMatches := a.textualMatches + b.textualMatches }

/-! ## Findings -/

def titleOf (rule : Rule) : Verdict → String
  | .ambiguous => s!"Possibly unreleased {rule.kind}: {rule.summary}"
  | _ => rule.summary

def descriptionOf (t : Tally) : Verdict → String
  | .ambiguous =>
    s!"{t.occurrences} acquisition(s) in {t.files} file(s) have a matching cleanup whose " ++
      "scope could not be judged precisely."
  | _ =>
    s!"{t.occurrences} acquisition(s) in {t.files} file(s) have no matching cleanup in a scope " ++
      "where it is guaranteed to run."

def findingOf (rule : Rule) (verdict : Verdict) (t : Tally) : Finding where
  ruleId := rule.id
  verdict := verdict
  severity := rule.severity
  baseSeverity := rule.severity
  confidence := t.confidence verdict
  score := (t.confidence verdict).percentage
  resourceKind := rule.kind
  category := rule.category
  language := rule.language.name
  title := titleOf rule verdict
  description := descriptionOf t verdict
  remediation := rule.remediation
  occurrences := t.occurrences
  files := t.files
  locations := t.samples
  mode := t.mode

/-- The most severe first, then by rule and verdict. -/
def reportOrder (a b : Finding) : Ordering :=
  (compare b.severity a.severity).then
    ((compare a.ruleId b.ruleId).then (compare a.verdict b.verdict))

/-- One finding for each key whose rule is in the catalog. -/
def findings (t : Totals) (catalog : Catalog) (threshold : Option Nat) : List Finding :=
  let found := t.tallies.entries.filterMap fun (key, tally) =>
    if tally.occurrences == 0 then none
    else
      (catalog.rule? key.ruleId).map fun rule =>
        (findingOf rule key.verdict tally).escalated threshold
  found.mergeSort fun a b => (reportOrder a b).isLE

end Totals

end LeakScan
