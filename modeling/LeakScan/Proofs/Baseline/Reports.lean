import LeakScan.Proofs.Baseline.Delta
import LeakScan.Proofs.Json.RoundTrip
import LeakScan.Report.Json

/-!
# LeakScan.Proofs.Baseline.Reports

A report that is written, and read as a baseline.

* `height_toJson` — reports are flat enough to be read.
* `readFinding_toJson`, `ofJson_toJson` — the counts in the JSON form of a report are those of its
  findings.
* `parse_jsonText` — so are the counts that are read from its text.
* `baseline_delta_exact` — the delta of two lists of findings, the first of them given by its report.
-/

namespace LeakScan

namespace Json

theorem heightItems_le_iff {items : List Json} {n : Nat} :
    heightItems items ≤ n ↔ ∀ v ∈ items, v.height ≤ n := by
  induction items with
  | nil => simp [heightItems]
  | cons v vs ih => simp [heightItems, ih]

theorem heightFields_le_iff {fields : List (String × Json)} {n : Nat} :
    heightFields fields ≤ n ↔ ∀ f ∈ fields, f.2.height ≤ n := by
  induction fields with
  | nil => simp [heightFields]
  | cons f fields ih =>
    obtain ⟨name, v⟩ := f
    simp [heightFields, ih]

@[simp] theorem height_null : null.height = 0 := by simp [height]

@[simp] theorem height_bool (b : Bool) : (bool b).height = 0 := by simp [height]

@[simp] theorem height_num (n : Number) : (num n).height = 0 := by simp [height]

@[simp] theorem height_str (s : String) : (str s).height = 0 := by simp [height]

theorem height_arr_le_iff {items : List Json} {n : Nat} :
    (arr items).height ≤ n + 1 ↔ ∀ v ∈ items, v.height ≤ n := by
  rw [height, Nat.add_le_add_iff_right, heightItems_le_iff]

theorem height_obj_le_iff {fields : List (String × Json)} {n : Nat} :
    (obj fields).height ≤ n + 1 ↔ ∀ f ∈ fields, f.2.height ≤ n := by
  rw [height, Nat.add_le_add_iff_right, heightFields_le_iff]

theorem rereadItems_eq_map (items : List Json) : rereadItems items = items.map reread := by
  induction items with
  | nil => rfl
  | cons v vs ih => rw [rereadItems, ih, List.map_cons]

theorem rereadFields_eq_map (fields : List (String × Json)) :
    rereadFields fields = fields.map fun f => (f.1, f.2.reread) := by
  induction fields with
  | nil => rfl
  | cons f fields ih =>
    obtain ⟨name, v⟩ := f
    rw [rereadFields, ih, List.map_cons]

theorem lookup_rereadFields (name : String) (fields : List (String × Json)) :
    (rereadFields fields).lookup name = (fields.lookup name).map reread := by
  induction fields with
  | nil => rfl
  | cons f fields ih =>
    obtain ⟨n, v⟩ := f
    rw [rereadFields, List.lookup_cons, List.lookup_cons, ih]
    split <;> rfl

/-- Fields are found again in what is read back. -/
theorem recordFields_reread (names : List String) (expected : String) {fields : List (String × Json)}
    (hnodup : ∀ name ∈ names, (fields.filter (·.1 == name)).length ≤ 1) :
    recordFields names expected (obj fields).reread =
      .ok (names.map fun name => (fields.lookup name).map reread) := by
  have hrepeated : (names.any fun name =>
      1 < ((rereadFields fields).filter (·.1 == name)).length) = false := by
    rw [List.any_eq_false]
    intro name hname
    rw [rereadFields_eq_map, List.filter_map, List.length_map, decide_eq_true_eq, Nat.not_lt]
    exact hnodup name hname
  rw [reread, recordFields, hrepeated]
  simp only [Bool.false_eq_true, if_false, lookup_rereadFields]

end Json

open Json

/-! ## Depth -/

theorem forall_optionalEntry {name : String} {v : Option Json} {p : String × Json → Prop} :
    (∀ f ∈ optionalEntry name v, p f) ↔ ∀ w ∈ v, p (name, w) := by
  simp [optionalEntry]

theorem forall_listEntry {name : String} {items : List Json} {p : String × Json → Prop}
    (h : p (name, .arr items)) : ∀ f ∈ listEntry name items, p f := by
  intro f hf
  rw [listEntry] at hf
  split at hf
  · cases hf
  · rw [List.mem_singleton.1 hf]
    exact h

theorem height_arr_map_le {β : Type u} {toJson : β → Json} {n : Nat} (h : ∀ b, (toJson b).height ≤ n)
    (l : List β) : (arr (l.map toJson)).height ≤ n + 1 := by
  rw [height_arr_le_iff]
  simp [h]

theorem Location.height_toJson (l : Location) : l.toJson.height ≤ 1 := by
  rw [Location.toJson, height_obj_le_iff, List.forall_mem_append, forall_optionalEntry]
  simp [nat]

theorem Finding.height_toJson (f : Finding) : f.toJson.height ≤ 3 := by
  have hlocations : (arr (f.locations.map (·.toJson))).height ≤ 2 :=
    height_arr_map_le Location.height_toJson f.locations
  have hfactors : (arr (f.escalationFactors.map str)).height ≤ 2 :=
    height_arr_map_le (fun s => by simp) f.escalationFactors
  rw [Finding.toJson, height_obj_le_iff]
  simp only [List.forall_mem_append, forall_optionalEntry]
  refine ⟨⟨⟨?_, ?_⟩, ?_⟩, forall_listEntry hfactors⟩
  · simp [shareJson]
  · simp
  · simp [nat, hlocations]

theorem Diagnostic.height_toJson (d : Diagnostic) : d.toJson.height ≤ 1 := by
  rw [Diagnostic.toJson, height_obj_le_iff]
  simp only [List.forall_mem_append, forall_optionalEntry]
  simp

theorem LintFinding.height_toJson (l : LintFinding) : l.toJson.height ≤ 3 := by
  have hsamples : (arr (l.samples.map (·.toJson))).height ≤ 2 :=
    height_arr_map_le Location.height_toJson l.samples
  rw [LintFinding.toJson, height_obj_le_iff]
  simp [nat, hsamples]

theorem Delta.height_toJson (d : Delta) : d.toJson.height ≤ 3 := by
  have hentry : ∀ e : DeltaEntry, e.toJson.height ≤ 1 := by
    intro e
    rw [DeltaEntry.toJson, height_obj_le_iff]
    simp [nat]
  have hchange : ∀ c : DeltaChange, c.toJson.height ≤ 1 := by
    intro c
    rw [DeltaChange.toJson, height_obj_le_iff]
    simp [nat]
  rw [Delta.toJson, height_obj_le_iff]
  simp [height_arr_map_le hentry, height_arr_map_le hchange]

theorem Summary.height_toJson (s : Summary) : s.toJson.height ≤ 2 := by
  have hcounts : s.severityCounts.toJson.height ≤ 1 := by
    rw [SeverityCount.toJson, height_obj_le_iff]
    simp [nat]
  have hversion : (nullable s.structuralVersion).height ≤ 1 := by
    cases hversion : s.structuralVersion <;> simp [nullable]
  rw [Summary.toJson, height_obj_le_iff]
  simp [nat, hcounts, hversion]

theorem Report.height_toJson (r : Report) : r.toJson.height ≤ 5 := by
  have hsummary : r.summary.toJson.height ≤ 4 := r.summary.height_toJson.trans (by decide)
  have hfindings : (arr (r.findings.map (·.toJson))).height ≤ 4 :=
    height_arr_map_le Finding.height_toJson r.findings
  have htally : ∀ c : CategoryTally, c.toJson.height ≤ 3 := by
    intro c
    rw [CategoryTally.toJson, height_obj_le_iff]
    simp [nat]
  have hcategories :
      (obj (r.categories.entries.map fun e => (e.1, e.2.toJson))).height ≤ 4 := by
    rw [height_obj_le_iff, List.forall_mem_map]
    exact fun e _ => htally e.2
  have hcounts : (obj (r.diagnosticCounts.entries.map fun e => (e.1, nat e.2))).height ≤ 3 := by
    rw [height_obj_le_iff, List.forall_mem_map]
    simp [nat]
  have hsamples : (arr (r.diagnostics.map (·.toJson))).height ≤ 3 :=
    (height_arr_map_le Diagnostic.height_toJson r.diagnostics).trans (by decide)
  have hdiagnostics : (obj [
      ("counts", .obj (r.diagnosticCounts.entries.map fun e => (e.1, .nat e.2))),
      ("samples", .arr (r.diagnostics.map (·.toJson)))]).height ≤ 4 := by
    rw [height_obj_le_iff]
    simp only [List.forall_mem_cons, hcounts, hsamples, true_and, List.not_mem_nil, false_implies,
      implies_true]
  have hlints : (arr (r.lints.map (·.toJson))).height ≤ 4 :=
    height_arr_map_le LintFinding.height_toJson r.lints
  rw [Report.toJson, height_obj_le_iff]
  simp only [List.forall_mem_append, forall_optionalEntry, List.forall_mem_cons, List.not_mem_nil,
    false_implies, implies_true, and_true]
  refine ⟨⟨⟨?_, ?_, hsummary, hfindings, hcategories, hdiagnostics⟩, forall_listEntry hlints⟩, ?_⟩
  · simp [nat]
  · simp
  · intro v hv
    obtain ⟨d, -, rfl⟩ := Option.map_eq_some_iff.1 hv
    exact d.height_toJson.trans (by decide)

/-! ## Counts -/

theorem filter_optionalEntry {name other : String} (h : name ≠ other) (v : Option Json) :
    (optionalEntry name v).filter (·.1 == other) = [] := by
  cases v <;> simp [optionalEntry, h]

theorem filter_listEntry {name other : String} (h : name ≠ other) (items : List Json) :
    (listEntry name items).filter (·.1 == other) = [] := by
  rw [listEntry]
  split <;> simp [h]

theorem lookup_optionalEntry {name other : String} (h : other ≠ name) (v : Option Json) :
    (optionalEntry name v).lookup other = none := by
  cases v <;> simp [optionalEntry, h]

theorem Verdict.ofName?_name (v : Verdict) : ofName? v.name = some v := by
  cases v <;> decide

namespace Baseline

/-- What a baseline keeps of a finding stands in its JSON form. -/
theorem readFinding_toJson (f : Finding) :
    readFinding f.toJson.reread = .ok (f.fingerprint, f.occurrences) := by
  have hfields : recordFields ["rule_id", "verdict", "resource_kind", "occurrences"]
      "struct BaselineFinding" f.toJson.reread =
        .ok [some (.str f.ruleId), some (.str f.verdict.name), some (.str f.resourceKind),
          some (.nat f.occurrences)] := by
    rw [Finding.toJson, recordFields_reread]
    · simp [List.lookup_append, List.lookup_cons, lookup_optionalEntry, reread, nat, Number.reread]
    · simp [filter_optionalEntry, filter_listEntry]
  have hverdict := f.verdict.ofName?_name
  rw [readFinding, hfields]
  simp [requiredField, optionalField, asString, asNamed, hverdict, asCount, nat, bind, Except.bind,
    pure, Except.pure, Finding.fingerprint]

theorem mapItems_readFinding (findings : List Finding) :
    mapItems readFinding (findings.map fun f => f.toJson.reread) =
      .ok (findings.map fun f => (f.fingerprint, f.occurrences)) := by
  induction findings with
  | nil => rfl
  | cons f rest ih => simp only [List.map_cons, mapItems, readFinding_toJson, ih]

/-- The counts in the JSON form of a report are those of its findings. -/
theorem ofJson_toJson (r : Report) :
    ofJson r.toJson.reread = .ok (Counts.ofFindings r.findings) := by
  have hfields : recordFields ["findings"] "struct BaselineFile" r.toJson.reread =
      .ok [some (.arr (r.findings.map fun f => f.toJson.reread))] := by
    rw [Report.toJson, recordFields_reread]
    · simp [List.lookup_append, List.lookup_cons, reread, rereadItems_eq_map]
    · simp [filter_optionalEntry, filter_listEntry]
  rw [ofJson, hfields]
  simp [requiredField, asList, mapItems_readFinding, bind, Except.bind, pure, Except.pure,
    Counts.ofFindings]

/-- A report is read as the counts of its findings, if the numbers in it fit. -/
theorem parse_jsonText {r : Report} (h : ∀ n ∈ r.toJson.numbers, n.Readable) :
    parse r.jsonText = .ok (Counts.ofFindings r.findings) := by
  have hdepth : r.toJson.height < depthLimit := r.height_toJson.trans_lt (by decide)
  rw [parse, Report.jsonText, parse_pretty hdepth h]
  simp only [ofJson_toJson]

end Baseline

namespace Counts

/-- The count of a fingerprint is the sum of its occurrences in 64 bits, and a report is read as the
counts of its findings. With them the delta of two lists of findings is exact: each fingerprint of
either list adds to one of the three lists what its two counts say, or nothing if they are the same,
and each list is in the order of the fingerprints. Exchanging the two sides exchanges new and
resolved, before and after; and no list differs from itself. -/
theorem baseline_delta_exact (before after : List Finding) :
    (∀ f, (ofFindings before).get? f = occurrences? before f) ∧
    (∀ r : Report, r.findings = before → (∀ n ∈ r.toJson.numbers, n.Readable) →
      Baseline.parse r.jsonText = .ok (ofFindings before)) ∧
    (∃ fingerprints : List Fingerprint,
      fingerprints.Pairwise (fun f g => compare f g = .lt) ∧
      (∀ f, f ∈ fingerprints ↔
        f ∈ before.map (·.fingerprint) ∨ f ∈ after.map (·.fingerprint)) ∧
      (ofFindings before).delta (ofFindings after) =
        Share.collect fingerprints fun f => .of (occurrences? before f) (occurrences? after f)) ∧
    (ofFindings after).delta (ofFindings before) =
      ((ofFindings before).delta (ofFindings after)).mirror ∧
    (ofFindings before).delta (ofFindings before) = {} := by
  refine ⟨get?_ofFindings before, ?_, ?_, delta_mirror _ _, delta_self _⟩
  · rintro r rfl hnumbers
    exact Baseline.parse_jsonText hnumbers
  · obtain ⟨fingerprints, h⟩ := exists_spans (ofFindings before) (ofFindings after)
    refine ⟨fingerprints, h.ascending, fun f => ?_, ?_⟩
    · rw [h.mem_iff, mem_keys_ofFindings, mem_keys_ofFindings]
    · rw [delta_eq h]
      simp only [get?_ofFindings]

def plainReport (findings : List Finding) : Report where
  schemaVersion := 1
  toolVersion := "0.3.0"
  summary := {
    root := "."
    startedAt := "2024-01-02T03:04:05Z"
    elapsed := 7
    filesScanned := 1
    filesSkipped := 0
    rulesLoaded := 3
    matcherMode := .structural
    structuralVersion := none
    severityCounts := .ofFindings findings
    leaked := occurrencesOf .leaked findings
    ambiguous := 0
    status := .issues
    degraded := false
    cancelled := false }
  findings := findings
  categories := .empty
  diagnosticCounts := .empty
  diagnostics := []

/-- Sockets are counted twice, and files are found without an occurrence. -/
def earlierFindings : List Finding :=
  [plainFinding ⟨"js.socket", .leaked, "socket"⟩ 1, plainFinding ⟨"js.timer", .leaked, "timer"⟩ 2,
    plainFinding ⟨"js.socket", .leaked, "socket"⟩ 3]

def laterFindings : List Finding :=
  [plainFinding ⟨"js.timer", .leaked, "timer"⟩ 5, plainFinding ⟨"js.file", .leaked, "file"⟩ 0]

theorem earlier_report_compared :
    (∀ n ∈ (plainReport earlierFindings).toJson.numbers, n.Readable) ∧
    Baseline.parse (plainReport earlierFindings).jsonText = .ok (ofFindings earlierFindings) ∧
    (ofFindings earlierFindings).delta (ofFindings laterFindings) =
      { new := [⟨"js.file", .leaked, 0⟩], resolved := [⟨"js.socket", .leaked, 4⟩],
        changed := [⟨"js.timer", .leaked, 2, 5⟩] } := by
  have hnumbers : ∀ n ∈ (plainReport earlierFindings).toJson.numbers, n.Readable := by
    decide +kernel
  exact ⟨hnumbers, (baseline_delta_exact earlierFindings laterFindings).2.1 _ rfl hnumbers,
    by decide +kernel⟩

end Counts
end LeakScan
