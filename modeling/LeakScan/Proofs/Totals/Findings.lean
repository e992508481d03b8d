import LeakScan.Proofs.Totals.Balance
import LeakScan.Report

/-!
# LeakScan.Proofs.Totals.Findings

What the findings of a report keep of the tallies they are made from.

* `severityAt` — the severity of a finding, from that of its rule and the number of occurrences.
* `finding_counts`, `exists_finding` — a finding is a number other than 0 under a rule of the
  catalog.
* `findings_keys_nodup`, `mem_findings_keys_iff` — under known rules, there is one for each such
  number.
* `occurrencesOf_findings` — the summary adds up what the tallies count.
-/

namespace LeakScan

def Catalog.Knows (c : Catalog) (ruleId : String) : Prop := ∃ r ∈ c.rules, r.id = ruleId

theorem Catalog.id_of_rule? {c : Catalog} {ruleId : String} {rule : Rule}
    (h : c.rule? ruleId = some rule) : rule.id = ruleId := by
  simpa using List.find?_some h

theorem Catalog.Knows.exists_rule {c : Catalog} {ruleId : String} (h : c.Knows ruleId) :
    ∃ rule, c.rule? ruleId = some rule := by
  obtain ⟨r, hr, hid⟩ := h
  refine Option.isSome_iff_exists.1 (List.find?_isSome.2 ⟨r, hr, ?_⟩)
  simpa using hid

/-! ## Severity -/

namespace Finding

/-- What a finding is counted under. -/
def key (f : Finding) : FindingKey := ⟨f.ruleId, f.verdict⟩

/-- The severity of `n` occurrences. -/
def severityAt (threshold : Option Nat) (base : Severity) (n : Nat) : Severity :=
  if threshold.any (· < n) then base.escalate else base

/-- Escalation changes the severity and the reasons for it, and looks at the base severity only. -/
theorem escalated_eq (threshold : Option Nat) (f : Finding) :
    (f.escalated threshold).key = f.key ∧
      (f.escalated threshold).occurrences = f.occurrences ∧
      (f.escalated threshold).severity =
        severityAt threshold f.baseSeverity f.occurrences.toNat := by
  cases threshold with
  | none => exact ⟨rfl, rfl, rfl⟩
  | some limit => by_cases h : limit < f.occurrences.toNat <;> simp [escalated, severityAt, key, h]

end Finding

namespace Totals

open Finding

variable {catalog : Catalog} {threshold : Option Nat}

/-! ## Origin -/

/-- The finding of an entry, if it counts something under a rule of the catalog. -/
def findingAt (catalog : Catalog) (threshold : Option Nat) (e : FindingKey × Tally) :
    Option Finding :=
  if e.2.occurrences == 0 then none
  else
    (catalog.rule? e.1.ruleId).map fun rule =>
      (findingOf rule e.1.verdict e.2).escalated threshold

theorem findings_perm (t : Totals) (catalog : Catalog) (threshold : Option Nat) :
    (t.findings catalog threshold).Perm
      (t.tallies.entries.filterMap (findingAt catalog threshold)) :=
  List.mergeSort_perm _ _

theorem findingAt_eq_some_iff {e : FindingKey × Tally} {f : Finding} :
    findingAt catalog threshold e = some f ↔ e.2.occurrences ≠ 0 ∧
      ∃ rule, catalog.rule? e.1.ruleId = some rule ∧
        (findingOf rule e.1.verdict e.2).escalated threshold = f := by
  rw [findingAt]
  split
  · rename_i hzero
    simp [beq_iff_eq.1 hzero]
  · rename_i hcount
    rw [Option.map_eq_some_iff]
    exact (and_iff_right (by simpa using hcount)).symm

/-- A finding keeps the key and the occurrences of its entry. -/
theorem key_of_findingAt {e : FindingKey × Tally} {f : Finding}
    (h : findingAt catalog threshold e = some f) :
    f.key = e.1 ∧ f.occurrences = e.2.occurrences := by
  obtain ⟨_, rule, hrule, rfl⟩ := findingAt_eq_some_iff.1 h
  obtain ⟨hkey, hoccurrences, _⟩ := escalated_eq threshold (findingOf rule e.1.verdict e.2)
  refine ⟨hkey.trans ?_, hoccurrences⟩
  rw [key, findingOf, Catalog.id_of_rule? hrule]

theorem mem_findings_iff {t : Totals} {f : Finding} :
    f ∈ t.findings catalog threshold ↔ ∃ key tally rule, t.tallies.get? key = some tally ∧
      tally.occurrences ≠ 0 ∧ catalog.rule? key.ruleId = some rule ∧
      (findingOf rule key.verdict tally).escalated threshold = f := by
  rw [(findings_perm t catalog threshold).mem_iff, List.mem_filterMap]
  constructor
  · rintro ⟨⟨key, tally⟩, hmem, hf⟩
    obtain ⟨hcount, rule, hrule, hf⟩ := findingAt_eq_some_iff.1 hf
    exact ⟨key, tally, rule, SortedMap.mem_entries_iff.1 hmem, hcount, hrule, hf⟩
  · rintro ⟨key, tally, rule, hget, hcount, hrule, hf⟩
    exact ⟨(key, tally), SortedMap.mem_entries_iff.2 hget,
      findingAt_eq_some_iff.2 ⟨hcount, rule, hrule, hf⟩⟩

/-! ## Numbers -/

theorem finding_counts {t : Totals} {f : Finding} (h : f ∈ t.findings catalog threshold) :
    f.occurrences = t.occurrencesAt f.key ∧ f.occurrences ≠ 0 ∧
      ∃ rule, catalog.rule? f.ruleId = some rule ∧
        f.severity = severityAt threshold rule.severity f.occurrences.toNat := by
  obtain ⟨key, tally, rule, hget, hcount, hrule, hf⟩ := mem_findings_iff.1 h
  have hfound : findingAt catalog threshold (key, tally) = some f :=
    findingAt_eq_some_iff.2 ⟨hcount, rule, hrule, hf⟩
  obtain ⟨hkey, hoccurrences⟩ : f.key = key ∧ f.occurrences = tally.occurrences :=
    key_of_findingAt hfound
  have hseverity := (escalated_eq threshold (findingOf rule key.verdict tally)).2.2
  rw [hf] at hseverity
  refine ⟨?_, hoccurrences ▸ hcount, rule, ?_, ?_⟩
  · rw [hkey, occurrencesAt_of_get? hget, hoccurrences]
  · rw [← hrule, ← hkey]
    rfl
  · rw [hseverity, hoccurrences]
    rfl

theorem exists_finding {t : Totals} {key : FindingKey} {rule : Rule}
    (hrule : catalog.rule? key.ruleId = some rule) (hcount : t.occurrencesAt key ≠ 0) :
    ∃ f ∈ t.findings catalog threshold, f.key = key ∧ f.occurrences = t.occurrencesAt key ∧
      f.severity = severityAt threshold rule.severity (t.occurrencesAt key).toNat := by
  obtain ⟨tally, hget⟩ := exists_of_occurrencesAt_ne_zero hcount
  rw [occurrencesAt_of_get? hget] at hcount ⊢
  have hfound : findingAt catalog threshold (key, tally) =
      some ((findingOf rule key.verdict tally).escalated threshold) :=
    findingAt_eq_some_iff.2 ⟨hcount, rule, hrule, rfl⟩
  obtain ⟨hkey, hoccurrences⟩ := key_of_findingAt hfound
  exact ⟨_, mem_findings_iff.2 ⟨key, tally, rule, hget, hcount, hrule, rfl⟩, hkey, hoccurrences,
    (escalated_eq threshold _).2.2⟩

/-! ## One for each key -/

theorem findings_keys_sublist (entries : List (FindingKey × Tally)) :
    List.Sublist ((entries.filterMap (findingAt catalog threshold)).map key)
      (entries.map Prod.fst) := by
  induction entries with
  | nil => exact .slnil
  | cons e rest ih =>
    rw [List.map_cons, List.filterMap_cons]
    split
    · exact ih.cons _
    · rename_i f hf
      rw [List.map_cons, (key_of_findingAt hf).1]
      exact ih.cons_cons _

theorem findings_keys_nodup (t : Totals) (catalog : Catalog) (threshold : Option Nat) :
    ((t.findings catalog threshold).map key).Nodup :=
  ((findings_perm t catalog threshold).map key).nodup_iff.2
    (t.tallies.keys_nodup.sublist (findings_keys_sublist t.tallies.entries))

theorem mem_findings_keys_iff {t : Totals} (h : RulesKnown catalog.Knows t.tallies)
    (threshold : Option Nat) (k : FindingKey) :
    k ∈ (t.findings catalog threshold).map key ↔ t.occurrencesAt k ≠ 0 := by
  rw [List.mem_map]
  constructor
  · rintro ⟨f, hf, rfl⟩
    obtain ⟨hcount, hne, _⟩ := finding_counts hf
    exact hcount ▸ hne
  · intro hne
    obtain ⟨rule, hrule⟩ := (h k (contains_of_occurrencesAt_ne_zero hne)).exists_rule
    obtain ⟨f, hf, hkey, _⟩ := exists_finding hrule hne
    exact ⟨f, hf, hkey⟩

/-! ## The summary -/

theorem occurrencesOf_eq_sum (verdict : Verdict) (findings : List Finding) :
    occurrencesOf verdict findings =
      (findings.map fun f => if f.verdict = verdict then f.occurrences else 0).sum := by
  have hfoldl : ∀ n,
      (findings.filter (·.verdict == verdict)).foldl (fun n f => n + f.occurrences) n =
        n + (findings.map fun f => if f.verdict = verdict then f.occurrences else 0).sum := by
    induction findings with
    | nil => simp
    | cons f rest ih =>
      intro n
      by_cases hverdict : f.verdict = verdict
      · simp [hverdict, ih, add_assoc]
      · simp [hverdict, ih]
  exact (hfoldl 0).trans (zero_add _)

/-- By induction on the entries: one that becomes no finding counts 0. -/
theorem sum_filterMap_findingAt {entries : List (FindingKey × Tally)}
    (h : ∀ e ∈ entries, catalog.Knows e.1.ruleId) (verdict : Verdict) :
    ((entries.filterMap (findingAt catalog threshold)).map fun f =>
        if f.verdict = verdict then f.occurrences else 0).sum =
      (entries.map fun e => if e.1.verdict = verdict then e.2.occurrences else 0).sum := by
  induction entries with
  | nil => rfl
  | cons e rest ih =>
    obtain ⟨hknown, hrest⟩ := List.forall_mem_cons.1 h
    rw [List.filterMap_cons, List.map_cons, List.sum_cons, ← ih hrest]
    split
    · rename_i hnone
      obtain ⟨rule, hrule⟩ := hknown.exists_rule
      have hzero : e.2.occurrences = 0 := by
        rw [findingAt, hrule] at hnone
        simpa using hnone
      rw [hzero, ite_self, zero_add]
    · rename_i f hf
      obtain ⟨hkey, hoccurrences⟩ := key_of_findingAt hf
      have hverdict : f.verdict = e.1.verdict := congrArg FindingKey.verdict hkey
      rw [List.map_cons, List.sum_cons, hverdict, hoccurrences]

theorem occurrencesOf_findings {t : Totals} (h : RulesKnown catalog.Knows t.tallies)
    (threshold : Option Nat) (verdict : Verdict) :
    occurrencesOf verdict (t.findings catalog threshold) = occurrenceSum verdict t.tallies := by
  have hknown : ∀ e ∈ t.tallies.entries, catalog.Knows e.1.ruleId := by
    intro e he
    refine h e.1 ?_
    rw [SortedMap.contains, SortedMap.mem_entries_iff.1 he]
    rfl
  calc occurrencesOf verdict (t.findings catalog threshold)
    _ = ((t.findings catalog threshold).map fun f =>
          if f.verdict = verdict then f.occurrences else 0).sum := occurrencesOf_eq_sum ..
    _ = ((t.tallies.entries.filterMap (findingAt catalog threshold)).map fun f =>
          if f.verdict = verdict then f.occurrences else 0).sum :=
      ((findings_perm t catalog threshold).map _).sum_eq
    _ = occurrenceSum verdict t.tallies := sum_filterMap_findingAt hknown verdict

end Totals
end LeakScan
