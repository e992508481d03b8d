import Mathlib.Data.List.Nodup
import LeakScan.Proofs.Baseline.Delta

/-!
# LeakScan.Proofs.Baseline.Pairs

How often a delta names one rule and verdict. Its entries name the two; what it compares are
fingerprints, which have a resource kind besides.

* `Delta.pairs` — the rules and verdicts that a delta names, once for each entry.
* `pairs_delta_nodup_iff` — none is named twice exactly if no two kinds of one pair differ.
* `reported_once_iff` — the same for findings with one kind for each pair: a kind of the pair that
  only the baseline has must leave all its other kinds as they were.
-/

namespace LeakScan

/-- Rule and verdict. -/
def Fingerprint.pair (f : Fingerprint) : String × Verdict := (f.ruleId, f.verdict)

def DeltaEntry.pair (e : DeltaEntry) : String × Verdict := (e.ruleId, e.verdict)

def DeltaChange.pair (c : DeltaChange) : String × Verdict := (c.ruleId, c.verdict)

def Delta.pairs (d : Delta) : List (String × Verdict) :=
  d.new.map (·.pair) ++ d.resolved.map (·.pair) ++ d.changed.map (·.pair)

namespace Counts

variable {before after : Counts}

/-- Every fingerprint with a share of its own is named once. -/
theorem pairs_collect (fingerprints : List Fingerprint) (share : Fingerprint → Share) :
    (Share.collect fingerprints share).pairs.Perm
      ((fingerprints.filter fun f => share f ≠ .none).map (·.pair)) := by
  induction fingerprints with
  | nil => exact .nil
  | cons f rest ih =>
    simp only [Share.collect, Delta.pairs, List.filterMap_cons, List.filter_cons] at ih ⊢
    cases hf : share f with
    | new n =>
      simp only [Share.new?, Share.resolved?, Share.changed?, List.map_cons, List.cons_append]
      exact ih.cons _
    | resolved m =>
      simp only [Share.new?, Share.resolved?, Share.changed?, List.map_cons, List.append_assoc] at ih ⊢
      exact List.perm_middle.trans (ih.cons _)
    | changed m n =>
      simp only [Share.new?, Share.resolved?, Share.changed?, List.map_cons]
      exact List.perm_middle.trans (ih.cons _)
    | none =>
      simp only [Share.new?, Share.resolved?, Share.changed?]
      exact ih

theorem pairs_delta_nodup_iff : (before.delta after).pairs.Nodup ↔
    ∀ f g : Fingerprint, before.get? f ≠ after.get? f → before.get? g ≠ after.get? g →
      f.pair = g.pair → f = g := by
  obtain ⟨fingerprints, h⟩ := exists_spans before after
  have hnodup : fingerprints.Nodup := nodup_of_ordered h.ascending
  have hmem : ∀ f, f ∈ fingerprints.filter (fun f =>
      Share.of (before.get? f) (after.get? f) ≠ .none) ↔ before.get? f ≠ after.get? f := by
    intro f
    rw [List.mem_filter, decide_eq_true_eq, ne_eq, Share.of_eq_none_iff, and_iff_right_iff_imp]
    -- a fingerprint that neither side has is alike on both
    intro hne
    rw [h.mem_iff, ← SortedMap.contains_iff_mem_keys, ← SortedMap.contains_iff_mem_keys,
      SortedMap.contains, SortedMap.contains]
    cases hb : before.get? f with
    | some m => exact .inl rfl
    | none =>
      cases ha : after.get? f with
      | some n => exact .inr rfl
      | none => exact absurd (hb.trans ha.symm) hne
  rw [delta_eq h, (pairs_collect _ _).nodup_iff, List.nodup_map_iff_inj_on (hnodup.filter _)]
  simp only [hmem]
  constructor
  · intro hinj f g hf hg hpair
    exact hinj f hf g hg hpair
  · intro hinj f hf g hg hpair
    exact hinj f g hf hg hpair

theorem eq_of_pair {findings : List Finding}
    (h : (findings.map fun f => (f.ruleId, f.verdict)).Nodup) {f g : Fingerprint}
    (hf : f ∈ findings.map (·.fingerprint)) (hg : g ∈ findings.map (·.fingerprint))
    (hpair : f.pair = g.pair) : f = g := by
  obtain ⟨a, ha, rfl⟩ := List.mem_map.1 hf
  obtain ⟨b, hb, rfl⟩ := List.mem_map.1 hg
  exact congrArg _ (List.inj_on_of_nodup_map h ha hb hpair)

/-- With one finding for each rule and verdict, a delta names each of these pairs at most once
exactly if this holds of the baseline: where it counts a kind of the pair that the findings do not
have, every other kind of the pair has the same count on both sides, or none. -/
theorem reported_once_iff (before : Counts) (findings : List Finding)
    (h : (findings.map fun f => (f.ruleId, f.verdict)).Nodup) :
    (before.delta (ofFindings findings)).pairs.Nodup ↔
      ∀ f g : Fingerprint, f ∈ before.keys → f ∉ findings.map (·.fingerprint) →
        g.pair = f.pair → g ≠ f → before.get? g = occurrences? findings g := by
  simp only [pairs_delta_nodup_iff, get?_ofFindings]
  constructor
  · intro honce f g hf hgone hpair hother
    by_contra hne
    refine hother (honce g f hne ?_ hpair)
    rw [occurrences?, if_neg hgone, ne_eq, SortedMap.get?, SortedMap.valueAt?_eq_none_iff, not_not]
    exact hf
  · intro hkinds f g hf hg hpair
    by_contra hother
    -- the findings have at most one of the two kinds, so the baseline alone has the other
    by_cases hgone : f ∈ findings.map (·.fingerprint)
    · have hgone' : g ∉ findings.map (·.fingerprint) := fun hg' =>
        hother (eq_of_pair h hgone hg' hpair)
      refine hf (hkinds g f ?_ hgone' hpair hother)
      rw [occurrences?, if_neg hgone', ne_eq, SortedMap.get?, SortedMap.valueAt?_eq_none_iff,
        not_not] at hg
      exact hg
    · refine hg (hkinds f g ?_ hgone hpair.symm (Ne.symm hother))
      rw [occurrences?, if_neg hgone, ne_eq, SortedMap.get?, SortedMap.valueAt?_eq_none_iff,
        not_not] at hf
      exact hf

/-! ## Two documents

Both were written without resource kinds; in one the finding has been added with its kind. -/

def socketPrint (kind : String) : Fingerprint := ⟨"js.socket", .leaked, kind⟩

def socketFinding (occurrences : UInt64) : Finding :=
  plainFinding (socketPrint "socket") occurrences

def kindlessText : String :=
  "\x7b\"findings\": [\x7b\"rule_id\": \"js.socket\", \"verdict\": \"leaked\", \"occurrences\": 1\x7d]\x7d"

def bothKindsText : String :=
  "\x7b\"findings\": [\x7b\"rule_id\": \"js.socket\", \"verdict\": \"leaked\", \"occurrences\": 1\x7d, " ++
    "\x7b\"rule_id\": \"js.socket\", \"verdict\": \"leaked\", \"resource_kind\": \"socket\", " ++
    "\"occurrences\": 4\x7d]\x7d"

/-- The kind that the findings lack is resolved, and the other one has not changed. -/
theorem stale_kind_reported_once :
    Baseline.parse bothKindsText = .ok (ofPairs [(socketPrint "", 1), (socketPrint "socket", 4)]) ∧
    ([socketFinding 4].map fun f => (f.ruleId, f.verdict)).Nodup ∧
    ((ofPairs [(socketPrint "", 1), (socketPrint "socket", 4)]).delta
      (ofFindings [socketFinding 4])).pairs = [("js.socket", .leaked)] ∧
    ((ofPairs [(socketPrint "", 1), (socketPrint "socket", 4)]).delta
      (ofFindings [socketFinding 4])).pairs.Nodup := by
  refine ⟨by decide +kernel, by decide, by decide +kernel,
    (reported_once_iff _ _ (by decide)).2 fun f g hf hgone hpair hother => ?_⟩
  have hkeys : (ofPairs [(socketPrint "", 1), (socketPrint "socket", 4)]).keys =
      [socketPrint "", socketPrint "socket"] := by decide +kernel
  have hfinding : [socketFinding 4].map (·.fingerprint) = [socketPrint "socket"] := rfl
  rw [hkeys, List.mem_pair] at hf
  rw [hfinding, List.mem_singleton] at hgone
  obtain rfl := hf.resolve_right hgone
  rw [get?_ofPairs, occurrences?, hfinding]
  by_cases hkind : g = socketPrint "socket"
  · subst hkind
    decide +kernel
  · simp [hother, hkind]

/-- The finding has not changed, and is reported as new and as resolved. -/
theorem unchanged_finding_reported_twice :
    Baseline.parse kindlessText = .ok (ofPairs [(socketPrint "", 1)]) ∧
    ([socketFinding 1].map fun f => (f.ruleId, f.verdict)).Nodup ∧
    (ofPairs [(socketPrint "", 1)]).delta (ofFindings [socketFinding 1]) =
      { new := [⟨"js.socket", .leaked, 1⟩], resolved := [⟨"js.socket", .leaked, 1⟩] } ∧
    ¬((ofPairs [(socketPrint "", 1)]).delta (ofFindings [socketFinding 1])).pairs.Nodup := by
  have hdelta : (ofPairs [(socketPrint "", 1)]).delta (ofFindings [socketFinding 1]) =
      { new := [⟨"js.socket", .leaked, 1⟩], resolved := [⟨"js.socket", .leaked, 1⟩] } := by
    decide +kernel
  refine ⟨by decide +kernel, by decide, hdelta, ?_⟩
  rw [hdelta]
  decide

end Counts
end LeakScan
