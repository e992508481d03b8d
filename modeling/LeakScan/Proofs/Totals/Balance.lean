import Mathlib.Data.UInt
import LeakScan.Proofs.Totals.Summary

/-!
# LeakScan.Proofs.Totals.Balance

Every acquisition is counted in the category of its rule and, unless it is cleaned up, under its
rule and verdict. The two ways of counting agree in all totals that can be built.

* `Reachable` — totals that can be built, with any limits, from results of known rules.
* `categorySum`, `occurrenceSum` — what the two ways add up to.
* `Balanced`, `Reachable.balanced` — they agree, and all results are accounted for.
* `occurrencesAt` — how often a key occurs; `occurrencesAt_merge` says that merging adds.
* `RulesKnown`, `Reachable.rulesKnown` — the rule of every tally is known.
-/

namespace LeakScan

open Text

namespace Totals

/-- Totals that can be built, with any limits, from results whose rules are known. -/
inductive Reachable (known : String → Prop) : Totals → Prop where
  | new (limit : Nat) : Reachable known (ofLimit limit)
  | file {t : Totals} (rules : List Rule) (precise : Bool) {results : List Correlation}
      (ht : Reachable known t) (hknown : ∀ r ∈ results, known r.acquisition.ruleId) :
      Reachable known (t.addFile rules precise results)
  | skip {t : Totals} (d : Diagnostic) (ht : Reachable known t) : Reachable known (t.addSkip d)
  | diagnostic {t : Totals} (d : Diagnostic) (ht : Reachable known t) :
      Reachable known (t.addDiagnostic d)
  | merge {a b : Totals} (ha : Reachable known a) (hb : Reachable known b) :
      Reachable known (a.merge b)

theorem Reachable.mono {known known' : String → Prop} (hsub : ∀ id, known id → known' id)
    {t : Totals} (h : Reachable known t) : Reachable known' t := by
  induction h with
  | new limit => exact .new limit
  | file rules precise _ hknown ih => exact .file rules precise ih fun r hr => hsub _ (hknown r hr)
  | skip d _ ih => exact .skip d ih
  | diagnostic d _ ih => exact .diagnostic d ih
  | merge _ _ iha ihb => exact .merge iha ihb

/-! ## Sums -/

/-- A count summed over all categories. -/
def categorySum (count : CategoryTally → UInt64) (categories : SortedMap String CategoryTally) :
    UInt64 :=
  categories.total fun _ c => count c

/-- Occurrences summed over all keys with a verdict. -/
def occurrenceSum (verdict : Verdict) (tallies : SortedMap FindingKey Tally) : UInt64 :=
  tallies.total fun key tally => if key.verdict = verdict then tally.occurrences else 0

/-- A count that merging adds up. -/
def Additive (count : CategoryTally → UInt64) : Prop :=
  ∀ a b, count (a.merge b) = count a + count b

theorem Additive.empty {count : CategoryTally → UInt64} (h : Additive count) : count {} = 0 := by
  have hself : count {} = count {} + count {} := h {} {}
  exact left_eq_add.1 hself

theorem add_eq_merge (c : CategoryTally) (verdict : Verdict) :
    c.add verdict = c.merge (CategoryTally.add {} verdict) := by
  cases verdict <;> simp [CategoryTally.add, CategoryTally.merge]

section Steps

variable {count : CategoryTally → UInt64} {rules : List Rule} {precise : Bool} {t : Totals}
  {r : Correlation}

theorem categorySum_addResult (h : Additive count) :
    categorySum count (addResult rules precise t r).categories =
      categorySum count t.categories + count (CategoryTally.add {} r.verdict) := by
  refine SortedMap.total_alter (fun old => ?_) t.categories
  rw [add_eq_merge, h]
  cases old with
  | none => simp [h.empty]
  | some c => rfl

theorem occurrenceSum_addResult (verdict : Verdict) :
    occurrenceSum verdict (addResult rules precise t r).tallies =
      occurrenceSum verdict t.tallies +
        if r.verdict ≠ .cleaned ∧ r.verdict = verdict then 1 else 0 := by
  simp only [occurrenceSum, addResult]
  by_cases hclean : r.verdict = .cleaned
  · simp [hclean]
  · rw [if_neg (by simpa using hclean)]
    refine SortedMap.total_alter (fun old => ?_) t.tallies
    by_cases hverdict : r.verdict = verdict
    · subst hverdict
      cases old <;> simp [keyOf, hclean, Tally.merge, single]
    · cases old <;> simp [keyOf, hverdict]

/-- The number of files of a tally is no part of the sum. -/
theorem occurrenceSum_countFile (verdict : Verdict) (tallies : SortedMap FindingKey Tally)
    (key : FindingKey) :
    occurrenceSum verdict (countFile tallies key) = occurrenceSum verdict tallies := by
  refine (SortedMap.total_alter (n := 0) (fun old => ?_) tallies).trans (add_zero _)
  cases old <;> simp

theorem occurrenceSum_foldl_countFile (verdict : Verdict) (keys : List FindingKey)
    (tallies : SortedMap FindingKey Tally) :
    occurrenceSum verdict (keys.foldl countFile tallies) = occurrenceSum verdict tallies := by
  induction keys generalizing tallies with
  | nil => rfl
  | cons key rest ih => rw [List.foldl_cons, ih, occurrenceSum_countFile]

theorem categorySum_merge (h : Additive count) (a b : Totals) :
    categorySum count (a.merge b).categories =
      categorySum count a.categories + categorySum count b.categories :=
  SortedMap.total_mergeWith _ _ _ fun _ => h

theorem occurrenceSum_merge (verdict : Verdict) (a b : Totals) :
    occurrenceSum verdict (a.merge b).tallies =
      occurrenceSum verdict a.tallies + occurrenceSum verdict b.tallies := by
  simp only [occurrenceSum, Totals.merge, mergeTallies]
  rw [SortedMap.total_mapValues]
  · refine SortedMap.total_foldl_alter _ (fun e old => ?_) _ _
    by_cases hverdict : e.1.verdict = verdict
    · cases old <;> simp [hverdict, Tally.merge]
    · cases old <;> simp [hverdict]
  · -- the cut leaves occurrences alone
    exact fun _ _ => rfl

end Steps

/-! ## Balance -/

/-- The two ways of counting agree on what is open, and the categories hold every result. -/
structure Balanced (t : Totals) : Prop where
  leaked : categorySum (·.leaked) t.categories = occurrenceSum .leaked t.tallies
  ambiguous : categorySum (·.ambiguous) t.categories = occurrenceSum .ambiguous t.tallies
  matched : categorySum (fun c => c.cleaned + c.leaked + c.ambiguous) t.categories =
    t.structuralMatches + t.textualMatches

theorem additive_leaked : Additive (·.leaked) := fun _ _ => rfl

theorem additive_ambiguous : Additive (·.ambiguous) := fun _ _ => rfl

theorem additive_all : Additive fun c => c.cleaned + c.leaked + c.ambiguous := by
  intro a b
  simp only [CategoryTally.merge]
  rw [add_add_add_comm a.cleaned, add_add_add_comm (a.cleaned + a.leaked)]

namespace Balanced

variable {t : Totals}

/-- One result counts once on each side, whatever its verdict. -/
theorem addResult (h : Balanced t) (rules : List Rule) (precise : Bool) (r : Correlation) :
    Balanced (addResult rules precise t r) where
  leaked := by
    rw [categorySum_addResult additive_leaked, occurrenceSum_addResult, h.leaked]
    cases r.verdict <;> rfl
  ambiguous := by
    rw [categorySum_addResult additive_ambiguous, occurrenceSum_addResult, h.ambiguous]
    cases r.verdict <;> rfl
  matched := by
    rw [categorySum_addResult additive_all, h.matched]
    have hone : ∀ verdict : Verdict, (CategoryTally.add {} verdict).cleaned +
        (CategoryTally.add {} verdict).leaked + (CategoryTally.add {} verdict).ambiguous = 1 := by
      intro verdict
      cases verdict <;> rfl
    rw [hone]
    simp only [Totals.addResult]
    split
    · rw [add_zero, add_right_comm]
    · rw [add_zero, add_assoc]

theorem addFile (h : Balanced t) (rules : List Rule) (precise : Bool)
    (results : List Correlation) : Balanced (t.addFile rules precise results) := by
  have hresults : Balanced (results.foldl (Totals.addResult rules precise) t) := by
    induction results generalizing t with
    | nil => exact h
    | cons r rest ih => exact ih (h.addResult rules precise r)
  exact ⟨hresults.leaked.trans (occurrenceSum_foldl_countFile ..).symm,
    hresults.ambiguous.trans (occurrenceSum_foldl_countFile ..).symm, hresults.matched⟩

theorem merge {a b : Totals} (ha : Balanced a) (hb : Balanced b) : Balanced (a.merge b) where
  leaked := by
    rw [categorySum_merge additive_leaked, occurrenceSum_merge, ha.leaked, hb.leaked]
  ambiguous := by
    rw [categorySum_merge additive_ambiguous, occurrenceSum_merge, ha.ambiguous, hb.ambiguous]
  matched := by
    rw [categorySum_merge additive_all, ha.matched, hb.matched]
    exact add_add_add_comm ..

end Balanced

theorem Reachable.balanced {known : String → Prop} {t : Totals} (h : Reachable known t) :
    Balanced t := by
  induction h with
  | new limit => exact ⟨rfl, rfl, rfl⟩
  | file rules precise _ _ ih => exact ih.addFile rules precise _
  | skip d _ ih => exact ⟨ih.leaked, ih.ambiguous, ih.matched⟩
  | diagnostic d _ ih => exact ⟨ih.leaked, ih.ambiguous, ih.matched⟩
  | merge _ _ iha ihb => exact iha.merge ihb

/-! ## Numbers -/

/-- How often a key occurs, if it is there. -/
def occurrences? (tallies : SortedMap FindingKey Tally) (key : FindingKey) : Option UInt64 :=
  (tallies.get? key).map (·.occurrences)

theorem occurrences?_merge (a b : Totals) (key : FindingKey) :
    occurrences? (a.merge b).tallies key =
      Option.merge (· + ·) (occurrences? a.tallies key) (occurrences? b.tallies key) := by
  have hb : b.tallies.get? key = (b.tallies.entries.find? (·.1 = key)).map (·.2) :=
    SortedMap.valueAt?_eq_find?
  simp only [occurrences?, Totals.merge, mergeTallies]
  rw [SortedMap.get?_mapValues, SortedMap.get?_foldl_alter _ _ b.tallies.keys_nodup, hb]
  cases b.tallies.entries.find? (·.1 = key) with
  | none => cases a.tallies.get? key <;> rfl
  | some e => cases a.tallies.get? key <;> simp [Tally.merge]

theorem contains_merge (a b : Totals) (key : FindingKey) :
    (a.merge b).tallies.contains key = (a.tallies.contains key || b.tallies.contains key) := by
  have hcontains : ∀ t : Totals, t.tallies.contains key = (occurrences? t.tallies key).isSome :=
    fun _ => Option.isSome_map.symm
  rw [hcontains, hcontains, hcontains, occurrences?_merge]
  cases occurrences? a.tallies key <;> cases occurrences? b.tallies key <;> rfl

/-- How often a rule ends with a verdict. -/
def occurrencesAt (t : Totals) (key : FindingKey) : UInt64 := (occurrences? t.tallies key).getD 0

theorem occurrencesAt_of_get? {t : Totals} {key : FindingKey} {tally : Tally}
    (h : t.tallies.get? key = some tally) : t.occurrencesAt key = tally.occurrences := by
  rw [occurrencesAt, occurrences?, h]
  rfl

theorem exists_of_occurrencesAt_ne_zero {t : Totals} {key : FindingKey}
    (h : t.occurrencesAt key ≠ 0) : ∃ tally, t.tallies.get? key = some tally := by
  cases hget : t.tallies.get? key with
  | none =>
    refine absurd ?_ h
    rw [occurrencesAt, occurrences?, hget]
    rfl
  | some tally => exact ⟨tally, rfl⟩

theorem contains_of_occurrencesAt_ne_zero {t : Totals} {key : FindingKey}
    (h : t.occurrencesAt key ≠ 0) : t.tallies.contains key = true := by
  obtain ⟨tally, hget⟩ := exists_of_occurrencesAt_ne_zero h
  rw [SortedMap.contains, hget]
  rfl

/-- The number under a key is that of its hits, as far as 64 bits can count. -/
theorem History.occurrencesAt_totals (cap : Nat) (h : History) (key : FindingKey) :
    (h.totals cap).occurrencesAt key = .ofNat (hitsIn key h.files).length := by
  rw [occurrencesAt, occurrences?, h.get?_tallies, tally?]
  split
  · rename_i hnone
    rw [List.isEmpty_iff.1 hnone]
    rfl
  · rfl

/-- A key that is there counts something, unless its hits are too many to count. -/
theorem History.occurrencesAt_ne_zero {h : History} {key : FindingKey} {cap : Nat}
    (hfew : (hitsIn key h.files).length < wordLimit)
    (hthere : (h.totals cap).tallies.contains key = true) :
    (h.totals cap).occurrencesAt key ≠ 0 := by
  rw [SortedMap.contains, h.get?_tallies, tally?] at hthere
  split at hthere
  · cases hthere
  · rename_i hsome
    have hpos : 0 < (hitsIn key h.files).length := List.length_pos_iff.2 (by simpa using hsome)
    rw [h.occurrencesAt_totals, ne_eq, ← UInt64.toNat_inj, UInt64.toNat_ofNat_of_lt' hfew]
    exact Nat.ne_of_gt hpos

/-! ## Known rules -/

/-- The rule of every tally is known. -/
def RulesKnown (known : String → Prop) (tallies : SortedMap FindingKey Tally) : Prop :=
  ∀ key, tallies.contains key = true → known key.ruleId

section RulesKnown

variable {known : String → Prop} {rules : List Rule} {precise : Bool}

theorem known_of_isHit {r : Correlation} {key : FindingKey} (hr : known r.acquisition.ruleId)
    (hhit : isHit key r = true) : known key.ruleId := by
  have hkey : keyOf r = key := by simpa using (Bool.and_eq_true_iff.1 hhit).2
  rw [← hkey]
  exact hr

theorem RulesKnown.addResult {t : Totals} (h : RulesKnown known t.tallies) {r : Correlation}
    (hr : known r.acquisition.ruleId) :
    RulesKnown known (addResult rules precise t r).tallies := by
  intro key hthere
  rw [SortedMap.contains, get?_addResult] at hthere
  split at hthere
  · rename_i hhit
    exact known_of_isHit hr hhit
  · exact h key hthere

theorem RulesKnown.addFile {t : Totals} (h : RulesKnown known t.tallies)
    {results : List Correlation} (hknown : ∀ r ∈ results, known r.acquisition.ruleId) :
    RulesKnown known (addFile rules precise t results).tallies := by
  have hresults : RulesKnown known (results.foldl (Totals.addResult rules precise) t).tallies := by
    induction results generalizing t with
    | nil => exact h
    | cons r rest ih =>
      exact ih (h.addResult (hknown r List.mem_cons_self))
        fun q hq => hknown q (List.mem_cons_of_mem r hq)
  intro key hthere
  rw [SortedMap.contains, Totals.addFile, get?_foldl_countFile (touched_nodup results)] at hthere
  split at hthere
  · rename_i htouched
    obtain ⟨r, hr⟩ := List.exists_mem_of_ne_nil _ (mem_touched.1 htouched)
    obtain ⟨hmem, hhit⟩ := List.mem_filter.1 hr
    exact known_of_isHit (hknown r hmem) hhit
  · exact hresults key hthere

theorem RulesKnown.merge {a b : Totals} (ha : RulesKnown known a.tallies)
    (hb : RulesKnown known b.tallies) : RulesKnown known (a.merge b).tallies := by
  intro key hthere
  rw [contains_merge, Bool.or_eq_true] at hthere
  exact hthere.elim (ha key) (hb key)

end RulesKnown

theorem Reachable.rulesKnown {known : String → Prop} {t : Totals} (h : Reachable known t) :
    RulesKnown known t.tallies := by
  induction h with
  | new limit =>
    intro key hthere
    cases hthere
  | file rules precise _ hknown ih => exact ih.addFile hknown
  | skip d _ ih => exact ih
  | diagnostic d _ ih => exact ih
  | merge _ _ iha ihb => exact iha.merge ihb

end Totals
end LeakScan
