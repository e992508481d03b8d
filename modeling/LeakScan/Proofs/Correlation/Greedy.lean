import Mathlib.Order.Bounds.Basic
import LeakScan.Proofs.Correlation.Kinds
import LeakScan.Proofs.Correlation.Placement

/-!
# LeakScan.Proofs.Correlation.Greedy

The verdicts without the run that finds them: an acquisition gets the first cleanup that fits it
and that no earlier acquisition has.

* `Outcome s cs earlier r` — what `r` has to be after the results `earlier`, the cleanups being
  `cs`.
* `settle_outcomes` — every result of a run is its outcome after those before it.
* `correlate_greedy` — the same for all kinds, with the order of the results.
-/

namespace LeakScan
namespace Correlation

/-- No earlier result has the cleanup. -/
def Untaken (earlier : List Correlation) (c : Match) : Prop :=
  ∀ r ∈ earlier, r.cleanup ≠ some c

instance (earlier : List Correlation) (c : Match) : Decidable (Untaken earlier c) :=
  inferInstanceAs (Decidable (∀ r ∈ earlier, r.cleanup ≠ some c))

/-- The places of the cleanups that an acquisition can take. -/
def choices (s : Setting) (cs : List Match) (earlier : List Correlation) (a : Match) : Set Nat :=
  {j | ∃ c, cs[j]? = some c ∧ unify a.bindings c.bindings = true ∧ Placed s a c ∧
    Untaken earlier c}

/-- The result that an acquisition gets after the results `earlier`. -/
structure Outcome (s : Setting) (cs : List Match) (earlier : List Correlation)
    (r : Correlation) : Prop where
  managed : r.verdict = .cleaned ∧ r.cleanup = none ↔ r.acquisition.position = .managed
  paired : ∀ c, r.verdict = .cleaned ∧ r.cleanup = some c ↔
    r.acquisition.position ≠ .managed ∧
      ∃ j, IsLeast (choices s cs earlier r.acquisition) j ∧ cs[j]? = some c
  unpaired : r.verdict ≠ .cleaned ↔
    r.acquisition.position ≠ .managed ∧ choices s cs earlier r.acquisition = ∅
  bare : r.verdict ≠ .cleaned → r.cleanup = none
  ambiguous : r.verdict = .ambiguous ↔ r.verdict ≠ .cleaned ∧ s.tree.precise = false ∧
    ∃ c ∈ cs, Untaken earlier c ∧ unify r.acquisition.bindings c.bindings = true
  leaked : r.verdict = .leaked ↔ r.verdict ≠ .cleaned ∧ (s.tree.precise = true ∨
    ∀ c ∈ cs, Untaken earlier c → unify r.acquisition.bindings c.bindings = false)

/-- The cleanups that are free after some results. -/
def remaining (cs : List Match) (earlier : List Correlation) : List Match :=
  cs.filter fun c => Untaken earlier c

section Remaining

variable {s : Setting} {cs : List Match} {earlier : List Correlation} {a c : Match}

theorem mem_remaining : c ∈ remaining cs earlier ↔ c ∈ cs ∧ Untaken earlier c := by
  simp [remaining]

theorem remaining_nil (cs : List Match) : remaining cs [] = cs := by
  simp [remaining, Untaken]

theorem untaken_append {r : Correlation} :
    Untaken (earlier ++ [r]) c ↔ Untaken earlier c ∧ r.cleanup ≠ some c := by
  simp [Untaken, or_imp, forall_and]

theorem remaining_of_bare {r : Correlation} (hr : r.cleanup = none) :
    remaining cs (earlier ++ [r]) = remaining cs earlier := by
  simp [remaining, untaken_append, hr]

/-- A result takes its cleanup out of the free ones. -/
theorem remaining_of_paired {r : Correlation} {skipped others : List Match} (hnd : cs.Nodup)
    (hr : r.cleanup = some c) (hfree : remaining cs earlier = skipped ++ c :: others) :
    remaining cs (earlier ++ [r]) = skipped ++ others := by
  have hdrop : remaining cs (earlier ++ [r]) = (remaining cs earlier).filter (c ≠ ·) := by
    simp only [remaining, List.filter_filter]
    congr 1
    funext x
    simp [untaken_append, hr, Bool.and_comm]
  have hnd' : (skipped ++ c :: others).Nodup := hfree ▸ hnd.filter _
  obtain ⟨_, hcons, hdisj⟩ := List.nodup_append.1 hnd'
  have hskip : ∀ x ∈ skipped, c ≠ x := fun x hx => (hdisj x hx c List.mem_cons_self).symm
  have hothers : ∀ x ∈ others, c ≠ x := by
    rintro x hx rfl
    exact (List.nodup_cons.1 hcons).1 hx
  rw [hdrop, hfree, List.filter_append, List.filter_cons]
  rw [List.filter_eq_self.2 (by simpa using hskip), List.filter_eq_self.2 (by simpa using hothers)]
  simp

theorem choices_eq_empty (hnone : ∀ x ∈ remaining cs earlier, s.fits a x = false) :
    choices s cs earlier a = ∅ := by
  refine Set.eq_empty_of_forall_notMem ?_
  rintro j ⟨c, hj, hun, hpl, hfree⟩
  have hmem := mem_remaining.2 ⟨List.mem_of_getElem? hj, hfree⟩
  have := hnone c hmem
  rw [fits_iff.2 ⟨hun, hpl⟩] at this
  cases this

theorem exists_isLeast_choices {skipped others : List Match}
    (hfree : remaining cs earlier = skipped ++ c :: others) (hc : s.fits a c = true)
    (hskip : ∀ x ∈ skipped, s.fits a x = false) :
    ∃ j, IsLeast (choices s cs earlier a) j ∧ cs[j]? = some c := by
  obtain ⟨l₁, l₂, hcs, hl₁, hl₂⟩ := List.filter_eq_append_iff.1 hfree
  obtain ⟨m, l₃, rfl, hm, hfree', _⟩ := List.filter_eq_cons_iff.1 hl₂
  obtain ⟨hun, hpl⟩ := fits_iff.1 hc
  have hcs' : cs = (l₁ ++ m) ++ c :: l₃ := by rw [hcs, List.append_assoc]
  have hj : cs[(l₁ ++ m).length]? = some c := by
    rw [hcs', List.getElem?_append_right (Nat.le_refl _), Nat.sub_self]
    rfl
  refine ⟨(l₁ ++ m).length, ⟨⟨c, hj, hun, hpl, by simpa using hfree'⟩, ?_⟩, hj⟩
  rintro i ⟨x, hi, hxun, hxpl, hxfree⟩
  apply Nat.le_of_not_lt
  intro hlt
  rw [hcs', List.getElem?_append_left hlt] at hi
  rcases List.mem_append.1 (List.mem_of_getElem? hi) with hx | hx
  · -- a free cleanup before `c` was skipped because it does not fit
    have hxs : x ∈ skipped := by
      rw [← hl₁, List.mem_filter]
      exact ⟨hx, by simpa using hxfree⟩
    have := hskip x hxs
    rw [fits_iff.2 ⟨hxun, hxpl⟩] at this
    cases this
  · exact hm x hx (by simpa using hxfree)

end Remaining

/-! ## Steps and runs -/

section Run

variable {s : Setting} {cs : List Match} {earlier : List Correlation} {a : Match}

theorem outcome_managed (hm : a.position = .managed) :
    Outcome s cs earlier ⟨a, none, .cleaned⟩ := by
  constructor <;> simp [hm]

theorem outcome_paired {c : Match} {j : Nat} (hm : a.position ≠ .managed)
    (hj : IsLeast (choices s cs earlier a) j) (hget : cs[j]? = some c) :
    Outcome s cs earlier ⟨a, some c, .cleaned⟩ where
  managed := by simp [hm]
  paired := by
    intro d
    constructor
    · rintro ⟨_, hd⟩
      cases hd
      exact ⟨hm, j, hj, hget⟩
    · rintro ⟨_, j', hj', hget'⟩
      rw [hj'.unique hj, hget] at hget'
      exact ⟨rfl, hget'⟩
  unpaired := by
    have hne : choices s cs earlier a ≠ ∅ := Set.nonempty_iff_ne_empty.1 ⟨j, hj.1⟩
    simp [hne]
  bare := by simp
  ambiguous := by simp
  leaked := by simp

theorem outcome_unpaired {v : Verdict} (hm : a.position ≠ .managed)
    (hnone : ∀ x ∈ remaining cs earlier, s.fits a x = false) (hv : v ≠ .cleaned)
    (hamb : v = .ambiguous ↔ s.tree.precise = false ∧
      ∃ c ∈ cs, Untaken earlier c ∧ unify a.bindings c.bindings = true) :
    Outcome s cs earlier ⟨a, none, v⟩ := by
  have hempty := choices_eq_empty hnone
  refine ⟨?_, ?_, ?_, ?_, ?_, ?_⟩
  · simp [hm, hv]
  · simp [hempty, IsLeast]
  · simp [hm, hv, hempty]
  · simp
  · simp [hv, hamb]
  · -- the verdict is one of two, so a leak is what is not ambiguous
    have hleak : v = .leaked ↔ ¬v = .ambiguous := by
      cases v with
      | cleaned => exact absurd rfl hv
      | leaked => simp
      | ambiguous => simp
    rw [hleak, hamb, not_and_or, Bool.not_eq_false]
    simp [hv]

theorem Step.outcome {r : Correlation} {free' : List Match} (hnd : cs.Nodup)
    (h : Step s a (remaining cs earlier) r free') :
    Outcome s cs earlier r ∧ free' = remaining cs (earlier ++ [r]) := by
  generalize hfree : remaining cs earlier = free at h
  cases h with
  | managed hm =>
    exact ⟨outcome_managed hm, by rw [remaining_of_bare rfl, hfree]⟩
  | paired hm hsplit hc hskip =>
    rw [hsplit] at hfree
    obtain ⟨j, hj, hget⟩ := exists_isLeast_choices hfree hc hskip
    exact ⟨outcome_paired hm hj hget, (remaining_of_paired hnd rfl hfree).symm⟩
  | ambiguous hm hnone hguess hrel =>
    subst hfree
    obtain ⟨x, hx, hxun⟩ := hrel
    obtain ⟨hxcs, hxfree⟩ := mem_remaining.1 hx
    refine ⟨outcome_unpaired hm hnone (by simp) ?_, (remaining_of_bare rfl).symm⟩
    simpa [hguess] using ⟨x, hxcs, hxfree, hxun⟩
  | leaked hm hnone hsure =>
    subst hfree
    refine ⟨outcome_unpaired hm hnone (by simp) ?_, (remaining_of_bare rfl).symm⟩
    constructor
    · intro h
      cases h
    · rintro ⟨hguess, x, hxcs, hxfree, hxun⟩
      rcases hsure with hp | hunrel
      · rw [hp] at hguess
        cases hguess
      · rw [hunrel x (mem_remaining.2 ⟨hxcs, hxfree⟩)] at hxun
        cases hxun

/-- By induction on the acquisitions still to come; `earlier` grows by one result a step. -/
theorem settle_outcomes (hnd : cs.Nodup) (as : List Match) (earlier : List Correlation)
    {before after : List Correlation} {r : Correlation}
    (h : settle s as (remaining cs earlier) = before ++ r :: after) :
    Outcome s cs (earlier ++ before) r := by
  induction as generalizing earlier before with
  | nil => simp [settle] at h
  | cons a rest ih =>
    obtain ⟨r₀, free', hstep, hrun⟩ := settle_cons s a rest (remaining cs earlier)
    obtain ⟨hout, hfree'⟩ := hstep.outcome hnd
    rw [hrun] at h
    cases before with
    | nil =>
      cases h
      simpa using hout
    | cons b before' =>
      rw [List.cons_append, List.cons.injEq] at h
      obtain ⟨rfl, h⟩ := h
      rw [hfree'] at h
      simpa using ih _ h

end Run

/-! ## Precision -/

/-- What precision cannot change in a result. -/
def cleaning (r : Correlation) : Match × Option Match × Bool :=
  (r.acquisition, r.cleanup, r.verdict == .cleaned)

theorem settle_withPrecise (s : Setting) (b : Bool) (as free : List Match) :
    (settle (s.withPrecise b) as free).map cleaning = (settle s as free).map cleaning := by
  have hfits : (s.withPrecise b).fits = s.fits := by
    funext a c
    exact fits_withPrecise s b a c
  induction as generalizing free with
  | nil => rfl
  | cons a rest ih =>
    rw [settle, settle, hfits]
    split
    · simp [ih]
    · cases takeFirst (s.fits a) free with
      | some found => simp [ih]
      | none =>
        have hopen : ∀ related : Bool,
            ((if related = true then Verdict.ambiguous else .leaked) == .cleaned) = false := by
          decide
        simp only [List.map_cons, ih, cleaning, hopen]

theorem correlate_withPrecise (s : Setting) (b : Bool) (ms : List Match) :
    (correlate (s.withPrecise b) ms).map cleaning = (correlate s ms).map cleaning := by
  rw [correlate_eq_flatMap, correlate_eq_flatMap, List.map_flatMap, List.map_flatMap]
  simp only [resultsOf, settle_withPrecise]

/-! ## All kinds -/

theorem cleanupsOf_nodup (k : String) (ms : List Match) : (cleanupsOf k ms).Nodup :=
  nodup_of_ordered (distinctCleanups_ordered _)

theorem resultsOf_outcome {s : Setting} {k : String} {ms : List Match}
    {earlier later : List Correlation} {r : Correlation}
    (h : resultsOf s k ms = earlier ++ r :: later) :
    Outcome s (cleanupsOf k ms) earlier r := by
  rw [resultsOf, ← remaining_nil (cleanupsOf k ms)] at h
  exact settle_outcomes (cleanupsOf_nodup k ms) _ [] h

/-- An acquisition without a cleanup has none left: all that fit it are taken by earlier ones. -/
theorem Outcome.taken {s : Setting} {cs : List Match} {earlier : List Correlation}
    {r : Correlation} (h : Outcome s cs earlier r) (hv : r.verdict ≠ .cleaned) {c : Match}
    (hc : c ∈ cs) (hun : unify r.acquisition.bindings c.bindings = true)
    (hpl : Placed s r.acquisition c) : ∃ r' ∈ earlier, r'.cleanup = some c := by
  by_contra hfree
  have huntaken : Untaken earlier c := fun r' hr' hc' => hfree ⟨r', hr', hc'⟩
  obtain ⟨j, hj⟩ := List.mem_iff_getElem?.1 hc
  have hmem : j ∈ choices s cs earlier r.acquisition := ⟨c, hj, hun, hpl, huntaken⟩
  rw [(h.unpaired.1 hv).2] at hmem
  exact hmem

/-- Correlation is the greedy assignment in the order of the source. -/
theorem correlate_greedy (s : Setting) (ms : List Match) :
    (∀ k, ∃ as cs, OutermostOf k ms as ∧ DistinctOf k ms cs ∧
      ((correlate s ms).filter (·.acquisition.kind == k)).map (·.acquisition) = as ∧
      ∀ earlier r later,
        (correlate s ms).filter (·.acquisition.kind == k) = earlier ++ r :: later →
          Outcome s cs earlier r ∧
          (r.verdict ≠ .cleaned → ∀ c ∈ cs, unify r.acquisition.bindings c.bindings = true →
            Placed s r.acquisition c → ∃ r' ∈ earlier, r'.cleanup = some c)) ∧
    (∀ precise, (correlate (s.withPrecise precise) ms).map cleaning =
      (correlate s ms).map cleaning) ∧
    (correlate s ms).Pairwise fun r r' =>
      compare r.acquisition.kind r'.acquisition.kind = .lt ∨
        r.acquisition.kind = r'.acquisition.kind ∧
          sourceOrder r.acquisition r'.acquisition = .lt := by
  refine ⟨fun k => ?_, fun b => correlate_withPrecise s b ms, correlate_ordered s ms⟩
  refine ⟨acquisitionsOf k ms, cleanupsOf k ms, acquisitionsOf_outermost k ms,
    cleanupsOf_distinct k ms, ?_, ?_⟩
  · rw [correlate_filter_kind, resultsOf, settle_acquisitions]
  · intro earlier r later h
    rw [correlate_filter_kind] at h
    have hout := resultsOf_outcome h
    exact ⟨hout, fun hv c hc hun hpl => hout.taken hv hc hun hpl⟩

end Correlation
end LeakScan
