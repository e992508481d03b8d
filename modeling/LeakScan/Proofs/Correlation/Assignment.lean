import LeakScan.Correlation

/-!
# LeakScan.Proofs.Correlation.Assignment

The assignment of free cleanups to the acquisitions of one kind, step by step.

* `Step s a free r free'` — acquisition `a` finds the cleanups `free`, gets the result `r` and
  leaves the cleanups `free'`.
* `settle_cons` — `settle` makes one step for each acquisition.
* `settle_acquisitions`, `settle_spends` — what a whole run returns and uses up.
-/

namespace LeakScan
namespace Correlation

theorem takeFirst_some {α : Type u} {p : α → Bool} {l others : List α} {c : α}
    (h : takeFirst p l = some (c, others)) :
    ∃ skipped rest, l = skipped ++ c :: rest ∧ others = skipped ++ rest ∧ p c = true ∧
      ∀ x ∈ skipped, p x = false := by
  induction l generalizing others with
  | nil => cases h
  | cons a tail ih =>
    rw [takeFirst] at h
    split at h
    · rename_i ha
      cases h
      exact ⟨[], tail, rfl, rfl, ha, by simp⟩
    · rename_i ha
      split at h
      · rename_i found others' hrec
        cases h
        obtain ⟨skipped, rest, rfl, rfl, hc, hskip⟩ := ih hrec
        refine ⟨a :: skipped, rest, rfl, rfl, hc, ?_⟩
        simpa [ha] using hskip
      · cases h

theorem takeFirst_none {α : Type u} {p : α → Bool} {l : List α} (h : takeFirst p l = none) :
    ∀ x ∈ l, p x = false := by
  induction l with
  | nil => simp
  | cons a tail ih =>
    rw [takeFirst] at h
    split at h
    · cases h
    · rename_i ha
      split at h
      · cases h
      · rename_i hrec
        simpa [ha] using ih hrec

theorem takeFirst_append_some {α : Type u} {p : α → Bool} {l others : List α} {c : α}
    (h : takeFirst p l = some (c, others)) (r : List α) :
    takeFirst p (l ++ r) = some (c, others ++ r) := by
  induction l generalizing others with
  | nil => cases h
  | cons a tail ih =>
    rw [takeFirst] at h
    rw [List.cons_append, takeFirst]
    split at h
    · rename_i ha
      cases h
      rw [if_pos ha]
    · rename_i ha
      rw [if_neg ha]
      split at h
      · rename_i hrec
        cases h
        rw [ih hrec]
        rfl
      · cases h

theorem takeFirst_append_none {α : Type u} {p : α → Bool} {l : List α}
    (h : takeFirst p l = none) (r : List α) :
    takeFirst p (l ++ r) = (takeFirst p r).map fun found => (found.1, l ++ found.2) := by
  induction l with
  | nil => simp
  | cons a tail ih =>
    rw [takeFirst] at h
    rw [List.cons_append, takeFirst]
    split at h
    · cases h
    · rename_i ha
      split at h
      · cases h
      · rename_i hrec
        rw [if_neg ha, ih hrec]
        cases takeFirst p r <;> rfl

/-- What one acquisition does to the free cleanups. -/
inductive Step (s : Setting) (a : Match) (free : List Match) : Correlation → List Match → Prop where
  | managed (hm : a.position = .managed) : Step s a free ⟨a, none, .cleaned⟩ free
  | paired {skipped others : List Match} {c : Match} (hm : a.position ≠ .managed)
      (hfree : free = skipped ++ c :: others) (hc : s.fits a c = true)
      (hskip : ∀ x ∈ skipped, s.fits a x = false) :
      Step s a free ⟨a, some c, .cleaned⟩ (skipped ++ others)
  | ambiguous (hm : a.position ≠ .managed) (hnone : ∀ x ∈ free, s.fits a x = false)
      (hguess : s.tree.precise = false) (hrel : ∃ x ∈ free, unify a.bindings x.bindings = true) :
      Step s a free ⟨a, none, .ambiguous⟩ free
  | leaked (hm : a.position ≠ .managed) (hnone : ∀ x ∈ free, s.fits a x = false)
      (hsure : s.tree.precise = true ∨ ∀ x ∈ free, unify a.bindings x.bindings = false) :
      Step s a free ⟨a, none, .leaked⟩ free

theorem settle_cons (s : Setting) (a : Match) (rest free : List Match) :
    ∃ r free', Step s a free r free' ∧ settle s (a :: rest) free = r :: settle s rest free' := by
  rw [settle]
  by_cases hm : a.position = .managed
  · exact ⟨_, free, .managed hm, by simp [hm]⟩
  · rw [if_neg (by simpa using hm)]
    cases ht : takeFirst (s.fits a) free with
    | some found =>
      obtain ⟨c, others⟩ := found
      obtain ⟨skipped, tail, hfree, rfl, hc, hskip⟩ := takeFirst_some ht
      exact ⟨_, _, .paired hm hfree hc hskip, rfl⟩
    | none =>
      have hnone := takeFirst_none ht
      cases hp : s.tree.precise with
      | true => exact ⟨_, free, .leaked hm hnone (.inl hp), by simp⟩
      | false =>
        by_cases hrel : ∃ x ∈ free, unify a.bindings x.bindings = true
        · refine ⟨_, free, .ambiguous hm hnone hp hrel, ?_⟩
          have hany : (free.any fun c => unify a.bindings c.bindings) = true :=
            List.any_eq_true.2 hrel
          simp [hany]
        · have hunrel : ∀ x ∈ free, unify a.bindings x.bindings = false := by
            simpa using hrel
          refine ⟨_, free, .leaked hm hnone (.inr hunrel), ?_⟩
          have hany : (free.any fun c => unify a.bindings c.bindings) = false := by
            simpa using hunrel
          simp [hany]

section Steps

variable {s : Setting} {a : Match} {free free' : List Match} {r : Correlation}

theorem Step.acquisition_eq (h : Step s a free r free') : r.acquisition = a := by
  cases h <;> rfl

/-- The cleanup that is used and those that stay free are the free ones from before. -/
theorem Step.perm (h : Step s a free r free') : (r.cleanup.toList ++ free').Perm free := by
  cases h with
  | managed => exact .refl _
  | paired _ hfree =>
    subst hfree
    simpa using List.perm_middle.symm
  | ambiguous => exact .refl _
  | leaked => exact .refl _

theorem Step.cleanup_fits {c : Match} (h : Step s a free r free') (hc : r.cleanup = some c) :
    r.verdict = .cleaned ∧ a.position ≠ .managed ∧ s.fits a c = true := by
  cases h with
  | managed => cases hc
  | paired hm _ hfit => cases hc; exact ⟨rfl, hm, hfit⟩
  | ambiguous => cases hc
  | leaked => cases hc

end Steps

/-! ## Runs -/

theorem settle_acquisitions (s : Setting) (as free : List Match) :
    (settle s as free).map (·.acquisition) = as := by
  induction as generalizing free with
  | nil => rfl
  | cons a rest ih =>
    obtain ⟨r, free', hstep, hrun⟩ := settle_cons s a rest free
    rw [hrun, List.map_cons, ih, hstep.acquisition_eq]

/-- A run uses each free cleanup at most once. -/
theorem settle_spends (s : Setting) (as free : List Match) :
    ∃ left, ((settle s as free).filterMap (·.cleanup) ++ left).Perm free := by
  induction as generalizing free with
  | nil => exact ⟨free, .refl _⟩
  | cons a rest ih =>
    obtain ⟨r, free', hstep, hrun⟩ := settle_cons s a rest free
    obtain ⟨left, hleft⟩ := ih free'
    refine ⟨left, ?_⟩
    have hsplit : (r :: settle s rest free').filterMap (·.cleanup) =
        r.cleanup.toList ++ (settle s rest free').filterMap (·.cleanup) := by
      cases hc : r.cleanup <;> simp [hc]
    rw [hrun, hsplit, List.append_assoc]
    exact (hleft.append_left _).trans hstep.perm

theorem settle_cleanup_fits {s : Setting} {as free : List Match} {r : Correlation} {c : Match}
    (hr : r ∈ settle s as free) (hc : r.cleanup = some c) :
    r.verdict = .cleaned ∧ r.acquisition.position ≠ .managed ∧ s.fits r.acquisition c = true := by
  induction as generalizing free with
  | nil => cases hr
  | cons a rest ih =>
    obtain ⟨r', free', hstep, hrun⟩ := settle_cons s a rest free
    rw [hrun] at hr
    rcases List.mem_cons.1 hr with rfl | hr
    · rw [hstep.acquisition_eq]
      exact hstep.cleanup_fits hc
    · exact ih hr

end Correlation
end LeakScan
