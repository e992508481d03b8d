import LeakScan.Proofs.Correlation.Kinds

/-!
# LeakScan.Proofs.Correlation.Coverage

Every acquisition is accounted for, and no cleanup counts twice.

* `Accounted` — what the results for some matches owe to them.
* `correlate_accounted` — correlation keeps all of it, whatever the matches and their spans.
-/

namespace LeakScan
namespace Correlation

open Text

/-- What results owe to the matches they were made from. -/
structure Accounted (ms : List Match) (rs : List Correlation) : Prop where
  /-- Nothing is made up. -/
  given : ∀ r ∈ rs, r.acquisition ∈ ms ∧ r.acquisition.role = .acquire
  /-- Nothing is told twice. -/
  once : rs.Pairwise fun r r' =>
    ¬(r.acquisition.kind = r'.acquisition.kind ∧ r.acquisition.ruleId = r'.acquisition.ruleId ∧
      r.acquisition.span = r'.acquisition.span)
  /-- Nothing is lost: an acquisition has a result of its own, or lies in one that has. -/
  covered : ∀ a ∈ ms, a.role = .acquire → ∃ r ∈ rs,
    r.acquisition.kind = a.kind ∧ r.acquisition.ruleId = a.ruleId ∧
      r.acquisition.span.covers a.span = true ∧
      ((¬∃ outer ∈ ms, Encloses outer a) → r.acquisition.span = a.span)
  /-- Only outermost acquisitions have results. -/
  outermost : ∀ r ∈ rs, ¬∃ outer ∈ ms, Encloses outer r.acquisition
  cleanup_given : ∀ r ∈ rs, ∀ c, r.cleanup = some c →
    c ∈ ms ∧ c.role = .cleanup ∧ c.kind = r.acquisition.kind
  cleanup_once : rs.Pairwise fun r r' => r.acquisition.kind = r'.acquisition.kind →
    ∀ c, r.cleanup = some c → ∀ c', r'.cleanup = some c' → c.span ≠ c'.span

theorem exists_result_covering (s : Setting) {ms : List Match} {a : Match} (ha : a ∈ ms)
    (hrole : a.role = .acquire) :
    ∃ r ∈ resultsOf s a.kind ms, r.acquisition.ruleId = a.ruleId ∧
      r.acquisition.span.covers a.span = true ∧
      ((¬∃ outer ∈ ms, Encloses outer a) → r.acquisition.span = a.span) := by
  obtain ⟨b, hb, hrule, hcov, htight⟩ :=
    exists_outermost_covering (mem_poolOf.2 ⟨ha, rfl, hrole⟩)
  have hb' : b ∈ (resultsOf s a.kind ms).map (·.acquisition) := by
    rw [resultsOf, settle_acquisitions]
    exact hb
  obtain ⟨r, hr, rfl⟩ := List.mem_map.1 hb'
  exact ⟨r, hr, hrule, hcov, fun hnone => htight ((encloses_iff_of_pool rfl).2 hnone)⟩

theorem not_enclosed {s : Setting} {k : String} {ms : List Match} {r : Correlation}
    (h : r ∈ resultsOf s k ms) : ¬∃ outer ∈ ms, Encloses outer r.acquisition :=
  (encloses_iff_of_pool (acquisition_mem_pool h).2.1).1 (mem_outermost.1 (acquisition_mem h)).2

theorem correlate_once (s : Setting) (ms : List Match) :
    (correlate s ms).Pairwise fun r r' =>
      ¬(r.acquisition.kind = r'.acquisition.kind ∧ r.acquisition.ruleId = r'.acquisition.ruleId ∧
        r.acquisition.span = r'.acquisition.span) := by
  refine (correlate_ordered s ms).imp fun {r r'} hlt => ?_
  rintro ⟨hkind, hsite⟩
  rcases hlt with hlt | ⟨_, hlt⟩
  · rw [hkind, Std.ReflOrd.compare_self] at hlt
    cases hlt
  · rw [sourceOrder_eq_iff.2 hsite] at hlt
    cases hlt

theorem correlate_cleanups_differ (s : Setting) (ms : List Match) :
    (correlate s ms).Pairwise fun r r' => r.acquisition.kind = r'.acquisition.kind →
      ∀ c, r.cleanup = some c → ∀ c', r'.cleanup = some c' → c.span ≠ c'.span := by
  rw [correlate_eq_flatMap, List.pairwise_flatMap]
  constructor
  · intro k _
    refine (resultsOf_cleanups_differ s k ms).imp fun {r r'} hdiff => ?_
    exact fun _ => hdiff
  · -- results of different runs are of different kinds
    refine (kindsOf_nodup ms).imp fun {k k'} hne r hr r' hr' hkind => ?_
    rw [(acquisition_mem_pool hr).2.1, (acquisition_mem_pool hr').2.1] at hkind
    exact absurd hkind hne

/-- No acquisition is lost or told twice, and no cleanup is used twice. -/
theorem correlate_accounted (s : Setting) (ms : List Match) : Accounted ms (correlate s ms) where
  given := by
    intro r hr
    obtain ⟨hm, _, hrole⟩ := acquisition_mem_pool (mem_correlate.1 hr)
    exact ⟨hm, hrole⟩
  once := correlate_once s ms
  covered := by
    intro a ha hrole
    obtain ⟨r, hr, hrule, hcov, htight⟩ := exists_result_covering s ha hrole
    have hkind := (acquisition_mem_pool hr).2.1
    exact ⟨r, mem_correlate.2 (by rwa [hkind]), hkind, hrule, hcov, htight⟩
  outermost := fun r hr => not_enclosed (mem_correlate.1 hr)
  cleanup_given := by
    intro r hr c hc
    obtain ⟨hm, hkind, hrole⟩ := cleanup_mem_pool (mem_correlate.1 hr) hc
    exact ⟨hm, hrole, hkind⟩
  cleanup_once := correlate_cleanups_differ s ms

end Correlation
end LeakScan
