import LeakScan.Proofs.Correlation.Monotone

/-!
# LeakScan.Proofs.Correlation.Delivery

Results do not depend on the order in which matches are delivered, nor on matches of other kinds.

* `OnePerSite` — no two different matches agree on kind, role, rule and span.
* `outermost_congr`, `distinctCleanups_congr` — then a selection depends on the set of matches.
* `correlate_filter_matches` — each kind is correlated for itself.
* `correlate_delivery` — both together.
-/

namespace LeakScan
namespace Correlation

/-- Matches that agree on kind, role, rule and span are one match. It may be delivered twice. -/
def OnePerSite (ms : List Match) : Prop :=
  ∀ a ∈ ms, ∀ b ∈ ms, a.kind = b.kind → a.role = b.role → a.ruleId = b.ruleId → a.span = b.span →
    a = b

instance (ms : List Match) : Decidable (OnePerSite ms) :=
  inferInstanceAs (Decidable (∀ a ∈ ms, ∀ b ∈ ms, a.kind = b.kind → a.role = b.role →
    a.ruleId = b.ruleId → a.span = b.span → a = b))

/-! ## Selections from a set of matches -/

section Selections

variable {pool pool' : List Match}

/-- Where every site has one match, the first at a site is the match there. -/
theorem find?_sameSite_iff_mem (h : ∀ a ∈ pool, ∀ b ∈ pool, sameSite a b = true → a = b)
    {a : Match} : pool.find? (sameSite · a) = some a ↔ a ∈ pool := by
  constructor
  · exact List.mem_of_find?_eq_some
  · intro ha
    have hself : sameSite a a = true := by simp [sameSite]
    have hfound : (pool.find? (sameSite · a)).isSome = true :=
      List.find?_isSome.2 ⟨a, ha, hself⟩
    obtain ⟨b, hb⟩ := Option.isSome_iff_exists.1 hfound
    have hba : sameSite b a = true := by simpa using List.find?_some hb
    rw [hb, h b (List.mem_of_find?_eq_some hb) a ha hba]

variable (h : ∀ a ∈ pool, ∀ b ∈ pool, sameSite a b = true → a = b)
  (hmem : ∀ m, m ∈ pool' ↔ m ∈ pool)

include h hmem

theorem sites_congr : ∀ a ∈ pool', ∀ b ∈ pool', sameSite a b = true → a = b := by
  intro a ha b hb
  exact h a ((hmem a).1 ha) b ((hmem b).1 hb)

theorem outermost_congr : outermost pool' = outermost pool := by
  refine eq_of_ordered (outermost_ordered pool') (outermost_ordered pool) fun a => ?_
  rw [mem_outermost, mem_outermost, find?_sameSite_iff_mem h,
    find?_sameSite_iff_mem (sites_congr h hmem)]
  simp only [hmem]

theorem distinctCleanups_congr : distinctCleanups pool' = distinctCleanups pool := by
  refine eq_of_ordered (distinctCleanups_ordered pool') (distinctCleanups_ordered pool) fun c => ?_
  rw [mem_distinctCleanups, mem_distinctCleanups, find?_sameSite_iff_mem h,
    find?_sameSite_iff_mem (sites_congr h hmem)]
  simp only [hmem]

end Selections

/-! ## Order of delivery -/

section Order

variable {ms ms' : List Match} (hmem : ∀ m, m ∈ ms' ↔ m ∈ ms)

include hmem

theorem kindsOf_congr : kindsOf ms' = kindsOf ms := by
  refine eq_of_ordered (kindsOf_ascend ms') (kindsOf_ascend ms) fun k => ?_
  simp only [mem_kindsOf, hmem]

theorem mem_poolOf_congr (k : String) (role : Role) (m : Match) :
    m ∈ poolOf k role ms' ↔ m ∈ poolOf k role ms := by
  rw [mem_poolOf, mem_poolOf, hmem]

omit hmem in
/-- In a pool kind and role are given, so the site tells the matches apart. -/
theorem poolOf_sites (h : OnePerSite ms) (k : String) (role : Role) :
    ∀ a ∈ poolOf k role ms, ∀ b ∈ poolOf k role ms, sameSite a b = true → a = b := by
  intro a ha b hb hsite
  obtain ⟨ha, hak, harole⟩ := mem_poolOf.1 ha
  obtain ⟨hb, hbk, hbrole⟩ := mem_poolOf.1 hb
  obtain ⟨hrule, hspan⟩ := sameSite_iff.1 hsite
  exact h a ha b hb (hak.trans hbk.symm) (harole.trans hbrole.symm) hrule hspan

theorem resultsOf_congr (s : Setting) (h : OnePerSite ms) (k : String) :
    resultsOf s k ms' = resultsOf s k ms := by
  have hacq : acquisitionsOf k ms' = acquisitionsOf k ms :=
    outermost_congr (poolOf_sites h k .acquire) (mem_poolOf_congr hmem k .acquire)
  have hcl : cleanupsOf k ms' = cleanupsOf k ms :=
    distinctCleanups_congr (poolOf_sites h k .cleanup) (mem_poolOf_congr hmem k .cleanup)
  rw [resultsOf, resultsOf, hacq, hcl]

/-- The results depend on the set of matches alone. -/
theorem correlate_congr (s : Setting) (h : OnePerSite ms) : correlate s ms' = correlate s ms := by
  rw [correlate_eq_flatMap, correlate_eq_flatMap, kindsOf_congr hmem]
  exact List.flatMap_congr fun k _ => resultsOf_congr hmem s h k

end Order

/-! ## Other kinds -/

theorem poolOf_filter_kind (k : String) (role : Role) (ms : List Match) :
    poolOf k role (ms.filter (·.kind == k)) = poolOf k role ms := by
  simp [poolOf]

theorem correlate_filter_matches (s : Setting) (k : String) (ms : List Match) :
    correlate s (ms.filter (·.kind == k)) = resultsOf s k ms := by
  have hall : ∀ m ∈ ms.filter (·.kind == k), m.kind ∈ [k] := by
    intro m hm
    simpa using (List.mem_filter.1 hm).2
  rw [correlate_eq_flatMap_of_kinds s (List.pairwise_singleton _ k) hall, List.flatMap_singleton,
    resultsOf, resultsOf, acquisitionsOf, acquisitionsOf, cleanupsOf, cleanupsOf,
    poolOf_filter_kind, poolOf_filter_kind]

/-- Where no two matches agree on kind, role, rule and span, every order of delivery gives the same
results. The results of a kind are those of its own matches. -/
theorem correlate_delivery (s : Setting) (ms : List Match) :
    (OnePerSite ms → ∀ ms', ms'.Perm ms → correlate s ms' = correlate s ms) ∧
    ∀ k, (correlate s ms).filter (·.acquisition.kind == k) =
      correlate s (ms.filter (·.kind == k)) := by
  constructor
  · intro h ms' hperm
    exact correlate_congr (fun m => hperm.mem_iff) s h
  · intro k
    rw [correlate_filter_kind, correlate_filter_matches]

/-! ## The two timers, out of order

A listener stands between them; its kind comes first. -/

def listener : Match :=
  { timerMatch .acquire 22 2 "on(y)" with ruleId := "js.listener", kind := "listener" }

def inOrder : List Match := [firstTimer, secondTimer, listener, earlyClear, lateClear]

def outOfOrder : List Match := [lateClear, listener, secondTimer, earlyClear, firstTimer]

theorem timers_out_of_order :
    OnePerSite inOrder ∧ outOfOrder.Perm inOrder ∧
    correlate timerSetting inOrder = [⟨listener, none, .leaked⟩,
      ⟨firstTimer, some earlyClear, .cleaned⟩, ⟨secondTimer, some lateClear, .cleaned⟩] ∧
    correlate timerSetting outOfOrder = correlate timerSetting inOrder ∧
    (correlate timerSetting inOrder).filter (·.acquisition.kind == "timer") =
      correlate timerSetting [firstTimer, secondTimer, earlyClear, lateClear] := by
  obtain ⟨horder, hkinds⟩ := correlate_delivery timerSetting inOrder
  have hsites : OnePerSite inOrder := by decide +kernel
  have hperm : outOfOrder.Perm inOrder := by decide +kernel
  refine ⟨hsites, hperm, ?_, horder hsites outOfOrder hperm, ?_⟩
  · simp only [correlate, settleKind, outermost, distinctCleanups, sortMatches_eq_insertionSort]
    decide +kernel
  · exact hkinds "timer"

end Correlation
end LeakScan
