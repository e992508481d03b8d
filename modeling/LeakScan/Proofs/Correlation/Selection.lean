import LeakScan.Correlation
import LeakScan.Proofs.Ordered
import LeakScan.Proofs.Span

/-!
# LeakScan.Proofs.Correlation.Selection

Which matches take part in an assignment. The selections are made by sorting, leaving out what
repeats its neighbour, and (for acquisitions) leaving out what another one of the rule contains.
Here each selection is told by its members and their order alone.

* `mem_outermost`, `outermost_ordered` — the acquisitions.
* `mem_distinctCleanups`, `distinctCleanups_ordered` — the cleanups.
* `exists_outermost_covering` — every acquisition lies in one that is selected.
-/

namespace LeakScan
namespace Correlation

open Text

/-! ## The order of the source -/

/-- The order of the source with the rule left out. -/
def spanOrder (a b : Match) : Ordering :=
  (compare a.span.start b.span.start).then (compare b.span.stop a.span.stop)

theorem sourceOrder_eq_then (a b : Match) :
    sourceOrder a b = (spanOrder a b).then (compare a.ruleId b.ruleId) :=
  (Ordering.then_assoc ..).symm

instance : Std.TransCmp fun a b : Match => compare b.span.stop a.span.stop :=
  @Std.TransCmp.opposite _ (compareOn fun m : Match => m.span.stop) inferInstance

instance : Std.TransCmp spanOrder :=
  inferInstanceAs (Std.TransCmp (compareLex (compareOn fun m : Match => m.span.start)
    fun a b : Match => compare b.span.stop a.span.stop))

instance : Std.TransCmp sourceOrder :=
  inferInstanceAs (Std.TransCmp (compareLex (compareOn fun m : Match => m.span.start)
    (compareLex (fun a b : Match => compare b.span.stop a.span.stop)
      (compareOn fun m : Match => m.ruleId))))

theorem spanOrder_eq_iff {a b : Match} : spanOrder a b = .eq ↔ a.span = b.span := by
  rcases ha : a.span with ⟨i, j⟩
  rcases hb : b.span with ⟨i', j'⟩
  simp only [spanOrder, ha, hb, Ordering.then_eq_eq, Std.LawfulEqCmp.compare_eq_iff_eq,
    Span.mk.injEq]
  rw [eq_comm (a := j)]

theorem spanOrder_lt_iff {a b : Match} :
    spanOrder a b = .lt ↔
      a.span.start < b.span.start ∨ a.span.start = b.span.start ∧ b.span.stop < a.span.stop := by
  simp only [spanOrder, Ordering.then_eq_lt, Nat.compare_eq_lt, Nat.compare_eq_eq]

theorem span_ne_of_spanOrder_lt {a b : Match} (h : spanOrder a b = .lt) : a.span ≠ b.span := by
  intro hspan
  rw [spanOrder_eq_iff.2 hspan] at h
  cases h

theorem sourceOrder_eq_iff {a b : Match} :
    sourceOrder a b = .eq ↔ a.ruleId = b.ruleId ∧ a.span = b.span := by
  rw [sourceOrder_eq_then, Ordering.then_eq_eq, spanOrder_eq_iff,
    Std.LawfulEqCmp.compare_eq_iff_eq, and_comm]

theorem sourceOrder_lt_of_spanOrder_lt {a b : Match} (h : spanOrder a b = .lt) :
    sourceOrder a b = .lt := by
  rw [sourceOrder_eq_then, h]; rfl

theorem spanOrder_isLE {a b : Match} (h : (sourceOrder a b).isLE = true) :
    (spanOrder a b).isLE = true := by
  rw [sourceOrder_eq_then, Ordering.isLE_then_iff_or] at h
  rcases h with h | ⟨h, _⟩ <;> rw [h] <;> rfl

/-- What contains another match comes before it. -/
theorem spanOrder_lt_of_contains {outer inner : Match} (h : outer.contains inner = true) :
    spanOrder outer inner = .lt := by
  have hc : outer.span.covers inner.span = true ∧ outer.span ≠ inner.span := by
    simpa [Match.contains] using h
  obtain ⟨hcov, hne⟩ := hc
  have hle : outer.span.start ≤ inner.span.start ∧ inner.span.stop ≤ outer.span.stop := by
    simpa [Span.covers] using hcov
  have hdiff : ¬(outer.span.start = inner.span.start ∧ outer.span.stop = inner.span.stop) := by
    rintro ⟨hstart, hstop⟩
    apply hne
    rcases ho : outer.span with ⟨i, j⟩
    rcases hi : inner.span with ⟨i', j'⟩
    rw [ho, hi] at hstart hstop
    rw [Span.mk.injEq]
    exact ⟨hstart, hstop⟩
  rw [spanOrder_lt_iff]
  omega

/-! ## Leaving out repetitions -/

section Repetitions

variable {ord : Match → Match → Ordering} [Std.TransCmp ord] {same : Match → Match → Bool}

/-- In a sorted list what lies between two equals is equal to them. -/
theorem eq_of_between {a b c : Match} (hab : (ord a b).isLE = true) (hbc : (ord b c).isLE = true)
    (hac : ord a c = .eq) : ord a b = .eq := by
  have hca : (ord c a).isLE = true := by rw [Std.OrientedCmp.eq_symm hac]; rfl
  exact Std.OrientedCmp.isLE_antisymm hab (Std.TransCmp.isLE_trans hbc hca)

theorem mem_dropSame (hs : ∀ a b, same a b = true ↔ ord a b = .eq) {c last : Match}
    {l : List Match} (hl : (last :: l).Pairwise fun a b => (ord a b).isLE = true) :
    c ∈ dropSame same last l ↔ ord last c ≠ .eq ∧ l.find? (same · c) = some c := by
  induction l generalizing last with
  | nil => simp [dropSame]
  | cons m rest ih =>
    obtain ⟨hlast, hrest⟩ := List.pairwise_cons.1 hl
    have hlm : (ord last m).isLE = true := hlast m List.mem_cons_self
    rw [dropSame]
    by_cases hm : same last m = true
    · -- `m` goes; a later match that equals `m` equals `last` too
      have hlast' : (last :: rest).Pairwise fun a b => (ord a b).isLE = true :=
        hl.sublist (.cons_cons _ (List.sublist_cons_self _ _))
      rw [if_pos hm, ih hlast', List.find?_cons]
      have hcongr : ord m c = .eq ↔ ord last c = .eq := by
        rw [Std.TransCmp.congr_left ((hs _ _).1 hm)]
      by_cases hmc : same m c = true
      · have : ord last c = .eq := hcongr.1 ((hs _ _).1 hmc)
        simp [this]
      · simp [hmc]
    · rw [if_neg hm, List.mem_cons, ih hrest, List.find?_cons]
      have hlm' : ord last m ≠ .eq := fun h => hm ((hs _ _).2 h)
      by_cases hmc : same m c = true
      · have hmc' : ord m c = .eq := (hs _ _).1 hmc
        simp only [hmc, hmc', ne_eq, not_true_eq_false, false_and, or_false, Option.some.injEq]
        constructor
        · rintro rfl
          exact ⟨hlm', rfl⟩
        · rintro ⟨_, rfl⟩
          rfl
      · have hmc' : ord m c ≠ .eq := fun h => hmc ((hs _ _).2 h)
        have hne : c ≠ m := by
          rintro rfl
          exact hmc' Std.ReflCmp.compare_self
        simp only [hmc, hne, false_or, ne_eq, hmc', not_false_eq_true, true_and]
        constructor
        · intro hfind
          refine ⟨fun hlc => hlm' ?_, hfind⟩
          have hcr : c ∈ rest := List.mem_of_find?_eq_some hfind
          exact eq_of_between hlm ((List.pairwise_cons.1 hrest).1 c hcr) hlc
        · exact fun h => h.2

/-- Of a sorted list the first of each class of equals is kept. -/
theorem mem_dedupBy (hs : ∀ a b, same a b = true ↔ ord a b = .eq) {c : Match} {l : List Match}
    (hl : l.Pairwise fun a b => (ord a b).isLE = true) :
    c ∈ dedupBy same l ↔ l.find? (same · c) = some c := by
  cases l with
  | nil => simp [dedupBy]
  | cons m rest =>
    rw [dedupBy, List.mem_cons, mem_dropSame hs hl, List.find?_cons]
    by_cases hmc : same m c = true
    · simp [hmc, (hs _ _).1 hmc, eq_comm]
    · have hmc' : ord m c ≠ .eq := fun h => hmc ((hs _ _).2 h)
      have hne : c ≠ m := by
        rintro rfl
        exact hmc' Std.ReflCmp.compare_self
      simp [hmc, hmc', hne]

theorem dropSame_ordered (hs : ∀ a b, same a b = true ↔ ord a b = .eq) {last : Match}
    {l : List Match} (hl : (last :: l).Pairwise fun a b => (ord a b).isLE = true) :
    (last :: dropSame same last l).Pairwise fun a b => ord a b = .lt := by
  induction l generalizing last with
  | nil => simp [dropSame]
  | cons m rest ih =>
    obtain ⟨hlast, hrest⟩ := List.pairwise_cons.1 hl
    rw [dropSame]
    by_cases hm : same last m = true
    · rw [if_pos hm]
      exact ih (hl.sublist (.cons_cons _ (List.sublist_cons_self _ _)))
    · rw [if_neg hm]
      have hlt : ord last m = .lt := by
        have hle := hlast m List.mem_cons_self
        cases ho : ord last m with
        | lt => rfl
        | eq => exact absurd ((hs _ _).2 ho) hm
        | gt => rw [ho] at hle; cases hle
      have htail := ih hrest
      refine List.pairwise_cons.2 ⟨fun d hd => ?_, htail⟩
      rcases List.mem_cons.1 hd with rfl | hd
      · exact hlt
      · exact Std.TransCmp.lt_trans hlt ((List.pairwise_cons.1 htail).1 d hd)

theorem dedupBy_ordered (hs : ∀ a b, same a b = true ↔ ord a b = .eq) {l : List Match}
    (hl : l.Pairwise fun a b => (ord a b).isLE = true) :
    (dedupBy same l).Pairwise fun a b => ord a b = .lt := by
  cases l with
  | nil => exact List.Pairwise.nil
  | cons m rest => exact dropSame_ordered hs hl

theorem exists_mem_dedupBy (hs : ∀ a b, same a b = true ↔ ord a b = .eq) {m : Match}
    {l : List Match} (hl : l.Pairwise fun a b => (ord a b).isLE = true) (hm : m ∈ l) :
    ∃ d ∈ dedupBy same l, same d m = true := by
  have hself : same m m = true := (hs _ _).2 Std.ReflCmp.compare_self
  have hfound : (l.find? (same · m)).isSome = true := List.find?_isSome.2 ⟨m, hm, hself⟩
  obtain ⟨d, hd⟩ := Option.isSome_iff_exists.1 hfound
  have hdm : same d m = true := by simpa using List.find?_some hd
  refine ⟨d, (mem_dedupBy hs hl).2 ?_, hdm⟩
  have hsame : ∀ x, same x d = same x m := by
    intro x
    rw [Bool.eq_iff_iff, hs, hs, Std.TransCmp.congr_right ((hs _ _).1 hdm)]
  rw [← hd]
  congr 1
  funext x
  exact hsame x

end Repetitions

/-! ## Sorting -/

theorem sortMatches_sorted (ms : List Match) :
    (sortMatches ms).Pairwise fun a b => (sourceOrder a b).isLE = true :=
  List.pairwise_mergeSort (fun _ _ _ => Std.TransCmp.isLE_trans) (isLE_total sourceOrder) ms

theorem mem_sortMatches {m : Match} {ms : List Match} : m ∈ sortMatches ms ↔ m ∈ ms :=
  List.mem_mergeSort

/-- The first of the sorted matches with a property comes before all others that have it. -/
theorem isLE_of_find? {p : Match → Bool} {ms : List Match} {b m : Match}
    (h : (sortMatches ms).find? p = some b) (hm : m ∈ ms) (hp : p m = true) :
    (sourceOrder b m).isLE = true := by
  obtain ⟨_, before, after, hsort, hbefore⟩ := List.find?_eq_some_iff_append.1 h
  have hsorted := sortMatches_sorted ms
  have hmem := mem_sortMatches.2 hm
  rw [hsort] at hsorted hmem
  rcases List.mem_append.1 hmem with hmem | hmem
  · have := hbefore m hmem
    rw [hp] at this
    cases this
  · rcases List.mem_cons.1 hmem with rfl | hmem
    · exact Std.ReflCmp.isLE_rfl
    · exact (List.pairwise_cons.1 (List.pairwise_append.1 hsorted).2.1).1 m hmem

/-- Sorting keeps the order among matches that it cannot tell apart. -/
theorem filter_sortMatches {p : Match → Bool} {ms : List Match}
    (hp : ∀ a b, p a = true → p b = true → (sourceOrder a b).isLE = true) :
    (sortMatches ms).filter p = ms.filter p := by
  have hpairs : (ms.filter p).Pairwise fun a b => (sourceOrder a b).isLE = true := by
    refine List.pairwise_of_forall_mem_list fun a ha b hb => ?_
    exact hp a b (List.mem_filter.1 ha).2 (List.mem_filter.1 hb).2
  have hsub : (ms.filter p).Sublist (sortMatches ms) :=
    List.sublist_mergeSort (fun _ _ _ => Std.TransCmp.isLE_trans) (isLE_total sourceOrder) hpairs
      List.filter_sublist
  have hfilter := hsub.filter p
  rw [List.filter_filter] at hfilter
  simp only [Bool.and_self] at hfilter
  refine (hfilter.eq_of_length ?_).symm
  exact ((List.mergeSort_perm ms _).filter p).length_eq.symm

theorem find?_sortMatches {p : Match → Bool} {ms : List Match}
    (hp : ∀ a b, p a = true → p b = true → (sourceOrder a b).isLE = true) :
    (sortMatches ms).find? p = ms.find? p := by
  rw [← List.head?_filter, filter_sortMatches hp, List.head?_filter]

/-- Sorting by insertion gives the same list, and can be evaluated. -/
theorem sortMatches_eq_insertionSort (ms : List Match) :
    sortMatches ms = ms.insertionSort fun a b => (sourceOrder a b).isLE = true :=
  mergeSort_eq_insertionSort ms

/-! ## Acquisitions -/

/-- One rule matching one span. -/
def sameSite (a b : Match) : Bool := a.ruleId == b.ruleId && a.span == b.span

theorem sameSite_iff {a b : Match} :
    sameSite a b = true ↔ a.ruleId = b.ruleId ∧ a.span = b.span := by
  simp [sameSite]

theorem sameSite_iff_order (a b : Match) : sameSite a b = true ↔ sourceOrder a b = .eq := by
  rw [sameSite_iff, sourceOrder_eq_iff]

theorem find?_sameSite_sortMatches (a : Match) (ms : List Match) :
    (sortMatches ms).find? (sameSite · a) = ms.find? (sameSite · a) := by
  refine find?_sortMatches fun x y hx hy => ?_
  have hxy : sourceOrder x y = .eq :=
    Std.TransCmp.eq_trans ((sameSite_iff_order _ _).1 hx)
      (Std.OrientedCmp.eq_symm ((sameSite_iff_order _ _).1 hy))
  rw [hxy]; rfl

/-- A match that is the first with a property of its site is the first at its site. -/
theorem find?_sameSite_of_find? {p : Match → Bool} {ms : List Match} {b : Match}
    (h : (sortMatches ms).find? p = some b) (hp : ∀ x, sameSite x b = true → p x = true) :
    ms.find? (sameSite · b) = some b := by
  obtain ⟨_, before, after, hsort, hbefore⟩ := List.find?_eq_some_iff_append.1 h
  rw [← find?_sameSite_sortMatches, List.find?_eq_some_iff_append]
  refine ⟨by simp [sameSite], before, after, hsort, fun x hx => ?_⟩
  cases hxb : sameSite x b with
  | false => rfl
  | true =>
    have := hbefore x hx
    rw [hp x hxb] at this
    cases this

theorem contains_congr_left {m m' inner : Match} (h : m.span = m'.span) :
    m.contains inner = m'.contains inner := by
  simp only [Match.contains, h]

/-- An acquisition is selected if it is the first of its rule and span, and no other one of its
rule contains it. -/
theorem mem_outermost {ms : List Match} {a : Match} :
    a ∈ outermost ms ↔
      ms.find? (sameSite · a) = some a ∧
        ∀ m ∈ ms, m.ruleId = a.ruleId → m.contains a = false := by
  have hsorted := sortMatches_sorted ms
  have hmem : ∀ c, c ∈ dedupBy sameSite (sortMatches ms) ↔ ms.find? (sameSite · c) = some c := by
    intro c
    rw [mem_dedupBy sameSite_iff_order hsorted, find?_sameSite_sortMatches]
  have hdef : outermost ms = (dedupBy sameSite (sortMatches ms)).filter fun inner =>
      !(dedupBy sameSite (sortMatches ms)).any fun outer =>
        outer.ruleId == inner.ruleId && outer.contains inner := rfl
  rw [hdef, List.mem_filter, hmem]
  refine and_congr_right fun _ => ?_
  simp only [Bool.not_eq_true', List.any_eq_false, Bool.and_eq_true, beq_iff_eq, not_and,
    Bool.not_eq_true]
  constructor
  · intro h m hm hrule
    -- the selection speaks of the first match at the site of `m`
    obtain ⟨d, hd, hdm⟩ := exists_mem_dedupBy sameSite_iff_order hsorted (mem_sortMatches.2 hm)
    obtain ⟨hdrule, hdspan⟩ := sameSite_iff.1 hdm
    rw [← contains_congr_left hdspan]
    exact h d hd (hdrule.trans hrule)
  · intro h d hd hrule
    exact h d (List.mem_of_find?_eq_some ((hmem d).1 hd)) hrule

theorem outermost_ordered (ms : List Match) :
    (outermost ms).Pairwise fun a b => sourceOrder a b = .lt :=
  (dedupBy_ordered sameSite_iff_order (sortMatches_sorted ms)).sublist List.filter_sublist

theorem mem_of_mem_outermost {ms : List Match} {a : Match} (h : a ∈ outermost ms) : a ∈ ms :=
  List.mem_of_find?_eq_some (mem_outermost.1 h).1

/-- A match of the rule of `a` that covers it. -/
def reaches (a m : Match) : Bool := m.ruleId == a.ruleId && m.span.covers a.span

theorem reaches_iff {a m : Match} :
    reaches a m = true ↔ m.ruleId = a.ruleId ∧ m.span.covers a.span = true := by
  simp [reaches]

/-- The first match in the order of the source that reaches `a` is selected: what contains it comes
earlier and reaches `a` too. -/
theorem mem_outermost_of_reaches {ms : List Match} {a b : Match}
    (h : (sortMatches ms).find? (reaches a) = some b) : b ∈ outermost ms := by
  obtain ⟨hrule, hcov⟩ := reaches_iff.1 (List.find?_some h)
  rw [mem_outermost]
  constructor
  · refine find?_sameSite_of_find? h fun x hx => ?_
    obtain ⟨hxrule, hxspan⟩ := sameSite_iff.1 hx
    exact reaches_iff.2 ⟨hxrule.trans hrule, hxspan ▸ hcov⟩
  · intro m hm hmrule
    cases hmb : m.contains b with
    | false => rfl
    | true =>
      have hmcov : m.span.covers b.span = true := by
        simp only [Match.contains, Bool.and_eq_true] at hmb
        exact hmb.1
      have hreach : reaches a m = true :=
        reaches_iff.2 ⟨hmrule.trans hrule, Span.covers_trans hmcov hcov⟩
      have hlt := sourceOrder_lt_of_spanOrder_lt (spanOrder_lt_of_contains hmb)
      exact absurd hlt (Std.OrientedCmp.not_lt_of_isLE (isLE_of_find? h hm hreach))

/-- Every acquisition lies in a selected one of its rule, and has its span if nothing of the rule
contains it. -/
theorem exists_outermost_covering {ms : List Match} {a : Match} (ha : a ∈ ms) :
    ∃ b ∈ outermost ms, b.ruleId = a.ruleId ∧ b.span.covers a.span = true ∧
      ((∀ m ∈ ms, m.ruleId = a.ruleId → m.contains a = false) → b.span = a.span) := by
  have hself : reaches a a = true := by simp [reaches, Span.covers]
  obtain ⟨b, hfind⟩ := Option.isSome_iff_exists.1
    (List.find?_isSome.2 ⟨a, mem_sortMatches.2 ha, hself⟩)
  obtain ⟨hrule, hcov⟩ := reaches_iff.1 (List.find?_some hfind)
  have hbms : b ∈ ms := mem_sortMatches.1 (List.mem_of_find?_eq_some hfind)
  refine ⟨b, mem_outermost_of_reaches hfind, hrule, hcov, fun hnone => ?_⟩
  have hnot := hnone b hbms hrule
  simpa [Match.contains, hcov] using hnot

/-! ## Cleanups -/

theorem spanOrder_sorted (ms : List Match) :
    (sortMatches ms).Pairwise fun a b => (spanOrder a b).isLE = true :=
  (sortMatches_sorted ms).imp spanOrder_isLE

theorem sameSpan_iff_order (a b : Match) : (a.span == b.span) = true ↔ spanOrder a b = .eq := by
  rw [beq_iff_eq, spanOrder_eq_iff]

theorem distinctCleanups_ordered (ms : List Match) :
    (distinctCleanups ms).Pairwise fun a b => spanOrder a b = .lt :=
  dedupBy_ordered sameSpan_iff_order (spanOrder_sorted ms)

theorem mem_distinctCleanups_iff_find? {ms : List Match} {c : Match} :
    c ∈ distinctCleanups ms ↔ (sortMatches ms).find? (·.span == c.span) = some c :=
  mem_dedupBy sameSpan_iff_order (spanOrder_sorted ms)

theorem first_of_mem_distinctCleanups {ms : List Match} {c : Match} (h : c ∈ distinctCleanups ms) :
    ms.find? (sameSite · c) = some c ∧
      ∀ m ∈ ms, m.span = c.span → (compare c.ruleId m.ruleId).isLE = true := by
  have hfind := mem_distinctCleanups_iff_find?.1 h
  constructor
  · refine find?_sameSite_of_find? hfind fun x hx => ?_
    simpa using (sameSite_iff.1 hx).2
  · intro m hm hspan
    have hle := isLE_of_find? hfind hm (by simpa using hspan)
    rwa [sourceOrder_eq_then, spanOrder_eq_iff.2 hspan.symm] at hle

/-- A cleanup is selected if it is the first of its rule and span, and its rule comes first among
the rules that match its span. -/
theorem mem_distinctCleanups {ms : List Match} {c : Match} :
    c ∈ distinctCleanups ms ↔
      ms.find? (sameSite · c) = some c ∧
        ∀ m ∈ ms, m.span = c.span → (compare c.ruleId m.ruleId).isLE = true := by
  refine ⟨first_of_mem_distinctCleanups, fun ⟨hc, hleast⟩ => ?_⟩
  have hcms := List.mem_of_find?_eq_some hc
  -- the match that stands for this span has the rule of `c`, so it is `c`
  obtain ⟨d, hd, hdc⟩ :=
    exists_mem_dedupBy sameSpan_iff_order (spanOrder_sorted ms) (mem_sortMatches.2 hcms)
  obtain ⟨hdfirst, hdleast⟩ := first_of_mem_distinctCleanups hd
  have hspan : d.span = c.span := by simpa using hdc
  have hrule : d.ruleId = c.ruleId := by
    refine Std.LawfulEqCmp.eq_of_compare
      (Std.OrientedCmp.isLE_antisymm (hdleast c hcms hspan.symm) ?_)
    exact hleast d (List.mem_of_find?_eq_some hdfirst) hspan
  have hsite : (sameSite · d) = (sameSite · c) := by
    funext x
    simp only [sameSite, hrule, hspan]
  rw [hsite, hc] at hdfirst
  cases hdfirst
  exact hd

theorem mem_of_mem_distinctCleanups {ms : List Match} {c : Match} (h : c ∈ distinctCleanups ms) :
    c ∈ ms :=
  List.mem_of_find?_eq_some (mem_distinctCleanups.1 h).1

theorem distinctCleanups_spans_differ (ms : List Match) :
    (distinctCleanups ms).Pairwise fun a b => a.span ≠ b.span :=
  (distinctCleanups_ordered ms).imp span_ne_of_spanOrder_lt

end Correlation
end LeakScan
