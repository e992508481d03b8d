import LeakScan.Proofs.Correlation.Assignment
import LeakScan.Proofs.Correlation.Selection
import LeakScan.Proofs.SortedMap

/-!
# LeakScan.Proofs.Correlation.Kinds

Correlation as one run of the assignment for each kind.

* `acquisitionsOf`, `cleanupsOf` — the matches of a kind that take part.
* `Encloses` — an acquisition of the same kind and rule around another one.
* `OutermostOf`, `DistinctOf` — the same by their members and order.
* `correlate_filter_kind` — the results of a kind are those of its own run.
* `correlate_ordered` — results stand by kind, and in each kind in the order of the source.
-/

namespace LeakScan
namespace Correlation

def poolOf (k : String) (role : Role) (ms : List Match) : List Match :=
  (ms.filter (·.kind == k)).filter (·.role == role)

def acquisitionsOf (k : String) (ms : List Match) : List Match := outermost (poolOf k .acquire ms)

def cleanupsOf (k : String) (ms : List Match) : List Match :=
  distinctCleanups (poolOf k .cleanup ms)

/-- The run for one kind. -/
def resultsOf (s : Setting) (k : String) (ms : List Match) : List Correlation :=
  settle s (acquisitionsOf k ms) (cleanupsOf k ms)

theorem correlate_eq_flatMap (s : Setting) (ms : List Match) :
    correlate s ms = (kindsOf ms).flatMap fun k => resultsOf s k ms := rfl

theorem mem_poolOf {k : String} {role : Role} {ms : List Match} {m : Match} :
    m ∈ poolOf k role ms ↔ m ∈ ms ∧ m.kind = k ∧ m.role = role := by
  simp [poolOf, and_assoc, and_comm]

theorem poolOf_insert {k : String} {role : Role} {x : Match} (l r : List Match) (hk : x.kind = k)
    (hrole : x.role = role) :
    poolOf k role (l ++ x :: r) = poolOf k role l ++ x :: poolOf k role r := by
  simp [poolOf, hk, hrole]

theorem poolOf_insert_of_ne {k : String} {role : Role} {x : Match} (l r : List Match)
    (h : x.kind = k → x.role ≠ role) : poolOf k role (l ++ x :: r) = poolOf k role (l ++ r) := by
  by_cases hk : x.kind = k
  · simp [poolOf, hk, h hk]
  · simp [poolOf, hk]

/-! ## Kinds -/

theorem kindsOf_ascend (ms : List Match) :
    (kindsOf ms).Pairwise fun k k' => compare k k' = .lt :=
  SortedMap.keys_ascend _

theorem mem_kindsOf {k : String} {ms : List Match} : k ∈ kindsOf ms ↔ ∃ m ∈ ms, m.kind = k := by
  rw [kindsOf, SortedMap.mem_keys_ofList]
  simp

theorem kindsOf_nodup (ms : List Match) : (kindsOf ms).Nodup :=
  nodup_of_ordered (kindsOf_ascend ms)

/-! ## The matches of a kind that take part -/

/-- An acquisition of the kind and rule of `inner` that contains it and is not as large. -/
def Encloses (outer inner : Match) : Prop :=
  outer.role = .acquire ∧ outer.kind = inner.kind ∧ outer.ruleId = inner.ruleId ∧
    outer.contains inner = true

/-- Among the pooled acquisitions of a kind, containment by one of the rule is enclosure. -/
theorem encloses_iff_of_pool {k : String} {ms : List Match} {a : Match} (hk : a.kind = k) :
    (∀ m ∈ poolOf k .acquire ms, m.ruleId = a.ruleId → m.contains a = false) ↔
      ¬∃ outer ∈ ms, Encloses outer a := by
  constructor
  · rintro h ⟨outer, hm, hrole, hkind, hrule, hcont⟩
    have := h outer (mem_poolOf.2 ⟨hm, hkind.trans hk, hrole⟩) hrule
    rw [hcont] at this
    cases this
  · intro h m hm hrule
    obtain ⟨hm, hkind, hrole⟩ := mem_poolOf.1 hm
    cases hcont : m.contains a with
    | false => rfl
    | true => exact absurd ⟨m, hm, hrole, hkind.trans hk.symm, hrule, hcont⟩ h

/-- One rule matching one span, in one role and for one kind. -/
def alike (a b : Match) : Bool := a.kind == b.kind && a.role == b.role && sameSite a b

theorem find?_poolOf {k : String} {role : Role} {ms : List Match} {a : Match} (hk : a.kind = k)
    (hrole : a.role = role) : (poolOf k role ms).find? (sameSite · a) = ms.find? (alike · a) := by
  subst hk hrole
  rw [poolOf, List.find?_filter, List.find?_filter]
  simp only [alike, Bool.and_assoc, Bool.decide_and, Bool.decide_eq_true]

/-- The acquisitions of a kind that lie in no other one of their rule, each once, as the source
has them. -/
structure OutermostOf (k : String) (ms as : List Match) : Prop where
  ordered : as.Pairwise fun a b => sourceOrder a b = .lt
  mem : ∀ a, a ∈ as ↔ a.kind = k ∧ a.role = .acquire ∧ ms.find? (alike · a) = some a ∧
    ¬∃ outer ∈ ms, Encloses outer a

/-- The cleanups of a kind, one for each span, as the source has them. Of several rules with a
cleanup at one span the first by name stands for all. -/
structure DistinctOf (k : String) (ms cs : List Match) : Prop where
  ordered : cs.Pairwise fun c d => sourceOrder c d = .lt ∧ c.span ≠ d.span
  mem : ∀ c, c ∈ cs ↔ c.kind = k ∧ c.role = .cleanup ∧ ms.find? (alike · c) = some c ∧
    ∀ m ∈ ms, m.kind = k → m.role = .cleanup → m.span = c.span →
      (compare c.ruleId m.ruleId).isLE = true

theorem acquisitionsOf_outermost (k : String) (ms : List Match) :
    OutermostOf k ms (acquisitionsOf k ms) where
  ordered := outermost_ordered _
  mem := by
    intro a
    rw [acquisitionsOf, mem_outermost]
    constructor
    · rintro ⟨hfirst, houter⟩
      obtain ⟨_, hk, hrole⟩ := mem_poolOf.1 (List.mem_of_find?_eq_some hfirst)
      exact ⟨hk, hrole, by rwa [find?_poolOf hk hrole] at hfirst, (encloses_iff_of_pool hk).1 houter⟩
    · rintro ⟨hk, hrole, hfirst, houter⟩
      exact ⟨by rwa [find?_poolOf hk hrole], (encloses_iff_of_pool hk).2 houter⟩

theorem cleanupsOf_distinct (k : String) (ms : List Match) :
    DistinctOf k ms (cleanupsOf k ms) where
  ordered := by
    refine (distinctCleanups_ordered _).imp fun {c d} hlt => ?_
    exact ⟨sourceOrder_lt_of_spanOrder_lt hlt, span_ne_of_spanOrder_lt hlt⟩
  mem := by
    intro c
    rw [cleanupsOf, mem_distinctCleanups]
    constructor
    · rintro ⟨hfirst, hleast⟩
      obtain ⟨_, hk, hrole⟩ := mem_poolOf.1 (List.mem_of_find?_eq_some hfirst)
      refine ⟨hk, hrole, by rwa [find?_poolOf hk hrole] at hfirst, fun m hm hmk hmrole => ?_⟩
      exact hleast m (mem_poolOf.2 ⟨hm, hmk, hmrole⟩)
    · rintro ⟨hk, hrole, hfirst, hleast⟩
      refine ⟨by rwa [find?_poolOf hk hrole], fun m hm hspan => ?_⟩
      obtain ⟨hm, hmk, hmrole⟩ := mem_poolOf.1 hm
      exact hleast m hm hmk hmrole hspan

/-! ## Results of one kind -/

section Results

variable {s : Setting} {k : String} {ms : List Match} {r : Correlation}

theorem acquisition_mem (h : r ∈ resultsOf s k ms) : r.acquisition ∈ acquisitionsOf k ms := by
  rw [← settle_acquisitions s (acquisitionsOf k ms) (cleanupsOf k ms)]
  exact List.mem_map_of_mem h

theorem acquisition_mem_pool (h : r ∈ resultsOf s k ms) :
    r.acquisition ∈ ms ∧ r.acquisition.kind = k ∧ r.acquisition.role = .acquire :=
  mem_poolOf.1 (mem_of_mem_outermost (acquisition_mem h))

theorem cleanup_mem {c : Match} (h : r ∈ resultsOf s k ms) (hc : r.cleanup = some c) :
    c ∈ cleanupsOf k ms := by
  obtain ⟨left, hleft⟩ := settle_spends s (acquisitionsOf k ms) (cleanupsOf k ms)
  refine hleft.subset (List.mem_append_left _ ?_)
  exact List.mem_filterMap.2 ⟨r, h, hc⟩

theorem cleanup_mem_pool {c : Match} (h : r ∈ resultsOf s k ms) (hc : r.cleanup = some c) :
    c ∈ ms ∧ c.kind = k ∧ c.role = .cleanup :=
  mem_poolOf.1 (mem_of_mem_distinctCleanups (cleanup_mem h hc))

theorem resultsOf_eq_nil (h : ∀ m ∈ ms, m.kind ≠ k) : resultsOf s k ms = [] := by
  apply List.eq_nil_iff_forall_not_mem.2
  intro r hr
  obtain ⟨hm, hk, _⟩ := acquisition_mem_pool hr
  exact h _ hm hk

end Results

theorem resultsOf_ordered (s : Setting) (k : String) (ms : List Match) :
    (resultsOf s k ms).Pairwise fun r r' => sourceOrder r.acquisition r'.acquisition = .lt := by
  have h := outermost_ordered (poolOf k .acquire ms)
  rw [show outermost (poolOf k .acquire ms) = (resultsOf s k ms).map (·.acquisition) from
    (settle_acquisitions s _ _).symm] at h
  exact List.pairwise_map.1 h

/-- In the results of a kind no two cleanups have one span. -/
theorem resultsOf_cleanups_differ (s : Setting) (k : String) (ms : List Match) :
    (resultsOf s k ms).Pairwise fun r r' =>
      ∀ c, r.cleanup = some c → ∀ c', r'.cleanup = some c' → c.span ≠ c'.span := by
  obtain ⟨left, hleft⟩ := settle_spends s (acquisitionsOf k ms) (cleanupsOf k ms)
  have hfree := distinctCleanups_spans_differ (poolOf k .cleanup ms)
  have hused := (hleft.pairwise_iff fun {_ _} h => Ne.symm h).2 hfree
  exact List.pairwise_filterMap.1 (List.pairwise_append.1 hused).1

/-! ## All kinds -/

theorem flatMap_of_one {α β : Type} [DecidableEq α] {ks : List α} (h : ks.Nodup) (k : α)
    (l : List β) : (ks.flatMap fun k' => if k' = k then l else []) = if k ∈ ks then l else [] := by
  induction ks with
  | nil => rfl
  | cons k' rest ih =>
    obtain ⟨hnot, hrest⟩ := List.nodup_cons.1 h
    rw [List.flatMap_cons, ih hrest]
    by_cases hk : k' = k
    · subst hk
      simp [hnot]
    · simp [hk, Ne.symm hk]

theorem correlate_filter_kind (s : Setting) (ms : List Match) (k : String) :
    (correlate s ms).filter (·.acquisition.kind == k) = resultsOf s k ms := by
  have hblock : ∀ k', (resultsOf s k' ms).filter (·.acquisition.kind == k) =
      if k' = k then resultsOf s k ms else [] := by
    intro k'
    split
    · rename_i hk
      subst hk
      exact List.filter_eq_self.2 fun r hr => by simp [(acquisition_mem_pool hr).2.1]
    · rename_i hk
      exact List.filter_eq_nil_iff.2 fun r hr => by simp [(acquisition_mem_pool hr).2.1, hk]
  rw [correlate_eq_flatMap, List.filter_flatMap]
  simp only [hblock]
  rw [flatMap_of_one (kindsOf_nodup ms)]
  split
  · rfl
  · rename_i hk
    exact (resultsOf_eq_nil fun m hm hmk => hk (mem_kindsOf.2 ⟨m, hm, hmk⟩)).symm

theorem flatMap_filter_of_nil {α β : Type} {p : α → Bool} {f : α → List β} {ks : List α}
    (h : ∀ k ∈ ks, p k = false → f k = []) : (ks.filter p).flatMap f = ks.flatMap f := by
  induction ks with
  | nil => rfl
  | cons k rest ih =>
    have hrest := ih fun k' hk' => h k' (List.mem_cons_of_mem k hk')
    cases hk : p k with
    | true => rw [List.filter_cons_of_pos hk, List.flatMap_cons, List.flatMap_cons, hrest]
    | false =>
      rw [List.filter_cons_of_neg (by simp [hk]), List.flatMap_cons, hrest,
        h k List.mem_cons_self hk, List.nil_append]

/-- More kinds than the matches have make no difference. -/
theorem correlate_eq_flatMap_of_kinds (s : Setting) {ms : List Match} {ks : List String}
    (hks : ks.Pairwise fun k k' => compare k k' = .lt) (hall : ∀ m ∈ ms, m.kind ∈ ks) :
    correlate s ms = ks.flatMap fun k => resultsOf s k ms := by
  have hkinds : kindsOf ms = ks.filter (· ∈ kindsOf ms) := by
    refine eq_of_ordered (kindsOf_ascend ms) (hks.sublist List.filter_sublist) fun k => ?_
    rw [List.mem_filter, decide_eq_true_eq, iff_and_self]
    intro hk
    obtain ⟨m, hm, rfl⟩ := mem_kindsOf.1 hk
    exact hall m hm
  rw [correlate_eq_flatMap, hkinds]
  refine flatMap_filter_of_nil fun k _ hk => resultsOf_eq_nil fun m hm hmk => ?_
  rw [decide_eq_false_iff_not, mem_kindsOf] at hk
  exact hk ⟨m, hm, hmk⟩

theorem mem_correlate {s : Setting} {ms : List Match} {r : Correlation} :
    r ∈ correlate s ms ↔ r ∈ resultsOf s r.acquisition.kind ms := by
  rw [← correlate_filter_kind, List.mem_filter]
  simp

theorem correlate_ordered (s : Setting) (ms : List Match) :
    (correlate s ms).Pairwise fun r r' =>
      compare r.acquisition.kind r'.acquisition.kind = .lt ∨
        r.acquisition.kind = r'.acquisition.kind ∧
          sourceOrder r.acquisition r'.acquisition = .lt := by
  rw [correlate_eq_flatMap, List.pairwise_flatMap]
  constructor
  · intro k _
    refine (resultsOf_ordered s k ms).imp_of_mem fun {r r'} hr hr' hlt => .inr ⟨?_, hlt⟩
    rw [(acquisition_mem_pool hr).2.1, (acquisition_mem_pool hr').2.1]
  · refine (kindsOf_ascend ms).imp fun {k k'} hlt r hr r' hr' => .inl ?_
    rw [(acquisition_mem_pool hr).2.1, (acquisition_mem_pool hr').2.1]
    exact hlt

end Correlation
end LeakScan
