import LeakScan.Proofs.Span
import LeakScan.Scope.Tree

/-!
# LeakScan.Proofs.Scope.Nesting

How scopes are nested, step by step.

* `closeUntil_split` — which open scopes a new one closes.
* `opened`, `place_eq` — what a step adds: one scope, directly inside the innermost open one.
* `Sound` — what holds of the placed and the open scopes between steps; `Sound.opens` says where
  a step opens its scope, and `Sound.place` that it keeps the invariant.
* `Places` — a span has its scope.
* `nest_sound` — a whole run keeps the invariant and places every span that can be placed.
-/

namespace LeakScan
namespace ScopeTree

open Scope Text

/-! ## Order of placing -/

theorem dropRepeats_sublist (last : Span) (l : List RawScope) : (dropRepeats last l).Sublist l := by
  induction l generalizing last with
  | nil => exact .slnil
  | cons r rest ih =>
    rw [dropRepeats]
    split
    · exact (ih last).cons r
    · exact (ih r.span).cons_cons r

theorem dedupSpans_sublist (l : List RawScope) : (dedupSpans l).Sublist l := by
  cases l with
  | nil => exact .slnil
  | cons r rest => exact (dropRepeats_sublist r.span rest).cons_cons r

theorem span_mem_dropRepeats (last : Span) {l : List RawScope} {r : RawScope} (h : r ∈ l) :
    r.span = last ∨ ∃ k ∈ dropRepeats last l, k.span = r.span := by
  induction l generalizing last with
  | nil => cases h
  | cons head rest ih =>
    rw [dropRepeats]
    split
    case isTrue hrepeat =>
      rcases List.mem_cons.1 h with rfl | hrest
      · exact .inl (beq_iff_eq.1 hrepeat)
      · exact ih last hrest
    case isFalse =>
      rcases List.mem_cons.1 h with rfl | hrest
      · exact .inr ⟨r, List.mem_cons_self, rfl⟩
      · rcases ih head.span hrest with heq | ⟨k, hk, hspan⟩
        · exact .inr ⟨head, List.mem_cons_self, heq.symm⟩
        · exact .inr ⟨k, List.mem_cons_of_mem head hk, hspan⟩

theorem span_mem_dedupSpans {l : List RawScope} {r : RawScope} (h : r ∈ l) :
    ∃ k ∈ dedupSpans l, k.span = r.span := by
  cases l with
  | nil => cases h
  | cons head rest =>
    rcases List.mem_cons.1 h with rfl | hrest
    · exact ⟨r, List.mem_cons_self, rfl⟩
    · rcases span_mem_dropRepeats head.span hrest with heq | ⟨k, hk, hspan⟩
      · exact ⟨head, List.mem_cons_self, heq.symm⟩
      · exact ⟨k, List.mem_cons_of_mem head hk, hspan⟩

theorem outerFirst_trans (a b c : Span) (hab : outerFirst a b = true)
    (hbc : outerFirst b c = true) : outerFirst a c = true := by
  simp only [outerFirst, Bool.or_eq_true, Bool.and_eq_true, decide_eq_true_eq, beq_iff_eq] at *
  omega

theorem outerFirst_total (a b : Span) : (outerFirst a b || outerFirst b a) = true := by
  simp only [outerFirst, Bool.or_eq_true, Bool.and_eq_true, decide_eq_true_eq, beq_iff_eq]
  omega

theorem start_le_of_outerFirst {a b : Span} (h : outerFirst a b = true) : a.start ≤ b.start := by
  simp only [outerFirst, Bool.or_eq_true, Bool.and_eq_true, decide_eq_true_eq, beq_iff_eq] at h
  omega

theorem mergeSort_outerFirst (scopes : List RawScope) :
    (scopes.mergeSort fun a b => outerFirst a.span b.span).Pairwise
      fun a b => outerFirst a.span b.span = true :=
  List.pairwise_mergeSort (fun a b c : RawScope => outerFirst_trans a.span b.span c.span)
    (fun a b => outerFirst_total a.span b.span) scopes

theorem ordered_outerFirst (textSize : Nat) (scopes : List RawScope) :
    (ordered textSize scopes).Pairwise fun a b => outerFirst a.span b.span = true :=
  (mergeSort_outerFirst _).sublist (dedupSpans_sublist _)

/-- What is in order already stays as it is. -/
theorem ordered_of_outerFirst {textSize : Nat} {scopes : List RawScope}
    (hplaceable : ∀ r ∈ scopes, isPlaceable textSize r = true)
    (hsorted : scopes.Pairwise fun a b => outerFirst a.span b.span = true) :
    ordered textSize scopes = dedupSpans scopes := by
  rw [ordered, List.filter_eq_self.2 hplaceable, List.mergeSort_of_pairwise hsorted]

theorem ordered_starts (textSize : Nat) (scopes : List RawScope) :
    (ordered textSize scopes).Pairwise fun a b => a.span.start ≤ b.span.start :=
  (ordered_outerFirst textSize scopes).imp start_le_of_outerFirst

theorem placeable_of_mem_ordered {textSize : Nat} {scopes : List RawScope} {r : RawScope}
    (h : r ∈ ordered textSize scopes) :
    r.span.start < r.span.stop ∧ r.span.stop ≤ textSize := by
  have hmem := List.mem_mergeSort.1 ((dedupSpans_sublist _).subset h)
  simpa [isPlaceable] using (List.mem_filter.1 hmem).2

theorem span_mem_ordered {textSize : Nat} {scopes : List RawScope} {r : RawScope}
    (h : r ∈ scopes) (hplaceable : isPlaceable textSize r = true) :
    ∃ k ∈ ordered textSize scopes, k.span = r.span :=
  span_mem_dedupSpans (List.mem_mergeSort.2 (List.mem_filter.2 ⟨h, hplaceable⟩))

/-! ## Steps -/

/-- The new scope closes the open ones that end before it, and opens inside the first that does
not. The whole file is never closed. -/
theorem closeUntil_split (start : Nat) {stack : List Scope} (h : ∃ s ∈ stack, s.id = 0) :
    ∃ closed parent rest, stack = closed ++ parent :: rest ∧
      closeUntil start stack = parent :: rest ∧
      (∀ s ∈ closed, s.id ≠ 0 ∧ s.span.stop ≤ start) ∧
      (parent.id = 0 ∨ start < parent.span.stop) := by
  induction stack with
  | nil =>
    obtain ⟨s, hs, _⟩ := h
    cases hs
  | cons top below ih =>
    by_cases htop : top.id ≠ 0 ∧ top.span.stop ≤ start
    · have hbelow : ∃ s ∈ below, s.id = 0 := by
        obtain ⟨s, hs, hid⟩ := h
        rcases List.mem_cons.1 hs with rfl | hs
        · exact absurd hid htop.1
        · exact ⟨s, hs, hid⟩
      obtain ⟨closed, parent, rest, hstack, hclose, hclosed, hparent⟩ := ih hbelow
      refine ⟨top :: closed, parent, rest, by rw [hstack]; rfl, ?_, ?_, hparent⟩
      · rw [← hclose, closeUntil, closeUntil, List.dropWhile_cons, if_pos (by simpa using htop)]
      · intro s hs
        rcases List.mem_cons.1 hs with rfl | hs
        · exact htop
        · exact hclosed s hs
    · refine ⟨[], top, below, rfl, ?_, by simp, by omega⟩
      rw [closeUntil, List.dropWhile_cons, if_neg (by simpa using htop)]

/-- The scope that a raw scope becomes inside `parent`. -/
def opened (lifecycle : Lifecycle) (id : Nat) (parent : Scope) (r : RawScope) : Scope where
  id := id
  kind := (classify lifecycle parent.kind r).1
  name := (classify lifecycle parent.kind r).2
  parent := some parent.id
  span := ⟨r.span.start, min r.span.stop parent.span.stop⟩
  returned := r.returned && r.kind == .closure

theorem place_eq (lifecycle : Lifecycle) {n : Nesting} {r : RawScope} {parent : Scope}
    {rest : List Scope} (h : closeUntil r.span.start n.stack = parent :: rest) :
    n.place lifecycle r =
      ⟨opened lifecycle n.placed.length parent r :: n.placed,
        opened lifecycle n.placed.length parent r :: parent :: rest⟩ := by
  rw [Nesting.place, h]
  rfl

/-- What holds between two steps: `reached` is where the last placed scope starts, and those to
come start there or later. -/
structure Sound (textSize reached : Nat) (n : Nesting) : Prop where
  ids : n.placed.map (·.id) = (List.range n.placed.length).reverse
  root : ∀ s ∈ n.placed, s.id = 0 → s = module textSize
  child : ∀ s ∈ n.placed, s.id ≠ 0 → ∃ p ∈ n.placed, s.parent = some p.id ∧ p.id < s.id ∧
    s.span.start < s.span.stop ∧ p.span.covers s.span = true
  /-- Of two children of one scope the one placed earlier ends before the other starts. -/
  siblings : n.placed.Pairwise fun later earlier =>
    later.parent ≠ none → later.parent = earlier.parent → earlier.span.stop ≤ later.span.start
  started : ∀ s ∈ n.placed, s.span.start ≤ reached
  finished : ∀ s ∈ n.placed, s ∈ n.stack ∨ s.span.stop ≤ reached
  stack_placed : ∀ s ∈ n.stack, s ∈ n.placed
  stack_root : ∃ s ∈ n.stack, s.id = 0
  stack_falls : n.stack.Pairwise fun inner outer => outer.id < inner.id

theorem sound_start (textSize : Nat) :
    Sound textSize 0 ⟨[module textSize], [module textSize]⟩ := by
  constructor <;> simp [module]

namespace Sound

variable {textSize reached : Nat} {n : Nesting}

theorem id_lt (h : Sound textSize reached n) {s : Scope} (hs : s ∈ n.placed) :
    s.id < n.placed.length := by
  have hmem : s.id ∈ n.placed.map (·.id) := List.mem_map_of_mem hs
  rw [h.ids] at hmem
  simpa using hmem

theorem placed_pos (h : Sound textSize reached n) : 0 < n.placed.length := by
  obtain ⟨s, hs, _⟩ := h.stack_root
  exact List.length_pos_of_mem (h.stack_placed s hs)

theorem parent_of_root (h : Sound textSize reached n) {s : Scope} (hs : s ∈ n.placed)
    (hid : s.id = 0) : s.parent = none := by
  rw [h.root s hs hid]
  rfl

/-- A placed child of the innermost scope that stays open has ended: the scopes below it on the
stack are no children of it, since parents have smaller ids. -/
theorem child_finished (h : Sound textSize reached n) {start : Nat} (hstart : reached ≤ start)
    {closed rest : List Scope} {parent s : Scope} (hstack : n.stack = closed ++ parent :: rest)
    (hclosed : ∀ s ∈ closed, s.id ≠ 0 ∧ s.span.stop ≤ start) (hs : s ∈ n.placed)
    (hparent : s.parent = some parent.id) : s.span.stop ≤ start := by
  rcases h.finished s hs with hopen | hdone
  · rw [hstack] at hopen
    rcases List.mem_append.1 hopen with hclose | hstay
    · exact (hclosed s hclose).2
    · have hne : s.id ≠ 0 := by
        intro hid
        rw [h.parent_of_root hs hid] at hparent
        cases hparent
      obtain ⟨p, _, hp, hlt, _⟩ := h.child s hs hne
      have hpid : p.id = parent.id := by
        rw [hp] at hparent
        exact Option.some.inj hparent
      have hfalls := h.stack_falls
      rw [hstack] at hfalls
      rcases List.mem_cons.1 hstay with rfl | hrest
      · omega
      · have := (List.pairwise_cons.1 (List.pairwise_append.1 hfalls).2.1).1 s hrest
        omega
  · omega

/-- A step opens its scope inside a placed one that holds the start of it. -/
theorem opens (lifecycle : Lifecycle) (h : Sound textSize reached n) {r : RawScope}
    (hstart : reached ≤ r.span.start) (hsize : r.span.start < textSize) :
    ∃ closed parent rest, n.stack = closed ++ parent :: rest ∧
      (∀ s ∈ closed, s.id ≠ 0 ∧ s.span.stop ≤ r.span.start) ∧
      parent ∈ n.placed ∧ parent.span.holds r.span.start = true ∧
      n.place lifecycle r =
        ⟨opened lifecycle n.placed.length parent r :: n.placed,
          opened lifecycle n.placed.length parent r :: parent :: rest⟩ := by
  obtain ⟨closed, parent, rest, hstack, hclose, hclosed, hopen⟩ :=
    closeUntil_split r.span.start h.stack_root
  have hp : parent ∈ n.placed := h.stack_placed parent (by rw [hstack]; simp)
  have hend : r.span.start < parent.span.stop := by
    rcases hopen with hid | hlt
    · rw [h.root parent hp hid]
      exact hsize
    · exact hlt
  have hbegin := Nat.le_trans (h.started parent hp) hstart
  exact ⟨closed, parent, rest, hstack, hclosed, hp, Span.holds_iff.2 ⟨hbegin, hend⟩,
    place_eq lifecycle hclose⟩

theorem place (lifecycle : Lifecycle) (h : Sound textSize reached n) {r : RawScope}
    (hstart : reached ≤ r.span.start) (hne : r.span.start < r.span.stop)
    (hsize : r.span.stop ≤ textSize) :
    Sound textSize r.span.start (n.place lifecycle r) := by
  obtain ⟨closed, parent, rest, hstack, hclosed, hp, hholds, hplace⟩ :=
    h.opens lifecycle hstart (Nat.lt_of_lt_of_le hne hsize)
  rw [hplace]
  obtain ⟨hbegin, hend⟩ := Span.holds_iff.1 hholds
  have hstay : ∀ s ∈ parent :: rest, s ∈ n.stack := by
    intro s hs
    rw [hstack]
    exact List.mem_append_right closed hs
  constructor
  case ids =>
    rw [List.map_cons, List.length_cons, List.range_succ, List.reverse_append, h.ids]
    rfl
  case root =>
    intro s hs hid
    rcases List.mem_cons.1 hs with rfl | hs
    · exact absurd hid (Nat.pos_iff_ne_zero.1 h.placed_pos)
    · exact h.root s hs hid
  case child =>
    intro s hs hid
    rcases List.mem_cons.1 hs with rfl | hs
    · refine ⟨parent, List.mem_cons_of_mem _ hp, rfl, h.id_lt hp, ?_, ?_⟩
      · exact Nat.lt_min.2 ⟨hne, hend⟩
      · exact Span.covers_iff.2 ⟨hbegin, Nat.min_le_right _ _⟩
    · obtain ⟨p, hpm, hchild⟩ := h.child s hs hid
      exact ⟨p, List.mem_cons_of_mem _ hpm, hchild⟩
  case siblings =>
    refine List.pairwise_cons.2 ⟨fun s hs _ hparent => ?_, h.siblings⟩
    exact h.child_finished hstart hstack hclosed hs hparent.symm
  case started =>
    intro s hs
    rcases List.mem_cons.1 hs with rfl | hs
    · exact Nat.le_refl _
    · exact Nat.le_trans (h.started s hs) hstart
  case finished =>
    intro s hs
    rcases List.mem_cons.1 hs with rfl | hs
    · exact .inl List.mem_cons_self
    · rcases h.finished s hs with hmem | hdone
      · rw [hstack] at hmem
        rcases List.mem_append.1 hmem with hcl | hst
        · exact .inr (hclosed s hcl).2
        · exact .inl (List.mem_cons_of_mem _ hst)
      · exact .inr (Nat.le_trans hdone hstart)
  case stack_placed =>
    intro s hs
    rcases List.mem_cons.1 hs with rfl | hs
    · exact List.mem_cons_self
    · exact List.mem_cons_of_mem _ (h.stack_placed s (hstay s hs))
  case stack_root =>
    obtain ⟨s, hs, hid⟩ := h.stack_root
    rw [hstack] at hs
    rcases List.mem_append.1 hs with hcl | hst
    · exact absurd hid (hclosed s hcl).1
    · exact ⟨s, List.mem_cons_of_mem _ hst, hid⟩
  case stack_falls =>
    refine List.pairwise_cons.2 ⟨fun s hs => h.id_lt (h.stack_placed s (hstay s hs)), ?_⟩
    have hfalls := h.stack_falls
    rw [hstack] at hfalls
    exact (List.pairwise_append.1 hfalls).2.1

end Sound

/-! ## Runs -/

/-- Some placed scope has the given span, cut off where its parent ends. -/
def Places (placed : List Scope) (span : Span) : Prop :=
  ∃ s ∈ placed, ∃ p ∈ placed,
    s.parent = some p.id ∧ s.span = ⟨span.start, min span.stop p.span.stop⟩

theorem Places.mono {placed placed' : List Scope} {span : Span} (h : Places placed span)
    (hsub : ∀ s ∈ placed, s ∈ placed') : Places placed' span := by
  obtain ⟨s, hs, p, hp, hspan⟩ := h
  exact ⟨s, hsub s hs, p, hsub p hp, hspan⟩

namespace Sound

variable {textSize reached : Nat} {n : Nesting}

theorem places (lifecycle : Lifecycle) (h : Sound textSize reached n) {r : RawScope}
    (hstart : reached ≤ r.span.start) (hsize : r.span.start < textSize) :
    (∀ s ∈ n.placed, s ∈ (n.place lifecycle r).placed) ∧
      Places (n.place lifecycle r).placed r.span := by
  obtain ⟨_, parent, _, _, _, hp, _, hplace⟩ := h.opens lifecycle hstart hsize
  rw [hplace]
  exact ⟨fun s hs => List.mem_cons_of_mem _ hs,
    _, List.mem_cons_self, parent, List.mem_cons_of_mem _ hp, rfl, rfl⟩

/-- By induction on the scopes still to place; `reached` moves to the start of each. -/
theorem foldl_place (lifecycle : Lifecycle) (rs : List RawScope) (h : Sound textSize reached n)
    (hordered : rs.Pairwise fun a b => a.span.start ≤ b.span.start)
    (hstart : ∀ r ∈ rs, reached ≤ r.span.start)
    (hplaceable : ∀ r ∈ rs, r.span.start < r.span.stop ∧ r.span.stop ≤ textSize) :
    (∃ reached', Sound textSize reached' (rs.foldl (Nesting.place lifecycle) n)) ∧
      (∀ s ∈ n.placed, s ∈ (rs.foldl (Nesting.place lifecycle) n).placed) ∧
      ∀ r ∈ rs, Places (rs.foldl (Nesting.place lifecycle) n).placed r.span := by
  induction rs generalizing reached n with
  | nil => exact ⟨⟨reached, h⟩, fun s hs => hs, by simp⟩
  | cons r rest ih =>
    obtain ⟨hfirst, hrest⟩ := List.pairwise_cons.1 hordered
    obtain ⟨hne, hsize⟩ := hplaceable r List.mem_cons_self
    have hnext := hstart r List.mem_cons_self
    obtain ⟨hkept, hplaced⟩ := h.places lifecycle hnext (Nat.lt_of_lt_of_le hne hsize)
    obtain ⟨hsound, hgrows, hplaces⟩ :=
      ih (h.place lifecycle hnext hne hsize) hrest hfirst
        (fun r' hr' => hplaceable r' (List.mem_cons_of_mem r hr'))
    refine ⟨hsound, fun s hs => hgrows s (hkept s hs), ?_⟩
    intro r' hr'
    rcases List.mem_cons.1 hr' with rfl | hr'
    · exact hplaced.mono hgrows
    · exact hplaces r' hr'

end Sound

/-- The scopes of a whole run satisfy the invariant, and each placeable span is placed. -/
theorem nest_sound (lifecycle : Lifecycle) (textSize : Nat) (scopes : List RawScope) :
    (∃ reached stack,
      Sound textSize reached ⟨(nest lifecycle textSize scopes).reverse, stack⟩) ∧
      ∀ r ∈ scopes, isPlaceable textSize r = true →
        Places (nest lifecycle textSize scopes) r.span := by
  obtain ⟨⟨reached, hsound⟩, _, hplaces⟩ :=
    (sound_start textSize).foldl_place lifecycle (ordered textSize scopes)
      (ordered_starts textSize scopes) (fun _ _ => Nat.zero_le _)
      (fun _ => placeable_of_mem_ordered)
  constructor
  · refine ⟨reached, (List.foldl (Nesting.place lifecycle) ⟨[module textSize], [module textSize]⟩
      (ordered textSize scopes)).stack, ?_⟩
    rw [nest, List.reverse_reverse]
    exact hsound
  · intro r hr hplaceable
    obtain ⟨k, hk, hspan⟩ := span_mem_ordered hr hplaceable
    rw [← hspan]
    exact (hplaces k hk).mono fun s hs => List.mem_reverse.2 hs

end ScopeTree
end LeakScan
