import Mathlib.Data.List.Chain
import LeakScan.Proofs.Scope.Nesting

/-!
# LeakScan.Proofs.Scope.Laminar

Scope trees are laminar: two scopes are nested or share no offset.

* `Nested` — what nesting gives of single scopes, of a scope and its parent, and of siblings;
  `nested_build` for every tree that is built.
* `Nested.induction` — induction from the whole file down.
* `Nested.ancestors_eq_cons` — the way up starts at the parent and goes on as the parent's.
* `Nested.mem_ancestors_or_apart` — an earlier scope is above a later one or apart from it.
* `build_laminar` — the statement about all trees.
-/

namespace LeakScan
namespace ScopeTree

open Scope Text

/-- Scopes numbered in order, each inside its parent, and siblings one after the other. -/
structure Nested (textSize : Nat) (t : ScopeTree) : Prop where
  id_eq : ∀ i < t.scopes.length, (t.get i).id = i
  nonempty : 0 < t.scopes.length
  root_kind : (t.get 0).kind = .module
  root_span : (t.get 0).span = ⟨0, textSize⟩
  root_parent : (t.get 0).parent = none
  child : ∀ i < t.scopes.length, i ≠ 0 → ∃ p < i, (t.get i).parent = some p ∧
    (t.get i).span.start < (t.get i).span.stop ∧ (t.get p).span.covers (t.get i).span = true
  siblings : ∀ i j p, i < j → j < t.scopes.length → (t.get i).parent = some p →
    (t.get j).parent = some p → (t.get i).span.stop ≤ (t.get j).span.start

/-! ## Built trees -/

theorem get_eq_getElem {t : ScopeTree} {i : Nat} (h : i < t.scopes.length) :
    t.get i = t.scopes[i] := by
  rw [get, Nat.min_eq_left (by omega), List.getElem?_eq_getElem h, Option.getD_some]

theorem get_eq_get_min (t : ScopeTree) (id : Nat) :
    t.get id = t.get (min id (t.scopes.length - 1)) := by
  rw [get, get, Nat.min_assoc, Nat.min_self]

theorem mem_scopes_iff {t : ScopeTree} {s : Scope} :
    s ∈ t.scopes ↔ ∃ i < t.scopes.length, t.get i = s := by
  rw [List.mem_iff_getElem]
  constructor
  · rintro ⟨i, hi, rfl⟩
    exact ⟨i, hi, get_eq_getElem hi⟩
  · rintro ⟨i, hi, rfl⟩
    exact ⟨i, hi, (get_eq_getElem hi).symm⟩

section Build

variable (skeleton : Skeleton) (textSize : Nat) (precise : Bool) (lifecycle : Lifecycle)

theorem length_build :
    (build skeleton textSize precise lifecycle).scopes.length =
      (nest lifecycle textSize skeleton.scopes).length :=
  List.length_map _

theorem get_build {i : Nat} (h : i < (nest lifecycle textSize skeleton.scopes).length) :
    ∃ deferred, (build skeleton textSize precise lifecycle).get i =
      { (nest lifecycle textSize skeleton.scopes)[i] with deferred := deferred } := by
  rw [get_eq_getElem (by rw [length_build]; exact h)]
  exact ⟨_, List.getElem_map _⟩

end Build

namespace Sound

variable {textSize reached : Nat} {scopes stack : List Scope}

theorem getElem_id (h : Sound textSize reached ⟨scopes.reverse, stack⟩) {i : Nat}
    (hi : i < scopes.length) : scopes[i].id = i := by
  have hids : scopes.map (·.id) = List.range scopes.length := by
    have := congrArg List.reverse h.ids
    simpa using this
  have hnth : (scopes.map (·.id))[i]? = some i := by
    rw [hids, List.getElem?_range hi]
  simpa [hi] using hnth

theorem getElem_of_mem (h : Sound textSize reached ⟨scopes.reverse, stack⟩) {s : Scope}
    (hs : s ∈ scopes) : ∃ hlt : s.id < scopes.length, scopes[s.id] = s := by
  obtain ⟨i, hi, rfl⟩ := List.getElem_of_mem hs
  have hid := h.getElem_id hi
  exact ⟨by omega, by simp only [hid]⟩

end Sound

theorem nested_build (skeleton : Skeleton) (textSize : Nat) (precise : Bool)
    (lifecycle : Lifecycle) : Nested textSize (build skeleton textSize precise lifecycle) := by
  obtain ⟨⟨reached, stack, h⟩, _⟩ := nest_sound lifecycle textSize skeleton.scopes
  have hpos : 0 < (nest lifecycle textSize skeleton.scopes).length := by
    simpa using h.placed_pos
  obtain ⟨d, hd⟩ := get_build skeleton textSize precise lifecycle hpos
  have hmodule := h.root _ (List.mem_reverse.2 (List.getElem_mem hpos)) (h.getElem_id hpos)
  rw [hmodule] at hd
  constructor
  case nonempty => rwa [length_build]
  case root_kind => rw [hd]; rfl
  case root_span => rw [hd]; rfl
  case root_parent => rw [hd]; rfl
  case id_eq =>
    intro i hi
    rw [length_build] at hi
    obtain ⟨d, hd⟩ := get_build skeleton textSize precise lifecycle hi
    rw [hd]
    exact h.getElem_id hi
  case child =>
    intro i hi hne
    rw [length_build] at hi
    obtain ⟨d, hd⟩ := get_build skeleton textSize precise lifecycle hi
    have hid := h.getElem_id hi
    obtain ⟨p, hp, hparent, hlt, hspan, hcovers⟩ :=
      h.child _ (List.mem_reverse.2 (List.getElem_mem hi)) (by rw [hid]; exact hne)
    obtain ⟨hpi, hpeq⟩ := h.getElem_of_mem (List.mem_reverse.1 hp)
    obtain ⟨e, he⟩ := get_build skeleton textSize precise lifecycle hpi
    rw [hid] at hlt
    refine ⟨p.id, hlt, ?_⟩
    rw [hd, he, hpeq]
    exact ⟨hparent, hspan, hcovers⟩
  case siblings =>
    intro i j p hij hj hpi hpj
    rw [length_build] at hj
    have hi : i < (nest lifecycle textSize skeleton.scopes).length := Nat.lt_trans hij hj
    obtain ⟨d, hd⟩ := get_build skeleton textSize precise lifecycle hi
    obtain ⟨e, he⟩ := get_build skeleton textSize precise lifecycle hj
    rw [hd] at hpi ⊢
    rw [he] at hpj ⊢
    have hsome : (nest lifecycle textSize skeleton.scopes)[j].parent ≠ none := by
      intro hnone
      cases hnone.symm.trans hpj
    exact List.pairwise_iff_getElem.1 (List.pairwise_reverse.1 h.siblings) i j hi hj hij hsome
      (hpj.trans hpi.symm)

/-! ## The way up -/

@[simp] theorem ancestorsWithin_none (t : ScopeTree) (fuel : Nat) :
    t.ancestorsWithin fuel none = [] := by
  cases fuel <;> rfl

namespace Nested

variable {textSize : Nat} {t : ScopeTree}

theorem parent_lt (h : Nested textSize t) {i p : Nat} (hi : i < t.scopes.length)
    (hp : (t.get i).parent = some p) : p < i := by
  have hne : i ≠ 0 := by
    rintro rfl
    rw [h.root_parent] at hp
    cases hp
  obtain ⟨q, hlt, hq, _⟩ := h.child i hi hne
  rw [hp] at hq
  cases hq
  exact hlt

/-- What holds of the whole file and passes from a parent to its children holds of all scopes. -/
theorem induction (h : Nested textSize t) {motive : Nat → Prop} (root : motive 0)
    (child : ∀ i p, i < t.scopes.length → p < i → (t.get i).parent = some p →
      motive p → motive i) {i : Nat} (hi : i < t.scopes.length) : motive i := by
  induction i using Nat.strongRecOn with
  | ind i ih =>
    by_cases hne : i = 0
    · rw [hne]
      exact root
    · obtain ⟨p, hlt, hp, _⟩ := h.child i hi hne
      exact child i p hi hlt hp (ih p hlt (Nat.lt_trans hlt hi))

/-- Fuel above the first id never runs out, since ids fall on the way up. -/
theorem ancestorsWithin_eq (h : Nested textSize t) (fuel fuel' : Nat) {p : Nat}
    (hp : p < t.scopes.length) (hfuel : p < fuel) (hfuel' : p < fuel') :
    t.ancestorsWithin fuel (some p) = t.ancestorsWithin fuel' (some p) := by
  induction p using Nat.strongRecOn generalizing fuel fuel' with
  | ind p ih =>
    obtain ⟨m, rfl⟩ := Nat.exists_eq_add_one_of_ne_zero (Nat.ne_zero_of_lt hfuel)
    obtain ⟨m', rfl⟩ := Nat.exists_eq_add_one_of_ne_zero (Nat.ne_zero_of_lt hfuel')
    rw [ancestorsWithin, ancestorsWithin]
    cases hq : (t.get p).parent with
    | none => simp
    | some q =>
      have hlt := h.parent_lt hp hq
      rw [ih q hlt m m' (by omega) (by omega) (by omega)]

theorem ancestors_root (h : Nested textSize t) : t.ancestors 0 = [] := by
  rw [ancestors, h.root_parent, ancestorsWithin_none]

theorem ancestors_eq_cons (h : Nested textSize t) {i p : Nat} (hi : i < t.scopes.length)
    (hp : (t.get i).parent = some p) : t.ancestors i = p :: t.ancestors p := by
  have hlt := h.parent_lt hi hp
  obtain ⟨fuel, hfuel⟩ := Nat.exists_eq_add_one_of_ne_zero (Nat.ne_zero_of_lt hi)
  rw [ancestors, ancestors, hp, hfuel, ancestorsWithin]
  cases hq : (t.get p).parent with
  | none => simp
  | some q =>
    have := h.parent_lt (Nat.lt_trans hlt hi) hq
    rw [h.ancestorsWithin_eq fuel (fuel + 1) (by omega) (by omega) (by omega)]

theorem of_mem_ancestors (h : Nested textSize t) {i j : Nat} (hj : j < t.scopes.length)
    (hi : i ∈ t.ancestors j) : i < j ∧ (t.get i).span.covers (t.get j).span = true := by
  revert hi
  refine h.induction (motive := fun j => i ∈ t.ancestors j →
    i < j ∧ (t.get i).span.covers (t.get j).span = true) ?_ ?_ hj
  · intro hi
    rw [h.ancestors_root] at hi
    cases hi
  · intro j p hj hlt hp ih hi
    obtain ⟨q, _, hq, _, hcovers⟩ := h.child j hj (by omega)
    rw [hp] at hq
    cases hq
    rw [h.ancestors_eq_cons hj hp] at hi
    rcases List.mem_cons.1 hi with rfl | hi
    · exact ⟨hlt, hcovers⟩
    · exact ⟨Nat.lt_trans (ih hi).1 hlt, Span.covers_trans (ih hi).2 hcovers⟩

/-- Below an ancestor, the way up passes one of its children. -/
theorem exists_child_of_mem_ancestors (h : Nested textSize t) {j p : Nat}
    (hj : j < t.scopes.length) (hp : p ∈ t.ancestors j) :
    ∃ c, (c = j ∨ c ∈ t.ancestors j) ∧ (t.get c).parent = some p := by
  revert hp
  refine h.induction (motive := fun j => p ∈ t.ancestors j →
    ∃ c, (c = j ∨ c ∈ t.ancestors j) ∧ (t.get c).parent = some p) ?_ ?_ hj
  · intro hp
    rw [h.ancestors_root] at hp
    cases hp
  · intro j q hj _ hq ih hp
    rw [h.ancestors_eq_cons hj hq] at hp ⊢
    rcases List.mem_cons.1 hp with rfl | hp
    · exact ⟨j, .inl rfl, hq⟩
    · obtain ⟨c, hc, hparent⟩ := ih hp
      exact ⟨c, .inr (List.mem_cons.2 hc), hparent⟩

/-- What lies under `p` and comes before its child `j` is inside an earlier child of `p`, and so
ends before `j` starts. -/
theorem stop_le_of_mem_ancestors (h : Nested textSize t) {i j p : Nat} (hij : i < j)
    (hj : j < t.scopes.length) (hpj : (t.get j).parent = some p) (hpi : p ∈ t.ancestors i) :
    (t.get i).span.stop ≤ (t.get j).span.start := by
  have hi : i < t.scopes.length := Nat.lt_trans hij hj
  obtain ⟨c, hc, hpc⟩ := h.exists_child_of_mem_ancestors hi hpi
  rcases hc with rfl | hc
  · exact h.siblings c j p hij hj hpc hpj
  · obtain ⟨hci, hcovers⟩ := h.of_mem_ancestors hi hc
    have hbefore := h.siblings c j p (Nat.lt_trans hci hij) hj hpc hpj
    exact Nat.le_trans (Span.covers_iff.1 hcovers).2 hbefore

/-- By induction on the later scope, and by how the earlier one stands to its parent. -/
theorem mem_ancestors_or_apart (h : Nested textSize t) {i j : Nat} (hij : i < j)
    (hj : j < t.scopes.length) :
    i ∈ t.ancestors j ∨ (t.get i).span.Apart (t.get j).span := by
  induction j using Nat.strongRecOn generalizing i with
  | ind j ih =>
    obtain ⟨p, hpj, hp, _, hcovers⟩ := h.child j hj (Nat.ne_zero_of_lt hij)
    rw [h.ancestors_eq_cons hj hp]
    rcases Nat.lt_trichotomy i p with hip | rfl | hpi
    · rcases ih p hpj hip (Nat.lt_trans hpj hj) with hmem | hapart
      · exact .inl (List.mem_cons_of_mem p hmem)
      · exact .inr (hapart.inner hcovers)
    · exact .inl List.mem_cons_self
    · rcases ih i hij hpi (Nat.lt_trans hij hj) with hmem | hapart
      · exact .inr (Span.apart_of_stop_le (h.stop_le_of_mem_ancestors hij hj hp hmem))
      · exact .inr (hapart.symm.inner hcovers)

end Nested

/-- A way up: each scope is followed by its parent, ids fall, and the whole file comes last. -/
structure Lineage (t : ScopeTree) (path : List Nat) : Prop where
  linked : path.IsChain fun i p => (t.get i).parent = some p
  falls : path.Pairwise fun i p => p < i
  ends : path.getLast? = some 0

theorem Nested.lineage {textSize : Nat} {t : ScopeTree} (h : Nested textSize t) {i : Nat}
    (hi : i < t.scopes.length) : Lineage t (i :: t.ancestors i) := by
  refine h.induction (motive := fun i => Lineage t (i :: t.ancestors i)) ?_ ?_ hi
  · rw [h.ancestors_root]
    exact ⟨.singleton 0, List.pairwise_singleton _ _, rfl⟩
  · intro i p hi hlt hp ih
    have hfalls : ∀ a ∈ t.ancestors i, a < i := fun a ha => (h.of_mem_ancestors hi ha).1
    rw [h.ancestors_eq_cons hi hp] at hfalls ⊢
    exact ⟨.cons_cons hp ih.linked, .cons hfalls ih.falls, by rw [List.getLast?_cons_cons, ih.ends]⟩

/-! ## Laminarity -/

/-- Any two scopes are nested or share no offset, and the way up from any scope ends at the whole
file. -/
structure Laminar (textSize : Nat) (t : ScopeTree) : Prop extends Nested textSize t where
  siblings_apart : ∀ i j p, i < t.scopes.length → j < t.scopes.length → i ≠ j →
    (t.get i).parent = some p → (t.get j).parent = some p → (t.get i).span.Apart (t.get j).span
  nested_or_apart : ∀ i j, i < t.scopes.length → j < t.scopes.length → i ≠ j →
    (i ∈ t.ancestors j ∧ (t.get i).span.covers (t.get j).span = true) ∨
    (j ∈ t.ancestors i ∧ (t.get j).span.covers (t.get i).span = true) ∨
    (t.get i).span.Apart (t.get j).span
  /-- An id beyond the last scope stands for the last one here too. -/
  lineage : ∀ id, Lineage t ((t.get id).id :: t.ancestors id)

namespace Nested

variable {textSize : Nat} {t : ScopeTree}

theorem siblings_apart (h : Nested textSize t) {i j p : Nat} (hi : i < t.scopes.length)
    (hj : j < t.scopes.length) (hne : i ≠ j) (hpi : (t.get i).parent = some p)
    (hpj : (t.get j).parent = some p) : (t.get i).span.Apart (t.get j).span := by
  rcases Nat.lt_or_gt_of_ne hne with hij | hji
  · exact Span.apart_of_stop_le (h.siblings i j p hij hj hpi hpj)
  · exact (Span.apart_of_stop_le (h.siblings j i p hji hi hpj hpi)).symm

theorem nested_or_apart (h : Nested textSize t) {i j : Nat} (hi : i < t.scopes.length)
    (hj : j < t.scopes.length) (hne : i ≠ j) :
    (i ∈ t.ancestors j ∧ (t.get i).span.covers (t.get j).span = true) ∨
    (j ∈ t.ancestors i ∧ (t.get j).span.covers (t.get i).span = true) ∨
    (t.get i).span.Apart (t.get j).span := by
  rcases Nat.lt_or_gt_of_ne hne with hij | hji
  · rcases h.mem_ancestors_or_apart hij hj with hmem | hapart
    · exact .inl ⟨hmem, (h.of_mem_ancestors hj hmem).2⟩
    · exact .inr (.inr hapart)
  · rcases h.mem_ancestors_or_apart hji hi with hmem | hapart
    · exact .inr (.inl ⟨hmem, (h.of_mem_ancestors hi hmem).2⟩)
    · exact .inr (.inr hapart.symm)

theorem laminar (h : Nested textSize t) : Laminar textSize t where
  toNested := h
  siblings_apart _ _ _ := h.siblings_apart
  nested_or_apart _ _ := h.nested_or_apart
  lineage id := by
    have hpos := h.nonempty
    have hlast : min id (t.scopes.length - 1) < t.scopes.length := by omega
    have hpath : t.ancestors id = t.ancestors (min id (t.scopes.length - 1)) := by
      rw [ancestors, ancestors, ← get_eq_get_min]
    rw [hpath, get_eq_get_min, h.id_eq _ hlast]
    exact h.lineage hlast

end Nested

theorem places_build (skeleton : Skeleton) (textSize : Nat) (precise : Bool)
    (lifecycle : Lifecycle) {span : Span}
    (h : Places (nest lifecycle textSize skeleton.scopes) span) :
    Places (build skeleton textSize precise lifecycle).scopes span := by
  obtain ⟨s, hs, p, hp, hspan⟩ := h
  exact ⟨_, List.mem_map_of_mem hs, _, List.mem_map_of_mem hp, hspan⟩

/-- Whatever the skeleton, with scopes in any order, overlapping, repeated, empty or out of the
text: the tree is laminar, and each span that can be placed has a scope in it. -/
theorem build_laminar (skeleton : Skeleton) (textSize : Nat) (precise : Bool)
    (lifecycle : Lifecycle) :
    Laminar textSize (build skeleton textSize precise lifecycle) ∧
      ∀ r ∈ skeleton.scopes, isPlaceable textSize r = true →
        Places (build skeleton textSize precise lifecycle).scopes r.span := by
  refine ⟨(nested_build skeleton textSize precise lifecycle).laminar, ?_⟩
  intro r hr hplaceable
  exact places_build skeleton textSize precise lifecycle
    ((nest_sound lifecycle textSize skeleton.scopes).2 r hr hplaceable)

/-- A function twice, a closure that reaches over its end, a reversed span and one that leaves the
text. -/
def tangled : Skeleton where
  scopes := [
    { kind := .closure, span := ⟨8, 16⟩ },
    { kind := .function, span := ⟨2, 10⟩, name := some "subscribe" },
    { kind := .function, span := ⟨2, 10⟩, name := some "subscribe" },
    { kind := .closure, span := ⟨9, 4⟩ },
    { kind := .classLike, span := ⟨0, 30⟩ }]

theorem tangled_crossing_placed :
    isPlaceable 20 { kind := .closure, span := ⟨8, 16⟩ } = true ∧
      Laminar 20 (build tangled 20 true {}) ∧
      Places (build tangled 20 true {}).scopes ⟨8, 16⟩ :=
  ⟨by decide, (build_laminar tangled 20 true {}).1,
    (build_laminar tangled 20 true {}).2 { kind := .closure, span := ⟨8, 16⟩ } (by decide)
      (by decide)⟩

end ScopeTree
end LeakScan
