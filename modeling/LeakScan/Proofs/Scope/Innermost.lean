import LeakScan.Proofs.Scope.Laminar

/-!
# LeakScan.Proofs.Scope.Innermost

The scope at an offset is found by comparing spans, without a look at parents. It is the innermost
scope all the same.

* `innermost_isInner` — the scope that is picked is one of those given, and none is further in.
* `Nested.isInner_of_mem_ancestors` — a scope is further in than what is above it, also where both
  have the same span.
* `IsInnermost` — a scope and its ancestors, and no others, hold an offset.
* `scopeAt_innermost` — the statement about all trees.
-/

namespace LeakScan
namespace ScopeTree

open Scope Text

/-! ## The pick -/

theorem isInner_iff {a b : Scope} :
    isInner a b = true ↔ b.span.start < a.span.start ∨ (b.span.start = a.span.start ∧
      (a.span.stop < b.span.stop ∨ (a.span.stop = b.span.stop ∧ b.id < a.id))) := by
  simp [isInner]

theorem not_isInner_trans {a b c : Scope} (hab : ¬isInner a b = true)
    (hbc : ¬isInner b c = true) : ¬isInner a c = true := by
  rw [isInner_iff] at *
  omega

theorem not_isInner_of_isInner {a b : Scope} (h : isInner a b = true) :
    ¬isInner b a = true := by
  rw [isInner_iff] at *
  omega

theorem innermost_isInner {l : List Scope} {best : Scope} (h : innermost l = some best) :
    best ∈ l ∧ ∀ s ∈ l, ¬isInner s best = true := by
  induction l generalizing best with
  | nil => cases h
  | cons s rest ih =>
    rw [innermost] at h
    cases hrest : innermost rest with
    | none =>
      have hnil : rest = [] := by
        cases rest with
        | nil => rfl
        | cons s' rest' =>
          rw [innermost] at hrest
          split at hrest <;> cases hrest
      rw [hrest] at h
      cases h
      subst hnil
      simp [isInner]
    | some inner =>
      obtain ⟨hmem, hinner⟩ := ih hrest
      rw [hrest] at h
      simp only [Option.some.injEq] at h
      by_cases hlt : isInner inner s = true
      · rw [if_pos hlt] at h
        subst h
        refine ⟨List.mem_cons_of_mem s hmem, ?_⟩
        intro x hx
        rcases List.mem_cons.1 hx with rfl | hx
        · exact not_isInner_of_isInner hlt
        · exact hinner x hx
      · rw [if_neg hlt] at h
        subst h
        refine ⟨List.mem_cons_self, ?_⟩
        intro x hx
        rcases List.mem_cons.1 hx with rfl | hx
        · simp [isInner]
        · exact not_isInner_trans (hinner x hx) hlt

theorem innermost_eq_none_iff {l : List Scope} : innermost l = none ↔ l = [] := by
  cases l with
  | nil => simp [innermost]
  | cons s rest =>
    rw [innermost]
    split <;> simp

/-! ## Scopes of a tree -/

namespace Nested

variable {textSize : Nat} {t : ScopeTree}

theorem root_mem_lineage (h : Nested textSize t) {i : Nat} (hi : i < t.scopes.length) :
    0 ∈ i :: t.ancestors i :=
  List.mem_of_getLast? (h.lineage hi).ends

/-- No scope reaches over the text. -/
theorem stop_le (h : Nested textSize t) {i : Nat} (hi : i < t.scopes.length) :
    (t.get i).span.stop ≤ textSize := by
  rcases List.mem_cons.1 (h.root_mem_lineage hi) with rfl | hroot
  · rw [h.root_span]
  · have hcovers := Span.covers_iff.1 (h.of_mem_ancestors hi hroot).2
    rw [h.root_span] at hcovers
    exact hcovers.2

/-- Where spans are equal the ids decide, and they fall on the way up. -/
theorem isInner_of_mem_ancestors (h : Nested textSize t) {i j : Nat} (hj : j < t.scopes.length)
    (hi : i ∈ t.ancestors j) : isInner (t.get j) (t.get i) = true := by
  obtain ⟨hlt, hcovers⟩ := h.of_mem_ancestors hj hi
  rw [Span.covers_iff] at hcovers
  rw [isInner_iff, h.id_eq i (Nat.lt_trans hlt hj), h.id_eq j hj]
  omega

theorem ancestors_pairwise (h : Nested textSize t) {i : Nat} (hi : i < t.scopes.length) :
    (i :: t.ancestors i).Pairwise fun inner outer => outer ∈ t.ancestors inner := by
  refine h.induction (motive := fun i =>
    (i :: t.ancestors i).Pairwise fun inner outer => outer ∈ t.ancestors inner) ?_ ?_ hi
  · rw [h.ancestors_root]
    exact List.pairwise_singleton _ _
  · intro i p hi _ hp ih
    refine List.pairwise_cons.2 ⟨fun _ ha => ha, ?_⟩
    rw [h.ancestors_eq_cons hi hp]
    exact ih

/-! ## The scope at an offset -/

theorem scopeAt_mem (h : Nested textSize t) {offset : Nat} (hoffset : offset < textSize) :
    t.scopeAt offset < t.scopes.length ∧ (t.get (t.scopeAt offset)).span.holds offset = true ∧
      ∀ j < t.scopes.length, (t.get j).span.holds offset = true →
        ¬isInner (t.get j) (t.get (t.scopeAt offset)) = true := by
  have hroot : t.get 0 ∈ t.scopes.filter (·.span.holds offset) := by
    refine List.mem_filter.2 ⟨mem_scopes_iff.2 ⟨0, h.nonempty, rfl⟩, ?_⟩
    rw [h.root_span, Span.holds_iff]
    exact ⟨Nat.zero_le _, hoffset⟩
  cases hpick : innermost (t.scopes.filter (·.span.holds offset)) with
  | none =>
    rw [innermost_eq_none_iff.1 hpick] at hroot
    cases hroot
  | some s =>
    obtain ⟨hmem, hinner⟩ := innermost_isInner hpick
    obtain ⟨hscope, hholds⟩ := List.mem_filter.1 hmem
    obtain ⟨i, hi, rfl⟩ := mem_scopes_iff.1 hscope
    have hat : t.scopeAt offset = i := by
      rw [scopeAt, scopeIn, hpick]
      exact h.id_eq i hi
    rw [hat]
    refine ⟨hi, hholds, ?_⟩
    intro j hj hjholds
    exact hinner _ (List.mem_filter.2 ⟨mem_scopes_iff.2 ⟨j, hj, rfl⟩, hjholds⟩)

theorem scopeAt_of_le (h : Nested textSize t) {offset : Nat} (hoffset : textSize ≤ offset) :
    t.scopeAt offset = 0 := by
  have hnone : t.scopes.filter (·.span.holds offset) = [] := by
    refine List.filter_eq_nil_iff.2 fun s hs hholds => ?_
    obtain ⟨i, hi, rfl⟩ := mem_scopes_iff.1 hs
    have hstop := h.stop_le hi
    rw [Span.holds_iff] at hholds
    omega
  rw [scopeAt, scopeIn, hnone]
  rfl

end Nested

/-- Scope `i` and its ancestors hold the offset, and no other scope does. -/
structure IsInnermost (t : ScopeTree) (offset i : Nat) : Prop where
  known : i < t.scopes.length
  holds_iff : ∀ j < t.scopes.length,
    (t.get j).span.holds offset = true ↔ j ∈ i :: t.ancestors i
  /-- The way up goes outwards: each scope lies inside all that come after it. -/
  outward : (i :: t.ancestors i).Pairwise fun inner outer =>
    outer ∈ t.ancestors inner ∧ (t.get outer).span.covers (t.get inner).span = true
  lineage : Lineage t (i :: t.ancestors i)
  child_misses : ∀ c < t.scopes.length, (t.get c).parent = some i →
    (t.get c).span.holds offset = false

/-- Another scope that holds the offset is above the picked one: it is not apart from it, and below
it would be further in. -/
theorem Nested.isInnermost (h : Nested textSize t) {offset : Nat} (hoffset : offset < textSize) :
    IsInnermost t offset (t.scopeAt offset) := by
  obtain ⟨hi, hholds, hinner⟩ := h.scopeAt_mem hoffset
  have hiff : ∀ j < t.scopes.length, (t.get j).span.holds offset = true ↔
      j ∈ t.scopeAt offset :: t.ancestors (t.scopeAt offset) := by
    intro j hj
    constructor
    · intro hjholds
      by_cases hne : j = t.scopeAt offset
      · exact List.mem_cons.2 (.inl hne)
      · rcases h.nested_or_apart hj hi hne with ⟨habove, _⟩ | ⟨hbelow, _⟩ | hapart
        · exact List.mem_cons_of_mem _ habove
        · exact absurd (h.isInner_of_mem_ancestors hj hbelow) (hinner j hj hjholds)
        · exact absurd ⟨hjholds, hholds⟩ (hapart offset)
    · intro hmem
      rcases List.mem_cons.1 hmem with rfl | hmem
      · exact hholds
      · have hcovers := (h.of_mem_ancestors hi hmem).2
        rw [Span.covers_iff] at hcovers
        rw [Span.holds_iff] at hholds ⊢
        omega
  refine ⟨hi, hiff, ?_, h.lineage hi, ?_⟩
  · refine (h.ancestors_pairwise hi).imp_of_mem fun {inner outer} hmem _ hup => ?_
    have hlt : inner < t.scopes.length := by
      rcases List.mem_cons.1 hmem with rfl | hmem
      · exact hi
      · exact Nat.lt_trans (h.of_mem_ancestors hi hmem).1 hi
    exact ⟨hup, (h.of_mem_ancestors hlt hup).2⟩
  · intro c hc hparent
    by_contra hcholds
    have hlt := h.parent_lt hc hparent
    rcases List.mem_cons.1 ((hiff c hc).1 (by simpa using hcholds)) with heq | hmem
    · omega
    · have := (h.of_mem_ancestors hi hmem).1
      omega

/-- In every tree, an offset of the text has its innermost scope, and one past the end belongs to
the whole file. -/
theorem scopeAt_innermost (skeleton : Skeleton) (textSize : Nat) (precise : Bool)
    (lifecycle : Lifecycle) (offset : Nat) :
    let t := build skeleton textSize precise lifecycle
    (offset < textSize → IsInnermost t offset (t.scopeAt offset)) ∧
      (textSize ≤ offset → t.scopeAt offset = 0 ∧ (t.get 0).kind = .module) := by
  have h := nested_build skeleton textSize precise lifecycle
  exact ⟨h.isInnermost, fun hoffset => ⟨h.scopeAt_of_le hoffset, h.root_kind⟩⟩

/-- A class that reaches over the end of a function, and a closure that does too: both are cut off
there, and then have the same span. -/
def overlaid : Skeleton where
  scopes := [
    { kind := .function, span := ⟨0, 10⟩, name := some "connect" },
    { kind := .classLike, span := ⟨4, 12⟩ },
    { kind := .closure, span := ⟨4, 11⟩ }]

theorem overlaid_innermost :
    let t := build overlaid 20 true {}
    (t.get 3).span = (t.get 2).span ∧ 5 < 20 ∧ IsInnermost t 5 3 ∧ 20 ≤ 25 ∧ t.scopeAt 25 = 0 := by
  intro t
  have hordered : ordered 20 overlaid.scopes = dedupSpans overlaid.scopes :=
    ordered_of_outerFirst (by decide) (by decide)
  obtain ⟨hat, hsame⟩ : t.scopeAt 5 = 3 ∧ (t.get 3).span = (t.get 2).span := by
    simp only [t, build, nest, hordered]
    decide +kernel
  have hinside := (scopeAt_innermost overlaid 20 true {} 5).1 (by decide)
  have houtside := (scopeAt_innermost overlaid 20 true {} 25).2 (by decide)
  rw [hat] at hinside
  exact ⟨hsame, by decide, hinside, by decide, houtside.1⟩

end ScopeTree
end LeakScan
