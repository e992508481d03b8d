import Mathlib.Data.List.Nodup
import LeakScan.Proofs.Scope.Nesting

/-!
# LeakScan.Proofs.Scope.Collection

A tree does not depend on the order in which its skeleton is collected, from the outside in, from
the inside out or otherwise.

* `Reordered` — the same outline in another order.
* `ordered_eq_of_perm` — the order of placing is the same.
* `isDeferred_eq_of_perm`, `positionOf_eq_of_perm` — guards and return statements are only searched.
* `build_reordered` — the statement about trees.
-/

namespace LeakScan
namespace ScopeTree

open Scope Text

/-- The same outline, collected in another order. -/
structure Reordered (skeleton skeleton' : Skeleton) : Prop where
  scopes : skeleton.scopes.Perm skeleton'.scopes
  guards : skeleton.guards.Perm skeleton'.guards
  returns : skeleton.returns.Perm skeleton'.returns

/-! ## Scopes -/

theorem outerFirst_antisymm {a b : Span} (hab : outerFirst a b = true)
    (hba : outerFirst b a = true) : a = b := by
  obtain ⟨start, stop⟩ := a
  obtain ⟨start', stop'⟩ := b
  simp only [outerFirst, Bool.or_eq_true, Bool.and_eq_true, decide_eq_true_eq, beq_iff_eq]
    at hab hba
  rw [Span.mk.injEq]
  omega

/-- Where spans tell scopes apart, sorting by span leaves no choice. -/
theorem ordered_eq_of_perm {scopes scopes' : List RawScope}
    (h : ∀ a ∈ scopes, ∀ b ∈ scopes, a.span = b.span → a = b) (hperm : scopes.Perm scopes')
    (textSize : Nat) : ordered textSize scopes = ordered textSize scopes' := by
  have hplaced := ((List.mergeSort_perm _ fun a b => outerFirst a.span b.span).trans
    (hperm.filter (isPlaceable textSize))).trans
    (List.mergeSort_perm _ fun a b => outerFirst a.span b.span).symm
  rw [ordered, ordered]
  refine congrArg dedupSpans
    (hplaced.eq_of_pairwise ?_ (mergeSort_outerFirst _) (mergeSort_outerFirst _))
  intro a b ha hb hab hba
  have ha' := (List.mem_filter.1 (List.mem_mergeSort.1 ha)).1
  have hb' := (List.mem_filter.1 (List.mem_mergeSort.1 hb)).1
  exact h a ha' b (hperm.mem_iff.2 hb') (outerFirst_antisymm hab hba)

/-! ## Guards and return statements -/

theorem isDeferred_eq_of_perm {guards guards' : List (Guard × Nat)} (h : guards.Perm guards')
    (s : Scope) : isDeferred guards s = isDeferred guards' s := by
  rw [isDeferred, isDeferred, h.any_eq]

theorem positionOf_eq_of_perm {t t' : ScopeTree} (hguards : t.guards.Perm t'.guards)
    (hreturns : t.returns.Perm t'.returns) (offset scope : Nat) :
    t.positionOf offset scope = t'.positionOf offset scope := by
  have hguard : ∀ kind, t.hasGuard kind offset scope = t'.hasGuard kind offset scope :=
    fun kind => hguards.any_eq
  rw [positionOf, positionOf, hguard, hguard, hguard, hreturns.any_eq]

/-! ## Trees -/

/-- Where scopes with the same span are the same, as when all spans differ, the order of a skeleton
shows neither in the scopes of its tree nor in the place of any offset. -/
theorem build_reordered {skeleton skeleton' : Skeleton}
    (h : ∀ a ∈ skeleton.scopes, ∀ b ∈ skeleton.scopes, a.span = b.span → a = b)
    (hsame : Reordered skeleton skeleton') (textSize : Nat) (precise : Bool)
    (lifecycle : Lifecycle) :
    let t := build skeleton textSize precise lifecycle
    let t' := build skeleton' textSize precise lifecycle
    t.scopes = t'.scopes ∧ t.guards.Perm t'.guards ∧ t.returns.Perm t'.returns ∧
      (∀ offset, t.scopeAt offset = t'.scopeAt offset) ∧
      ∀ offset scope, t.positionOf offset scope = t'.positionOf offset scope := by
  intro t t'
  have hnest : nest lifecycle textSize skeleton.scopes =
      nest lifecycle textSize skeleton'.scopes := by
    rw [nest, nest, ordered_eq_of_perm h hsame.scopes]
  have hguards : t.guards.Perm t'.guards := by
    simp only [t, t', build, hnest]
    exact (hsame.guards.filter _).map _
  have hreturns : t.returns.Perm t'.returns := by
    simp only [t, t', build, hnest]
    exact hsame.returns.map _
  have hscopes : t.scopes = t'.scopes := by
    have hdeferred : isDeferred t.guards = isDeferred t'.guards :=
      funext (isDeferred_eq_of_perm hguards)
    calc t.scopes
        = (nest lifecycle textSize skeleton.scopes).map fun s =>
            { s with deferred := isDeferred t.guards s } := rfl
      _ = (nest lifecycle textSize skeleton'.scopes).map fun s =>
            { s with deferred := isDeferred t'.guards s } := by rw [hnest, hdeferred]
  refine ⟨hscopes, hguards, hreturns, fun offset => ?_, positionOf_eq_of_perm hguards hreturns⟩
  rw [scopeAt, scopeAt, hscopes]

/-! ## From the inside out

A method that sets something up, with a stretch under management, a callback that runs later, and
two return statements. -/

def outsideIn : Skeleton where
  scopes := [
    { kind := .classLike, span := ⟨0, 90⟩, name := some "Session" },
    { kind := .function, span := ⟨10, 80⟩, name := some "componentDidMount" },
    { kind := .closure, span := ⟨30, 60⟩ }]
  guards := [⟨.managed, ⟨12, 20⟩⟩, ⟨.deferred, ⟨25, 70⟩⟩]
  returns := [⟨40, 50⟩, ⟨72, 78⟩]

def insideOut : Skeleton where
  scopes := outsideIn.scopes.reverse
  guards := outsideIn.guards.reverse
  returns := outsideIn.returns.reverse

def mounting : Lifecycle := { pairs := [⟨"componentDidMount", ["componentWillUnmount"]⟩] }

theorem inside_out_placed :
    (insideOut.scopes.map (·.span)).Nodup ∧ Reordered insideOut outsideIn ∧
    let t := build insideOut 100 false mounting
    (t.scopes.map fun s => (s.kind, s.parent, s.deferred)) =
      [(.module, none, false), (.classLike, some 0, false), (.lifecycleCallback, some 1, false),
        (.closure, some 2, true)] ∧
    t.positionOf 15 2 = .managed ∧ t.positionOf 75 2 = .returnedExpression := by
  have hdistinct : (insideOut.scopes.map (·.span)).Nodup := by decide
  have hsame : Reordered insideOut outsideIn :=
    ⟨List.reverse_perm _, List.reverse_perm _, List.reverse_perm _⟩
  obtain ⟨hscopes, -, -, -, hposition⟩ := build_reordered
    (fun a ha b hb => List.inj_on_of_nodup_map hdistinct ha hb) hsame 100 false mounting
  refine ⟨hdistinct, hsame, ?_⟩
  intro t
  rw [hscopes, hposition, hposition]
  have hordered : ordered 100 outsideIn.scopes = dedupSpans outsideIn.scopes :=
    ordered_of_outerFirst (by decide) (by decide)
  simp only [build, nest, hordered]
  decide +kernel

end ScopeTree
end LeakScan
