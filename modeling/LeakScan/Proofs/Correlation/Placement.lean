import LeakScan.Correlation

/-!
# LeakScan.Proofs.Correlation.Placement

Where cleanups count.

* `Placed s a c` — a context of the rule of `a` admits `c`.
* `fits_iff` — a cleanup fits if it unifies and is placed.
* `placed_withPrecise` — no context asks how the scopes were found.
-/

namespace LeakScan

theorem CleanupContext.mem_all (context : CleanupContext) : context ∈ CleanupContext.all := by
  cases context <;> decide

theorem Placement.isValid_iff {tree : ScopeTree} {lifecycle : Lifecycle}
    {contexts : List CleanupContext} {p : Placement} :
    p.isValid tree lifecycle contexts = true ↔
      ∃ context ∈ contexts, context.admits tree lifecycle p = true := by
  simp [isValid, admitting, CleanupContext.mem_all]

namespace ScopeTree

variable (t : ScopeTree) (b : Bool)

theorem ancestorsWithin_precise (fuel : Nat) (p : Option Nat) :
    { t with precise := b }.ancestorsWithin fuel p = t.ancestorsWithin fuel p := by
  induction fuel generalizing p with
  | zero => rfl
  | succ fuel ih =>
    cases p with
    | none => rfl
    | some p =>
      simp only [ancestorsWithin, ih]
      rfl

theorem ancestors_precise (id : Nat) : { t with precise := b }.ancestors id = t.ancestors id :=
  ancestorsWithin_precise t b _ _

theorem enclosingClass_precise (id : Nat) :
    { t with precise := b }.enclosingClass id = t.enclosingClass id := by
  rw [enclosingClass, enclosingClass, ancestors_precise]
  rfl

theorem owner_precise (id : Nat) : { t with precise := b }.owner id = t.owner id := by
  rw [owner, owner, ancestors_precise]
  rfl

end ScopeTree

theorem CleanupContext.admits_precise (context : CleanupContext) (t : ScopeTree) (b : Bool)
    (lifecycle : Lifecycle) (p : Placement) :
    context.admits { t with precise := b } lifecycle p = context.admits t lifecycle p := by
  cases context with
  | sameScope => rfl
  | «finally» => rfl
  | returnedClosure => rfl
  | pairedLifecycle =>
    simp only [admits, admitsPair, ScopeTree.owner_precise, ScopeTree.enclosingClass_precise]
    rfl
  | teardownMethod =>
    simp only [admits, admitsTeardown, ScopeTree.enclosingClass_precise]
    rfl

namespace Correlation

/-- One of the contexts of the rule of `a` admits `c`. -/
def Placed (s : Setting) (a c : Match) : Prop :=
  ∃ context ∈ s.contexts a.ruleId,
    context.admits s.tree s.lifecycle ⟨a.scope, c.scope, c.position⟩ = true

theorem fits_iff {s : Setting} {a c : Match} :
    s.fits a c = true ↔ unify a.bindings c.bindings = true ∧ Placed s a c := by
  rw [Setting.fits, Bool.and_eq_true, Placement.isValid_iff]
  rfl

/-- The same setting with scopes of another precision. -/
def Setting.withPrecise (s : Setting) (b : Bool) : Setting :=
  { s with tree := { s.tree with precise := b } }

theorem placed_withPrecise {s : Setting} {b : Bool} {a c : Match} :
    Placed (s.withPrecise b) a c ↔ Placed s a c := by
  simp only [Placed, Setting.withPrecise, CleanupContext.admits_precise]
  rfl

theorem fits_withPrecise (s : Setting) (b : Bool) (a c : Match) :
    (s.withPrecise b).fits a c = s.fits a c := by
  rw [Bool.eq_iff_iff, fits_iff, fits_iff, placed_withPrecise]

end Correlation
end LeakScan
