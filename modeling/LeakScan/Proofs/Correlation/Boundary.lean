import LeakScan.Proofs.Correlation.Placement
import LeakScan.Proofs.Scope.Kinds

/-!
# LeakScan.Proofs.Correlation.Boundary

No cleanup counts across the boundary of a class, and none in a function or closure that is merely
nested.

* `Within` — the cleanup has the class of the acquisition and stands in a scope that it may be
  looked for in.
* `Within.child`, `within_of_admitsPair`, `within_of_admitsTeardown` — one lemma for each way in
  which a context looks away from the scope of the acquisition.
* `isValid_within_class` — what any set of contexts admits is within.
-/

namespace LeakScan

open Scope ScopeTree

/-- Where a cleanup in scope `c` may stand for an acquisition in scope `a`. -/
structure Within (t : ScopeTree) (a c : Nat) : Prop where
  same_class : t.enclosingClass a = t.enclosingClass c
  related : c = a ∨
    ((t.get c).parent = some a ∧ ((t.get c).returned = true ∨ (t.get c).deferred = true)) ∨
    (t.get c).kind = .method ∨ (t.get c).kind = .lifecycleCallback
  /-- A plain function has to be the scope of the acquisition, and a plain closure may also be a
  marked child of it. -/
  plain : (t.get c).kind = .function ∨ (t.get c).kind = .closure → c = a ∨
    ((t.get c).kind = .closure ∧ (t.get c).parent = some a ∧
      ((t.get c).returned = true ∨ (t.get c).deferred = true))

section Contexts

variable {textSize : Nat} {t : ScopeTree} {a c : Nat}

theorem Within.same (t : ScopeTree) (a : Nat) : Within t a a := ⟨rfl, .inl rfl, fun _ => .inl rfl⟩

/-- A marked child is no class, so it has the class of its parent; and it is no function. -/
theorem Within.child (h : Nested textSize t) (hmarks : MarksCallbacks t)
    (hc : c < t.scopes.length) (hparent : (t.get c).parent = some a)
    (hflag : (t.get c).returned = true ∨ (t.get c).deferred = true) : Within t a c := by
  have hkind := hmarks c hc hflag
  refine ⟨(h.enclosingClass_eq_parent hc hparent hkind.ne_class).symm, .inr (.inl ⟨hparent, hflag⟩),
    ?_⟩
  rintro (hfunction | hclosure)
  · rw [hfunction] at hkind
    rcases hkind with hkind | hkind | hkind <;> cases hkind
  · exact .inr ⟨hclosure, hparent, hflag⟩

theorem Within.callback (hclass : t.enclosingClass a = t.enclosingClass c)
    (hkind : (t.get c).kind = .method ∨ (t.get c).kind = .lifecycleCallback) : Within t a c := by
  refine ⟨hclass, .inr (.inr hkind), ?_⟩
  rcases hkind with hkind | hkind <;> rw [hkind] <;> rintro (hplain | hplain) <;> cases hplain

theorem within_of_admitsPair {lifecycle : Lifecycle} {p : Placement}
    (h : CleanupContext.admitsPair t lifecycle p = true) : Within t p.acquisition p.cleanup := by
  simp only [CleanupContext.admitsPair, Bool.and_eq_true, beq_iff_eq] at h
  obtain ⟨⟨_, hteardown⟩, hnames⟩ := h
  split at hnames
  · simp only [Bool.and_eq_true, beq_iff_eq] at hnames
    exact .callback hnames.2 (.inr hteardown)
  · cases hnames

/-- The method is a child of the class around the acquisition, so that class is around both. -/
theorem within_of_admitsTeardown (h : Nested textSize t) {lifecycle : Lifecycle} {p : Placement}
    (hc : p.cleanup < t.scopes.length)
    (hadmits : CleanupContext.admitsTeardown t lifecycle p = true) :
    Within t p.acquisition p.cleanup := by
  rw [CleanupContext.admitsTeardown] at hadmits
  cases hclass : t.enclosingClass p.acquisition with
  | none =>
    rw [hclass] at hadmits
    cases hadmits
  | some d =>
    rw [hclass] at hadmits
    simp only [Bool.and_eq_true, Bool.or_eq_true, beq_iff_eq] at hadmits
    obtain ⟨⟨hkind, hparent⟩, _⟩ := hadmits
    have hnoclass : (t.get p.cleanup).kind ≠ .classLike := by
      rcases hkind with hkind | hkind <;> rw [hkind] <;> decide
    refine .callback ?_ hkind
    rw [h.enclosingClass_eq_parent hc hparent hnoclass,
      enclosingClass_self (kind_enclosingClass hclass), hclass]

theorem CleanupContext.within_of_admits (h : Nested textSize t) (hmarks : MarksCallbacks t)
    (context : CleanupContext) {lifecycle : Lifecycle} {p : Placement}
    (hc : p.cleanup < t.scopes.length) (hadmits : context.admits t lifecycle p = true) :
    Within t p.acquisition p.cleanup := by
  by_cases hsame : p.cleanup = p.acquisition
  · rw [hsame]
    exact .same t p.acquisition
  · have hno : (p.cleanup == p.acquisition) = false := by simpa using hsame
    cases context with
    | sameScope => exact absurd (beq_iff_eq.1 hadmits) hsame
    | «finally» =>
      simp only [admits, hno, Bool.false_eq_true, if_false, Bool.and_eq_true, beq_iff_eq] at hadmits
      exact .child h hmarks hc hadmits.2 (.inr hadmits.1)
    | returnedClosure =>
      simp only [admits, hno, Bool.false_eq_true, if_false, Bool.and_eq_true, beq_iff_eq] at hadmits
      exact .child h hmarks hc hadmits.2 (.inl hadmits.1)
    | pairedLifecycle => exact within_of_admitsPair hadmits
    | teardownMethod => exact within_of_admitsTeardown h hc hadmits

end Contexts

/-- Whatever the tree was built from and whatever contexts are asked, with this lifecycle table or
another. -/
theorem isValid_within_class (skeleton : Skeleton) (textSize : Nat) (precise : Bool)
    (lifecycle table : Lifecycle) (contexts : List CleanupContext) (p : Placement) :
    let t := build skeleton textSize precise lifecycle
    p.acquisition < t.scopes.length → p.cleanup < t.scopes.length →
      p.isValid t table contexts = true → Within t p.acquisition p.cleanup := by
  intro t _ hc hvalid
  obtain ⟨context, _, hadmits⟩ := Placement.isValid_iff.1 hvalid
  exact context.within_of_admits (nested_build skeleton textSize precise lifecycle)
    (marksCallbacks_build skeleton textSize precise lifecycle) hc hadmits

/-- A class with a method that holds an anonymous class; both classes have a method for teardown. -/
def session : Skeleton where
  scopes := [
    { kind := .classLike, span := ⟨0, 100⟩, name := some "Session" },
    { kind := .function, span := ⟨10, 40⟩, name := some "connect" },
    { kind := .classLike, span := ⟨20, 35⟩ },
    { kind := .function, span := ⟨22, 30⟩, name := some "dispose" },
    { kind := .function, span := ⟨50, 90⟩, name := some "dispose" }]

/-- What the method acquires is cleaned up by the method of its own class, not by that of the class
inside it. -/
theorem session_disposed_within :
    let table : Lifecycle := { teardown := ["dispose"] }
    let t := build session 120 true table
    2 < t.scopes.length ∧ 5 < t.scopes.length ∧
      Placement.isValid t table CleanupContext.all ⟨2, 5, .plain⟩ = true ∧ Within t 2 5 ∧
      Placement.isValid t table CleanupContext.all ⟨2, 4, .plain⟩ = false := by
  intro table t
  have hordered : ordered 120 session.scopes = dedupSpans session.scopes :=
    ordered_of_outerFirst (by decide) (by decide)
  obtain ⟨hacquired, hcleaned, hvalid, hinner⟩ :
      2 < t.scopes.length ∧ 5 < t.scopes.length ∧
        Placement.isValid t table CleanupContext.all ⟨2, 5, .plain⟩ = true ∧
        Placement.isValid t table CleanupContext.all ⟨2, 4, .plain⟩ = false := by
    simp only [t, build, nest, hordered]
    decide +kernel
  exact ⟨hacquired, hcleaned, hvalid,
    isValid_within_class session 120 true table table CleanupContext.all ⟨2, 5, .plain⟩ hacquired
      hcleaned hvalid, hinner⟩

end LeakScan
