import LeakScan.Proofs.Correlation.Boundary

/-!
# LeakScan.Proofs.Correlation.Descendant

Cleanups somewhere below the scope of the acquisition. A returned or deferred child is meant to be
the only such place, but callbacks of one class count for each other however they are nested: the
owner of a callback is the class around it, and only without a class the scope around it.

* `MarkedChild` — a child of the acquisition scope that is returned or deferred.
* `PairedInClass` — setup and teardown callbacks inside one class.
* `admitsPair_below_iff`, `not_admitsTeardown_below` — the two contexts that look beyond children.
* `isValid_below_iff` — all that any set of contexts admits below a scope that is no class.
-/

namespace LeakScan

open Scope ScopeTree

def MarkedChild (t : ScopeTree) (a c : Nat) : Prop :=
  (t.get c).parent = some a ∧ ((t.get c).returned = true ∨ (t.get c).deferred = true)

/-- Two callbacks with the same class around them, whose names the table pairs. -/
structure PairedInClass (t : ScopeTree) (table : Lifecycle) (a c : Nat) : Prop where
  setup : (t.get a).kind = .lifecycleCallback
  teardown : (t.get c).kind = .lifecycleCallback
  names : ∃ s u, (t.get a).name = some s ∧ (t.get c).name = some u ∧ table.pairsWith s u = true
  same_class : ∃ d, t.enclosingClass a = some d ∧ t.enclosingClass c = some d

namespace ScopeTree

/-! ## Owners -/

theorem enclosingClass_eq_find? {t : ScopeTree} {i : Nat} (h : (t.get i).kind ≠ .classLike) :
    t.enclosingClass i = (t.ancestors i).find? fun s => (t.get s).kind == .classLike := by
  have hno : ((t.get i).kind == .classLike) = false := by simpa using h
  rw [enclosingClass, List.find?_cons, hno]

theorem owner_eq_enclosingClass {t : ScopeTree} {i d : Nat} (h : (t.get i).kind ≠ .classLike)
    (hclass : t.enclosingClass i = some d) : t.owner i = some d := by
  rw [enclosingClass_eq_find? h] at hclass
  rw [owner, hclass]

theorem owner_eq_parent {t : ScopeTree} {i : Nat} (h : (t.get i).kind ≠ .classLike)
    (hnone : t.enclosingClass i = none) : t.owner i = (t.get i).parent := by
  rw [enclosingClass_eq_find? h] at hnone
  rw [owner, hnone]

/-- The class around a scope that is no class is above it. -/
theorem enclosingClass_mem_ancestors {t : ScopeTree} {i d : Nat} (h : (t.get i).kind ≠ .classLike)
    (hclass : t.enclosingClass i = some d) : d ∈ t.ancestors i := by
  rw [enclosingClass_eq_find? h] at hclass
  exact List.mem_of_find?_eq_some hclass

/-- Parents fall with the ids, so a scope below another has a later parent. -/
theorem Nested.parent_lt_of_mem_ancestors {textSize : Nat} {t : ScopeTree} (h : Nested textSize t)
    {a c p q : Nat} (hc : c < t.scopes.length) (hbelow : a ∈ t.ancestors c)
    (hp : (t.get a).parent = some p) (hq : (t.get c).parent = some q) : p < q := by
  have ha : a < t.scopes.length := Nat.lt_trans (h.of_mem_ancestors hc hbelow).1 hc
  have hpa := h.parent_lt ha hp
  rw [h.ancestors_eq_cons hc hq] at hbelow
  rcases List.mem_cons.1 hbelow with rfl | habove
  · exact hpa
  · have hqc := h.parent_lt hc hq
    exact Nat.lt_trans hpa (h.of_mem_ancestors (Nat.lt_trans hqc hc) habove).1

end ScopeTree

/-! ## Contexts -/

section Contexts

variable {textSize : Nat} {t : ScopeTree} {table : Lifecycle} {p : Placement}

theorem admitsPair_iff : CleanupContext.admitsPair t table p = true ↔
    (t.get p.acquisition).kind = .lifecycleCallback ∧
    (t.get p.cleanup).kind = .lifecycleCallback ∧
    (∃ s u, (t.get p.acquisition).name = some s ∧ (t.get p.cleanup).name = some u ∧
      table.pairsWith s u = true) ∧
    t.owner p.acquisition = t.owner p.cleanup ∧
    t.enclosingClass p.acquisition = t.enclosingClass p.cleanup := by
  simp only [CleanupContext.admitsPair, Bool.and_eq_true, beq_iff_eq]
  constructor
  · rintro ⟨⟨hsetup, hteardown⟩, hnames⟩
    split at hnames
    · rename_i s u hs hu
      simp only [Bool.and_eq_true, beq_iff_eq] at hnames
      exact ⟨hsetup, hteardown, ⟨s, u, hs, hu, hnames.1.1⟩, hnames.1.2, hnames.2⟩
    · cases hnames
  · rintro ⟨hsetup, hteardown, ⟨s, u, hs, hu, hpairs⟩, howner, hclass⟩
    refine ⟨⟨hsetup, hteardown⟩, ?_⟩
    simp [hs, hu, hpairs, howner, hclass]

/-- Without a class the owners are the parents, and those differ. -/
theorem admitsPair_below_iff (h : Nested textSize t) (hc : p.cleanup < t.scopes.length)
    (hbelow : p.acquisition ∈ t.ancestors p.cleanup) :
    CleanupContext.admitsPair t table p = true ↔
      PairedInClass t table p.acquisition p.cleanup := by
  rw [admitsPair_iff]
  constructor
  · rintro ⟨hsetup, hteardown, hnames, howner, hclass⟩
    have hnosetup : (t.get p.acquisition).kind ≠ .classLike := by rw [hsetup]; decide
    have hnoteardown : (t.get p.cleanup).kind ≠ .classLike := by rw [hteardown]; decide
    refine ⟨hsetup, hteardown, hnames, ?_⟩
    cases hd : t.enclosingClass p.acquisition with
    | some d => exact ⟨d, rfl, hclass ▸ hd⟩
    | none =>
      rw [owner_eq_parent hnosetup hd, owner_eq_parent hnoteardown (hclass ▸ hd)] at howner
      obtain ⟨hlt, _⟩ := h.of_mem_ancestors hc hbelow
      obtain ⟨q, _, hq, _⟩ := h.child p.cleanup hc (Nat.ne_zero_of_lt hlt)
      exact absurd (h.parent_lt_of_mem_ancestors hc hbelow (howner.trans hq) hq)
        (Nat.lt_irrefl q)
  · rintro ⟨hsetup, hteardown, hnames, d, hda, hdc⟩
    refine ⟨hsetup, hteardown, hnames, ?_, hda.trans hdc.symm⟩
    rw [owner_eq_enclosingClass (by rw [hsetup]; decide) hda,
      owner_eq_enclosingClass (by rw [hteardown]; decide) hdc]

/-- A method is a child of the class, which is above the acquisition; so the acquisition is not
above the method. -/
theorem not_admitsTeardown_below (h : Nested textSize t) (hc : p.cleanup < t.scopes.length)
    (hbelow : p.acquisition ∈ t.ancestors p.cleanup)
    (hkind : (t.get p.acquisition).kind ≠ .classLike) :
    CleanupContext.admitsTeardown t table p = false := by
  rw [CleanupContext.admitsTeardown]
  cases hclass : t.enclosingClass p.acquisition with
  | none => rfl
  | some d =>
    have hnochild : (t.get p.cleanup).parent ≠ some d := by
      intro hparent
      have ha : p.acquisition < t.scopes.length :=
        Nat.lt_trans (h.of_mem_ancestors hc hbelow).1 hc
      obtain ⟨hda, _⟩ := h.of_mem_ancestors ha (enclosingClass_mem_ancestors hkind hclass)
      rw [h.ancestors_eq_cons hc hparent] at hbelow
      rcases List.mem_cons.1 hbelow with heq | habove
      · omega
      · have := (h.of_mem_ancestors (Nat.lt_trans hda ha) habove).1
        omega
    simp [hnochild]

theorem CleanupContext.admits_below_iff (h : Nested textSize t) (hc : p.cleanup < t.scopes.length)
    (hbelow : p.acquisition ∈ t.ancestors p.cleanup)
    (hkind : (t.get p.acquisition).kind ≠ .classLike) (context : CleanupContext) :
    context.admits t table p = true ↔
      (context = .finally ∧ (t.get p.cleanup).parent = some p.acquisition ∧
        (t.get p.cleanup).deferred = true) ∨
      (context = .returnedClosure ∧ (t.get p.cleanup).parent = some p.acquisition ∧
        (t.get p.cleanup).returned = true) ∨
      (context = .pairedLifecycle ∧ PairedInClass t table p.acquisition p.cleanup) := by
  have hlt := (h.of_mem_ancestors hc hbelow).1
  have hno : (p.cleanup == p.acquisition) = false := by simpa using Nat.ne_of_gt hlt
  cases context with
  | sameScope => simp [admits, hno]
  | «finally» => simp [admits, hno, and_comm]
  | returnedClosure => simp [admits, hno, and_comm]
  | pairedLifecycle => simp [admits, admitsPair_below_iff h hc hbelow]
  | teardownMethod => simp [admits, not_admitsTeardown_below h hc hbelow hkind]

end Contexts

/-- Below a scope that is no class, the contexts admit marked children of it and, inside a class,
callbacks paired with it at any depth. So nothing but marked children is admitted exactly if paired
callbacks are not asked for, or the two are no such pair. -/
theorem isValid_below_iff (skeleton : Skeleton) (textSize : Nat) (precise : Bool)
    (lifecycle table : Lifecycle) (contexts : List CleanupContext) (p : Placement) :
    let t := build skeleton textSize precise lifecycle
    p.cleanup < t.scopes.length → p.acquisition ∈ t.ancestors p.cleanup →
      (t.get p.acquisition).kind ≠ .classLike →
      (p.isValid t table contexts = true ↔
        ((t.get p.cleanup).parent = some p.acquisition ∧
          ((.returnedClosure ∈ contexts ∧ (t.get p.cleanup).returned = true) ∨
            (.finally ∈ contexts ∧ (t.get p.cleanup).deferred = true))) ∨
        (.pairedLifecycle ∈ contexts ∧ PairedInClass t table p.acquisition p.cleanup)) ∧
      ((p.isValid t table contexts = true → MarkedChild t p.acquisition p.cleanup) ↔
        (.pairedLifecycle ∈ contexts → PairedInClass t table p.acquisition p.cleanup →
          MarkedChild t p.acquisition p.cleanup)) := by
  intro t hc hbelow hkind
  have h : Nested textSize t := nested_build skeleton textSize precise lifecycle
  have hvalid : p.isValid t table contexts = true ↔
      ((t.get p.cleanup).parent = some p.acquisition ∧
        ((.returnedClosure ∈ contexts ∧ (t.get p.cleanup).returned = true) ∨
          (.finally ∈ contexts ∧ (t.get p.cleanup).deferred = true))) ∨
      (.pairedLifecycle ∈ contexts ∧ PairedInClass t table p.acquisition p.cleanup) := by
    rw [Placement.isValid_iff]
    constructor
    · rintro ⟨context, hmem, hadmits⟩
      rcases (context.admits_below_iff h hc hbelow hkind).1 hadmits with
        ⟨rfl, hparent, hflag⟩ | ⟨rfl, hparent, hflag⟩ | ⟨rfl, hpair⟩
      · exact .inl ⟨hparent, .inr ⟨hmem, hflag⟩⟩
      · exact .inl ⟨hparent, .inl ⟨hmem, hflag⟩⟩
      · exact .inr ⟨hmem, hpair⟩
    · rintro (⟨hparent, ⟨hmem, hflag⟩ | ⟨hmem, hflag⟩⟩ | ⟨hmem, hpair⟩)
      · exact ⟨_, hmem, (CleanupContext.admits_below_iff h hc hbelow hkind _).2
          (.inr (.inl ⟨rfl, hparent, hflag⟩))⟩
      · exact ⟨_, hmem, (CleanupContext.admits_below_iff h hc hbelow hkind _).2
          (.inl ⟨rfl, hparent, hflag⟩)⟩
      · exact ⟨_, hmem, (CleanupContext.admits_below_iff h hc hbelow hkind _).2
          (.inr (.inr ⟨rfl, hpair⟩))⟩
  refine ⟨hvalid, fun hmarked hmem hpair => hmarked (hvalid.2 (.inr ⟨hmem, hpair⟩)), ?_⟩
  intro hmarked hadmitted
  rcases hvalid.1 hadmitted with ⟨hparent, ⟨_, hflag⟩ | ⟨_, hflag⟩⟩ | ⟨hmem, hpair⟩
  · exact ⟨hparent, .inl hflag⟩
  · exact ⟨hparent, .inr hflag⟩
  · exact hmarked hmem hpair

/-! ## Hooks inside each other

    class Clock { render() { onMounted(() => { … onUnmounted(() => { … }) … }) } }
-/

def nestedHooks : List RawScope := [
  { kind := .function, span := ⟨10, 90⟩, name := some "render" },
  { kind := .closure, span := ⟨20, 80⟩, callee := some "onMounted" },
  { kind := .closure, span := ⟨40, 70⟩, callee := some "onUnmounted" }]

def hookTable : Lifecycle where
  pairs := [⟨"onMounted", ["onUnmounted"]⟩]
  hooks := ["onMounted", "onUnmounted"]

def clock : Skeleton where
  scopes := { kind := .classLike, span := ⟨0, 100⟩, name := some "Clock" } :: nestedHooks

/-- The teardown callback is a child of the setup callback that is neither returned nor deferred, and
it counts. -/
theorem nested_hook_admitted :
    let t := build clock 100 true hookTable
    4 < t.scopes.length ∧ 3 ∈ t.ancestors 4 ∧ (t.get 3).kind ≠ .classLike ∧
      Placement.isValid t hookTable CleanupContext.all ⟨3, 4, .plain⟩ = true ∧
      ¬MarkedChild t 3 4 := by
  intro t
  have hordered : ordered 100 clock.scopes = dedupSpans clock.scopes :=
    ordered_of_outerFirst (by decide) (by decide)
  simp only [t, build, nest, hordered, MarkedChild]
  decide +kernel

/-- The same hooks outside a class are not paired. -/
theorem nested_hook_outside_class :
    let t := build ⟨nestedHooks, [], []⟩ 100 true hookTable
    3 < t.scopes.length ∧ 2 ∈ t.ancestors 3 ∧ (t.get 2).kind ≠ .classLike ∧
      (Placement.isValid t hookTable CleanupContext.all ⟨2, 3, .plain⟩ = true →
        MarkedChild t 2 3) := by
  intro t
  have hordered : ordered 100 nestedHooks = dedupSpans nestedHooks :=
    ordered_of_outerFirst (by decide) (by decide)
  obtain ⟨hc, hbelow, hkind, hclass⟩ : 3 < t.scopes.length ∧ 2 ∈ t.ancestors 3 ∧
      (t.get 2).kind ≠ .classLike ∧ t.enclosingClass 2 = none := by
    simp only [t, build, nest, hordered]
    decide +kernel
  refine ⟨hc, hbelow, hkind, ?_⟩
  refine (isValid_below_iff ⟨nestedHooks, [], []⟩ 100 true hookTable hookTable CleanupContext.all
    ⟨2, 3, .plain⟩ hc hbelow hkind).2.2 fun _ hpair => ?_
  obtain ⟨d, hd, _⟩ := hpair.same_class
  cases hclass.symm.trans hd

end LeakScan
