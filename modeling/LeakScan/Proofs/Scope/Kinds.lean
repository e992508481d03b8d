import LeakScan.Proofs.Scope.Laminar

/-!
# LeakScan.Proofs.Scope.Kinds

Where the kinds and flags of scopes come from, and the class around a scope.

* `mem_place`, `mem_nest` — every scope but the whole file was opened for a raw scope.
* `IsCallback` — closures, methods and lifecycle callbacks; `marksCallbacks_build` says that nothing
  else is marked as returned or deferred.
* `Nested.enclosingClass_eq_parent` — a scope that is no class has the class of its parent.
-/

namespace LeakScan
namespace ScopeTree

open Scope Text

/-! ## Origin -/

theorem mem_place (lifecycle : Lifecycle) (n : Nesting) (r : RawScope) {s : Scope}
    (h : s ∈ (n.place lifecycle r).placed) :
    s ∈ n.placed ∨ ∃ id parent, s = opened lifecycle id parent r := by
  cases hstack : closeUntil r.span.start n.stack with
  | nil =>
    rw [Nesting.place, hstack] at h
    exact .inl h
  | cons parent rest =>
    rw [place_eq lifecycle hstack] at h
    rcases List.mem_cons.1 h with rfl | h
    · exact .inr ⟨_, _, rfl⟩
    · exact .inl h

theorem mem_foldl_place (lifecycle : Lifecycle) (rs : List RawScope) (n : Nesting) {s : Scope}
    (h : s ∈ (rs.foldl (Nesting.place lifecycle) n).placed) :
    s ∈ n.placed ∨ ∃ r ∈ rs, ∃ id parent, s = opened lifecycle id parent r := by
  induction rs generalizing n with
  | nil => exact .inl h
  | cons r rest ih =>
    rcases ih (n.place lifecycle r) h with hplaced | ⟨r', hr', hs⟩
    · rcases mem_place lifecycle n r hplaced with hold | hnew
      · exact .inl hold
      · exact .inr ⟨r, List.mem_cons_self, hnew⟩
    · exact .inr ⟨r', List.mem_cons_of_mem r hr', hs⟩

theorem mem_nest {lifecycle : Lifecycle} {textSize : Nat} {scopes : List RawScope} {s : Scope}
    (h : s ∈ nest lifecycle textSize scopes) :
    s = module textSize ∨ ∃ r ∈ scopes, ∃ id parent, s = opened lifecycle id parent r := by
  rcases mem_foldl_place lifecycle _ _ (List.mem_reverse.1 h) with hstart | ⟨r, hr, hs⟩
  · exact .inl (List.mem_singleton.1 hstart)
  · have hmem := List.mem_mergeSort.1 ((dedupSpans_sublist _).subset hr)
    exact .inr ⟨r, (List.mem_filter.1 hmem).1, hs⟩

/-! ## Flags -/

/-- Kinds of scopes that stand for code to be called later. -/
def IsCallback (kind : Kind) : Prop :=
  kind = .closure ∨ kind = .method ∨ kind = .lifecycleCallback

theorem IsCallback.ne_class {kind : Kind} (h : IsCallback kind) : kind ≠ .classLike := by
  rcases h with rfl | rfl | rfl <;> decide

theorem classify_closure (lifecycle : Lifecycle) (parent : Kind) {r : RawScope}
    (h : r.kind = .closure) : IsCallback (classify lifecycle parent r).1 := by
  simp only [classify, h]
  split
  · exact .inr (.inr rfl)
  · split
    · exact .inr (.inr rfl)
    · split
      · exact .inr (.inl rfl)
      · exact .inl rfl

theorem isCallback_of_returned {lifecycle : Lifecycle} {textSize : Nat} {scopes : List RawScope}
    {s : Scope} (h : s ∈ nest lifecycle textSize scopes) (hreturned : s.returned = true) :
    IsCallback s.kind := by
  rcases mem_nest h with rfl | ⟨r, _, id, parent, rfl⟩
  · cases hreturned
  · have hclosure : r.kind = .closure := by
      simpa using (Bool.and_eq_true_iff.1 hreturned).2
    exact classify_closure lifecycle parent.kind hclosure

theorem isCallback_of_isDeferred {guards : List (Guard × Nat)} {s : Scope}
    (h : isDeferred guards s = true) : IsCallback s.kind := by
  simp only [isDeferred, Bool.and_eq_true, Bool.or_eq_true, beq_iff_eq] at h
  rcases h.1 with hclosure | hcallback
  · exact .inl hclosure
  · exact .inr (.inr hcallback)

/-- No class, function or whole file is marked as returned or deferred. -/
def MarksCallbacks (t : ScopeTree) : Prop :=
  ∀ i < t.scopes.length, (t.get i).returned = true ∨ (t.get i).deferred = true →
    IsCallback (t.get i).kind

theorem marksCallbacks_build (skeleton : Skeleton) (textSize : Nat) (precise : Bool)
    (lifecycle : Lifecycle) : MarksCallbacks (build skeleton textSize precise lifecycle) := by
  intro i hi hflag
  obtain ⟨s, hs, heq⟩ := List.mem_map.1 (mem_scopes_iff.2 ⟨i, hi, rfl⟩)
  rw [← heq] at hflag ⊢
  rcases hflag with hreturned | hdeferred
  · exact isCallback_of_returned (s := s) hs hreturned
  · exact isCallback_of_isDeferred (s := s) hdeferred

/-! ## Classes -/

theorem enclosingClass_self {t : ScopeTree} {i : Nat} (h : (t.get i).kind = .classLike) :
    t.enclosingClass i = some i := by
  rw [enclosingClass, List.find?_cons, h]
  rfl

theorem kind_enclosingClass {t : ScopeTree} {i c : Nat} (h : t.enclosingClass i = some c) :
    (t.get c).kind = .classLike := by
  simpa using List.find?_some h

theorem Nested.enclosingClass_eq_parent {textSize : Nat} {t : ScopeTree} (h : Nested textSize t)
    {i p : Nat} (hi : i < t.scopes.length) (hp : (t.get i).parent = some p)
    (hkind : (t.get i).kind ≠ .classLike) : t.enclosingClass i = t.enclosingClass p := by
  have hno : ((t.get i).kind == .classLike) = false := by simpa using hkind
  rw [enclosingClass, List.find?_cons, hno, h.ancestors_eq_cons hi hp]
  rfl

end ScopeTree
end LeakScan
