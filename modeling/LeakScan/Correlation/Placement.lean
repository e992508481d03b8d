import LeakScan.Lifecycle
import LeakScan.Rule
import LeakScan.Scope.Tree

/-!
# LeakScan.Correlation.Placement

Where a cleanup counts for an acquisition.

* `Placement` — the two scopes and the position of the cleanup in its own.
* `CleanupContext.admits` — one rule a context.
* `admitting` — the first of some contexts, in their fixed order, that admits a placement.
-/

namespace LeakScan

open Scope

structure Placement where
  acquisition : Nat
  cleanup : Nat
  position : Position
  deriving DecidableEq, Repr

namespace CleanupContext

/-- Setup and teardown callbacks of one owner whose names belong together. -/
def admitsPair (tree : ScopeTree) (lifecycle : Lifecycle) (p : Placement) : Bool :=
  let setup := tree.get p.acquisition
  let teardown := tree.get p.cleanup
  setup.kind == .lifecycleCallback && teardown.kind == .lifecycleCallback &&
    match setup.name, teardown.name with
    | some s, some t =>
      lifecycle.pairsWith s t && tree.owner p.acquisition == tree.owner p.cleanup &&
        tree.enclosingClass p.acquisition == tree.enclosingClass p.cleanup
    | _, _ => false

/-- A method of the class around the acquisition that is named for teardown. -/
def admitsTeardown (tree : ScopeTree) (lifecycle : Lifecycle) (p : Placement) : Bool :=
  match tree.enclosingClass p.acquisition with
  | none => false
  | some c =>
    let method := tree.get p.cleanup
    (method.kind == .method || method.kind == .lifecycleCallback) && method.parent == some c &&
      method.name.any lifecycle.isTeardown

def admits (tree : ScopeTree) (lifecycle : Lifecycle) (p : Placement) : CleanupContext → Bool
  | .sameScope => p.cleanup == p.acquisition
  | .finally =>
    if p.cleanup == p.acquisition then p.position == .finally || p.position == .deferred
    else (tree.get p.cleanup).deferred && (tree.get p.cleanup).parent == some p.acquisition
  | .returnedClosure =>
    if p.cleanup == p.acquisition then p.position == .returnedExpression
    else (tree.get p.cleanup).returned && (tree.get p.cleanup).parent == some p.acquisition
  | .pairedLifecycle => admitsPair tree lifecycle p
  | .teardownMethod => admitsTeardown tree lifecycle p

end CleanupContext

namespace Placement

def admitting (tree : ScopeTree) (lifecycle : Lifecycle) (contexts : List CleanupContext)
    (p : Placement) : Option CleanupContext :=
  (CleanupContext.all.filter contexts.contains).find? (·.admits tree lifecycle p)

def isValid (tree : ScopeTree) (lifecycle : Lifecycle) (contexts : List CleanupContext)
    (p : Placement) : Bool :=
  (p.admitting tree lifecycle contexts).isSome

end Placement

end LeakScan
