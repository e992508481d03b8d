/-!
# LeakScan.Lifecycle

Names that frameworks give to the callbacks in which resources are set up and torn down.

* `Lifecycle` — pairs of a setup name with its teardown names, names of teardown methods, and
  names of hooks, whose callback argument is a lifecycle callback.
* `Lifecycle.merge` — the table with the names of another added.
-/

namespace LeakScan

structure LifecyclePair where
  setup : String
  teardown : List String
  deriving DecidableEq, Repr

structure Lifecycle where
  pairs : List LifecyclePair := []
  teardown : List String := []
  hooks : List String := []
  deriving DecidableEq, Repr, Inhabited

namespace Lifecycle

/-- Adds the names that are not there yet. -/
def addNames (names : List String) (more : List String) : List String :=
  more.foldl (fun acc n => if acc.contains n then acc else acc ++ [n]) names

/-- Adds the teardown names of a pair to the first pair with the same setup name; a new setup name
comes last. -/
def addPair (pair : LifecyclePair) : List LifecyclePair → List LifecyclePair
  | [] => [pair]
  | p :: ps =>
    if p.setup == pair.setup then { p with teardown := addNames p.teardown pair.teardown } :: ps
    else p :: addPair pair ps

def merge (a b : Lifecycle) : Lifecycle where
  pairs := b.pairs.foldl (fun ps p => addPair p ps) a.pairs
  teardown := addNames a.teardown b.teardown
  hooks := addNames a.hooks b.hooks

def isSetup (t : Lifecycle) (name : String) : Bool := t.pairs.any (·.setup == name)

/-- The name of a setup callback or of a teardown callback paired with one. -/
def isCallback (t : Lifecycle) (name : String) : Bool :=
  t.pairs.any fun p => p.setup == name || p.teardown.contains name

/-- The name of a teardown, paired or standing alone. -/
def isTeardown (t : Lifecycle) (name : String) : Bool :=
  t.teardown.contains name || t.pairs.any (·.teardown.contains name)

def isHook (t : Lifecycle) (name : String) : Bool := t.hooks.contains name

def pairsWith (t : Lifecycle) (setup teardown : String) : Bool :=
  t.pairs.any fun p => p.setup == setup && p.teardown.contains teardown

end Lifecycle

end LeakScan
