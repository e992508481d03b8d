import LeakScan.Correlation.Placement
import LeakScan.Match

/-!
# LeakScan.Correlation

Pairing acquisitions with cleanups. Matches are pooled by the kind of resource. In the order of the
source, each acquisition takes the first cleanup still free that unifies with it and is validly
placed; a cleanup serves one acquisition at most.

* `Correlation` — an acquisition, its cleanup, and the verdict.
* `outermost`, `distinctCleanups` — the matches that take part.
* `settle` — the assignment for one kind.
* `correlate` — all kinds, in the order of their names.
-/

namespace LeakScan

open Text

structure Correlation where
  acquisition : Match
  cleanup : Option Match
  verdict : Verdict
  deriving DecidableEq

namespace Correlation

/-- By start, the longer first, then by rule. -/
def sourceOrder (a b : Match) : Ordering :=
  (compare a.span.start b.span.start).then
    ((compare b.span.stop a.span.stop).then (compare a.ruleId b.ruleId))

def sortMatches (ms : List Match) : List Match :=
  ms.mergeSort fun a b => (sourceOrder a b).isLE

/-- Leaves out what is the same as the one kept before it. -/
def dropSame (same : Match → Match → Bool) (last : Match) : List Match → List Match
  | [] => []
  | m :: rest =>
    if same last m then dropSame same last rest else m :: dropSame same m rest

def dedupBy (same : Match → Match → Bool) : List Match → List Match
  | [] => []
  | m :: rest => m :: dropSame same m rest

/-- Acquisitions in the order of the source, each once, without those inside another one of the
same rule. -/
def outermost (acquisitions : List Match) : List Match :=
  let distinct :=
    dedupBy (fun a b => a.ruleId == b.ruleId && a.span == b.span) (sortMatches acquisitions)
  distinct.filter fun inner =>
    !distinct.any fun outer => outer.ruleId == inner.ruleId && outer.contains inner

/-- Cleanups in the order of the source, one for each span. -/
def distinctCleanups (cleanups : List Match) : List Match :=
  dedupBy (fun a b => a.span == b.span) (sortMatches cleanups)

/-- The first element with a property, and the others in their order. -/
def takeFirst (p : α → Bool) : List α → Option (α × List α)
  | [] => none
  | a :: rest =>
    if p a then some (a, rest)
    else
      match takeFirst p rest with
      | some (found, others) => some (found, a :: others)
      | none => none

/-- What decides whether a cleanup fits an acquisition. -/
structure Setting where
  rules : List Rule
  tree : ScopeTree
  lifecycle : Lifecycle

/-- The contexts of a rule; an unknown rule admits none. Of rules with one id the last counts. -/
def Setting.contexts (s : Setting) (ruleId : String) : List CleanupContext :=
  match s.rules.reverse.find? (·.id == ruleId) with
  | some r => r.contexts
  | none => []

def Setting.fits (s : Setting) (acquisition cleanup : Match) : Bool :=
  unify acquisition.bindings cleanup.bindings &&
    Placement.isValid s.tree s.lifecycle (s.contexts acquisition.ruleId)
      ⟨acquisition.scope, cleanup.scope, cleanup.position⟩

/-- Assigns the free cleanups to the acquisitions in turn. -/
def settle (s : Setting) : List Match → List Match → List Correlation
  | [], _ => []
  | a :: rest, free =>
    if a.position == .managed then ⟨a, none, .cleaned⟩ :: settle s rest free
    else
      match takeFirst (s.fits a) free with
      | some (c, others) => ⟨a, some c, .cleaned⟩ :: settle s rest others
      | none =>
        let related := free.any fun c => unify a.bindings c.bindings
        let verdict := if related && !s.tree.precise then .ambiguous else .leaked
        ⟨a, none, verdict⟩ :: settle s rest free

def settleKind (s : Setting) (matches_ : List Match) : List Correlation :=
  settle s (outermost (matches_.filter (·.role == .acquire)))
    (distinctCleanups (matches_.filter (·.role == .cleanup)))

/-- The kinds of some matches, sorted, each once. -/
def kindsOf (ms : List Match) : List String :=
  (SortedMap.ofList (ms.map fun m => (m.kind, ()))).keys

end Correlation

/-- Classifies every acquisition. -/
def correlate (s : Correlation.Setting) (ms : List Match) : List Correlation :=
  (Correlation.kindsOf ms).flatMap fun k => Correlation.settleKind s (ms.filter (·.kind == k))

end LeakScan
