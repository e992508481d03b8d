import LeakScan.Json.Reader
import LeakScan.Lifecycle
import LeakScan.Rule.Draft

/-!
# LeakScan.Rule.Document

Rule documents: an optional lifecycle table and a list of entries.

* `RuleDocument` — entries with the ids under which they are reported when nothing better is
  known.
* `RuleDocument.parse` — reading the JSON text of a document.
* `LoadedRules`, `RuleDocument.load` — the entries that are rules, and a diagnostic for each that
  is not.
-/

namespace LeakScan

/-- An entry of a document: a draft, or why it is none. -/
structure RuleEntry where
  fallbackId : String
  draft : Except String RuleDraft

structure RuleDocument where
  origin : String
  lifecycle : Option Lifecycle := none
  entries : List RuleEntry := []

namespace Json

/-- The values of the named fields of a record, which is an object without repeated fields or an
array in the order of the names. Missing fields are absent. -/
def recordFields (names : List String) (expected : String) :
    Json → Except String (List (Option Json))
  | .obj fields =>
    if names.any fun n => 1 < (fields.filter (·.1 == n)).length then .error "duplicate field"
    else .ok (names.map fun n => fields.lookup n)
  | .arr items =>
    if names.length < items.length then .error "trailing characters"
    else .ok ((List.range names.length).map (items[·]?))
  | v => .error (mismatch v expected)

end Json

open Json

def LifecyclePair.ofJson (v : Json) : Except String LifecyclePair := do
  match ← recordFields ["setup", "teardown"] "struct LifecyclePair" v with
  | [some setup, some teardown] =>
    return { setup := ← asString setup, teardown := ← asList asString teardown }
  | _ => .error "missing field"

def Lifecycle.ofJson (v : Json) : Except String Lifecycle := do
  match ← recordFields ["pairs", "teardown", "hooks"] "struct LifecycleTable" v with
  | [pairs, teardown, hooks] =>
    return {
      pairs := ← (pairs.map (asList LifecyclePair.ofJson)).getD (.ok [])
      teardown := ← (teardown.map (asList asString)).getD (.ok [])
      hooks := ← (hooks.map (asList asString)).getD (.ok []) }
  | _ => .error "missing field"

/-- The text under `id` in an entry, or the place of the entry in its document. -/
def RuleEntry.idOf (origin : String) (index : Nat) (v : Json) : String :=
  match v.get? "id" with
  | some (.str s) => s
  | _ => s!"{origin}#{index}"

def RuleEntry.ofJson (origin : String) (index : Nat) (v : Json) : RuleEntry :=
  let v := v.canonical
  { fallbackId := idOf origin index v, draft := RuleDraft.ofJson v }

namespace RuleDocument

def ofJson (origin : String) (v : Json) : Except String RuleDocument := do
  match ← recordFields ["lifecycle", "rules"] "struct RawDocument" v with
  | [lifecycle, rules] =>
    let lifecycle ← (lifecycle.map (asOption Lifecycle.ofJson)).getD (.ok none)
    let values ← (rules.map (asList .ok)).getD (.ok [])
    return {
      origin := origin, lifecycle := lifecycle
      entries := values.zipIdx.map fun (v, i) => RuleEntry.ofJson origin i v }
  | _ => .error "missing field"

/-- Only a text that is no document at all fails; bad entries stay entries. -/
def parse (text origin : String) : Except Failure RuleDocument :=
  match Json.parse text with
  | .error e => .error (.badJson e.message)
  | .ok v =>
    match ofJson origin v with
    | .ok d => .ok d
    | .error reason => .error (.badJson reason)

end RuleDocument

/-- What a document contributes. -/
structure LoadedRules where
  rules : List Rule := []
  lifecycle : Option Lifecycle := none
  diagnostics : List Diagnostic := []

def RuleEntry.check (e : RuleEntry) : Except Failure Rule :=
  match e.draft with
  | .ok d => d.check e.fallbackId
  | .error reason => .error (.malformedRule e.fallbackId reason)

namespace RuleDocument

def checkedEntries (d : RuleDocument) : List (Except Failure Rule) := d.entries.map (·.check)

def load (d : RuleDocument) : LoadedRules where
  rules := d.checkedEntries.filterMap fun
    | .ok r => some r
    | .error _ => none
  lifecycle := d.lifecycle
  diagnostics := d.checkedEntries.filterMap fun
    | .ok _ => none
    | .error f => some ((Diagnostic.ofFailure f).withPath d.origin)

end RuleDocument

end LeakScan
