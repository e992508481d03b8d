import LeakScan.Finding
import LeakScan.Rule.Document

/-!
# LeakScan.Baseline

Comparing findings with those of an earlier report.

* `Counts` — occurrences by fingerprint.
* `Baseline.parse` — the counts of an earlier report, read from its JSON text.
* `Delta`, `Counts.delta` — what is new, resolved, or changed in number.
-/

namespace LeakScan

abbrev Counts := SortedMap Fingerprint UInt64

namespace Counts

/-- Sums up the occurrences of each fingerprint. -/
def ofPairs (pairs : List (Fingerprint × UInt64)) : Counts :=
  pairs.foldl (fun m p => m.alter p.1 fun n => n.getD 0 + p.2) .empty

def ofFindings (findings : List Finding) : Counts :=
  ofPairs (findings.map fun f => (f.fingerprint, f.occurrences))

end Counts

structure DeltaEntry where
  ruleId : String
  verdict : Verdict
  occurrences : UInt64
  deriving DecidableEq, Repr

structure DeltaChange where
  ruleId : String
  verdict : Verdict
  before : UInt64
  after : UInt64
  deriving DecidableEq, Repr

structure Delta where
  new : List DeltaEntry := []
  resolved : List DeltaEntry := []
  changed : List DeltaChange := []
  deriving DecidableEq, Repr

namespace Counts

/-- Entries of `a` whose fingerprint `b` does not have. -/
def missingFrom (b a : Counts) : List DeltaEntry :=
  a.entries.filterMap fun (f, n) =>
    if b.contains f then none else some ⟨f.ruleId, f.verdict, n⟩

/-- Fingerprints that both have in different numbers. -/
def changes (before after : Counts) : List DeltaChange :=
  after.entries.filterMap fun (f, n) =>
    match before.get? f with
    | some m => if m == n then none else some ⟨f.ruleId, f.verdict, m, n⟩
    | none => none

def delta (before after : Counts) : Delta where
  new := before.missingFrom after
  resolved := after.missingFrom before
  changed := before.changes after

end Counts

/-! ## Earlier reports -/

namespace Json

/-- One of some named values, written as its name or as the only field of an object. -/
def asNamed (ofName? : String → Option α) : Json → Except String α
  | .str s =>
    match ofName? s with
    | some a => .ok a
    | none => .error s!"unknown variant `{s}`"
  | .obj [(s, .null)] =>
    match ofName? s with
    | some a => .ok a
    | none => .error s!"unknown variant `{s}`"
  | v => .error (mismatch v "a variant")

/-- A number that a count can hold: an integer within 64 bits. -/
def asCount : Json → Except String Nat
  | .num (.natural n) => .ok n
  | v => .error (mismatch v "an unsigned integer")

def requiredField (name : String) (f : Json → Except String α) : Option Json → Except String α
  | some v => f v
  | none => .error s!"missing field `{name}`"

def optionalField (default : α) (f : Json → Except String α) : Option Json → Except String α
  | some v => f v
  | none => .ok default

end Json

namespace Baseline

open Json

def readFinding (v : Json) : Except String (Fingerprint × UInt64) := do
  match ← recordFields ["rule_id", "verdict", "resource_kind", "occurrences"]
      "struct BaselineFinding" v with
  | [ruleId, verdict, kind, occurrences] =>
    let ruleId ← requiredField "rule_id" asString ruleId
    let verdict ← requiredField "verdict" (asNamed Verdict.ofName?) verdict
    let kind ← optionalField "" asString kind
    let occurrences ← requiredField "occurrences" asCount occurrences
    return (⟨ruleId, verdict, kind⟩, occurrences)
  | _ => .error "missing field"

def ofJson (v : Json) : Except String Counts := do
  match ← recordFields ["findings"] "struct BaselineFile" v with
  | [findings] => return Counts.ofPairs (← requiredField "findings" (asList readFinding) findings)
  | _ => .error "missing field"

def parse (text : String) : Except Failure Counts :=
  match Json.parse text with
  | .error e => .error (.badJson e.message)
  | .ok v =>
    match ofJson v with
    | .ok counts => .ok counts
    | .error reason => .error (.badJson reason)

/-- The baseline in a file with the given content, or with the reason why it cannot be read. -/
def load (path : String) (content : Except String String) : Except Failure Counts :=
  match content with
  | .error reason => .error (.invalidInput s!"cannot read baseline {path}: {reason}")
  | .ok text =>
    match parse text with
    | .ok counts => .ok counts
    | .error e => .error (.invalidInput s!"invalid baseline {path}: {e.message}")

end Baseline

end LeakScan
