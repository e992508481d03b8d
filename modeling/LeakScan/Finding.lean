import LeakScan.Severity

/-!
# LeakScan.Finding

What a scan reports about one rule.

* `Location`, ordered by file, line, column and snippet.
* `Verdict` — what became of an acquisition.
* `MatchMode`, `FindingMode` — how matches were found.
* Counts are `UInt64`: what is added to them wraps around at 64 bits.
* `Finding` — all acquisitions of one rule with one verdict, summed up.
* `Fingerprint` — what identifies a finding across scans.
* `Finding.escalated` — raises the severity of a finding that occurs too often.
-/

namespace LeakScan

structure Location where
  file : String
  line : Nat
  column : Nat
  snippet : Option String := none
  deriving DecidableEq, Repr, Inhabited

namespace Location

instance : Ord Location :=
  ⟨compareLex (compareOn file) (compareLex (compareOn line)
    (compareLex (compareOn column) (compareOn snippet)))⟩

def text (l : Location) : String := s!"{l.file}:{l.line}:{l.column}"

end Location

/-- Outcome of one acquisition. -/
inductive Verdict where
  | cleaned
  | leaked
  | ambiguous
  deriving DecidableEq, Repr, Inhabited

namespace Verdict

def all : List Verdict := [.cleaned, .leaked, .ambiguous]

def rank : Verdict → Nat
  | .cleaned => 0
  | .leaked => 1
  | .ambiguous => 2

instance : Ord Verdict := ⟨compareOn rank⟩

instance : Std.TransOrd Verdict := inferInstanceAs (Std.TransCmp (compareOn rank))

def name : Verdict → String
  | .cleaned => "cleaned"
  | .leaked => "leaked"
  | .ambiguous => "ambiguous"

def ofName? (s : String) : Option Verdict := all.find? fun v => v.name == s

end Verdict

/-- Which matcher produced a match. -/
inductive MatchMode where
  | structural
  | textual
  deriving DecidableEq, Repr, Inhabited

def MatchMode.name : MatchMode → String
  | .structural => "structural"
  | .textual => "textual"

def MatchMode.all : List MatchMode := [.structural, .textual]

def MatchMode.ofName? (s : String) : Option MatchMode := all.find? fun v => v.name == s

/-- The modes of all matches of a finding. -/
inductive FindingMode where
  | structural
  | textual
  | mixed
  deriving DecidableEq, Repr, Inhabited

def FindingMode.name : FindingMode → String
  | .structural => "structural"
  | .textual => "textual"
  | .mixed => "mixed"

def FindingMode.all : List FindingMode := [.structural, .textual, .mixed]

def FindingMode.ofName? (s : String) : Option FindingMode := all.find? fun v => v.name == s

/-- A count is shown as a number. -/
instance coeNatOfCount : Coe UInt64 Nat := ⟨UInt64.toNat⟩

/-- A number as a count keeps its last 64 bits. -/
instance coeCountOfNat : Coe Nat UInt64 := ⟨UInt64.ofNat⟩

structure Finding where
  ruleId : String
  verdict : Verdict
  severity : Severity
  baseSeverity : Severity
  confidence : Confidence
  /-- The confidence as a share of one hundred. -/
  score : Nat
  resourceKind : String
  category : String
  language : String
  title : String
  description : String
  remediation : Option String := none
  occurrences : UInt64
  files : UInt64
  locations : List Location
  mode : FindingMode
  escalationFactors : List String := []
  deriving DecidableEq, Repr, Inhabited

/-- What identifies a finding across scans. -/
structure Fingerprint where
  ruleId : String
  verdict : Verdict
  resourceKind : String
  deriving DecidableEq, Repr

namespace Fingerprint

instance : Ord Fingerprint :=
  ⟨compareLex (compareOn ruleId) (compareLex (compareOn verdict) (compareOn resourceKind))⟩

instance : Std.TransOrd Fingerprint :=
  inferInstanceAs (Std.TransCmp
    (compareLex (compareOn ruleId) (compareLex (compareOn verdict) (compareOn resourceKind))))

def text (f : Fingerprint) : String := s!"{f.ruleId}:{f.verdict.name}:{f.resourceKind}"

end Fingerprint

namespace Finding

def fingerprint (f : Finding) : Fingerprint := ⟨f.ruleId, f.verdict, f.resourceKind⟩

/-- A leak is confirmed; an ambiguous finding never decides the outcome of a scan. -/
def isConfirmed (f : Finding) : Bool := f.verdict == .leaked

/-- Starts from the base severity and goes one level up when the finding occurs more often than
the threshold allows. -/
def escalated (threshold : Option Nat) (f : Finding) : Finding :=
  match threshold with
  | some t =>
    if t < f.occurrences.toNat then
      { f with
        severity := f.baseSeverity.escalate
        escalationFactors := [s!"{f.occurrences} occurrences exceed threshold {t}"] }
    else { f with severity := f.baseSeverity, escalationFactors := [] }
  | none => { f with severity := f.baseSeverity, escalationFactors := [] }

end Finding

end LeakScan
