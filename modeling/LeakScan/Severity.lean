/-!
# LeakScan.Severity

How bad a finding is and how sure we are of it.

* `Severity` — `info < warning < critical`; `Severity.escalate` goes one level up.
* `Confidence` — `low < medium < high`, with a score in percent.
-/

namespace LeakScan

inductive Severity where
  | info
  | warning
  | critical
  deriving DecidableEq, Repr, Inhabited

namespace Severity

def all : List Severity := [.info, .warning, .critical]

def rank : Severity → Nat
  | .info => 0
  | .warning => 1
  | .critical => 2

instance : Ord Severity := ⟨compareOn rank⟩

instance : LE Severity := ⟨fun a b => a.rank ≤ b.rank⟩

instance (a b : Severity) : Decidable (a ≤ b) := inferInstanceAs (Decidable (a.rank ≤ b.rank))

def name : Severity → String
  | .info => "info"
  | .warning => "warning"
  | .critical => "critical"

/-- The name with a capital letter. -/
def title : Severity → String
  | .info => "Info"
  | .warning => "Warning"
  | .critical => "Critical"

def color : Severity → String
  | .info => "blue"
  | .warning => "yellow"
  | .critical => "red"

def emoji : Severity → String
  | .info => "🔵"
  | .warning => "🟡"
  | .critical => "🔴"

/-- Reads a name, in any mixture of ASCII cases. -/
def ofName? (s : String) : Option Severity :=
  all.find? fun v => v.name.toList == s.toList.map Char.toLower

def escalate : Severity → Severity
  | .info => .warning
  | .warning => .critical
  | .critical => .critical

end Severity

inductive Confidence where
  | low
  | medium
  | high
  deriving DecidableEq, Repr, Inhabited

namespace Confidence

def all : List Confidence := [.low, .medium, .high]

def name : Confidence → String
  | .low => "low"
  | .medium => "medium"
  | .high => "high"

def title : Confidence → String
  | .low => "Low"
  | .medium => "Medium"
  | .high => "High"

def percentage : Confidence → Nat
  | .low => 30
  | .medium => 60
  | .high => 90

/-- Reads a name as it is written in reports. -/
def ofName? (s : String) : Option Confidence := all.find? fun v => v.name == s

end Confidence

end LeakScan
