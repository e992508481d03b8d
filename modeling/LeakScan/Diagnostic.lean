import LeakScan.Failure

/-!
# LeakScan.Diagnostic

Events of a scan that are no findings: skipped files, missing tools, dropped rules.

* `Diagnostic`, ordered by kind, level, path, rule and message.
* `Diagnostic.Kind.degrades` — whether such an event lowers the trust in a clean result.
* `Diagnostic.ofFailure` — how a failure is recorded.
* `DiagnosticLog` — diagnostics collected in the course of a scan.
-/

namespace LeakScan

namespace Diagnostic

inductive Kind where
  | toolUnavailable
  | toolTimeout
  | toolFailed
  | malformedRule
  | skippedFile
  | scopeFallback
  | cancelled
  deriving DecidableEq, Repr, Inhabited

namespace Kind

def all : List Kind :=
  [.toolUnavailable, .toolTimeout, .toolFailed, .malformedRule, .skippedFile, .scopeFallback,
    .cancelled]

def rank : Kind → Nat
  | .toolUnavailable => 0
  | .toolTimeout => 1
  | .toolFailed => 2
  | .malformedRule => 3
  | .skippedFile => 4
  | .scopeFallback => 5
  | .cancelled => 6

instance : Ord Kind := ⟨compareOn rank⟩

instance : Std.TransOrd Kind := inferInstanceAs (Std.TransCmp (compareOn rank))

def name : Kind → String
  | .toolUnavailable => "tool_unavailable"
  | .toolTimeout => "tool_timeout"
  | .toolFailed => "tool_failed"
  | .malformedRule => "malformed_rule"
  | .skippedFile => "skipped_file"
  | .scopeFallback => "scope_fallback"
  | .cancelled => "cancelled"

def ofName? (s : String) : Option Kind := all.find? fun k => k.name == s

def degrades : Kind → Bool
  | .malformedRule => false
  | .skippedFile => false
  | _ => true

end Kind

inductive Level where
  | info
  | warning
  deriving DecidableEq, Repr, Inhabited

namespace Level

def all : List Level := [.info, .warning]

def rank : Level → Nat
  | .info => 0
  | .warning => 1

instance : Ord Level := ⟨compareOn rank⟩

def name : Level → String
  | .info => "info"
  | .warning => "warning"

def ofName? (s : String) : Option Level := all.find? fun l => l.name == s

end Level

end Diagnostic

structure Diagnostic where
  kind : Diagnostic.Kind
  level : Diagnostic.Level
  path : Option String := none
  ruleId : Option String := none
  message : String
  deriving DecidableEq, Repr, Inhabited

namespace Diagnostic

instance : Ord Diagnostic :=
  ⟨compareLex (compareOn kind) (compareLex (compareOn level) (compareLex (compareOn path)
    (compareLex (compareOn ruleId) (compareOn message))))⟩

def info (kind : Kind) (message : String) : Diagnostic :=
  { kind := kind, level := .info, message := message }

def warning (kind : Kind) (message : String) : Diagnostic :=
  { kind := kind, level := .warning, message := message }

def withPath (d : Diagnostic) (path : String) : Diagnostic := { d with path := some path }

def withRule (d : Diagnostic) (ruleId : String) : Diagnostic := { d with ruleId := some ruleId }

def ofFailure (f : Failure) : Diagnostic :=
  match f with
  | .toolUnavailable _ _ => info .toolUnavailable f.message
  | .toolTimeout _ _ => info .toolTimeout f.message
  | .malformedRule ruleId _ => (warning .malformedRule f.message).withRule ruleId
  | .skippedFile path _ => (info .skippedFile f.message).withPath path
  | .cancelled => info .cancelled f.message
  | _ => info .toolFailed f.message

end Diagnostic

/-- Diagnostics collected in the course of a scan, in order. -/
structure DiagnosticLog where
  entries : List Diagnostic := []
  deriving DecidableEq, Repr

namespace DiagnosticLog

def empty : DiagnosticLog := {}

def push (log : DiagnosticLog) (d : Diagnostic) : DiagnosticLog := ⟨log.entries ++ [d]⟩

def extend (log : DiagnosticLog) (ds : List Diagnostic) : DiagnosticLog := ⟨log.entries ++ ds⟩

/-- Everything collected, and a log that starts anew. -/
def drain (log : DiagnosticLog) : List Diagnostic × DiagnosticLog := (log.entries, empty)

def size (log : DiagnosticLog) : Nat := log.entries.length

def isEmpty (log : DiagnosticLog) : Bool := log.entries.isEmpty

end DiagnosticLog

end LeakScan
