/-!
# LeakScan.Failure

What can go wrong in a scan.

* `SkipReason` — why a file is left out.
* `Failure` — the causes, and `Failure.message`, their wording.
* `Failure.isFatal` — the two causes that end a scan; everything else becomes a diagnostic.
-/

namespace LeakScan

inductive SkipReason where
  | oversized (size limit : Nat)
  | binary
  | notUtf8
  | unreadable
  deriving DecidableEq, Repr

def SkipReason.message : SkipReason → String
  | .oversized size limit => s!"file is {size} bytes, limit is {limit}"
  | .binary => "binary content"
  | .notUtf8 => "not valid UTF-8"
  | .unreadable => "unreadable"

inductive Failure where
  | toolUnavailable (tool reason : String)
  | toolTimeout (tool : String) (milliseconds : Nat)
  | toolFailed (tool reason : String)
  | malformedRule (ruleId reason : String)
  | skippedFile (path : String) (reason : SkipReason)
  | cancelled
  | fileAccess (reason : String)
  | badJson (reason : String)
  | badYaml (reason : String)
  | badGlob (reason : String)
  | invalidInput (reason : String)
  deriving DecidableEq, Repr

namespace Failure

def message : Failure → String
  | .toolUnavailable tool reason => s!"tool `{tool}` is not available: {reason}"
  | .toolTimeout tool milliseconds => s!"tool `{tool}` timed out after {milliseconds}ms"
  | .toolFailed tool reason => s!"tool `{tool}` failed: {reason}"
  | .malformedRule ruleId reason => s!"malformed rule `{ruleId}`: {reason}"
  | .skippedFile path reason => s!"skipped {path}: {reason.message}"
  | .cancelled => "scan cancelled"
  | .fileAccess reason => s!"I/O error: {reason}"
  | .badJson reason => s!"JSON error: {reason}"
  | .badYaml reason => s!"YAML error: {reason}"
  | .badGlob reason => s!"invalid glob pattern: {reason}"
  | .invalidInput reason => s!"invalid input: {reason}"

def isFatal : Failure → Bool
  | .invalidInput _ => true
  | .badGlob _ => true
  | _ => false

end Failure

/-- What the system says about a path that does not exist. -/
def noSuchFile : String := "No such file or directory (os error 2)"

end LeakScan
