import LeakScan.Diagnostic
import LeakScan.Match.Textual

/-!
# LeakScan.Match.Chain

Matching all rules against one file.

* `StructuralMatcher` — a matcher that may fail for a rule.
* `contribution` — what one rule finds. A rule that its structural matcher fails for is matched as
  text instead.
* `matchFile` — the contributions of all anchored rules, in order.
-/

namespace LeakScan

abbrev StructuralMatcher := Source → Rule → Except Failure (List RawMatch)

/-- What one rule finds in a file, and why it was degraded to text, if it was. -/
structure Contribution where
  found : List RawMatch := []
  degraded : Option Failure := none

/-- The structural matcher serves a rule that has structural forms and whose calls keep their
names in this file. -/
def structuralFor (structural : Option StructuralMatcher) (source : Source) (rule : Rule) :
    Option StructuralMatcher :=
  if rule.hasStructural && !source.imports.affects rule.textualCalls then structural else none

def asText (source : Source) (cancelled : Bool) (rule : Rule) (degraded : Option Failure) :
    Except Failure Contribution :=
  match textualMatches .everything source cancelled rule with
  | .ok found => .ok { found := found, degraded := degraded }
  | .error e => .error e

def contribution (structural : Option StructuralMatcher) (source : Source) (cancelled : Bool)
    (rule : Rule) : Except Failure Contribution :=
  match structuralFor structural source rule with
  | none => asText source cancelled rule none
  | some matcher =>
    match matcher source rule with
    | .ok found =>
      match textualMatches .gaps source cancelled rule with
      | .ok more => .ok { found := found ++ more }
      | .error e => .error e
    | .error .cancelled => .error .cancelled
    | .error e => asText source cancelled rule (some e)

structure FileMatches where
  found : List RawMatch := []
  rulesRun : Nat := 0
  degradedRules : Nat := 0
  diagnostics : List Diagnostic := []

namespace FileMatches

def ofContribution (source : Source) (rule : Rule) (c : Contribution) : FileMatches where
  found := c.found
  rulesRun := 1
  degradedRules := if c.degraded.isSome then 1 else 0
  diagnostics := c.degraded.toList.map fun e =>
    ((Diagnostic.ofFailure e).withPath source.display).withRule rule.id

def append (a b : FileMatches) : FileMatches where
  found := a.found ++ b.found
  rulesRun := a.rulesRun + b.rulesRun
  degradedRules := a.degradedRules + b.degradedRules
  diagnostics := a.diagnostics ++ b.diagnostics

instance : Append FileMatches := ⟨append⟩

end FileMatches

/-- Only cancellation and an expression that import aliases break are failures. -/
def matchFile (structural : Option StructuralMatcher) (source : Source) (cancelled : Bool) :
    List Rule → Except Failure FileMatches
  | [] => .ok {}
  | rule :: rest =>
    if cancelled then .error .cancelled
    else if !rule.anchorsPresent source.text then matchFile structural source cancelled rest
    else
      match contribution structural source cancelled rule with
      | .error e => .error e
      | .ok c =>
        match matchFile structural source cancelled rest with
        | .error e => .error e
        | .ok more => .ok (.ofContribution source rule c ++ more)

end LeakScan
