import LeakScan.Diagnostic
import LeakScan.Finding
import LeakScan.Text.Digits
import LeakScan.Text.Split
import LeakScan.Tool
import LeakScan.Totals

/-!
# LeakScan.Linter

Other checkers, run beside a scan. They print one issue a line, as `file:line:column: message`.

* `Linter` — a checker and how to call it.
* `readIssue?` — the issue on a line.
* `LintFinding`, `readIssues` — the issues of an output, counted, with the first ones as samples.
* `runLinters` — all checkers in turn.
-/

namespace LeakScan

open Text

structure Linter where
  name : String
  command : List String
  timeout : Option Nat := none
  deriving DecidableEq, Repr

structure LintFinding where
  linter : String
  count : Nat
  samples : List Location
  deriving DecidableEq, Repr

/-! ## Output -/

/-- Digits up to a colon, and what follows it. -/
def digitsBeforeColon? (cs : List Char) : Option (List Char × List Char) :=
  match cs.takeWhile isDecimal, cs.dropWhile isDecimal with
  | d :: ds, ':' :: rest => some (d :: ds, rest)
  | _, _ => none

/-- The file name before the first colon; it is not empty and does not start with a blank. -/
def fileBeforeColon? (cs : List Char) : Option (List Char × List Char) :=
  match splitFirst? ':' cs with
  | some (c :: file, rest) => if isBlank c then none else some (c :: file, rest)
  | _ => none

/-- The issue on a line. A column is optional, and one that is too large counts as none. -/
def readIssue? (line : List Char) : Option Location :=
  match fileBeforeColon? (trimEnd line) with
  | none => none
  | some (file, rest) =>
    match digitsBeforeColon? rest with
    | none => none
    | some (digits, rest) =>
      match readNumber? digits with
      | none => none
      | some number =>
        let (column, message) :=
          match digitsBeforeColon? rest with
          | some (ds, after) => ((readNumber? ds).getD 0, after)
          | none => (0, rest)
        some {
          file := String.ofList file, line := number, column := column
          snippet := some (String.ofList (trim message)) }

def readIssues (name : String) (output : List Char) (limit : Nat) : LintFinding :=
  let issues := (textLines output).filterMap readIssue?
  { linter := name, count := issues.length, samples := smallest limit issues [] }

/-! ## Running -/

/-- Why a checker failed: the first line of its messages. -/
def failureReason (o : ToolOutput) : String :=
  match (textLines o.stderrText).head? with
  | some line => String.ofList line
  | none => "no output"

def runLinter (tools : Toolbox) (directory : String) (timeout limit : Nat) (cancelled : Bool)
    (l : Linter) : Except Failure LintFinding :=
  match l.command with
  | [] => .error (.invalidInput s!"linter `{l.name}` has an empty command")
  | program :: arguments =>
    let call : ToolCall := { program, arguments, directory := some directory }
    match call.run tools cancelled (l.timeout.getD timeout) with
    | .error e => .error e
    | .ok output =>
      let finding := readIssues l.name output.stdoutText limit
      if finding.count == 0 && output.code != some 0 then
        .error (.toolFailed l.name s!"exited with {output.codeText}: {failureReason output}")
      else .ok finding

/-- The findings of the checkers that ran, and a diagnostic for each that did not. -/
def runLinters (tools : Toolbox) (directory : String) (timeout limit : Nat) (cancelled : Bool)
    (linters : List Linter) : List LintFinding × List Diagnostic :=
  let results := linters.map fun l => (l, runLinter tools directory timeout limit cancelled l)
  (results.filterMap fun (_, r) => r.toOption,
    results.filterMap fun (l, r) =>
      match r with
      | .ok _ => none
      | .error e => some ((Diagnostic.ofFailure e).withRule l.name))

end LeakScan
