import LeakScan.Failure
import LeakScan.Path
import LeakScan.Text.Utf8

/-!
# LeakScan.Tool

Programs that a scan may call.

* `Toolbox` — for each call how the program ends.
* `captureFrom` — the bytes of an output up to a limit, and whether any were lost.
* `capture` — what there is of an output when it is no longer waited for.
* `ToolCall.run` — the outcome of a call.
* `versionOf?` — what a program says about itself.
-/

namespace LeakScan

open Text

structure ToolCall where
  program : String
  arguments : List String := []
  /-- The directory to start in, if not the current one. -/
  directory : Option String := none
  deriving DecidableEq, Repr

/-- One attempt to read from an output. -/
inductive Read where
  | bytes (chunk : List UInt8)
  | interrupted
  | failed
  /-- Nothing comes before the deadline, and the output stays open: a program that is still running
  may hold it. -/
  | pending
  deriving DecidableEq, Repr

/-- What becomes of a call. -/
inductive ToolEnd where
  /-- There is no such program, or it may not be started. -/
  | missing (reason : String)
  /-- The program could not be started for another reason. -/
  | unstartable (reason : String)
  /-- The program does not end in time. -/
  | hangs
  /-- The program ends; one that a signal ends has no code. -/
  | exits (code : Option Nat) (stdout stderr : List Read)
  deriving Repr

abbrev Toolbox := ToolCall → ToolEnd

/-- No program can be found. -/
def Toolbox.empty : Toolbox := fun _ => .missing noSuchFile

/-! ## Output -/

structure Captured where
  bytes : List UInt8 := []
  truncated : Bool := false
  finished : Bool := false
  deriving DecidableEq, Repr

/-- Keeps what fits under the limit. -/
def Captured.add (limit : Nat) (c : Captured) (chunk : List UInt8) : Captured :=
  let keep := min chunk.length (limit - c.bytes.length)
  { c with
    bytes := c.bytes ++ chunk.take keep
    truncated := c.truncated || decide (keep < chunk.length) }

/-- Reads on to the end, also past the limit. An empty chunk and a failure end the output. -/
def captureFrom (limit : Nat) (c : Captured) : List Read → Captured
  | [] => { c with finished := true }
  | .bytes [] :: _ => { c with finished := true }
  | .bytes (b :: bs) :: rest => captureFrom limit (c.add limit (b :: bs)) rest
  | .interrupted :: rest => captureFrom limit c rest
  | .failed :: _ => { c with finished := true }
  | .pending :: _ => c

/-- What has been read by the deadline. An output that is still open then counts as cut off. -/
def capture (limit : Nat) (reads : List Read) : Captured :=
  let c := captureFrom limit {} reads
  { c with truncated := c.truncated || !c.finished }

/-- How many bytes of an output are kept. -/
def captureLimit : Nat := 32 * 1024 * 1024

structure ToolOutput where
  code : Option Nat
  stdout : List UInt8
  stderr : List UInt8
  truncated : Bool
  deriving Repr

namespace ToolOutput

def stdoutText (o : ToolOutput) : List Char := decodeLossy o.stdout

def stderrText (o : ToolOutput) : List Char := decodeLossy o.stderr

/-- The exit code as it is shown in messages. -/
def codeText (o : ToolOutput) : String :=
  match o.code with
  | some n => s!"Some({n})"
  | none => "None"

end ToolOutput

/-! ## Calls -/

namespace ToolCall

/-- The program as it is called in messages: the last part of its path. -/
def toolName (c : ToolCall) : String := (Path.fileName? c.program).getD c.program

def run (tools : Toolbox) (cancelled : Bool) (timeout : Nat) (c : ToolCall) :
    Except Failure ToolOutput :=
  if cancelled then .error .cancelled
  else
    match tools c with
    | .missing reason => .error (.toolUnavailable c.toolName reason)
    | .unstartable reason => .error (.toolFailed c.toolName s!"spawn: {reason}")
    | .hangs => .error (.toolTimeout c.toolName timeout)
    | .exits code stdout stderr =>
      let out := capture captureLimit stdout
      let err := capture captureLimit stderr
      .ok {
        code := code, stdout := out.bytes, stderr := err.bytes
        truncated := out.truncated || err.truncated }

end ToolCall

/-- How long a program may take to tell its version, in milliseconds. -/
def probeTimeout : Nat := 5000

/-- The version text of a program that runs: its output or, when that is blank, its messages. -/
def versionOf? (tools : Toolbox) (program : String) : Option String :=
  let call : ToolCall := { program, arguments := ["--version"] }
  match call.run tools false probeTimeout with
  | .error _ => none
  | .ok out =>
    if out.code != some 0 then none
    else
      let text := trim out.stdoutText
      some (String.ofList (if text.isEmpty then trim out.stderrText else text))

end LeakScan
