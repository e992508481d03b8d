import LeakScan.Diagnostic
import LeakScan.Text.Split
import LeakScan.Tool

/-!
# LeakScan.Prefilter

Leaving out files in which no rule can match, with the help of a search program.

* `detectSearch` — whether the program is there.
* `Prefiltered`, `prefilter` — the files that hold an anchor. Without the program, without anchors
  and when the program fails, all files stay.
-/

namespace LeakScan

open Text

def searchProgram : String := "rg"

def detectSearch (tools : Toolbox) (enabled : Bool) : Bool :=
  enabled && (versionOf? tools searchProgram).isSome

structure Prefiltered where
  files : List String
  diagnostic : Option Diagnostic := none
  deriving Repr

/-- The path below the root, by which files and hits are compared. -/
def relativeKey (root path : String) : Bool × List String :=
  match Path.stripPrefix? root path with
  | some rest => (Path.isAbsolute rest, Path.parts rest)
  | none => (Path.isAbsolute path, Path.parts path)

def searchCall (root : String) (anchors : List String) : ToolCall where
  program := searchProgram
  arguments :=
    ["--files-with-matches", "--fixed-strings", "--no-ignore", "--hidden", "--no-messages"] ++
      anchors.flatMap (["-e", ·]) ++ ["--", root]

/-- The paths that the search printed, one a line. -/
def hitsOf (root : String) (output : ToolOutput) : List (Bool × List String) :=
  ((textLines output.stdoutText).filter (!·.isEmpty)).map fun line =>
    relativeKey root (String.ofList line)

def skipped (files : List String) (reason : String) : Prefiltered where
  files := files
  diagnostic := some (.info .toolFailed s!"ripgrep prefilter skipped: {reason}")

def prefilter (tools : Toolbox) (available : Bool) (timeout : Nat) (cancelled : Bool)
    (root : String) (files : List String) (anchors : List String) : Prefiltered :=
  if !available || anchors.isEmpty || files.isEmpty then { files := files }
  else
    match (searchCall root anchors).run tools cancelled timeout with
    | .error e => skipped files e.message
    | .ok output =>
      if (output.code == some 0 || output.code == some 1) && !output.truncated then
        let hits := hitsOf root output
        { files := files.filter fun f => hits.contains (relativeKey root f) }
      else skipped files s!"rg exited with {output.codeText}"

end LeakScan
