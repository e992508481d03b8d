import LeakScan.Directory
import LeakScan.Tool

/-!
# LeakScan.Workspace

What a scan can see: the files below the current directory, the programs that can be called, and
whether its output is shown in colours.

* `Workspace.tools` — the programs, which start only in a directory that is there.
* `Workspace.text` — the text of a file, or the reason why it cannot be read.
-/

namespace LeakScan

structure Workspace where
  files : Entry := .empty
  programs : Toolbox := Toolbox.empty
  colored : Bool := false

namespace Workspace

def tools (w : Workspace) : Toolbox := fun call =>
  match call.directory with
  | none => w.programs call
  | some directory =>
    match w.files.find directory with
    | .ok (.directory _) => w.programs call
    | .ok (.file _) => .unstartable AccessError.notDirectory.message
    | .error .noSuchFile => .missing noSuchFile
    | .error e => .unstartable e.message

def text (w : Workspace) (path : String) : Except String String :=
  match w.files.readText path with
  | .ok s => .ok s
  | .error e => .error e.message

end Workspace

end LeakScan
