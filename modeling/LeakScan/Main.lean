import LeakScan.Clock
import LeakScan.CommandLine
import Std.Time.DateTime

/-!
# LeakScan.Main

The program: it reads the current directory, runs the command line on it, and prints and writes what
comes out. No other program is called, so matching is textual and linters count as not installed.
-/

namespace LeakScan

/-- Adds everything at and below a path to a tree. A file that cannot be read counts as empty. -/
partial def readEntries (path : String) (tree : Entry) : IO Entry := do
  let here := System.mkFilePath [path]
  if ← here.isDir then
    let children ← here.readDir
    children.toList.foldlM (fun tree child => readEntries (path ++ "/" ++ child.fileName) tree)
      (tree.makeDirectory path)
  else
    try
      let bytes ← IO.FS.readBinFile here
      return tree.write path bytes.toList
    catch _ => return tree.write path []

end LeakScan

open LeakScan in
def main (args : List String) : IO UInt32 := do
  let start ← IO.monoMsNow
  let now ← Std.Time.Timestamp.now
  let nanoseconds := now.toNanosecondsSinceUnixEpoch.val.toNat
  let files ← readEntries "." .empty
  let startedAt := timestamp (nanoseconds / 1000000000) (nanoseconds % 1000000000)
  let elapsed := (← IO.monoMsNow) - start
  let colored := (← (← IO.getStdout).isTty) && (← IO.getEnv "NO_COLOR").isNone
  let outcome := CommandLine.run { files := files, colored := colored } args startedAt elapsed
  for (path, text) in outcome.written do
    IO.FS.writeFile (System.mkFilePath [path]) text
  IO.print outcome.stdout
  IO.eprint outcome.stderr
  return outcome.exit.toUInt32
