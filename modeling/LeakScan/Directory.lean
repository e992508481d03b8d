import LeakScan.Failure
import LeakScan.Path
import LeakScan.Text.Utf8

/-!
# LeakScan.Directory

Files and directories as a tree.

* `Entry` — a file with its bytes, or a directory with named entries.
* `Entry.find` — the entry at a path, or why there is none.
* `Entry.readText` — the text of a file.
* `Entry.write`, `Entry.remove` — changing a tree.
-/

namespace LeakScan

open Text

inductive Entry where
  | file (content : List UInt8)
  | directory (children : List (String × Entry))
  deriving Repr, Inhabited

/-- Why an entry cannot be read. -/
inductive AccessError where
  | noSuchFile
  | notDirectory
  | isDirectory
  | notUtf8
  deriving DecidableEq, Repr

def AccessError.message : AccessError → String
  | .noSuchFile => LeakScan.noSuchFile
  | .notDirectory => "Not a directory (os error 20)"
  | .isDirectory => "Is a directory (os error 21)"
  | .notUtf8 => "stream did not contain valid UTF-8"

namespace Entry

def empty : Entry := .directory []

/-- The size of an entry in bytes; a directory takes up a block of its own. -/
def size : Entry → Nat
  | .file content => content.length
  | .directory _ => 4096

/-- Follows the parts of a path. `above` holds the directories passed, the nearest first. -/
def follow (above : List Entry) (here : Entry) : List String → Except AccessError Entry
  | [] => .ok here
  | part :: rest =>
    match here with
    | .file _ => .error .notDirectory
    | .directory children =>
      if part == "" || part == "." then follow above here rest
      else if part == ".." then
        match above with
        | [] => .error .noSuchFile
        | up :: higher => follow higher up rest
      else
        match children.lookup part with
        | none => .error .noSuchFile
        | some e => follow (here :: above) e rest

def pathParts (path : String) : List String := (splitOn '/' path.toList).map String.ofList

/-- The entry at a path below a directory. -/
def find (here : Entry) (path : String) : Except AccessError Entry :=
  if path == "" || Path.isAbsolute path then .error .noSuchFile
  else follow [] here (pathParts path)

def exists? (here : Entry) (path : String) : Bool := (here.find path).isOk

def isDirectoryAt (here : Entry) (path : String) : Bool :=
  match here.find path with
  | .ok (.directory _) => true
  | _ => false

def read (here : Entry) (path : String) : Except AccessError (List UInt8) :=
  match here.find path with
  | .ok (.file content) => .ok content
  | .ok (.directory _) => .error .isDirectory
  | .error e => .error e

def readText (here : Entry) (path : String) : Except AccessError String :=
  match here.read path with
  | .error e => .error e
  | .ok bytes =>
    match decode? bytes with
    | some cs => .ok (String.ofList cs)
    | none => .error .notUtf8

/-! ## Changes -/

/-- Why a file cannot be written at a path: something else is there, or no directory for it. -/
def writeError? (here : Entry) (path : String) : Option AccessError :=
  match here.find path with
  | .ok (.directory _) => some .isDirectory
  | .ok (.file _) => none
  | .error .notDirectory => some .notDirectory
  | .error e =>
    if path == "" || Path.isAbsolute path then some e
    else
      let parts := pathParts path
      match follow [] here parts.dropLast with
      | .error e => some e
      | .ok (.file _) => some .notDirectory
      | .ok (.directory _) => if parts.getLast? == some "" then some .isDirectory else none

/-- Puts an entry in its place by name; one of the same name is replaced. -/
def insertChild (name : String) (e : Entry) : List (String × Entry) → List (String × Entry)
  | [] => [(name, e)]
  | (n, old) :: rest =>
    if name < n then (name, e) :: (n, old) :: rest
    else if name == n then (name, e) :: rest
    else (n, old) :: insertChild name e rest

/-- The parts of a path that name something. -/
def namedParts (path : String) : List String :=
  (pathParts path).filter fun p => p != "" && p != "."

/-- Changes the entry at the end of a path; directories on the way are made. -/
def alterAt (f : Option Entry → Option Entry) (here : Option Entry) : List String → Option Entry
  | [] => f here
  | part :: rest =>
    let children :=
      match here with
      | some (.directory children) => children
      | _ => []
    match alterAt f (children.lookup part) rest with
    | some e => some (.directory (insertChild part e children))
    | none => some (.directory (children.filter fun c => c.1 != part))

def write (here : Entry) (path : String) (content : List UInt8) : Entry :=
  (alterAt (fun _ => some (.file content)) (some here) (namedParts path)).getD here

/-- Makes a directory, unless there is one. -/
def makeDirectory (here : Entry) (path : String) : Entry :=
  (alterAt (fun e => some (e.getD empty)) (some here) (namedParts path)).getD here

def remove (here : Entry) (path : String) : Entry :=
  match (namedParts path) with
  | [] => here
  | parts =>
    if here.exists? path then (alterAt (fun _ => none) (some here) parts).getD here else here

end Entry

end LeakScan
