import LeakScan.Directory
import LeakScan.Glob
import LeakScan.Language

/-!
# LeakScan.Discovery

Finding the files to scan.

* `FileFilter` — path patterns to include and to exclude.
* `walk` — the files below a directory that no exclusion cuts off, by relative path.
* `discover` — the files below a root in a language that is scanned, in the order of their display
  paths.
-/

namespace LeakScan

open Text

structure DiscoveredFile where
  path : String
  /-- The path below the root, as findings show it. -/
  display : String
  language : Language
  deriving DecidableEq, Repr

/-- Which relative paths are wanted. -/
structure FileFilter where
  includes : String → Bool
  excludes : String → Bool

/-- Without any pattern to include everything is. -/
def FileFilter.ofPatterns (includes excludes : List String) : Except Failure FileFilter :=
  match Glob.parseAll includes with
  | .error e => .error (.badGlob e)
  | .ok wanted =>
    match Glob.parseAll excludes with
    | .error e => .error (.badGlob e)
    | .ok unwanted =>
      .ok {
        includes := fun p => wanted.isEmpty || Glob.anyMatch wanted p
        excludes := Glob.anyMatch unwanted }

/-- A path below a relative path. -/
def below (relative name : String) : String :=
  if relative == "" then name else relative ++ "/" ++ name

mutual

/-- The files at and below an entry, unless its path is excluded. -/
def walk (excludes : String → Bool) (relative : String) : Entry → List String
  | .file _ => if excludes relative then [] else [relative]
  | .directory children =>
    if excludes relative then [] else walkAll excludes relative children

def walkAll (excludes : String → Bool) (relative : String) : List (String × Entry) → List String
  | [] => []
  | (name, e) :: rest =>
    walk excludes (below relative name) e ++ walkAll excludes relative rest

end

/-- Backslashes of a path are shown as separators. -/
def displayOf (path : String) : String :=
  String.ofList (path.toList.map fun c => if c == '\\' then '/' else c)

def fileBelow? (root relative : String) : Option DiscoveredFile :=
  (Language.ofPath? relative).map fun language =>
    { path := Path.join root relative, display := displayOf relative, language := language }

def filesBelow (filter : FileFilter) (root : String) (children : List (String × Entry)) :
    List DiscoveredFile :=
  let files := ((walkAll filter.excludes "" children).filter filter.includes).filterMap
    (fileBelow? root)
  files.mergeSort fun a b => (compare a.display b.display).isLE

/-- The files to scan. A root that is a file stands for itself, whatever the patterns. -/
def discover (filter : FileFilter) (here : Entry) (root : String) :
    Except Failure (List DiscoveredFile) :=
  match here.find root with
  | .ok (.file _) =>
    .ok ((Language.ofPath? root).toList.map fun language =>
      { path := root, display := displayOf root, language := language })
  | .ok (.directory children) => .ok (filesBelow filter root children)
  | .error _ => .error (.invalidInput s!"input path does not exist: {root}")

end LeakScan
