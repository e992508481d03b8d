import LeakScan.Text.Split

/-!
# LeakScan.Path

Paths as strings whose parts are divided by `/`.

* `Path.parts` — the parts that name something, with empty parts and inner `.` left out.
* `fileName?`, `extension?`, `parent?` — the last part and what stands before it.
* `join`, `stripPrefix?` — a path below another, and back.
-/

namespace LeakScan.Path

open Text

def isAbsolute (path : String) : Bool := path.toList.head? == some '/'

/-- The parts of a path. A `.` counts only at the start of a relative path. -/
def parts (path : String) : List String :=
  let pieces := (splitOn '/' path.toList).map String.ofList
  let inner := fun (ps : List String) => ps.filter fun p => p != "" && p != "."
  match pieces with
  | "." :: rest => "." :: inner rest
  | _ => inner pieces

def ofParts (absolute : Bool) (ps : List String) : String :=
  (if absolute then "/" else "") ++ String.intercalate "/" ps

/-- The last part, when it names an entry. -/
def fileName? (path : String) : Option String :=
  match (parts path).getLast? with
  | some "." => none
  | some ".." => none
  | other => other

/-- What follows the last `.` of the file name, unless the name starts with it. -/
def extension? (path : String) : Option String :=
  match fileName? path with
  | none => none
  | some name =>
    match splitLast? '.' name.toList with
    | some ([], _) => none
    | some (_, ext) => some (String.ofList ext)
    | none => none

/-- The path without its last part; the root and the empty path have none. -/
def parent? (path : String) : Option String :=
  match parts path with
  | [] => none
  | ps => some (ofParts (isAbsolute path) ps.dropLast)

def join (base path : String) : String :=
  if isAbsolute path || base == "" then path
  else if base.toList.getLast? == some '/' then base ++ path
  else base ++ "/" ++ path

def stripParts? : List String → List String → Option (List String)
  | [], ps => some ps
  | _ :: _, [] => none
  | b :: bs, p :: ps => if b == p then stripParts? bs ps else none

/-- The rest of `path` below `base`, part by part. -/
def stripPrefix? (base path : String) : Option String :=
  if isAbsolute base != isAbsolute path then none
  else (stripParts? (parts base) (parts path)).map (ofParts false)

end LeakScan.Path
