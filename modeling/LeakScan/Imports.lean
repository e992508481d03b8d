import LeakScan.Regex.Pattern
import LeakScan.SortedMap
import LeakScan.Text.Split

/-!
# LeakScan.Imports

Local names that a Python file gives to what it imports, and the call placeholders that depend on
them. A textual pattern names a call by its qualified path, `@{module.name}`; a star,
`@{*.name}`, stands for any dotted path before the name.

* `ImportAliases` — local name to qualified path, read by `ImportAliases.ofPython`.
* `ImportAliases.spellings` — the local ways to write a call, its own path apart.
* `pieces`, `placeholderCalls` — the placeholders of a pattern.
* `ImportAliases.expand` — the pattern with every placeholder spelled out.
-/

namespace LeakScan

open Text

structure ImportAliases where
  bindings : SortedMap String String := .empty

namespace ImportAliases

def isLineBlank (c : Char) : Bool := c == ' ' || c == '\t'

def isDotted (c : Char) : Bool := isWordChar c || c == '.'

/-- `NAME` or `NAME as LOCAL`, where the name is dotted or a star. -/
def binding? (item : List Char) : Option (String × Option String) :=
  let isName := fun (n : List Char) => n == ['*'] || n.all isDotted
  match words item with
  | [n] => if isName n then some (String.ofList n, none) else none
  | [n, as, l] =>
    if isName n && as == ['a', 's'] && l.all isWordChar then
      some (String.ofList n, some (String.ofList l))
    else none
  | _ => none

/-- The text between a pair of parentheses that encloses it, or the text itself. -/
def unwrapList (list : List Char) : List Char :=
  match stripPrefix? ['('] list with
  | none => list
  | some inner => (stripSuffix? [')'] inner).getD list

/-- The names of an import list, divided by commas. -/
def splitNames (list : List Char) : List (String × Option String) :=
  (splitOn ',' (unwrapList (trim list))).filterMap binding?

/-- After a keyword at least one blank has to follow; this is the text behind the blanks. -/
def keyword? (word : String) (cs : List Char) : Option (List Char) :=
  match stripPrefix? word.toList cs with
  | some (c :: rest) => if isLineBlank c then some (rest.dropWhile isLineBlank) else none
  | _ => none

/-- The part of a line that belongs to a statement: up to a comment or semicolon. -/
def statementPart (cs : List Char) : List Char :=
  cs.takeWhile fun c => c != '#' && c != '\n' && c != ';'

/-- The list of an `import` statement that starts the line. -/
def importList? (line : List Char) : Option (List Char) :=
  (keyword? "import" (line.dropWhile isLineBlank)).map statementPart

/-- Module, list and remaining text of a `from … import` statement that starts here. A list in
parentheses runs to the first closing one, over as many lines as that takes. -/
def fromImport? (cs : List Char) : Option (List Char × List Char × List Char) :=
  match keyword? "from" (cs.dropWhile isLineBlank) with
  | none => none
  | some rest =>
    let module := rest.takeWhile isDotted
    match rest.dropWhile isDotted with
    | c :: rest' =>
      if module.isEmpty || !isLineBlank c then none
      else
        match keyword? "import" (rest'.dropWhile isLineBlank) with
        | none => none
        | some body =>
          match body.dropWhile (· != ')') with
          | _ :: after =>
            if body.head? == some '(' then
              some (module, body.takeWhile (· != ')') ++ [')'], after)
            else some (module, statementPart body, body)
          | [] => some (module, statementPart body, body)
    | [] => none

/-- The text after the next line feed. -/
def nextLine (cs : List Char) : List Char := (cs.dropWhile (· != '\n')).drop 1

/-- All `from … import` statements; the length of the text bounds their number. -/
def fromImports : Nat → List Char → List (List Char × List Char)
  | 0, _ => []
  | _ + 1, [] => []
  | fuel + 1, cs =>
    match fromImport? cs with
    | some (module, list, rest) => (module, list) :: fromImports fuel (nextLine rest)
    | none => fromImports fuel (nextLine cs)

/-- The bindings of one `import` list; a name without a local one spells itself. -/
def importBindings (list : List Char) : List (String × String) :=
  (splitNames list).filterMap fun (path, localName) => localName.map (·, path)

def fromBindings (module list : List Char) : List (String × String) :=
  (splitNames list).filterMap fun (name, localName) =>
    if name == "*" then none
    else some (localName.getD name, String.ofList module ++ "." ++ name)

/-- Bindings of all `import` statements, then of all `from` statements; the last one of a local
name holds. -/
def ofPython (cs : List Char) : ImportAliases :=
  let plain := ((splitOn '\n' cs).filterMap importList?).flatMap importBindings
  let qualified := (fromImports (cs.length + 1) cs).flatMap fun (m, l) => fromBindings m l
  ⟨SortedMap.ofList (plain ++ qualified)⟩

def isEmpty (a : ImportAliases) : Bool := a.bindings.isEmpty

def get? (a : ImportAliases) (localName : String) : Option String := a.bindings.get? localName

/-- The last part of a dotted path. -/
def lastPart (path : List Char) : List Char :=
  match splitLast? '.' path with
  | some (_, name) => name
  | none => path

/-- How one binding lets a file write the call of `target`, if it does. -/
def spelling? (target : List Char) (localName path : String) : Option String :=
  match stripPrefix? ['*', '.'] target with
  | some name =>
    if lastPart path.toList == name && localName.toList != name then some localName else none
  | none =>
    if path.toList == target && localName.toList != target then some localName
    else
      match stripPrefix? (path.toList ++ ['.']) target with
      | some rest => some (localName ++ "." ++ String.ofList rest)
      | none => none

/-- Local spellings of a call in the order of the local names. -/
def spellings (a : ImportAliases) (target : String) : List String :=
  a.bindings.entries.filterMap fun (l, p) => spelling? target.toList l p

def affects (a : ImportAliases) (calls : List String) : Bool :=
  calls.any fun c => !(a.spellings c).isEmpty

end ImportAliases

/-! ## Call placeholders -/

/-- A pattern is made of plain characters and call placeholders. -/
inductive PatternPiece where
  | plain (c : Char)
  | call (target : String)
  deriving DecidableEq, Repr

def isCallChar (c : Char) : Bool := isWordChar c || c == '.' || c == '*'

/-- The target and the remaining text, when a placeholder starts here. -/
def placeholder? (cs : List Char) : Option (List Char × List Char) :=
  match stripPrefix? ['@', '\x7b'] cs with
  | none => none
  | some rest =>
    let target := rest.takeWhile isCallChar
    match target, rest.dropWhile isCallChar with
    | _ :: _, '\x7d' :: after => some (target, after)
    | _, _ => none

/-- The pieces of a pattern. Each takes at least one character, so `fuel` suffices when it starts
at the length of the text. -/
def pieces : Nat → List Char → List PatternPiece
  | 0, _ => []
  | _ + 1, [] => []
  | fuel + 1, c :: cs =>
    match placeholder? (c :: cs) with
    | some (target, after) => .call (String.ofList target) :: pieces fuel after
    | none => .plain c :: pieces fuel cs

def patternPieces (source : String) : List PatternPiece :=
  pieces source.toList.length source.toList

/-- Qualified paths of the calls that a pattern names. -/
def placeholderCalls (source : String) : List String :=
  (patternPieces source).filterMap fun
    | .call target => some target
    | .plain _ => none

/-- The pattern of a call where nothing is aliased. -/
def defaultSpelling (target : List Char) : List Char :=
  match stripPrefix? ['*', '.'] target with
  | some name => "(?:[\\w.]+\\.)?".toList ++ Regex.escape name
  | none => Regex.escape target

/-- The alternatives that a placeholder stands for: its default spelling, then the local ones. -/
def ImportAliases.alternatives (a : ImportAliases) (target : String) : List (List Char) :=
  defaultSpelling target.toList :: (a.spellings target).map fun s => Regex.escape s.toList

/-- Replaces every placeholder by the alternation of its spellings. -/
def ImportAliases.expand (a : ImportAliases) (source : String) : String :=
  String.ofList <| (patternPieces source).flatMap fun
    | .plain c => [c]
    | .call target => "(?:".toList ++ joinWith ['|'] (a.alternatives target) ++ [')']

end LeakScan
