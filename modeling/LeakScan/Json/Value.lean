import LeakScan.Json.Number
import LeakScan.Text.Quoted

/-!
# LeakScan.Json.Value

JSON values. The fields of an object stay in the order of the text, repetitions included.

* `Json` — the values.
* `Json.canonical` — fields sorted by name, the last of a repeated name kept.
* `Json.kind` — how a value is named in a message about its shape.
-/

namespace LeakScan

inductive Json where
  | null
  | bool (b : Bool)
  | num (n : Json.Number)
  | str (s : String)
  | arr (items : List Json)
  | obj (fields : List (String × Json))
  deriving Repr, Inhabited

namespace Json

def nat (n : Nat) : Json := .num (.natural n)

/-- Puts a field in its place by name; an equal name is replaced. -/
def insertField (name : String) (value : α) : List (String × α) → List (String × α)
  | [] => [(name, value)]
  | (n, v) :: rest =>
    if name < n then (name, value) :: (n, v) :: rest
    else if name == n then (name, value) :: rest
    else (n, v) :: insertField name value rest

/-- The fields in order of their names, the last value of each. -/
def sortFields (fields : List (String × α)) : List (String × α) :=
  fields.foldl (fun acc (n, v) => insertField n v acc) []

mutual

def canonical : Json → Json
  | .arr items => .arr (canonicalItems items)
  | .obj fields => .obj (sortFields (canonicalFields fields))
  | v => v

def canonicalItems : List Json → List Json
  | [] => []
  | v :: rest => canonical v :: canonicalItems rest

def canonicalFields : List (String × Json) → List (String × Json)
  | [] => []
  | (n, v) :: rest => (n, canonical v) :: canonicalFields rest

end

/-- How a value is named in a message about its shape. -/
def kind : Json → String
  | .null => "null"
  | .bool b => s!"boolean `{b}`"
  | .num (.natural n) => s!"integer `{n}`"
  | .num (.negative n) => s!"integer `-{n}`"
  | .num (.decimal d) => s!"floating point `{d.text}`"
  | .str s => "string " ++ Text.quoted s
  | .arr _ => "sequence"
  | .obj _ => "map"

def get? (name : String) : Json → Option Json
  | .obj fields => fields.lookup name
  | _ => none

end Json

end LeakScan
