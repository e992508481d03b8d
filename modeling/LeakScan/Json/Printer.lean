import LeakScan.Json.Value

/-!
# LeakScan.Json.Printer

Writing JSON values.

* `quoted` — a string in quotes: the two quoting characters and control characters escaped,
  everything else as it is.
* `Json.pretty` — one item or field a line, each level indented by two blanks.
* `Json.compact` — everything on one line without blanks.
-/

namespace LeakScan.Json

def escapeChar (c : Char) : String :=
  if c == '"' then "\\\""
  else if c == '\\' then "\\\\"
  else if c == '\n' then "\\n"
  else if c == '\r' then "\\r"
  else if c == '\t' then "\\t"
  else if c == '\x08' then "\\b"
  else if c == '\x0c' then "\\f"
  else if c.toNat < 0x20 then
    let digits := Nat.toDigits 16 c.toNat
    "\\u" ++ String.ofList (List.replicate (4 - digits.length) '0' ++ digits)
  else String.singleton c

def quoted (s : String) : String :=
  "\"" ++ String.join (s.toList.map escapeChar) ++ "\""

def Number.text : Number → String
  | .natural n => toString n
  | .negative n => "-" ++ toString n
  | .decimal d => d.text

def indentation (level : Nat) : String :=
  "\n" ++ String.ofList (List.replicate (2 * level) ' ')

mutual

def prettyAt (level : Nat) : Json → String
  | .null => "null"
  | .bool b => if b then "true" else "false"
  | .num n => n.text
  | .str s => quoted s
  | .arr [] => "[]"
  | .arr (v :: vs) =>
    "[" ++ indentation (level + 1) ++ prettyAt (level + 1) v ++ prettyItems (level + 1) vs ++
      indentation level ++ "]"
  | .obj [] => "\x7b\x7d"
  | .obj ((n, v) :: fields) =>
    "\x7b" ++ indentation (level + 1) ++ quoted n ++ ": " ++ prettyAt (level + 1) v ++
      prettyFields (level + 1) fields ++ indentation level ++ "\x7d"

def prettyItems (level : Nat) : List Json → String
  | [] => ""
  | v :: vs => "," ++ indentation level ++ prettyAt level v ++ prettyItems level vs

def prettyFields (level : Nat) : List (String × Json) → String
  | [] => ""
  | (n, v) :: fields =>
    "," ++ indentation level ++ quoted n ++ ": " ++ prettyAt level v ++ prettyFields level fields

end

def pretty (v : Json) : String := prettyAt 0 v

mutual

def compact : Json → String
  | .null => "null"
  | .bool b => if b then "true" else "false"
  | .num n => n.text
  | .str s => quoted s
  | .arr [] => "[]"
  | .arr (v :: vs) => "[" ++ compact v ++ compactItems vs ++ "]"
  | .obj [] => "\x7b\x7d"
  | .obj ((n, v) :: fields) =>
    "\x7b" ++ quoted n ++ ":" ++ compact v ++ compactFields fields ++ "\x7d"

def compactItems : List Json → String
  | [] => ""
  | v :: vs => "," ++ compact v ++ compactItems vs

def compactFields : List (String × Json) → String
  | [] => ""
  | (n, v) :: fields => "," ++ quoted n ++ ":" ++ compact v ++ compactFields fields

end

end LeakScan.Json
