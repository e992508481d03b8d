import LeakScan.Json.Value
import LeakScan.Text.Digits

/-!
# LeakScan.Json.Reader

Reading JSON texts.

* `ReadError` — why a text is not JSON.
* `Json.parse` — the value of a whole text. Values nest at most 127 deep. Every call consumes a
  character or works on a smaller fuel, which starts above the length of the text.
-/

namespace LeakScan.Json

open Text

inductive ReadError where
  | unexpectedEnd
  | expectedValue
  | expectedColon
  | expectedKey
  | expectedSeparator
  | trailingComma
  | trailingText
  | badNumber
  | numberOutOfRange
  | badEscape
  | loneSurrogate
  | controlCharacter
  | tooDeep
  /-- The text is JSON but does not have the shape that is read from it. -/
  | shape (reason : String)
  deriving Repr, DecidableEq

def ReadError.message : ReadError → String
  | .unexpectedEnd => "EOF while parsing a value"
  | .expectedValue => "expected value"
  | .expectedColon => "expected `:`"
  | .expectedKey => "key must be a string"
  | .expectedSeparator => "expected `,`"
  | .trailingComma => "trailing comma"
  | .trailingText => "trailing characters"
  | .badNumber => "invalid number"
  | .numberOutOfRange => "number out of range"
  | .badEscape => "invalid escape"
  | .loneSurrogate => "lone leading surrogate in hex escape"
  | .controlCharacter => "control character (\\u0000-\\u001F) found while parsing a string"
  | .tooDeep => "recursion limit exceeded"
  | .shape reason => reason

def isLayout (c : Char) : Bool := c == ' ' || c == '\n' || c == '\t' || c == '\r'

def skipLayout (cs : List Char) : List Char := cs.dropWhile isLayout

/-! ## Strings -/

def hexDigit? (c : Char) : Option Nat :=
  if '0' ≤ c ∧ c ≤ '9' then some (c.toNat - '0'.toNat)
  else if 'a' ≤ c ∧ c ≤ 'f' then some (c.toNat - 'a'.toNat + 10)
  else if 'A' ≤ c ∧ c ≤ 'F' then some (c.toNat - 'A'.toNat + 10)
  else none

/-- Four hexadecimal digits. -/
def readUnit : List Char → Except ReadError (Nat × List Char)
  | a :: b :: c :: d :: rest =>
    match hexDigit? a, hexDigit? b, hexDigit? c, hexDigit? d with
    | some a, some b, some c, some d => .ok (((a * 16 + b) * 16 + c) * 16 + d, rest)
    | _, _, _, _ => .error .badEscape
  | _ => .error .unexpectedEnd

/-- The character of a `\u` escape; a leading surrogate needs a trailing one after it. -/
def readUnicodeEscape (cs : List Char) : Except ReadError (Char × List Char) :=
  match readUnit cs with
  | .error e => .error e
  | .ok (n, rest) =>
    if n < 0xD800 || 0xDFFF < n then .ok (Char.ofNat n, rest)
    else if 0xDC00 ≤ n then .error .loneSurrogate
    else
      match rest with
      | '\\' :: 'u' :: rest' =>
        match readUnit rest' with
        | .error e => .error e
        | .ok (m, after) =>
          if 0xDC00 ≤ m && m ≤ 0xDFFF then
            .ok (Char.ofNat (0x10000 + (n - 0xD800) * 0x400 + (m - 0xDC00)), after)
          else .error .loneSurrogate
      | _ => .error .loneSurrogate

/-- The rest of a string after its opening quote, characters collected in reverse. -/
def readString : Nat → List Char → List Char → Except ReadError (String × List Char)
  | 0, _, _ => .error .unexpectedEnd
  | fuel + 1, acc, cs =>
    match cs with
    | [] => .error .unexpectedEnd
    | '"' :: rest => .ok (String.ofList acc.reverse, rest)
    | '\\' :: rest =>
      match rest with
      | [] => .error .unexpectedEnd
      | '"' :: rest => readString fuel ('"' :: acc) rest
      | '\\' :: rest => readString fuel ('\\' :: acc) rest
      | '/' :: rest => readString fuel ('/' :: acc) rest
      | 'b' :: rest => readString fuel ('\x08' :: acc) rest
      | 'f' :: rest => readString fuel ('\x0c' :: acc) rest
      | 'n' :: rest => readString fuel ('\n' :: acc) rest
      | 'r' :: rest => readString fuel ('\r' :: acc) rest
      | 't' :: rest => readString fuel ('\t' :: acc) rest
      | 'u' :: rest =>
        match readUnicodeEscape rest with
        | .ok (c, after) => readString fuel (c :: acc) after
        | .error e => .error e
      | _ => .error .badEscape
    | c :: rest =>
      if c.toNat < 0x20 then .error .controlCharacter else readString fuel (c :: acc) rest

/-! ## Numbers -/

def takeDigits (cs : List Char) : List Char × List Char :=
  (cs.takeWhile Char.isDigit, cs.dropWhile Char.isDigit)

/-- The exponent after `e` or `E`. -/
def readExponent (cs : List Char) : Except ReadError (Int × List Char) :=
  let (sign, cs) := match cs with
    | '+' :: rest => ((1 : Int), rest)
    | '-' :: rest => (-1, rest)
    | _ => (1, cs)
  let (ds, rest) := takeDigits cs
  if ds.isEmpty then .error .badNumber else .ok (sign * Int.ofNat (digitsValue ds), rest)

def finishDecimal (d : Decimal) (rest : List Char) : Except ReadError (Json × List Char) :=
  match d.toBinary? with
  | some _ => .ok (.num (.decimal d), rest)
  | none => .error .numberOutOfRange

/-- The largest integers that are kept exactly. -/
def maxNatural : Nat := 18446744073709551615

def integer (negative : Bool) (n : Nat) (rest : List Char) :
    Except ReadError (Json × List Char) :=
  if !negative && n ≤ maxNatural then .ok (.num (.natural n), rest)
  else if negative && 0 < n && n ≤ 9223372036854775808 then .ok (.num (.negative n), rest)
  else finishDecimal ⟨negative, n, 0⟩ rest

/-- A number without its minus sign. -/
def readNumber (negative : Bool) (cs : List Char) : Except ReadError (Json × List Char) :=
  let (whole, rest) := takeDigits cs
  match whole with
  | [] => .error .badNumber
  | '0' :: _ :: _ => .error .badNumber
  | _ =>
    let fraction : Except ReadError (Option (List Char) × List Char) :=
      match rest with
      | '.' :: rest' =>
        let (ds, after) := takeDigits rest'
        if ds.isEmpty then .error .badNumber else .ok (some ds, after)
      | _ => .ok (none, rest)
    match fraction with
    | .error e => .error e
    | .ok (ds, rest) =>
      let places := ds.getD []
      let value := digitsValue (whole ++ places)
      let shift : Int := -Int.ofNat places.length
      let withExponent (rest' : List Char) :=
        match readExponent rest' with
        | .error e => .error e
        | .ok (e, after) => finishDecimal ⟨negative, value, shift + e⟩ after
      match rest with
      | 'e' :: rest' => withExponent rest'
      | 'E' :: rest' => withExponent rest'
      | _ =>
        match ds with
        | some _ => finishDecimal ⟨negative, value, shift⟩ rest
        | none => integer negative value rest

/-! ## Values -/

def literal (word : String) (value : Json) (cs : List Char) :
    Except ReadError (Json × List Char) :=
  if word.toList.isPrefixOf cs then .ok (value, cs.drop word.length)
  else .error .expectedValue

mutual

def readValue : Nat → Nat → List Char → Except ReadError (Json × List Char)
  | 0, _, _ => .error .unexpectedEnd
  | fuel + 1, depth, cs =>
    match skipLayout cs with
    | [] => .error .unexpectedEnd
    | '"' :: rest =>
      match readString (rest.length + 1) [] rest with
      | .ok (s, after) => .ok (.str s, after)
      | .error e => .error e
    | '[' :: rest =>
      if depth ≤ 1 then .error .tooDeep
      else
        match skipLayout rest with
        | ']' :: after => .ok (.arr [], after)
        | rest' =>
          match readItems fuel (depth - 1) rest' with
          | .ok (items, after) => .ok (.arr items, after)
          | .error e => .error e
    | '\x7b' :: rest =>
      if depth ≤ 1 then .error .tooDeep
      else
        match skipLayout rest with
        | '\x7d' :: after => .ok (.obj [], after)
        | rest' =>
          match readFields fuel (depth - 1) rest' with
          | .ok (fields, after) => .ok (.obj fields, after)
          | .error e => .error e
    | '-' :: rest => readNumber true rest
    | 't' :: rest => literal "true" (.bool true) ('t' :: rest)
    | 'f' :: rest => literal "false" (.bool false) ('f' :: rest)
    | 'n' :: rest => literal "null" .null ('n' :: rest)
    | c :: rest => if c.isDigit then readNumber false (c :: rest) else .error .expectedValue

/-- One item and what follows it, up to the closing bracket. -/
def readItems : Nat → Nat → List Char → Except ReadError (List Json × List Char)
  | 0, _, _ => .error .unexpectedEnd
  | fuel + 1, depth, cs =>
    match readValue fuel depth cs with
    | .error e => .error e
    | .ok (v, rest) =>
      match skipLayout rest with
      | ',' :: rest' =>
        match skipLayout rest' with
        | ']' :: _ => .error .trailingComma
        | rest'' =>
          match readItems fuel depth rest'' with
          | .ok (vs, after) => .ok (v :: vs, after)
          | .error e => .error e
      | ']' :: after => .ok ([v], after)
      | [] => .error .unexpectedEnd
      | _ => .error .expectedSeparator

/-- One field and what follows it, up to the closing brace. -/
def readFields : Nat → Nat → List Char → Except ReadError (List (String × Json) × List Char)
  | 0, _, _ => .error .unexpectedEnd
  | fuel + 1, depth, cs =>
    match skipLayout cs with
    | '"' :: rest =>
      match readString (rest.length + 1) [] rest with
      | .error e => .error e
      | .ok (name, rest) =>
        match skipLayout rest with
        | ':' :: rest =>
          match readValue fuel depth rest with
          | .error e => .error e
          | .ok (v, rest) =>
            match skipLayout rest with
            | ',' :: rest' =>
              match skipLayout rest' with
              | '\x7d' :: _ => .error .trailingComma
              | rest'' =>
                match readFields fuel depth rest'' with
                | .ok (fields, after) => .ok ((name, v) :: fields, after)
                | .error e => .error e
            | '\x7d' :: after => .ok ([(name, v)], after)
            | [] => .error .unexpectedEnd
            | _ => .error .expectedSeparator
        | [] => .error .unexpectedEnd
        | _ => .error .expectedColon
    | [] => .error .unexpectedEnd
    | _ => .error .expectedKey

end

def depthLimit : Nat := 128

def parseChars (cs : List Char) : Except ReadError Json :=
  match readValue (cs.length + 1) depthLimit cs with
  | .error e => .error e
  | .ok (v, rest) => if (skipLayout rest).isEmpty then .ok v else .error .trailingText

def parse (s : String) : Except ReadError Json := parseChars s.toList

end LeakScan.Json
