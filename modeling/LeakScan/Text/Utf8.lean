/-!
# LeakScan.Text.Utf8

Reading UTF-8.

* `decodeOne` — the character at the start of some bytes, or the length of the longest start of a
  character that is broken off there.
* `decode?` — the text of bytes that are valid throughout.
* `decodeLossy` — the text with U+FFFD for each broken character.
* `encode` — the bytes of a text.
-/

namespace LeakScan.Text

/-- One character, or a number of bytes that form none. -/
inductive Decoded where
  | char (c : Char) (rest : List UInt8)
  | broken (rest : List UInt8)

def isTail (b : UInt8) : Bool := 0x80 ≤ b && b ≤ 0xBF

/-- The bytes that may follow a lead byte. -/
def secondRange (lead : UInt8) : UInt8 × UInt8 :=
  if lead == 0xE0 then (0xA0, 0xBF)
  else if lead == 0xED then (0x80, 0x9F)
  else if lead == 0xF0 then (0x90, 0xBF)
  else if lead == 0xF4 then (0x80, 0x8F)
  else (0x80, 0xBF)

def inRange (r : UInt8 × UInt8) (b : UInt8) : Bool := r.1 ≤ b && b ≤ r.2

/-- The low six bits of a tail byte. -/
def payload (b : UInt8) : Nat := b.toNat % 0x40

/-- The rest of a character of two, three or four bytes. -/
def decodeTail (lead : UInt8) (rest : List UInt8) : Decoded :=
  if lead < 0xC2 || 0xF4 < lead then .broken rest
  else
    match rest with
    | [] => .broken []
    | b :: rest₁ =>
      if !inRange (secondRange lead) b then .broken rest
      else if lead < 0xE0 then
        .char (Char.ofNat ((lead.toNat - 0xC0) * 0x40 + payload b)) rest₁
      else
        match rest₁ with
        | [] => .broken []
        | c :: rest₂ =>
          if !isTail c then .broken rest₁
          else if lead < 0xF0 then
            .char (Char.ofNat (((lead.toNat - 0xE0) * 0x40 + payload b) * 0x40 + payload c)) rest₂
          else
            match rest₂ with
            | [] => .broken []
            | d :: rest₃ =>
              if !isTail d then .broken rest₂
              else
                .char (Char.ofNat ((((lead.toNat - 0xF0) * 0x40 + payload b) * 0x40 + payload c) *
                  0x40 + payload d)) rest₃

def decodeOne (lead : UInt8) (rest : List UInt8) : Decoded :=
  if lead < 0x80 then .char (Char.ofNat lead.toNat) rest else decodeTail lead rest

/-- Each round takes at least one byte, so `fuel` suffices when it starts at their number. -/
def decodeFrom (onBroken : Option Char) : Nat → List UInt8 → Option (List Char)
  | _, [] => some []
  | 0, _ :: _ => some []
  | fuel + 1, b :: bs =>
    match decodeOne b bs with
    | .char c rest => (decodeFrom onBroken fuel rest).map (c :: ·)
    | .broken rest =>
      match onBroken with
      | none => none
      | some c => (decodeFrom onBroken fuel rest).map (c :: ·)

def decode? (bytes : List UInt8) : Option (List Char) := decodeFrom none bytes.length bytes

def decodeLossy (bytes : List UInt8) : List Char :=
  (decodeFrom (some '�') bytes.length bytes).getD []

def encode (s : String) : List UInt8 := s.toUTF8.toList

end LeakScan.Text
