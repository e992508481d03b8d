/-!
# LeakScan.Json.Number

Numbers of a JSON text.

* `Decimal` — a decimal fraction as it was written.
* `Binary` — a double-precision value `mantissa · 2 ^ exponent`.
* `Decimal.toBinary?` — the nearest double, ties to even; none when it is too large.
* `Binary.shortest` — the fewest digits that read back as the same double, the nearest of those.
* `Number` — integers kept exactly, everything else as a decimal fraction.
-/

namespace LeakScan.Json

/-- The value `± digits · 10 ^ exponent`. -/
structure Decimal where
  negative : Bool
  digits : Nat
  exponent : Int
  deriving Repr, DecidableEq

/-- The value `mantissa · 2 ^ exponent`. -/
structure Binary where
  mantissa : Nat
  exponent : Int
  deriving Repr, DecidableEq

/-- `base ^ e` as a fraction. -/
def power (base : Nat) (e : Int) : Nat × Nat :=
  if 0 ≤ e then (Nat.pow base e.toNat, 1) else (1, Nat.pow base (-e).toNat)

/-- The quotient rounded to the nearest integer, a half to the even neighbour. -/
def roundQuotient (num den : Nat) : Nat :=
  let q := num / den
  let r := num % den
  if 2 * r < den then q
  else if den < 2 * r then q + 1
  else if q % 2 == 0 then q else q + 1

/-- The number of binary digits of `n`. -/
def bitLength (n : Nat) : Nat := if n == 0 then 0 else n.log2 + 1

/-- Mantissas stay below this: they have 53 binary digits. -/
def mantissaLimit : Nat := 9007199254740992

/-- The nearest double to the magnitude of `d`. -/
def Decimal.toBinary? (d : Decimal) : Option Binary :=
  if d.digits == 0 then some ⟨0, 0⟩
  else if 400 < d.exponent then none
  else if d.exponent < -100000 then some ⟨0, 0⟩
  else
    let (n, m) := power 10 d.exponent
    let num := d.digits * n
    let den := m
    let guess : Int := Int.ofNat (bitLength num) - Int.ofNat (bitLength den) - 53
    let scaled (e : Int) : Nat :=
      let e := max e (-1074)
      let (p, q) := power 2 e
      roundQuotient (num * q) (den * p)
    let first := max guess (-1074)
    let chosen : Int := if scaled first < mantissaLimit then first else first + 1
    let mantissa := scaled chosen
    let (mantissa, exponent) :=
      if mantissa == mantissaLimit then (mantissaLimit / 2, chosen + 1) else (mantissa, chosen)
    if 971 < exponent then none else some ⟨mantissa, exponent⟩

/-- The number of decimal digits of `n`. -/
def decimalLength (n : Nat) : Nat := (Nat.toDigits 10 n).length

/-- The first grid of `k, k + 1, …` significant digits with a point that rounds to the value,
given as that point and its decimal exponent. -/
def shortestFrom (num den lowNum highNum : Nat) (closed : Bool) (magnitude : Int) :
    Nat → Nat → Nat × Int
  | 0, _ => (0, 0)
  | fuel + 1, k =>
    let place := magnitude - Int.ofNat k
    let (p, q) := power 10 place
    let inside (x : Nat) : Bool :=
      let lhs := x * p * den
      if closed then lowNum * q ≤ 2 * lhs * 2 && 2 * lhs * 2 ≤ highNum * q
      else lowNum * q < 2 * lhs * 2 && 2 * lhs * 2 < highNum * q
    let down := (num * q) / (den * p)
    let up := down + 1
    let distance (x : Nat) : Nat :=
      let a := x * p * den
      let b := num * q
      if a ≤ b then b - a else a - b
    match inside down, inside up with
    | true, true => (if distance down ≤ distance up then down else up, place)
    | true, false => (down, place)
    | false, true => (up, place)
    | false, false => shortestFrom num den lowNum highNum closed magnitude fuel (k + 1)

/-- Digits and decimal exponent of the shortest text that reads back as `b`. -/
def Binary.shortest (b : Binary) : Nat × Int :=
  if b.mantissa == 0 then (0, 0)
  else
    let (p, q) := power 2 b.exponent
    let num := b.mantissa * p
    let den := q
    let lower := if b.mantissa == mantissaLimit / 2 && -1074 < b.exponent then
      4 * b.mantissa - 1 else 4 * b.mantissa - 2
    let upper := 4 * b.mantissa + 2
    let approx : Int := Int.ofNat (decimalLength num) - Int.ofNat (decimalLength den) + 1
    let (tp, tq) := power 10 (approx - 1)
    let magnitude := if num * tq < den * tp then approx - 1 else approx
    shortestFrom num den (lower * p) (upper * p) (b.mantissa % 2 == 0) magnitude 20 1

/-- Positional text without an exponent, with at least one digit after the point. -/
def positional (digits : Nat) (exponent : Int) : String :=
  if 0 ≤ exponent then toString (digits * Nat.pow 10 exponent.toNat) ++ ".0"
  else
    let places := (-exponent).toNat
    let scale := Nat.pow 10 places
    let part := toString (digits % scale)
    let zeros := String.ofList (List.replicate (places - part.length) '0')
    toString (digits / scale) ++ "." ++ zeros ++ part

def Decimal.text (d : Decimal) : String :=
  match d.toBinary? with
  | none => "inf"
  | some b =>
    let (digits, exponent) := b.shortest
    (if d.negative then "-" else "") ++ positional digits exponent

inductive Number where
  | natural (n : Nat)
  /-- The integer `-n`, for `n` above zero. -/
  | negative (n : Nat)
  | decimal (d : Decimal)
  deriving Repr, DecidableEq

end LeakScan.Json
