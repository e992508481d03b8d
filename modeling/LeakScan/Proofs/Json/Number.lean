import Mathlib.Algebra.Order.Group.Nat
import LeakScan.Json.Printer
import LeakScan.Json.Reader

/-!
# LeakScan.Proofs.Json.Number

Reading back the numbers that are written.

* `digitsValue_toDigits` — the digits of a number write it.
* `Ends` — what may follow a value that is written.
* `Number.Readable` — numbers that fit: integers of 64 bits, and fractions that are doubles.
* `Number.reread` — the number that is read from the text of another; only fractions may come back
  with other digits.
* `readNumber_whole`, `readNumber_fraction` — reading the two forms of a number.
-/

namespace LeakScan

namespace Text

theorem digitsValue_eq (cs : List Char) : digitsValue cs = Nat.ofDigitChars 10 cs 0 := by
  rw [Nat.ofDigitChars_eq_foldl, digitsValue]
  simp only [Nat.mul_comm]

theorem digitsValue_toDigits (n : Nat) : digitsValue (Nat.toDigits 10 n) = n := by
  rw [digitsValue_eq, Nat.ofDigitChars_ten_toDigits]

theorem digitsValue_append (front back : List Char) :
    digitsValue (front ++ back) = 10 ^ back.length * digitsValue front + digitsValue back := by
  rw [digitsValue_eq, Nat.ofDigitChars_append, Nat.ofDigitChars_eq_ofDigitChars_zero,
    digitsValue_eq, digitsValue_eq]

theorem isDigit_of_mem_toDigits {n : Nat} {c : Char} (h : c ∈ Nat.toDigits 10 n) :
    c.isDigit = true :=
  Nat.isDigit_of_mem_toDigits (by decide) (by decide) h

/-- Only the number zero starts with the digit zero. -/
theorem head?_toDigits {n : Nat} (h : 0 < n) : (Nat.toDigits 10 n).head? ≠ some '0' := by
  induction n using Nat.strongRecOn with
  | ind n ih =>
    rw [Nat.toDigits_eq_if (by decide)]
    split
    · rename_i hlt
      intro hzero
      have hdigit : n.digitChar = '0' := Option.some.inj hzero
      have hall : ∀ n < 10, 0 < n → n.digitChar ≠ '0' := by decide
      exact hall n hlt h hdigit
    · rename_i hge
      have hfront := ih (n / 10) (by omega) (by omega)
      rw [List.head?_append]
      cases hdigits : Nat.toDigits 10 (n / 10) with
      | nil => exact absurd hdigits Nat.toDigits_ne_nil
      | cons c rest =>
        rw [hdigits] at hfront
        exact hfront

end Text

namespace Json

open Text

/-- After a value stands a comma or the end of the line, or nothing. -/
def Ends (rest : List Char) : Prop := ∀ c ∈ rest.head?, c = ',' ∨ c = '\n'

theorem ends_nil : Ends [] := by
  intro c hc
  cases hc

theorem ends_cons {c : Char} {rest : List Char} (h : c = ',' ∨ c = '\n') : Ends (c :: rest) := by
  intro d hd
  cases hd
  exact h

theorem takeDigits_append {digits : List Char} (rest : List Char)
    (hdigits : ∀ c ∈ digits, c.isDigit = true) (hrest : ∀ c ∈ rest.head?, c.isDigit = false) :
    takeDigits (digits ++ rest) = (digits, rest) := by
  have htake : rest.takeWhile Char.isDigit = [] ∧ rest.dropWhile Char.isDigit = rest := by
    cases rest with
    | nil => exact ⟨rfl, rfl⟩
    | cons c rest => simp [hrest c rfl]
  rw [takeDigits, List.takeWhile_append_of_pos hdigits, List.dropWhile_append_of_pos hdigits, htake.1,
    htake.2, List.append_nil]

theorem Ends.not_isDigit {rest : List Char} (h : Ends rest) :
    ∀ c ∈ rest.head?, c.isDigit = false := by
  intro c hc
  rcases h c hc with rfl | rfl <;> rfl

/-! ## The two forms -/

/-- The digits of a number are not taken for one with a leading zero. -/
theorem toDigits_cases (n : Nat) :
    (∃ c, Nat.toDigits 10 n = [c]) ∨ ∃ c d rest, Nat.toDigits 10 n = c :: d :: rest ∧ c ≠ '0' := by
  cases hdigits : Nat.toDigits 10 n with
  | nil => exact absurd hdigits Nat.toDigits_ne_nil
  | cons c rest =>
    cases rest with
    | nil => exact .inl ⟨c, rfl⟩
    | cons d rest =>
      refine .inr ⟨c, d, rest, rfl, ?_⟩
      rintro rfl
      have hpos : 0 < n := by
        rcases Nat.eq_zero_or_pos n with rfl | hpos
        · rw [Nat.toDigits_zero] at hdigits
          cases hdigits
        · exact hpos
      exact head?_toDigits hpos (by rw [hdigits]; rfl)

theorem readNumber_whole (negative : Bool) (n : Nat) {rest : List Char} (hrest : Ends rest) :
    readNumber negative (Nat.toDigits 10 n ++ rest) = integer negative n rest := by
  have htake := takeDigits_append rest (fun c => isDigit_of_mem_toDigits (n := n)) hrest.not_isDigit
  have hvalue := digitsValue_toDigits n
  rw [readNumber, htake]
  rcases toDigits_cases n with ⟨c, hdigits⟩ | ⟨c, d, more, hdigits, hc⟩
  · simp only [hdigits] at hvalue ⊢
    cases rest with
    | nil => simp [hvalue]
    | cons e rest => rcases hrest e rfl with rfl | rfl <;> simp [hvalue]
  · simp only [hdigits] at hvalue ⊢
    cases rest with
    | nil => simp [hvalue, hc]
    | cons e rest => rcases hrest e rfl with rfl | rfl <;> simp [hvalue, hc]

theorem readNumber_fraction (negative : Bool) (n : Nat) (places : List Char) {rest : List Char}
    (hne : places ≠ []) (hplaces : ∀ c ∈ places, c.isDigit = true) (hrest : Ends rest) :
    readNumber negative (Nat.toDigits 10 n ++ '.' :: (places ++ rest)) =
      finishDecimal ⟨negative, 10 ^ places.length * n + digitsValue places, -Int.ofNat places.length⟩
        rest := by
  have htake := takeDigits_append ('.' :: (places ++ rest))
    (fun c => isDigit_of_mem_toDigits (n := n)) (by intro c hc; cases hc; rfl)
  have hplace := takeDigits_append rest hplaces hrest.not_isDigit
  have hvalue : digitsValue (Nat.toDigits 10 n ++ places) =
      10 ^ places.length * n + digitsValue places := by
    rw [digitsValue_append, digitsValue_toDigits]
  rw [readNumber, htake]
  rcases toDigits_cases n with ⟨c, hdigits⟩ | ⟨c, d, more, hdigits, hc⟩
  · simp only [hdigits, List.cons_append, List.nil_append] at hvalue
    simp only [hdigits, hplace]
    cases rest with
    | nil => simp [hvalue, hne]
    | cons e rest => rcases hrest e rfl with rfl | rfl <;> simp [hvalue, hne]
  · simp only [hdigits, List.cons_append] at hvalue
    simp only [hdigits, hplace]
    cases rest with
    | nil => simp [hvalue, hne, hc]
    | cons e rest => rcases hrest e rfl with rfl | rfl <;> simp [hvalue, hne, hc]

/-! ## Fractions -/

/-- The decimal fraction that `positional` writes. -/
def positionalValue (negative : Bool) (digits : Nat) (exponent : Int) : Decimal :=
  if 0 ≤ exponent then ⟨negative, 10 * (digits * Nat.pow 10 exponent.toNat), -1⟩
  else ⟨negative, digits, exponent⟩

theorem toList_toString (n : Nat) : (toString n).toList = Nat.toDigits 10 n := by
  rw [Nat.toString_eq_ofList_toDigits, String.toList_ofList]

/-- The digits of a number behind zeros, at least as many together as there are places. -/
def filled (places n : Nat) : List Char :=
  List.replicate (places - (Nat.toDigits 10 n).length) '0' ++ Nat.toDigits 10 n

theorem filled_ne_nil (places n : Nat) : filled places n ≠ [] := by
  simp [filled, Nat.toDigits_ne_nil]

theorem length_filled {places n : Nat} (h : (Nat.toDigits 10 n).length ≤ places) :
    (filled places n).length = places := by
  simp [filled, h]

theorem isDigit_of_mem_filled {places n : Nat} : ∀ c ∈ filled places n, c.isDigit = true := by
  intro c hc
  rcases List.mem_append.1 hc with hzero | hdigit
  · rw [List.eq_of_mem_replicate hzero]
    rfl
  · exact isDigit_of_mem_toDigits hdigit

theorem digitsValue_filled (places n : Nat) : digitsValue (filled places n) = n := by
  rw [filled, digitsValue_append, digitsValue_toDigits, digitsValue_eq,
    Nat.ofDigitChars_replicate_zero, Nat.mul_zero, Nat.mul_zero, Nat.zero_add]

theorem readNumber_positional (negative : Bool) (digits : Nat) (exponent : Int) {rest : List Char}
    (hrest : Ends rest) :
    readNumber negative ((positional digits exponent).toList ++ rest) =
      finishDecimal (positionalValue negative digits exponent) rest := by
  rw [positional, positionalValue]
  split
  · have hread := readNumber_fraction negative (digits * Nat.pow 10 exponent.toNat)
      ['0'] (by simp) (by simp) hrest
    have hzero : digitsValue ['0'] = 0 := rfl
    rw [String.toList_append, toList_toString, List.append_assoc]
    simpa [hzero] using hread
  · have hplaces : 0 < (-exponent).toNat := by omega
    have hexponent : -Int.ofNat (-exponent).toNat = exponent := by
      rw [Int.ofNat_eq_natCast, Int.toNat_of_nonneg (by omega), Int.neg_neg]
    generalize (-exponent).toNat = places at hplaces hexponent
    -- the zeros fill the remainder up to as many places as the exponent says
    have hlength : (Nat.toDigits 10 (digits % Nat.pow 10 places)).length ≤ places :=
      (Nat.length_toDigits_le_iff (by decide) hplaces).2
        (Nat.mod_lt _ (Nat.pow_pos (by decide)))
    have hread := readNumber_fraction negative (digits / Nat.pow 10 places)
      (filled places (digits % Nat.pow 10 places)) (filled_ne_nil _ _) isDigit_of_mem_filled hrest
    rw [length_filled hlength, digitsValue_filled, hexponent,
      ← Nat.pow_eq, Nat.div_add_mod] at hread
    simpa [filled, toList_toString, ← String.length_toList] using hread

theorem positional_head (digits : Nat) (exponent : Int) :
    ∃ c cs, (positional digits exponent).toList = c :: cs ∧ c.isDigit = true := by
  have hhead : ∀ n more, ∃ c cs, Nat.toDigits 10 n ++ more = c :: cs ∧ c.isDigit = true := by
    intro n more
    cases hdigits : Nat.toDigits 10 n with
    | nil => exact absurd hdigits Nat.toDigits_ne_nil
    | cons c cs =>
      exact ⟨c, cs ++ more, rfl, isDigit_of_mem_toDigits (hdigits ▸ List.mem_cons_self)⟩
  rw [positional]
  split
  · rw [String.toList_append, toList_toString]
    exact hhead _ _
  · simp only [String.toList_append, toList_toString, List.append_assoc]
    exact hhead _ _

/-! ## Numbers -/

/-- The fraction that is read from the text of another. -/
def Decimal.reread (d : Decimal) : Decimal :=
  match d.toBinary? with
  | none => d
  | some b => positionalValue d.negative b.shortest.1 b.shortest.2

namespace Number

/-- Integers of 64 bits, and fractions that are doubles when written and when read. -/
def Readable : Number → Prop
  | .natural n => n ≤ maxNatural
  | .negative n => 0 < n ∧ n ≤ 9223372036854775808
  | .decimal d => d.toBinary?.isSome = true ∧ d.reread.toBinary?.isSome = true

instance : DecidablePred Readable
  | .natural n => inferInstanceAs (Decidable (n ≤ maxNatural))
  | .negative n => inferInstanceAs (Decidable (0 < n ∧ n ≤ 9223372036854775808))
  | .decimal d =>
    inferInstanceAs (Decidable (d.toBinary?.isSome = true ∧ d.reread.toBinary?.isSome = true))

def reread : Number → Number
  | .decimal d => .decimal d.reread
  | n => n

theorem integer_natural {n : Nat} (h : (natural n).Readable) (rest : List Char) :
    integer false n rest = .ok (.num (.natural n), rest) := by
  have hn : n ≤ maxNatural := h
  simp [integer, hn]

theorem integer_negative {n : Nat} (h : (negative n).Readable) (rest : List Char) :
    integer true n rest = .ok (.num (.negative n), rest) := by
  obtain ⟨hpos, hn⟩ := h
  simp [integer, hpos, hn]

theorem finishDecimal_reread {d : Decimal} (h : (decimal d).Readable) (rest : List Char) :
    finishDecimal d.reread rest = .ok (.num (.decimal d.reread), rest) := by
  obtain ⟨b, hb⟩ := Option.isSome_iff_exists.1 h.2
  rw [finishDecimal, hb]

end Number
end Json
end LeakScan
