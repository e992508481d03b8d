import Mathlib.Data.List.Basic
import LeakScan.Text.Utf8

/-!
# LeakScan.Proofs.Text.Utf8

Reading UTF-8 undoes writing it, and only what was written can be read.

* `Spells bytes n` — the bytes of the character with code point `n`, by their number.
* `spells_utf8EncodeChar`, `Spells.utf8EncodeChar_eq` — each character is written as it is spelled,
  and each spelling is written so.
* `Spells.decodeOne_eq`, `decodeOne_spells` — the same of reading one character.
* `decode?_eq_some_iff` — valid bytes are the bytes of a text.
* `decodeLossy_encode` — nothing is lost of a text.
-/

namespace LeakScan.Text

/-- By induction on the number of bytes that are left. -/
theorem toList_loop_eq (bytes : ByteArray) {left i : Nat} (taken : List UInt8)
    (h : bytes.size = i + left) :
    ByteArray.toList.loop bytes i taken = taken.reverse ++ bytes.data.toList.drop i := by
  have hsize : bytes.data.toList.length = bytes.size := Array.length_toList
  induction left generalizing i taken with
  | zero =>
    rw [ByteArray.toList.loop, if_neg (by omega), List.drop_of_length_le (by omega),
      List.append_nil]
  | succ left ih =>
    have hi : i < bytes.size := by omega
    have hget : bytes.get! i = bytes.data.toList.get ⟨i, by omega⟩ := by
      simp [ByteArray.get!, hi]
    rw [ByteArray.toList.loop, if_pos hi, ih _ (by omega), hget,
      List.drop_eq_getElem_cons (i := i) (by omega)]
    simp

theorem encode_eq (s : String) : encode s = s.toList.flatMap String.utf8EncodeChar := by
  rw [encode, ByteArray.toList, toList_loop_eq _ _ (Nat.zero_add _).symm, String.toUTF8,
    ← String.utf8Encode_toList, List.utf8Encode, List.toList_data_toByteArray]
  rfl

/-! ## One character -/

/-- A byte that is not the first of its character. -/
def Tail (b : UInt8) : Prop := 0x80 ≤ b.toNat ∧ b.toNat ≤ 0xBF

/-- The bytes of the character with a code point. Each character has one spelling only, the
shortest, and surrogates have none. -/
inductive Spells : List UInt8 → Nat → Prop where
  | one {a : UInt8} : a.toNat < 0x80 → Spells [a] a.toNat
  | two {a b : UInt8} : 0xC2 ≤ a.toNat → a.toNat < 0xE0 → Tail b →
      Spells [a, b] ((a.toNat - 0xC0) * 0x40 + payload b)
  | three {a b c : UInt8} : 0xE0 ≤ a.toNat → a.toNat < 0xF0 → Tail b →
      (a.toNat = 0xE0 → 0xA0 ≤ b.toNat) → (a.toNat = 0xED → b.toNat ≤ 0x9F) → Tail c →
      Spells [a, b, c] (((a.toNat - 0xE0) * 0x40 + payload b) * 0x40 + payload c)
  | four {a b c d : UInt8} : 0xF0 ≤ a.toNat → a.toNat ≤ 0xF4 → Tail b →
      (a.toNat = 0xF0 → 0x90 ≤ b.toNat) → (a.toNat = 0xF4 → b.toNat ≤ 0x8F) → Tail c → Tail d →
      Spells [a, b, c, d]
        ((((a.toNat - 0xF0) * 0x40 + payload b) * 0x40 + payload c) * 0x40 + payload d)

theorem toNat_ofNat {n : Nat} (h : n < 0x100) : (UInt8.ofNat n).toNat = n := by
  rw [UInt8.toNat_ofNat', Nat.mod_eq_of_lt h]

theorem utf8EncodeChar_of_toNat {c : Char} {n : Nat} (h : c.toNat = n) :
    String.utf8EncodeChar c =
      if n ≤ 0x7F then [UInt8.ofNat n]
      else if n ≤ 0x7FF then [UInt8.ofNat (n / 64 % 32 + 192), UInt8.ofNat (n % 64 + 128)]
      else if n ≤ 0xFFFF then
        [UInt8.ofNat (n / 4096 % 16 + 224), UInt8.ofNat (n / 64 % 64 + 128),
          UInt8.ofNat (n % 64 + 128)]
      else
        [UInt8.ofNat (n / 262144 % 8 + 240), UInt8.ofNat (n / 4096 % 64 + 128),
          UInt8.ofNat (n / 64 % 64 + 128), UInt8.ofNat (n % 64 + 128)] := by
  subst h
  rfl

theorem spells_utf8EncodeChar (c : Char) : Spells (String.utf8EncodeChar c) c.toNat := by
  have hvalid : c.toNat < 0xD800 ∨ (0xDFFF < c.toNat ∧ c.toNat < 0x110000) := c.valid
  rw [utf8EncodeChar_of_toNat rfl]
  generalize c.toNat = n at hvalid
  have hlow : ∀ m, (UInt8.ofNat (m % 64 + 128)).toNat = m % 64 + 128 :=
    fun m => toNat_ofNat (by omega)
  split
  · have ha := toNat_ofNat (n := n) (by omega)
    have h := Spells.one (a := UInt8.ofNat n) (by omega)
    rwa [ha] at h
  split
  · have ha := toNat_ofNat (n := n / 64 % 32 + 192) (by omega)
    have hb := hlow n
    have h := Spells.two (a := UInt8.ofNat (n / 64 % 32 + 192)) (b := UInt8.ofNat (n % 64 + 128))
      (by omega) (by omega) ⟨by omega, by omega⟩
    have hn : (n / 64 % 32 + 192 - 0xC0) * 0x40 + (n % 64 + 128) % 0x40 = n := by omega
    rw [payload, ha, hb, hn] at h
    exact h
  split
  · have ha := toNat_ofNat (n := n / 4096 % 16 + 224) (by omega)
    have hb := hlow (n / 64)
    have hc := hlow n
    have h := Spells.three (a := UInt8.ofNat (n / 4096 % 16 + 224))
      (b := UInt8.ofNat (n / 64 % 64 + 128)) (c := UInt8.ofNat (n % 64 + 128))
      (by omega) (by omega) ⟨by omega, by omega⟩ (by omega) (by omega) ⟨by omega, by omega⟩
    have hn : ((n / 4096 % 16 + 224 - 0xE0) * 0x40 + (n / 64 % 64 + 128) % 0x40) * 0x40 +
        (n % 64 + 128) % 0x40 = n := by omega
    rw [payload, payload, ha, hb, hc, hn] at h
    exact h
  · have ha := toNat_ofNat (n := n / 262144 % 8 + 240) (by omega)
    have hb := hlow (n / 4096)
    have hc := hlow (n / 64)
    have hd := hlow n
    have h := Spells.four (a := UInt8.ofNat (n / 262144 % 8 + 240))
      (b := UInt8.ofNat (n / 4096 % 64 + 128)) (c := UInt8.ofNat (n / 64 % 64 + 128))
      (d := UInt8.ofNat (n % 64 + 128)) (by omega) (by omega) ⟨by omega, by omega⟩ (by omega)
      (by omega) ⟨by omega, by omega⟩ ⟨by omega, by omega⟩
    have hn : (((n / 262144 % 8 + 240 - 0xF0) * 0x40 + (n / 4096 % 64 + 128) % 0x40) * 0x40 +
        (n / 64 % 64 + 128) % 0x40) * 0x40 + (n % 64 + 128) % 0x40 = n := by omega
    rw [payload, payload, payload, ha, hb, hc, hd, hn] at h
    exact h

theorem payload_eq (b : UInt8) : payload b = b.toNat % 0x40 := rfl

theorem Spells.isValidChar {bytes : List UInt8} {n : Nat} (h : Spells bytes n) :
    n < 0xD800 ∨ (0xDFFF < n ∧ n < 0x110000) := by
  cases h with
  | one ha => omega
  | @two a b ha ha' hb =>
    have hpb := payload_eq b
    omega
  | @three a b c ha ha' hb hlow hhigh hc =>
    obtain ⟨hb, hb'⟩ := hb
    have hpb := payload_eq b
    have hpc := payload_eq c
    omega
  | @four a b c d ha ha' hb hlow hhigh hc hd =>
    obtain ⟨hb, hb'⟩ := hb
    have hpb := payload_eq b
    have hpc := payload_eq c
    have hpd := payload_eq d
    omega

theorem Spells.utf8EncodeChar_eq {bytes : List UInt8} {n : Nat} (h : Spells bytes n) :
    String.utf8EncodeChar (Char.ofNat n) = bytes := by
  have hn : (Char.ofNat n).toNat = n := by
    rw [Char.ofNat, dif_pos h.isValidChar]
    rfl
  have hbyte : ∀ {m : Nat} {b : UInt8}, b.toNat = m → UInt8.ofNat m = b := by
    rintro _ b rfl
    exact UInt8.ofNat_toNat
  rw [utf8EncodeChar_of_toNat hn]
  cases h with
  | one ha => rw [if_pos (by omega), hbyte rfl]
  | @two a b ha ha' hb =>
    obtain ⟨hb, hb'⟩ := hb
    have hpb := payload_eq b
    rw [if_neg (by omega), if_pos (by omega), hbyte (b := a) (by omega), hbyte (b := b) (by omega)]
  | @three a b c ha ha' hb hlow hhigh hc =>
    obtain ⟨hb, hb'⟩ := hb
    obtain ⟨hc, hc'⟩ := hc
    have hpb := payload_eq b
    have hpc := payload_eq c
    rw [if_neg (by omega), if_neg (by omega), if_pos (by omega), hbyte (b := a) (by omega),
      hbyte (b := b) (by omega), hbyte (b := c) (by omega)]
  | @four a b c d ha ha' hb hlow hhigh hc hd =>
    obtain ⟨hb, hb'⟩ := hb
    obtain ⟨hc, hc'⟩ := hc
    obtain ⟨hd, hd'⟩ := hd
    have hpb := payload_eq b
    have hpc := payload_eq c
    have hpd := payload_eq d
    rw [if_neg (by omega), if_neg (by omega), if_neg (by omega), hbyte (b := a) (by omega),
      hbyte (b := b) (by omega), hbyte (b := c) (by omega), hbyte (b := d) (by omega)]

/-! ## Reading one character -/

theorem isTail_iff {b : UInt8} : isTail b = true ↔ Tail b := by
  simp [isTail, Tail, UInt8.le_iff_toNat_le]

theorem inRange_secondRange_iff {a b : UInt8} : inRange (secondRange a) b = true ↔
    Tail b ∧ (a.toNat = 0xE0 → 0xA0 ≤ b.toNat) ∧ (a.toNat = 0xED → b.toNat ≤ 0x9F) ∧
      (a.toNat = 0xF0 → 0x90 ≤ b.toNat) ∧ (a.toNat = 0xF4 → b.toNat ≤ 0x8F) := by
  simp only [secondRange, inRange, Tail, beq_iff_eq, ← UInt8.toNat_inj, Bool.and_eq_true,
    decide_eq_true_eq, UInt8.le_iff_toNat_le, UInt8.reduceToNat]
  split_ifs <;> simp only [UInt8.reduceToNat] <;> omega

theorem Spells.decodeOne_eq {a : UInt8} {bytes : List UInt8} {n : Nat} (h : Spells (a :: bytes) n)
    (rest : List UInt8) : decodeOne a (bytes ++ rest) = .char (Char.ofNat n) rest := by
  simp only [decodeOne, decodeTail, UInt8.lt_iff_toNat_lt, UInt8.reduceToNat, Bool.or_eq_true,
    decide_eq_true_eq]
  cases h with
  | one ha =>
    rw [if_pos ha]
    rfl
  | @two _ b ha ha' hb =>
    have hsecond : inRange (secondRange a) b = true :=
      inRange_secondRange_iff.2 ⟨hb, by omega, by omega, by omega, by omega⟩
    rw [if_neg (by omega), if_neg (by omega)]
    simp only [List.cons_append, List.nil_append, hsecond, ha']
    rfl
  | @three _ b c ha ha' hb hlow hhigh hc =>
    have hsecond : inRange (secondRange a) b = true :=
      inRange_secondRange_iff.2 ⟨hb, hlow, hhigh, by omega, by omega⟩
    have htwo : ¬a.toNat < 0xE0 := by omega
    rw [if_neg (by omega), if_neg (by omega)]
    simp only [List.cons_append, List.nil_append, hsecond, htwo, ha', isTail_iff.2 hc]
    rfl
  | @four _ b c d ha ha' hb hlow hhigh hc hd =>
    have hsecond : inRange (secondRange a) b = true :=
      inRange_secondRange_iff.2 ⟨hb, by omega, by omega, hlow, hhigh⟩
    have htwo : ¬a.toNat < 0xE0 := by omega
    have hthree : ¬a.toNat < 0xF0 := by omega
    rw [if_neg (by omega), if_neg (by omega)]
    simp only [List.cons_append, List.nil_append, hsecond, htwo, hthree, isTail_iff.2 hc,
      isTail_iff.2 hd]
    rfl

theorem decodeOne_spells {a : UInt8} {bytes rest : List UInt8} {c : Char}
    (h : decodeOne a bytes = .char c rest) :
    ∃ front n, Spells (a :: front) n ∧ bytes = front ++ rest ∧ c = Char.ofNat n := by
  simp only [decodeOne, decodeTail, UInt8.lt_iff_toNat_lt, UInt8.reduceToNat, Bool.or_eq_true,
    decide_eq_true_eq] at h
  split at h
  · rename_i hone
    cases h
    exact ⟨[], _, .one hone, rfl, rfl⟩
  split at h
  · cases h
  rename_i hlead
  split at h
  · cases h
  rename_i b more
  split at h
  · cases h
  rename_i hsecond
  obtain ⟨hb, hE0, hED, hF0, hF4⟩ := inRange_secondRange_iff.1 (by simpa using hsecond)
  split at h
  · rename_i htwo
    cases h
    exact ⟨[b], _, .two (by omega) htwo hb, rfl, rfl⟩
  rename_i htwo
  split at h
  · cases h
  rename_i d more
  split at h
  · cases h
  rename_i hc
  have hc := isTail_iff.1 (by simpa using hc)
  split at h
  · rename_i hthree
    cases h
    exact ⟨[b, d], _, .three (by omega) hthree hb hE0 hED hc, rfl, rfl⟩
  rename_i hthree
  split at h
  · cases h
  rename_i e more
  split at h
  · cases h
  rename_i hd
  have hd := isTail_iff.1 (by simpa using hd)
  cases h
  exact ⟨[b, d, e], _, .four (by omega) (by omega) hb hF0 hF4 hc hd, rfl, rfl⟩

theorem decodeOne_eq_char_iff {a : UInt8} {bytes rest : List UInt8} {c : Char} :
    decodeOne a bytes = .char c rest ↔ a :: bytes = String.utf8EncodeChar c ++ rest := by
  constructor
  · intro h
    obtain ⟨front, n, hspells, rfl, rfl⟩ := decodeOne_spells h
    rw [hspells.utf8EncodeChar_eq]
    rfl
  · intro h
    have hspells := spells_utf8EncodeChar c
    cases hencoded : String.utf8EncodeChar c with
    | nil =>
      rw [hencoded] at hspells
      cases hspells
    | cons b front =>
      rw [hencoded, List.cons_append, List.cons.injEq] at h
      rw [hencoded] at hspells
      obtain ⟨rfl, rfl⟩ := h
      rw [hspells.decodeOne_eq, Char.ofNat_toNat]

/-! ## Texts -/

theorem decodeFrom_encoded (onBroken : Option Char) (cs : List Char) {fuel : Nat}
    (h : (cs.flatMap String.utf8EncodeChar).length ≤ fuel) :
    decodeFrom onBroken fuel (cs.flatMap String.utf8EncodeChar) = some cs := by
  induction cs generalizing fuel with
  | nil =>
    rw [List.flatMap_nil, decodeFrom]
  | cons c cs ih =>
    obtain ⟨b, front, hfront⟩ : ∃ b front, String.utf8EncodeChar c = b :: front :=
      List.exists_cons_of_length_pos (by rw [String.length_utf8EncodeChar]; exact c.utf8Size_pos)
    rw [List.flatMap_cons, hfront, List.cons_append, List.length_cons, List.length_append] at h
    obtain ⟨fuel, rfl⟩ : ∃ m, fuel = m + 1 := ⟨fuel - 1, by omega⟩
    have hone : decodeOne b (front ++ cs.flatMap String.utf8EncodeChar) =
        .char c (cs.flatMap String.utf8EncodeChar) := decodeOne_eq_char_iff.2 (by rw [hfront]; rfl)
    rw [List.flatMap_cons, hfront, List.cons_append, decodeFrom, hone]
    have hrest : decodeFrom onBroken fuel (cs.flatMap String.utf8EncodeChar) = some cs :=
      ih (by omega)
    simp only [hrest, Option.map_some]

theorem eq_encoded_of_decodeFrom {fuel : Nat} {bytes : List UInt8} {cs : List Char}
    (hfuel : bytes.length ≤ fuel) (h : decodeFrom none fuel bytes = some cs) :
    bytes = cs.flatMap String.utf8EncodeChar := by
  induction fuel generalizing bytes cs with
  | zero =>
    obtain rfl := List.length_eq_zero_iff.1 (Nat.le_zero.1 hfuel)
    cases h
    rfl
  | succ fuel ih =>
    cases bytes with
    | nil =>
      cases h
      rfl
    | cons b bytes =>
      rw [decodeFrom] at h
      split at h
      · rename_i c rest hone
        obtain ⟨more, hmore, rfl⟩ := Option.map_eq_some_iff.1 h
        have hsplit := decodeOne_eq_char_iff.1 hone
        have hlength := congrArg List.length hsplit
        have hpos := c.utf8Size_pos
        rw [List.length_append, String.length_utf8EncodeChar] at hlength
        rw [hsplit, List.flatMap_cons, ← ih (by omega) hmore]
      · cases h

theorem decode?_eq_some_iff {bytes : List UInt8} {cs : List Char} :
    decode? bytes = some cs ↔ bytes = encode (String.ofList cs) := by
  rw [encode_eq, String.toList_ofList]
  constructor
  · exact eq_encoded_of_decodeFrom (Nat.le_refl _)
  · rintro rfl
    exact decodeFrom_encoded none cs (Nat.le_refl _)

theorem decodeLossy_encode (s : String) : decodeLossy (encode s) = s.toList := by
  rw [decodeLossy, encode_eq, decodeFrom_encoded _ _ (Nat.le_refl _)]
  rfl

end LeakScan.Text
