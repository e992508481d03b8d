import Mathlib.Tactic.IntervalCases
import LeakScan.Proofs.Json.Number

/-!
# LeakScan.Proofs.Json.RoundTrip

Reading back the values that are written.

* `readString_quoted` — a quoted string is read as the string.
* `Json.height`, `Json.numbers` — how deep a value nests, and the numbers in it.
* `Json.reread` — the value that is read from the text of another: the same, but for the digits of
  fractions.
* `parse_pretty` — a value that nests less than the limit and whose numbers fit is read back.
-/

namespace LeakScan.Json

open Text

/-! ## Strings -/

theorem readUnit_control (n : Nat) (h : n < 32) (rest : List Char) :
    readUnit (List.replicate (4 - (Nat.toDigits 16 n).length) '0' ++ Nat.toDigits 16 n ++ rest) =
      .ok (n, rest) := by
  interval_cases n <;> rfl

/-- An escaped character is read as the character. -/
theorem readString_escapeChar (fuel : Nat) (acc : List Char) (c : Char) (rest : List Char) :
    readString (fuel + 1) acc ((escapeChar c).toList ++ rest) = readString fuel (c :: acc) rest := by
  by_cases hspecial : c = '"' ∨ c = '\\' ∨ c = '\n' ∨ c = '\r' ∨ c = '\t' ∨ c = '\x08' ∨ c = '\x0c'
  · rcases hspecial with rfl | rfl | rfl | rfl | rfl | rfl | rfl <;> rfl
  · simp only [not_or] at hspecial
    obtain ⟨hquote, hslash, hfeed, hreturn, htab, hback, hform⟩ := hspecial
    by_cases hcontrol : c.toNat < 0x20
    · have hread : readUnicodeEscape (List.replicate (4 - (Nat.toDigits 16 c.toNat).length) '0' ++
          Nat.toDigits 16 c.toNat ++ rest) = .ok (c, rest) := by
        rw [readUnicodeEscape, readUnit_control _ hcontrol]
        have hlow : c.toNat < 0xD800 := by omega
        simp [hlow]
      have hescape : (escapeChar c).toList = '\\' :: 'u' ::
          (List.replicate (4 - (Nat.toDigits 16 c.toNat).length) '0' ++ Nat.toDigits 16 c.toNat) := by
        simp [escapeChar, hquote, hslash, hfeed, hreturn, htab, hback, hform, hcontrol]
      rw [hescape, List.cons_append, List.cons_append, readString]
      simp only [hread]
    · have hescape : (escapeChar c).toList = [c] := by
        simp [escapeChar, hquote, hslash, hfeed, hreturn, htab, hback, hform, hcontrol]
      rw [hescape, List.singleton_append, readString]
      · simp only [hcontrol, if_false]
      · exact hquote
      · exact hslash

theorem length_escapeChar_pos (c : Char) : 0 < (escapeChar c).toList.length := by
  rw [escapeChar]
  repeat' split
  all_goals simp

/-- The characters of a string between its quotes. -/
def escapedChars (cs : List Char) : List Char := cs.flatMap fun c => (escapeChar c).toList

theorem toList_quoted (s : String) :
    (quoted s).toList = '"' :: (escapedChars s.toList ++ ['"']) := by
  simp [quoted, escapedChars, String.toList_join, List.flatMap_map]

theorem readString_escaped (cs acc rest : List Char) (fuel : Nat)
    (h : (escapedChars cs).length < fuel) :
    readString fuel acc (escapedChars cs ++ '"' :: rest) =
      .ok (String.ofList (acc.reverse ++ cs), rest) := by
  induction cs generalizing acc fuel with
  | nil =>
    cases fuel with
    | zero => exact absurd h (Nat.not_lt_zero _)
    | succ fuel => simp [escapedChars, readString]
  | cons c cs ih =>
    cases fuel with
    | zero => exact absurd h (Nat.not_lt_zero _)
    | succ fuel =>
      have hcons : escapedChars (c :: cs) = (escapeChar c).toList ++ escapedChars cs :=
        List.flatMap_cons
      have hpos := length_escapeChar_pos c
      rw [hcons, List.length_append] at h
      rw [hcons, List.append_assoc, readString_escapeChar, ih (c :: acc) fuel (by omega),
        List.reverse_cons, List.append_assoc, List.singleton_append]

/-- A quoted string is read as the string. -/
theorem readString_quoted (s : String) (rest : List Char) :
    readString ((escapedChars s.toList ++ '"' :: rest).length + 1) []
      (escapedChars s.toList ++ '"' :: rest) = .ok (s, rest) := by
  rw [readString_escaped, List.reverse_nil, List.nil_append, String.ofList_toList]
  simp only [List.length_append]
  omega

/-! ## Values -/

mutual

/-- How deep arrays and objects nest. -/
def height : Json → Nat
  | .arr items => heightItems items + 1
  | .obj fields => heightFields fields + 1
  | _ => 0

def heightItems : List Json → Nat
  | [] => 0
  | v :: vs => max v.height (heightItems vs)

def heightFields : List (String × Json) → Nat
  | [] => 0
  | (_, v) :: fields => max v.height (heightFields fields)

end

mutual

def numbers : Json → List Number
  | .num n => [n]
  | .arr items => numbersItems items
  | .obj fields => numbersFields fields
  | _ => []

def numbersItems : List Json → List Number
  | [] => []
  | v :: vs => v.numbers ++ numbersItems vs

def numbersFields : List (String × Json) → List Number
  | [] => []
  | (_, v) :: fields => v.numbers ++ numbersFields fields

end

mutual

/-- The value that is read from the text of another. -/
def reread : Json → Json
  | .null => .null
  | .bool b => .bool b
  | .num n => .num n.reread
  | .str s => .str s
  | .arr items => .arr (rereadItems items)
  | .obj fields => .obj (rereadFields fields)

def rereadItems : List Json → List Json
  | [] => []
  | v :: vs => v.reread :: rereadItems vs

def rereadFields : List (String × Json) → List (String × Json)
  | [] => []
  | (n, v) :: fields => (n, v.reread) :: rereadFields fields

end

/-- No layout stands in front, and no closing bracket. -/
def Opens (cs : List Char) : Prop := ∀ c ∈ cs.head?, isLayout c = false ∧ c ≠ ']'

theorem opens_cons {c : Char} {cs : List Char} (h : isLayout c = false ∧ c ≠ ']') :
    Opens (c :: cs) := by
  intro d hd
  cases hd
  exact h

theorem skipLayout_of_opens {cs : List Char} (h : Opens cs) : skipLayout cs = cs := by
  cases cs with
  | nil => rfl
  | cons c cs => simp [skipLayout, (h c rfl).1]

theorem toList_indentation (level : Nat) :
    (indentation level).toList = '\n' :: List.replicate (2 * level) ' ' := by
  simp [indentation]

theorem skipLayout_indentation (level : Nat) (cs : List Char) :
    skipLayout ((indentation level).toList ++ cs) = skipLayout cs := by
  rw [skipLayout, skipLayout, List.dropWhile_append_of_pos]
  intro c hc
  rw [toList_indentation] at hc
  rcases List.mem_cons.1 hc with rfl | hc
  · rfl
  · rw [List.eq_of_mem_replicate hc]
    rfl

theorem ends_indentation (level : Nat) (cs : List Char) :
    Ends ((indentation level).toList ++ cs) := by
  rw [toList_indentation]
  exact ends_cons (.inr rfl)

theorem opens_digit {c : Char} (h : c.isDigit = true) : isLayout c = false ∧ c ≠ ']' := by
  constructor
  · by_contra hlayout
    simp only [isLayout, Bool.or_eq_true, beq_iff_eq, Bool.not_eq_false] at hlayout
    rcases hlayout with ((rfl | rfl) | rfl) | rfl <;> cases h
  · rintro rfl
    cases h

theorem readValue_digit {c : Char} (h : c.isDigit = true) (fuel depth : Nat) (cs : List Char) :
    readValue (fuel + 1) depth (c :: cs) = readNumber false (c :: cs) := by
  have hlayout : skipLayout (c :: cs) = c :: cs := skipLayout_of_opens (opens_cons (opens_digit h))
  rw [readValue, hlayout]
  split <;> simp_all

theorem readValue_minus (fuel depth : Nat) (cs : List Char) :
    readValue (fuel + 1) depth ('-' :: cs) = readNumber true cs := by
  rw [readValue]
  rfl

theorem readValue_number {n : Number} (h : n.Readable) (fuel depth : Nat) {rest : List Char}
    (hrest : Ends rest) :
    readValue (fuel + 1) depth (n.text.toList ++ rest) = .ok (.num n.reread, rest) := by
  cases n with
  | natural n =>
    rw [Number.text, toList_toString]
    have hread := readNumber_whole false n hrest
    rw [Number.integer_natural h] at hread
    cases hdigits : Nat.toDigits 10 n with
    | nil => exact absurd hdigits Nat.toDigits_ne_nil
    | cons c cs =>
      have hc : c.isDigit = true := isDigit_of_mem_toDigits (hdigits ▸ List.mem_cons_self)
      rw [hdigits] at hread
      rw [List.cons_append, readValue_digit hc]
      exact hread
  | negative n =>
    have htext : (Number.negative n).text.toList = '-' :: Nat.toDigits 10 n := by
      simp [Number.text]
    rw [htext, List.cons_append, readValue_minus, readNumber_whole true n hrest,
      Number.integer_negative h]
    rfl
  | decimal d =>
    obtain ⟨b, hb⟩ := Option.isSome_iff_exists.1 h.1
    have hfinish := Number.finishDecimal_reread h rest
    have hread := readNumber_positional d.negative b.shortest.1 b.shortest.2 hrest
    have hvalue : positionalValue d.negative b.shortest.1 b.shortest.2 = d.reread := by
      rw [Decimal.reread, hb]
    rw [hvalue, hfinish] at hread
    have htext : (Number.decimal d).text.toList = (if d.negative then ['-'] else []) ++
        (positional b.shortest.1 b.shortest.2).toList := by
      rw [Number.text, Decimal.text, hb, String.toList_append]
      cases d.negative <;> rfl
    obtain ⟨c, cs, hhead, hc⟩ := positional_head b.shortest.1 b.shortest.2
    rw [htext, Number.reread]
    rw [hhead] at hread ⊢
    cases hnegative : d.negative with
    | true =>
      rw [hnegative] at hread
      simp only [if_true, List.cons_append, List.nil_append] at hread ⊢
      rw [readValue_minus, hread]
    | false =>
      rw [hnegative] at hread
      simp only [Bool.false_eq_true, if_false, List.cons_append, List.nil_append] at hread ⊢
      rw [readValue_digit hc, hread]

theorem opens_number (n : Number) (rest : List Char) : Opens (n.text.toList ++ rest) := by
  cases n with
  | natural n =>
    rw [Number.text, toList_toString]
    cases hdigits : Nat.toDigits 10 n with
    | nil => exact absurd hdigits Nat.toDigits_ne_nil
    | cons c cs =>
      exact opens_cons (opens_digit (isDigit_of_mem_toDigits (hdigits ▸ List.mem_cons_self)))
  | negative n =>
    rw [Number.text, String.toList_append]
    exact opens_cons ⟨rfl, by decide⟩
  | decimal d =>
    rw [Number.text, Decimal.text]
    split
    · exact opens_cons ⟨rfl, by decide⟩
    · rename_i b hb
      obtain ⟨c, cs, hhead, hc⟩ := positional_head b.shortest.1 b.shortest.2
      rw [String.toList_append, hhead]
      cases d.negative with
      | true => exact opens_cons ⟨rfl, by decide⟩
      | false => exact opens_cons (opens_digit hc)

theorem opens_value (level : Nat) (v : Json) (rest : List Char) :
    Opens ((prettyAt level v).toList ++ rest) := by
  cases v with
  | null =>
    rw [prettyAt]
    exact opens_cons ⟨rfl, by decide⟩
  | bool b =>
    rw [prettyAt]
    cases b with
    | true => exact opens_cons ⟨rfl, by decide⟩
    | false => exact opens_cons ⟨rfl, by decide⟩
  | num n =>
    rw [prettyAt]
    exact opens_number n rest
  | str s =>
    rw [prettyAt, toList_quoted]
    exact opens_cons ⟨rfl, by decide⟩
  | arr items =>
    cases items with
    | nil =>
      rw [prettyAt]
      exact opens_cons ⟨rfl, by decide⟩
    | cons v vs =>
      simp only [prettyAt, String.toList_append]
      exact opens_cons ⟨rfl, by decide⟩
  | obj fields =>
    cases fields with
    | nil =>
      rw [prettyAt]
      exact opens_cons ⟨rfl, by decide⟩
    | cons f fields =>
      simp only [prettyAt, String.toList_append]
      exact opens_cons ⟨rfl, by decide⟩

/-! ## Items and fields -/

/-- The items of an array, without its brackets. -/
def itemsText (level : Nat) : List Json → List Char
  | [] => []
  | v :: vs => (prettyAt level v).toList ++ (prettyItems level vs).toList

/-- The fields of an object, without its braces. -/
def fieldsText (level : Nat) : List (String × Json) → List Char
  | [] => []
  | (n, v) :: fields =>
    (quoted n).toList ++ ':' :: ' ' :: ((prettyAt level v).toList ++ (prettyFields level fields).toList)

theorem toList_prettyAt_arr (level : Nat) {items : List Json} (h : items ≠ []) :
    (prettyAt level (.arr items)).toList = '[' :: ((indentation (level + 1)).toList ++
      (itemsText (level + 1) items ++ ((indentation level).toList ++ [']']))) := by
  cases items with
  | nil => exact absurd rfl h
  | cons v vs => simp [prettyAt, itemsText]

theorem toList_prettyAt_obj (level : Nat) {fields : List (String × Json)} (h : fields ≠ []) :
    (prettyAt level (.obj fields)).toList = '\x7b' :: ((indentation (level + 1)).toList ++
      (fieldsText (level + 1) fields ++ ((indentation level).toList ++ ['\x7d']))) := by
  cases fields with
  | nil => exact absurd rfl h
  | cons f fields =>
    obtain ⟨n, v⟩ := f
    simp [prettyAt, fieldsText]

theorem toList_prettyItems (level : Nat) {items : List Json} (h : items ≠ []) :
    (prettyItems level items).toList =
      ',' :: ((indentation level).toList ++ itemsText level items) := by
  cases items with
  | nil => exact absurd rfl h
  | cons v vs => simp [prettyItems, itemsText]

theorem toList_prettyFields (level : Nat) {fields : List (String × Json)} (h : fields ≠ []) :
    (prettyFields level fields).toList =
      ',' :: ((indentation level).toList ++ fieldsText level fields) := by
  cases fields with
  | nil => exact absurd rfl h
  | cons f fields =>
    obtain ⟨n, v⟩ := f
    simp [prettyFields, fieldsText]

theorem ends_prettyItems (level outer : Nat) (items : List Json) (rest : List Char) :
    Ends ((prettyItems level items).toList ++ ((indentation outer).toList ++ rest)) := by
  cases items with
  | nil =>
    rw [prettyItems]
    exact ends_indentation outer rest
  | cons v vs =>
    rw [toList_prettyItems level (List.cons_ne_nil v vs)]
    exact ends_cons (.inl rfl)

theorem ends_prettyFields (level outer : Nat) (fields : List (String × Json)) (rest : List Char) :
    Ends ((prettyFields level fields).toList ++ ((indentation outer).toList ++ rest)) := by
  cases fields with
  | nil =>
    rw [prettyFields]
    exact ends_indentation outer rest
  | cons f fields =>
    rw [toList_prettyFields level (List.cons_ne_nil f fields)]
    exact ends_cons (.inl rfl)

theorem opens_itemsText (level : Nat) {items : List Json} (h : items ≠ []) (rest : List Char) :
    Opens (itemsText level items ++ rest) := by
  cases items with
  | nil => exact absurd rfl h
  | cons v vs =>
    rw [itemsText, List.append_assoc]
    exact opens_value level v _

/-- The first item of an array, when it and the others are read back. -/
theorem readItems_cons {fuel depth level outer : Nat} {v w : Json} {vs ws : List Json}
    {rest : List Char}
    (hv : readValue fuel depth ((prettyAt level v).toList ++ ((prettyItems level vs).toList ++
      ((indentation outer).toList ++ ']' :: rest))) =
        .ok (w, (prettyItems level vs).toList ++ ((indentation outer).toList ++ ']' :: rest)))
    (hvs : vs ≠ [] → readItems fuel depth (itemsText level vs ++
      ((indentation outer).toList ++ ']' :: rest)) = .ok (ws, rest)) (hnil : vs = [] → ws = []) :
    readItems (fuel + 1) depth (itemsText level (v :: vs) ++
      ((indentation outer).toList ++ ']' :: rest)) = .ok (w :: ws, rest) := by
  rw [itemsText, List.append_assoc, readItems, hv]
  cases vs with
  | nil =>
    have hclose : skipLayout (']' :: rest) = ']' :: rest := rfl
    rw [hnil rfl, prettyItems]
    simp only [String.toList_empty, List.nil_append, skipLayout_indentation, hclose]
  | cons v' vs' =>
    have hne := List.cons_ne_nil v' vs'
    have hcomma : ∀ cs, skipLayout (',' :: cs) = ',' :: cs := fun cs => rfl
    have hopens := opens_itemsText level hne ((indentation outer).toList ++ ']' :: rest)
    simp only [toList_prettyItems level hne, List.cons_append, List.append_assoc, hcomma,
      skipLayout_indentation, skipLayout_of_opens hopens]
    split
    · rename_i hbracket
      rw [hbracket] at hopens
      exact absurd rfl (hopens ']' rfl).2
    · rw [hvs hne]

theorem fieldsText_head (level : Nat) {fields : List (String × Json)} (h : fields ≠ []) :
    ∃ cs, fieldsText level fields = '"' :: cs := by
  cases fields with
  | nil => exact absurd rfl h
  | cons f fields =>
    obtain ⟨n, v⟩ := f
    rw [fieldsText, toList_quoted]
    exact ⟨_, rfl⟩

theorem skipLayout_fieldsText (level : Nat) {fields : List (String × Json)} (h : fields ≠ [])
    (rest : List Char) :
    skipLayout (fieldsText level fields ++ rest) = fieldsText level fields ++ rest := by
  obtain ⟨cs, hcs⟩ := fieldsText_head level h
  rw [hcs]
  rfl

theorem fieldsText_ne_brace {level : Nat} {fields : List (String × Json)} (h : fields ≠ [])
    {rest cs : List Char} : fieldsText level fields ++ rest ≠ '\x7d' :: cs := by
  obtain ⟨more, hmore⟩ := fieldsText_head level h
  rw [hmore]
  intro hbrace
  cases hbrace

theorem readValue_blank (fuel depth : Nat) (cs : List Char) :
    readValue fuel depth (' ' :: cs) = readValue fuel depth cs := by
  cases fuel with
  | zero => rw [readValue, readValue]
  | succ fuel =>
    have hblank : skipLayout (' ' :: cs) = skipLayout cs := rfl
    rw [readValue, readValue, hblank]

/-- The first field of an object, when its value and the other fields are read back. -/
theorem readFields_cons {fuel depth level outer : Nat} {n : String} {v w : Json}
    {fields others : List (String × Json)} {rest : List Char}
    (hv : readValue fuel depth ((prettyAt level v).toList ++ ((prettyFields level fields).toList ++
      ((indentation outer).toList ++ '\x7d' :: rest))) =
        .ok (w, (prettyFields level fields).toList ++ ((indentation outer).toList ++ '\x7d' :: rest)))
    (hfields : fields ≠ [] → readFields fuel depth (fieldsText level fields ++
      ((indentation outer).toList ++ '\x7d' :: rest)) = .ok (others, rest))
    (hnil : fields = [] → others = []) :
    readFields (fuel + 1) depth (fieldsText level ((n, v) :: fields) ++
      ((indentation outer).toList ++ '\x7d' :: rest)) = .ok ((n, w) :: others, rest) := by
  have hquote : ∀ cs, skipLayout ('"' :: cs) = '"' :: cs := fun cs => rfl
  have hcolon : ∀ cs, skipLayout (':' :: cs) = ':' :: cs := fun cs => rfl
  rw [fieldsText, toList_quoted, readFields]
  simp only [List.cons_append, List.append_assoc, List.nil_append, hquote, readString_quoted, hcolon,
    readValue_blank, hv]
  cases fields with
  | nil =>
    have hclose : skipLayout ('\x7d' :: rest) = '\x7d' :: rest := rfl
    rw [hnil rfl, prettyFields]
    simp only [String.toList_empty, List.nil_append, skipLayout_indentation, hclose]
  | cons f fields =>
    have hne := List.cons_ne_nil f fields
    have hcomma : ∀ cs, skipLayout (',' :: cs) = ',' :: cs := fun cs => rfl
    simp only [toList_prettyFields level hne, List.cons_append, List.append_assoc, hcomma,
      skipLayout_indentation, skipLayout_fieldsText level hne]
    split
    · rename_i hbrace
      exact absurd hbrace (fieldsText_ne_brace hne)
    · rw [hfields hne]

theorem readValue_str (fuel depth : Nat) (s : String) (rest : List Char) :
    readValue (fuel + 1) depth ((quoted s).toList ++ rest) = .ok (.str s, rest) := by
  have hquote : ∀ cs, skipLayout ('"' :: cs) = '"' :: cs := fun cs => rfl
  rw [toList_quoted, readValue]
  simp only [List.cons_append, List.append_assoc, List.nil_append, hquote, readString_quoted]

theorem readValue_arr {fuel depth level : Nat} {items others : List Json} {rest : List Char}
    (hne : items ≠ []) (hdepth : 1 < depth)
    (h : readItems fuel (depth - 1) (itemsText (level + 1) items ++
      ((indentation level).toList ++ ']' :: rest)) = .ok (others, rest)) :
    readValue (fuel + 1) depth ((prettyAt level (.arr items)).toList ++ rest) =
      .ok (.arr others, rest) := by
  have hbracket : ∀ cs, skipLayout ('[' :: cs) = '[' :: cs := fun cs => rfl
  have hopens := opens_itemsText (level + 1) hne ((indentation level).toList ++ ']' :: rest)
  rw [toList_prettyAt_arr level hne, readValue]
  simp only [List.cons_append, List.append_assoc, List.nil_append, hbracket, Nat.not_le.2 hdepth,
    if_false, skipLayout_indentation, skipLayout_of_opens hopens]
  split
  · rename_i hclose
    rw [hclose] at hopens
    exact absurd rfl (hopens ']' rfl).2
  · rw [h]

theorem readValue_obj {fuel depth level : Nat} {fields others : List (String × Json)}
    {rest : List Char} (hne : fields ≠ []) (hdepth : 1 < depth)
    (h : readFields fuel (depth - 1) (fieldsText (level + 1) fields ++
      ((indentation level).toList ++ '\x7d' :: rest)) = .ok (others, rest)) :
    readValue (fuel + 1) depth ((prettyAt level (.obj fields)).toList ++ rest) =
      .ok (.obj others, rest) := by
  have hbrace : ∀ cs, skipLayout ('\x7b' :: cs) = '\x7b' :: cs := fun cs => rfl
  have hopens := skipLayout_fieldsText (level + 1) hne ((indentation level).toList ++ '\x7d' :: rest)
  rw [toList_prettyAt_obj level hne, readValue]
  simp only [List.cons_append, List.append_assoc, List.nil_append, hbrace, Nat.not_le.2 hdepth,
    if_false, skipLayout_indentation, hopens]
  split
  · rename_i hclose
    exact absurd hclose (fieldsText_ne_brace hne)
  · rw [h]

/-! ## Round trip -/

theorem readValue_empty (fuel : Nat) {depth : Nat} (h : 1 < depth) (rest : List Char) :
    readValue (fuel + 1) depth ('[' :: ']' :: rest) = .ok (.arr [], rest) ∧
      readValue (fuel + 1) depth ('\x7b' :: '\x7d' :: rest) = .ok (.obj [], rest) := by
  have hbracket : ∀ cs, skipLayout ('[' :: cs) = '[' :: cs := fun cs => rfl
  have hbrace : ∀ cs, skipLayout ('\x7b' :: cs) = '\x7b' :: cs := fun cs => rfl
  have hclose : skipLayout (']' :: rest) = ']' :: rest := rfl
  have hclose' : skipLayout ('\x7d' :: rest) = '\x7d' :: rest := rfl
  constructor
  · rw [readValue]
    simp only [hbracket, hclose, Nat.not_le.2 h, if_false]
  · rw [readValue]
    simp only [hbrace, hclose', Nat.not_le.2 h, if_false]

/-- The text of a value is read as that value, whatever ends it. -/
def ReadsBack (v : Json) : Prop := ∀ (level fuel depth : Nat) (rest : List Char),
  v.height < depth → (∀ n ∈ v.numbers, n.Readable) → (prettyAt level v).toList.length ≤ fuel →
  Ends rest → readValue (fuel + 1) depth ((prettyAt level v).toList ++ rest) = .ok (v.reread, rest)

def ItemsReadBack (items : List Json) : Prop := ∀ (level outer fuel depth : Nat) (rest : List Char),
  items ≠ [] → heightItems items < depth → (∀ n ∈ numbersItems items, n.Readable) →
  (itemsText level items).length + 2 ≤ fuel →
  readItems fuel depth (itemsText level items ++ ((indentation outer).toList ++ ']' :: rest)) =
    .ok (rereadItems items, rest)

def FieldsReadBack (fields : List (String × Json)) : Prop :=
  ∀ (level outer fuel depth : Nat) (rest : List Char),
  fields ≠ [] → heightFields fields < depth → (∀ n ∈ numbersFields fields, n.Readable) →
  (fieldsText level fields).length + 2 ≤ fuel →
  readFields fuel depth (fieldsText level fields ++ ((indentation outer).toList ++ '\x7d' :: rest)) =
    .ok (rereadFields fields, rest)

theorem ItemsReadBack.arr {items : List Json} (h : ItemsReadBack items) :
    ReadsBack (.arr items) := by
  intro level fuel depth rest hdepth hnumbers hfuel _
  rw [height] at hdepth
  rw [numbers] at hnumbers
  rw [reread]
  cases items with
  | nil =>
    rw [prettyAt, rereadItems]
    exact (readValue_empty fuel (by omega) rest).1
  | cons v vs =>
    have hne := List.cons_ne_nil v vs
    rw [toList_prettyAt_arr level hne, toList_indentation, toList_indentation] at hfuel
    simp only [List.length_cons, List.length_append] at hfuel
    exact readValue_arr hne (by omega) (h (level + 1) level fuel (depth - 1) rest hne (by omega)
      hnumbers (by omega))

theorem FieldsReadBack.obj {fields : List (String × Json)} (h : FieldsReadBack fields) :
    ReadsBack (.obj fields) := by
  intro level fuel depth rest hdepth hnumbers hfuel _
  rw [height] at hdepth
  rw [numbers] at hnumbers
  rw [reread]
  cases fields with
  | nil =>
    rw [prettyAt, rereadFields]
    exact (readValue_empty fuel (by omega) rest).2
  | cons f fields =>
    have hne := List.cons_ne_nil f fields
    rw [toList_prettyAt_obj level hne, toList_indentation, toList_indentation] at hfuel
    simp only [List.length_cons, List.length_append] at hfuel
    exact readValue_obj hne (by omega) (h (level + 1) level fuel (depth - 1) rest hne (by omega)
      hnumbers (by omega))

theorem ReadsBack.cons {v : Json} {vs : List Json} (hv : ReadsBack v) (hvs : ItemsReadBack vs) :
    ItemsReadBack (v :: vs) := by
  intro level outer fuel depth rest _ hdepth hnumbers hfuel
  obtain ⟨fuel, rfl⟩ : ∃ n, fuel = n + 2 := ⟨fuel - 2, by omega⟩
  rw [heightItems] at hdepth
  rw [numbersItems, List.forall_mem_append] at hnumbers
  rw [itemsText, List.length_append] at hfuel
  rw [rereadItems]
  refine readItems_cons (hv level fuel depth _ (by omega) hnumbers.1 (by omega)
    (ends_prettyItems level outer vs _)) (fun hne => ?_) ?_
  · rw [toList_prettyItems level hne, toList_indentation] at hfuel
    simp only [List.length_cons, List.length_append] at hfuel
    exact hvs level outer (fuel + 1) depth rest hne (by omega) hnumbers.2 (by omega)
  · rintro rfl
    rw [rereadItems]

theorem ReadsBack.consField {n : String} {v : Json} {fields : List (String × Json)}
    (hv : ReadsBack v) (hfields : FieldsReadBack fields) : FieldsReadBack ((n, v) :: fields) := by
  intro level outer fuel depth rest _ hdepth hnumbers hfuel
  obtain ⟨fuel, rfl⟩ : ∃ n, fuel = n + 2 := ⟨fuel - 2, by omega⟩
  rw [heightFields] at hdepth
  rw [numbersFields, List.forall_mem_append] at hnumbers
  rw [fieldsText] at hfuel
  simp only [List.length_cons, List.length_append] at hfuel
  rw [rereadFields]
  refine readFields_cons (hv level fuel depth _ (by omega) hnumbers.1 (by omega)
    (ends_prettyFields level outer fields _)) (fun hne => ?_) ?_
  · rw [toList_prettyFields level hne, toList_indentation] at hfuel
    simp only [List.length_cons, List.length_append] at hfuel
    exact hfields level outer (fuel + 1) depth rest hne (by omega) hnumbers.2 (by omega)
  · rintro rfl
    rw [rereadFields]

mutual

theorem readsBack : ∀ v : Json, ReadsBack v
  | .null => by
    intro level fuel depth rest _ _ _ _
    rw [prettyAt, readValue, reread]
    rfl
  | .bool b => by
    intro level fuel depth rest _ _ _ _
    rw [prettyAt, readValue, reread]
    cases b <;> rfl
  | .num n => by
    intro level fuel depth rest _ hnumbers _ hrest
    rw [prettyAt, reread]
    exact readValue_number (hnumbers n (by simp [numbers])) fuel depth hrest
  | .str s => by
    intro level fuel depth rest _ _ _ _
    rw [prettyAt, reread]
    exact readValue_str fuel depth s rest
  | .arr items => (itemsReadBack items).arr
  | .obj fields => (fieldsReadBack fields).obj

theorem itemsReadBack : ∀ items : List Json, ItemsReadBack items
  | [] => fun _ _ _ _ _ hne _ _ _ => absurd rfl hne
  | v :: vs => (readsBack v).cons (itemsReadBack vs)

theorem fieldsReadBack : ∀ fields : List (String × Json), FieldsReadBack fields
  | [] => fun _ _ _ _ _ hne _ _ _ => absurd rfl hne
  | (_, v) :: fields => (readsBack v).consField (fieldsReadBack fields)

end

/-- A value that is not nested too deep and whose numbers fit is read back, up to the digits of its
fractions. -/
theorem parse_pretty {v : Json} (hdepth : v.height < depthLimit)
    (hnumbers : ∀ n ∈ v.numbers, n.Readable) : parse v.pretty = .ok v.reread := by
  have hread := readsBack v 0 (prettyAt 0 v).toList.length depthLimit [] hdepth hnumbers le_rfl
    ends_nil
  rw [List.append_nil] at hread
  rw [parse, parseChars, pretty, hread]
  rfl

end LeakScan.Json
