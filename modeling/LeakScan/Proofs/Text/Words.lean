import Mathlib.Data.List.TakeWhile
import LeakScan.Text.Split

/-!
# LeakScan.Proofs.Text.Words

The pieces and the words of a text.

* `splitOn_append_cons` — pieces come apart at every separator; `splitOn_intercalate` reads joined
  pieces back.
* `splitLast?_eq_some_iff` — cutting at the last separator.
* `words_append_cons` — words come apart at every blank; the rest follows from that.
* `words_trim` — blanks around a text are no part of its words.
* `not_isBlank_of_isWordChar` — no word character is a blank.
-/

namespace LeakScan.Text

/-- A text without a character is passed by a reader that looks for it. -/
theorem bne_of_not_mem {c : Char} {cs : List Char} (h : c ∉ cs) : ∀ d ∈ cs, (d != c) = true := by
  intro d hd
  rw [bne_iff_ne]
  rintro rfl
  exact h hd

/-! ## Pieces -/

section Pieces

variable {sep : Char}

theorem splitOn_ne_nil (sep : Char) (cs : List Char) : splitOn sep cs ≠ [] := by
  cases cs with
  | nil => simp [splitOn]
  | cons c cs =>
    rw [splitOn]
    split
    · simp
    · split <;> simp

theorem splitOn_eq_singleton {cs : List Char} (h : sep ∉ cs) : splitOn sep cs = [cs] := by
  induction cs with
  | nil => rfl
  | cons c cs ih =>
    have hc : c ≠ sep := (List.ne_of_not_mem_cons h).symm
    rw [splitOn, if_neg (by simpa using hc), ih (List.not_mem_of_not_mem_cons h)]

theorem splitOn_append_cons (sep : Char) (front back : List Char) :
    splitOn sep (front ++ sep :: back) = splitOn sep front ++ splitOn sep back := by
  induction front with
  | nil => simp [splitOn]
  | cons c front ih =>
    rw [List.cons_append, splitOn, splitOn, ih]
    split
    · rfl
    · cases hfront : splitOn sep front with
      | nil => exact absurd hfront (splitOn_ne_nil sep front)
      | cons piece pieces => rfl

/-- What stands before the first separator is part of the first piece. -/
theorem splitOn_of_not_mem {piece : List Char} (h : sep ∉ piece) {cs next : List Char}
    {pieces : List (List Char)} (hcs : splitOn sep cs = next :: pieces) :
    splitOn sep (piece ++ cs) = (piece ++ next) :: pieces := by
  induction piece with
  | nil => exact hcs
  | cons c piece ih =>
    have hc : c ≠ sep := (List.ne_of_not_mem_cons h).symm
    rw [List.cons_append, splitOn, if_neg (by simpa using hc), ih (List.not_mem_of_not_mem_cons h)]
    rfl

theorem exists_last_separator {cs : List Char} (h : sep ∈ cs) :
    ∃ front back, cs = front ++ sep :: back ∧ sep ∉ back := by
  obtain ⟨back, front, hcs, hback⟩ := List.eq_append_cons_of_mem (List.mem_reverse.2 h)
  refine ⟨front.reverse, back.reverse, ?_, fun hmem => hback (List.mem_reverse.1 hmem)⟩
  rw [← List.reverse_reverse cs, hcs]
  simp

theorem length_le_of_mem_splitOn {cs piece : List Char} (h : piece ∈ splitOn sep cs) :
    piece.length ≤ cs.length := by
  induction cs generalizing piece with
  | nil => exact Nat.le_of_eq (congrArg List.length (List.mem_singleton.1 h))
  | cons c cs ih =>
    rw [splitOn] at h
    rw [List.length_cons]
    split at h
    · rcases List.mem_cons.1 h with rfl | h
      · exact Nat.zero_le _
      · exact Nat.le_succ_of_le (ih h)
    · cases hcs : splitOn sep cs with
      | nil => exact absurd hcs (splitOn_ne_nil sep cs)
      | cons first pieces =>
        simp only [hcs] at h ih
        rcases List.mem_cons.1 h with rfl | h
        · exact Nat.succ_le_succ (ih List.mem_cons_self)
        · exact Nat.le_succ_of_le (ih (List.mem_cons_of_mem _ h))

theorem length_splitOn (sep : Char) (cs : List Char) :
    (splitOn sep cs).length = 1 + cs.count sep := by
  induction cs with
  | nil => rfl
  | cons c cs ih =>
    rw [splitOn, List.count_cons]
    split
    · rw [List.length_cons, ih, Nat.add_assoc]
    · cases hsplit : splitOn sep cs with
      | nil => exact absurd hsplit (splitOn_ne_nil sep cs)
      | cons piece pieces =>
        rw [hsplit] at ih
        simpa using ih

theorem splitOn_intercalate {pieces : List (List Char)} (hne : pieces ≠ [])
    (h : ∀ piece ∈ pieces, sep ∉ piece) : splitOn sep ([sep].intercalate pieces) = pieces := by
  induction pieces with
  | nil => exact absurd rfl hne
  | cons piece pieces ih =>
    obtain ⟨hpiece, hpieces⟩ := List.forall_mem_cons.1 h
    cases pieces with
    | nil => rw [List.intercalate_singleton, splitOn_eq_singleton hpiece]
    | cons next rest =>
      rw [List.intercalate_cons_cons, List.append_assoc, List.singleton_append, splitOn_append_cons,
        splitOn_eq_singleton hpiece, ih (List.cons_ne_nil _ _) hpieces, List.singleton_append]

theorem splitLast?_eq_some_iff {cs front back : List Char} :
    splitLast? sep cs = some (front, back) ↔ cs = front ++ sep :: back ∧ sep ∉ back := by
  constructor
  · intro h
    have hsplit : cs.reverse.takeWhile (· != sep) ++ cs.reverse.dropWhile (· != sep) = cs.reverse :=
      List.takeWhile_append_dropWhile
    have hstop := List.head?_dropWhile_not (· != sep) cs.reverse
    rw [splitLast?] at h
    split at h
    · cases h
    · rename_i c before hrest
      cases h
      rw [hrest] at hsplit hstop
      have hc : c = sep := by simpa using hstop
      refine ⟨?_, fun hmem => ?_⟩
      · have hreverse := congrArg List.reverse hsplit
        rw [List.reverse_reverse, hc] at hreverse
        exact hreverse.symm.trans (by simp)
      · have hpass := List.mem_takeWhile_imp (List.mem_reverse.1 hmem)
        simp at hpass
  · rintro ⟨rfl, hback⟩
    have hpass : ∀ c ∈ back.reverse, (c != sep) = true :=
      bne_of_not_mem fun hmem => hback (List.mem_reverse.1 hmem)
    have hreverse : (front ++ sep :: back).reverse = back.reverse ++ sep :: front.reverse := by simp
    rw [splitLast?, hreverse, List.takeWhile_append_of_pos hpass, List.dropWhile_append_of_pos hpass,
      List.takeWhile_cons_of_neg (by simp), List.dropWhile_cons_of_neg (by simp)]
    simp

end Pieces

/-! ## Words -/

/-- Every character is white space. -/
def AllBlank (cs : List Char) : Prop := ∀ c ∈ cs, isBlank c = true

theorem AllBlank.not_mem {c : Char} {cs : List Char} (h : AllBlank cs) (hc : isBlank c = false) :
    c ∉ cs := by
  intro hmem
  rw [h c hmem] at hc
  cases hc

theorem allBlank_nil : AllBlank [] := List.forall_mem_nil _

theorem AllBlank.cons {c : Char} {cs : List Char} (h : AllBlank cs) (hc : isBlank c = true) :
    AllBlank (c :: cs) :=
  List.forall_mem_cons.2 ⟨hc, h⟩

theorem AllBlank.append {front back : List Char} (hfront : AllBlank front) (hback : AllBlank back) :
    AllBlank (front ++ back) :=
  List.forall_mem_append.2 ⟨hfront, hback⟩

theorem words_cons_blank {c : Char} (h : isBlank c = true) (cs : List Char) :
    words (c :: cs) = words cs := by
  cases cs <;> simp [words, h]

/-- A visible character is a word of its own before a blank and extends the next word elsewhere. -/
theorem words_cons_visible {c : Char} (h : isBlank c = false) (cs : List Char) :
    words (c :: cs) = [c] :: words cs ∨
      ∃ w ws, words cs = w :: ws ∧ words (c :: cs) = (c :: w) :: ws := by
  cases cs with
  | nil => exact .inl (by simp [words, h])
  | cons d cs =>
    by_cases hd : isBlank d = true
    · exact .inl (by simp [words, h, hd])
    · cases hwords : words (d :: cs) with
      | nil => exact .inl (by rw [words]; simp [h, hd, hwords])
      | cons w ws => exact .inr ⟨w, ws, rfl, by rw [words]; simp [h, hd, hwords]⟩

theorem words_append_cons {c : Char} (h : isBlank c = true) (front back : List Char) :
    words (front ++ c :: back) = words front ++ words back := by
  induction front with
  | nil => exact words_cons_blank h back
  | cons d front ih =>
    by_cases hd : isBlank d = true
    · rw [List.cons_append, words_cons_blank hd, words_cons_blank hd, ih]
    · cases front with
      | nil => simp [words, hd, h]
      | cons e front =>
        rw [List.cons_append, List.cons_append, words, words, ← List.cons_append, ih]
        by_cases he : isBlank e = true
        · simp [hd, he]
        · have hvisible : words (e :: front) ≠ [] := by
            rcases words_cons_visible (by simpa using he) front with h | ⟨w, ws, -, h⟩ <;> simp [h]
          cases hwords : words (e :: front) with
          | nil => exact absurd hwords hvisible
          | cons w ws => simp [hd, he]

theorem words_append_of_blank {front back : List Char} (h : ∀ c ∈ back.head?, isBlank c = true) :
    words (front ++ back) = words front ++ words back := by
  cases back with
  | nil => simp [words]
  | cons c back => rw [words_append_cons (h c rfl), words_cons_blank (h c rfl)]

theorem words_allBlank {cs : List Char} (h : AllBlank cs) : words cs = [] := by
  induction cs with
  | nil => rfl
  | cons c cs ih =>
    rw [words_cons_blank (h c List.mem_cons_self), ih fun d hd => h d (List.mem_cons_of_mem _ hd)]

theorem words_blank_append {front : List Char} (h : AllBlank front) (cs : List Char) :
    words (front ++ cs) = words cs := by
  induction front with
  | nil => rfl
  | cons c front ih =>
    rw [List.cons_append, words_cons_blank (h c List.mem_cons_self),
      ih fun d hd => h d (List.mem_cons_of_mem _ hd)]

theorem words_append_blank {back : List Char} (h : AllBlank back) (cs : List Char) :
    words (cs ++ back) = words cs := by
  have hhead : ∀ c ∈ back.head?, isBlank c = true := fun c hc => h c (List.mem_of_head? hc)
  rw [words_append_of_blank hhead, words_allBlank h, List.append_nil]

theorem words_eq_singleton {w : List Char} (hne : w ≠ []) (h : ∀ c ∈ w, isBlank c = false) :
    words w = [w] := by
  induction w with
  | nil => exact absurd rfl hne
  | cons c w ih =>
    have hc := h c List.mem_cons_self
    cases w with
    | nil => simp [words, hc]
    | cons d w =>
      have hd := h d (List.mem_cons_of_mem _ List.mem_cons_self)
      rw [words, ih (List.cons_ne_nil d w) fun e he => h e (List.mem_cons_of_mem _ he)]
      simp [hc, hd]

/-- A text is made of blanks and of the characters of its words. -/
theorem mem_words_of_mem {cs : List Char} {c : Char} (h : c ∈ cs) (hc : isBlank c = false) :
    ∃ w ∈ words cs, c ∈ w := by
  induction cs with
  | nil => cases h
  | cons d cs ih =>
    by_cases hd : isBlank d = true
    · rw [words_cons_blank hd]
      rcases List.mem_cons.1 h with rfl | h
      · rw [hc] at hd
        cases hd
      · exact ih h
    · rcases words_cons_visible (by simpa using hd) cs with heq | ⟨w, ws, hcs, heq⟩ <;> rw [heq]
      · rcases List.mem_cons.1 h with rfl | h
        · exact ⟨[c], List.mem_cons_self, List.mem_cons_self⟩
        · obtain ⟨w, hw, hcw⟩ := ih h
          exact ⟨w, List.mem_cons_of_mem _ hw, hcw⟩
      · rcases List.mem_cons.1 h with rfl | h
        · exact ⟨c :: w, List.mem_cons_self, List.mem_cons_self⟩
        · obtain ⟨w', hw, hcw⟩ := ih h
          rw [hcs] at hw
          rcases List.mem_cons.1 hw with rfl | hw
          · exact ⟨d :: w', List.mem_cons_self, List.mem_cons_of_mem _ hcw⟩
          · exact ⟨w', List.mem_cons_of_mem _ hw, hcw⟩

theorem allBlank_of_words {cs : List Char} (h : words cs = []) : AllBlank cs := by
  intro c hc
  rw [← Bool.not_eq_false]
  intro hvisible
  obtain ⟨w, hw, -⟩ := mem_words_of_mem hc hvisible
  rw [h] at hw
  cases hw

theorem length_le_of_mem_words {cs w : List Char} (h : w ∈ words cs) : w.length ≤ cs.length := by
  induction cs generalizing w with
  | nil => cases h
  | cons c cs ih =>
    rw [List.length_cons]
    by_cases hc : isBlank c = true
    · rw [words_cons_blank hc] at h
      exact Nat.le_succ_of_le (ih h)
    · rcases words_cons_visible (by simpa using hc) cs with heq | ⟨v, vs, hcs, heq⟩ <;>
        rw [heq] at h
      · rcases List.mem_cons.1 h with rfl | h
        · exact Nat.succ_le_succ (Nat.zero_le _)
        · exact Nat.le_succ_of_le (ih h)
      · rcases List.mem_cons.1 h with rfl | h
        · exact Nat.succ_le_succ (ih (hcs ▸ List.mem_cons_self))
        · exact Nat.le_succ_of_le (ih (hcs ▸ List.mem_cons_of_mem _ h))

theorem exists_trim (cs : List Char) :
    ∃ front back, AllBlank front ∧ AllBlank back ∧ cs = front ++ (trim cs ++ back) := by
  refine ⟨cs.takeWhile isBlank, ((cs.dropWhile isBlank).reverse.takeWhile isBlank).reverse,
    fun c hc => List.mem_takeWhile_imp hc,
    fun c hc => List.mem_takeWhile_imp (List.mem_reverse.1 hc), ?_⟩
  rw [trim, ← List.reverse_append, List.takeWhile_append_dropWhile, List.reverse_reverse,
    List.takeWhile_append_dropWhile]

theorem words_trim (cs : List Char) : words (trim cs) = words cs := by
  obtain ⟨front, back, hfront, hback, hcs⟩ := exists_trim cs
  rw [hcs, words_blank_append hfront, words_append_blank hback, ← hcs]

/-! ## Blanks -/

/-- The code points of white space. -/
def blankCodes : List Nat :=
  [0x09, 0x0A, 0x0B, 0x0C, 0x0D, 0x20, 0x85, 0xA0, 0x1680, 0x2000, 0x2001, 0x2002, 0x2003, 0x2004,
   0x2005, 0x2006, 0x2007, 0x2008, 0x2009, 0x200A, 0x2028, 0x2029, 0x202F, 0x205F, 0x3000]

theorem mem_blankCodes {c : Char} (h : isBlank c = true) : c.toNat ∈ blankCodes := by
  have hspace : c = ' ' → c.toNat = 0x20 := fun hc => hc ▸ rfl
  simp only [isBlank, spaceRanges, RangeTable.contains, Bool.or_eq_true, Bool.and_eq_true,
    beq_iff_eq, decide_eq_true_eq, Bool.if_false_left, Bool.or_false] at h
  simp only [blankCodes, List.mem_cons, List.not_mem_nil, or_false]
  grind

theorem not_isBlank_of_isWordChar {c : Char} (h : isWordChar c = true) : isBlank c = false := by
  have hnone : (blankCodes.all fun n => !isWordChar (Char.ofNat n)) = true := by decide +kernel
  by_contra hblank
  have hcode := List.all_eq_true.1 hnone _ (mem_blankCodes (by simpa using hblank))
  rw [Char.ofNat_toNat, h] at hcode
  cases hcode

theorem not_isWordChar_of_isBlank {c : Char} (h : isBlank c = true) : isWordChar c = false := by
  rw [← Bool.not_eq_true]
  intro hword
  rw [not_isBlank_of_isWordChar hword] at h
  cases h

end LeakScan.Text
