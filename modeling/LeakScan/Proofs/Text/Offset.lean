import Mathlib.Data.List.Basic
import LeakScan.Text.Character
import LeakScan.Text.Offset

/-!
# LeakScan.Proofs.Text.Offset

Byte offsets of the pieces of a text.

* `splitAt?_eq_some_iff` — cutting at an offset undoes joining.
* `Stands cs offset piece` — the piece is found in the text at that offset; `Stands.slice?` cuts it
  out, `Stands.part` goes to a part of it, `Stands.trans` to a piece of the piece.
* `Boundary` — an offset between two characters.
* `Stretch` — a span of the text with both ends on boundaries that is not empty.
-/

namespace LeakScan.Text

@[simp] theorem byteSize_nil : byteSize [] = 0 := rfl

@[simp] theorem byteSize_cons (c : Char) (cs : List Char) :
    byteSize (c :: cs) = c.utf8Size + byteSize cs := rfl

@[simp] theorem byteSize_append (a b : List Char) :
    byteSize (a ++ b) = byteSize a + byteSize b := by
  induction a with
  | nil => simp
  | cons c cs ih => simp [ih, Nat.add_assoc]

@[simp] theorem byteSize_reverse (cs : List Char) : byteSize cs.reverse = byteSize cs := by
  induction cs with
  | nil => rfl
  | cons c cs ih => simp [ih, Nat.add_comm]

theorem length_le_byteSize (cs : List Char) : cs.length ≤ byteSize cs := by
  induction cs with
  | nil => exact Nat.le_refl 0
  | cons c cs ih =>
    have hpos := c.utf8Size_pos
    rw [List.length_cons, byteSize_cons]
    omega

theorem byteSize_pos {cs : List Char} (h : cs ≠ []) : 0 < byteSize cs :=
  Nat.lt_of_lt_of_le (List.length_pos_iff.2 h) (length_le_byteSize cs)

/-! ## Cutting -/

theorem splitAt?_byteSize (front back : List Char) :
    splitAt? (front ++ back) (byteSize front) = some (front, back) := by
  induction front with
  | nil => rw [List.nil_append, byteSize_nil, splitAt?]
  | cons c front ih =>
    have hpos := c.utf8Size_pos
    obtain ⟨n, hn⟩ : ∃ n, byteSize (c :: front) = n + 1 :=
      ⟨c.utf8Size + byteSize front - 1, by rw [byteSize_cons]; omega⟩
    have hrest : n + 1 - c.utf8Size = byteSize front := by
      rw [← hn, byteSize_cons, Nat.add_sub_cancel_left]
    have hfits : c.utf8Size ≤ n + 1 := by
      rw [← hn, byteSize_cons]
      exact Nat.le_add_right _ _
    rw [hn, List.cons_append, splitAt?, if_pos hfits, hrest, ih]

theorem splitAt?_eq_some_iff {cs front back : List Char} {n : Nat} :
    splitAt? cs n = some (front, back) ↔ cs = front ++ back ∧ byteSize front = n := by
  constructor
  · intro h
    fun_induction splitAt? cs n generalizing front back with
    | case1 cs =>
      cases h
      exact ⟨rfl, rfl⟩
    | case2 => cases h
    | case3 c cs n hfits f b hsplit ih =>
      cases h
      obtain ⟨hcs, hsize⟩ := ih hsplit
      refine ⟨by rw [hcs]; rfl, ?_⟩
      rw [byteSize_cons, hsize]
      omega
    | case4 => cases h
    | case5 => cases h
  · rintro ⟨rfl, rfl⟩
    exact splitAt?_byteSize front back

/-- The piece is found in the text at the byte offset. -/
def Stands (cs : List Char) (offset : Nat) (piece : List Char) : Prop :=
  ∃ front back, cs = front ++ piece ++ back ∧ byteSize front = offset

namespace Stands

variable {cs piece : List Char} {offset : Nat}

theorem slice? (h : Stands cs offset piece) :
    slice? cs ⟨offset, offset + byteSize piece⟩ = some piece := by
  obtain ⟨front, back, rfl, rfl⟩ := h
  rw [Text.slice?, if_pos (Nat.le_add_right _ _), List.append_assoc, splitAt?_byteSize]
  simp only [Nat.add_sub_cancel_left]
  rw [splitAt?_byteSize]
  rfl

theorem part {a b c : List Char} (h : Stands cs offset (a ++ b ++ c)) :
    Stands cs (offset + byteSize a) b := by
  obtain ⟨front, back, rfl, rfl⟩ := h
  exact ⟨front ++ a, c ++ back, by simp, by simp⟩

theorem trans {inner : List Char} {n : Nat} (h : Stands cs offset piece)
    (hinner : Stands piece n inner) : Stands cs (offset + n) inner := by
  obtain ⟨front, back, rfl, rfl⟩ := hinner
  exact h.part

theorem stop_le (h : Stands cs offset piece) : offset + byteSize piece ≤ byteSize cs := by
  obtain ⟨front, back, rfl, rfl⟩ := h
  simp

end Stands

/-! ## Boundaries -/

/-- An offset between two characters, or at an end of the text. -/
def Boundary (cs : List Char) (offset : Nat) : Prop := (splitAt? cs offset).isSome = true

theorem boundary_iff {cs : List Char} {offset : Nat} :
    Boundary cs offset ↔ ∃ front back, cs = front ++ back ∧ byteSize front = offset := by
  rw [Boundary, Option.isSome_iff_exists]
  constructor
  · rintro ⟨⟨front, back⟩, h⟩
    exact ⟨front, back, splitAt?_eq_some_iff.1 h⟩
  · rintro ⟨front, back, h⟩
    exact ⟨(front, back), splitAt?_eq_some_iff.2 h⟩

theorem boundary_zero (cs : List Char) : Boundary cs 0 := boundary_iff.2 ⟨[], cs, rfl, rfl⟩

theorem boundary_byteSize (cs : List Char) : Boundary cs (byteSize cs) :=
  boundary_iff.2 ⟨cs, [], by simp, rfl⟩

theorem boundary_of_slice? {cs piece : List Char} {start stop : Nat}
    (h : slice? cs ⟨start, stop⟩ = some piece) : Boundary cs stop := by
  rw [slice?] at h
  split at h
  · rename_i hle
    split at h
    · rename_i front back hfront
      obtain ⟨⟨inner, rest⟩, hinner, -⟩ := Option.map_eq_some_iff.1 h
      obtain ⟨rfl, rfl⟩ := splitAt?_eq_some_iff.1 hfront
      obtain ⟨rfl, hsize⟩ := splitAt?_eq_some_iff.1 hinner
      refine boundary_iff.2 ⟨front ++ inner, rest, by rw [List.append_assoc], ?_⟩
      rw [byteSize_append, hsize]
      exact Nat.add_sub_cancel' hle
    · cases h
  · cases h

theorem Boundary.le {cs : List Char} {offset : Nat} (h : Boundary cs offset) :
    offset ≤ byteSize cs := by
  obtain ⟨front, back, rfl, rfl⟩ := boundary_iff.1 h
  simp

namespace Stands

variable {cs piece : List Char} {offset : Nat}

theorem start_boundary (h : Stands cs offset piece) : Boundary cs offset := by
  obtain ⟨front, back, rfl, rfl⟩ := h
  exact boundary_iff.2 ⟨front, piece ++ back, by simp, rfl⟩

theorem stop_boundary (h : Stands cs offset piece) : Boundary cs (offset + byteSize piece) := by
  obtain ⟨front, back, rfl, rfl⟩ := h
  exact boundary_iff.2 ⟨front ++ piece, back, rfl, by simp⟩

end Stands

/-- A stretch of the text: not empty, inside the text, and no character is cut. -/
structure Stretch (cs : List Char) (span : Span) : Prop where
  nonempty : span.start < span.stop
  inside : span.stop ≤ byteSize cs
  starts : Boundary cs span.start
  stops : Boundary cs span.stop

theorem Boundary.stretch {cs : List Char} {start stop : Nat} (hstart : Boundary cs start)
    (hstop : Boundary cs stop) (h : start < stop) : Stretch cs ⟨start, stop⟩ :=
  ⟨h, hstop.le, hstart, hstop⟩

theorem Stands.stretch {cs piece : List Char} {offset : Nat} (h : Stands cs offset piece)
    (hne : piece ≠ []) : Stretch cs ⟨offset, offset + byteSize piece⟩ :=
  h.start_boundary.stretch h.stop_boundary (Nat.lt_add_of_pos_right (byteSize_pos hne))

/-! ## Blanks around a text -/

theorem head?_dropWhile_false {p : Char → Bool} {cs : List Char} {c : Char}
    (h : c ∈ (cs.dropWhile p).head?) : p c = false := by
  have hnot := List.head?_dropWhile_not p cs
  rw [Option.mem_def.1 h] at hnot
  exact hnot

theorem head?_dropWhile_isBlank {cs : List Char} {c : Char}
    (h : c ∈ (cs.dropWhile isBlank).head?) : isBlank c = false :=
  head?_dropWhile_false h

theorem trim_split (cs : List Char) :
    ∃ after, cs = cs.takeWhile isBlank ++ trim cs ++ after := by
  refine ⟨((cs.dropWhile isBlank).reverse.takeWhile isBlank).reverse, ?_⟩
  rw [trim, List.append_assoc, ← List.reverse_append, List.takeWhile_append_dropWhile,
    List.reverse_reverse, List.takeWhile_append_dropWhile]

theorem Stands.trim {cs piece : List Char} {offset : Nat} (h : Stands cs offset piece) :
    Stands cs (offset + byteSize (piece.takeWhile isBlank)) (trim piece) := by
  obtain ⟨after, hsplit⟩ := trim_split piece
  rw [hsplit] at h
  exact h.part

end LeakScan.Text
