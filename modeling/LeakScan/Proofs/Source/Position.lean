import LeakScan.Proofs.Source
import LeakScan.Proofs.Text.Words

/-!
# LeakScan.Proofs.Source.Position

Offsets of a source file, and their lines and columns.

* `Fresh` — a front of the text behind which a line starts; `exists_fresh` cuts a text there.
* `lineStart?_of_fresh`, `lineText_of_fresh`, `splitOn_of_fresh` — where a line starts and what is
  on it.
* `lineColumn_of_fresh`, `lineColumn_front` — line and column of a place between two characters.
* `Holds`, `lineColumn_holds` — every offset is on the line that it is given.
* `Sought`, `indexOf?` — searching the table of line starts, found or not, leads to that line.
* `lineColumn_exact` — offsets between characters and positions correspond one to one.
-/

namespace LeakScan.Source

open Text

/-! ## Lines -/

/-- A line starts behind this front of a text. -/
def Fresh (front : List Char) : Prop := front = [] ∨ ∃ before, front = before ++ ['\n']

theorem exists_fresh (cs : List Char) :
    ∃ front tail, cs = front ++ tail ∧ Fresh front ∧ '\n' ∉ tail := by
  by_cases h : '\n' ∈ cs
  · obtain ⟨before, tail, rfl, htail⟩ := exists_last_separator h
    exact ⟨before ++ ['\n'], tail, by simp, .inr ⟨before, rfl⟩, htail⟩
  · exact ⟨[], cs, rfl, .inl rfl, h⟩

theorem startsAfter_eq_nil {cs : List Char} (h : '\n' ∉ cs) (offset : Nat) :
    startsAfter offset cs = [] := by
  rw [← List.length_eq_zero_iff, length_startsAfter]
  exact List.count_eq_zero_of_not_mem h

theorem length_lineStarts_append {s : Source} {front back : List Char}
    (h : s.text = front ++ back) : s.lineStarts.length = 1 + front.count '\n' + back.count '\n' := by
  rw [lineStarts, List.length_cons, length_startsAfter, h, List.count_append]
  omega

/-- The last line that starts up to there starts at its end. -/
theorem getLast?_of_fresh {front : List Char} (h : Fresh front) :
    (0 :: startsAfter 0 front).getLast? = some (byteSize front) := by
  rcases h with rfl | ⟨before, rfl⟩
  · rfl
  · rw [startsAfter_append, ← List.cons_append, byteSize_append, Nat.zero_add]
    exact List.getLast?_concat

theorem lineStart?_of_fresh {s : Source} {front back : List Char} (h : s.text = front ++ back)
    (hfresh : Fresh front) : s.lineStart? (1 + front.count '\n') = some (byteSize front) := by
  have hlength : (0 :: startsAfter 0 front).length = front.count '\n' + 1 := by
    rw [List.length_cons, length_startsAfter]
  have hlast := getLast?_of_fresh hfresh
  rw [List.getLast?_eq_getElem?, hlength, Nat.add_sub_cancel] at hlast
  rw [lineStart?, if_neg (by simp), Nat.add_sub_cancel_left, lineStarts, h, startsAfter_append,
    ← List.cons_append, List.getElem?_append_left (by omega), hlast]

/-- What stands behind a fresh front up to the next line feed is a line. -/
theorem splitOn_of_fresh {front line back : List Char} (hfresh : Fresh front) (hline : '\n' ∉ line)
    (hback : ∀ c ∈ back.head?, c = '\n') :
    (splitOn '\n' (front ++ (line ++ back)))[front.count '\n']? = some line := by
  have hfirst : ∃ pieces, splitOn '\n' (line ++ back) = line :: pieces := by
    cases back with
    | nil => exact ⟨[], by rw [List.append_nil, splitOn_eq_singleton hline]⟩
    | cons c back =>
      cases hback c rfl
      exact ⟨splitOn '\n' back, by rw [splitOn_append_cons, splitOn_eq_singleton hline]; rfl⟩
  obtain ⟨pieces, hpieces⟩ := hfirst
  rcases hfresh with rfl | ⟨before, rfl⟩
  · rw [List.nil_append, hpieces]
    rfl
  · have hcount : (before ++ ['\n']).count '\n' = (splitOn '\n' before).length := by
      rw [length_splitOn, List.count_append, Nat.add_comm]
      rfl
    rw [List.append_assoc, List.singleton_append, splitOn_append_cons, hcount, hpieces,
      List.getElem?_append_right (Nat.le_refl _), Nat.sub_self]
    rfl

theorem lineText_of_fresh {s : Source} {front line back : List Char}
    (h : s.text = front ++ (line ++ back)) (hfresh : Fresh front) (hline : '\n' ∉ line)
    (hback : ∀ c ∈ back.head?, c = '\n') :
    s.lineText (1 + front.count '\n') = dropReturns line := by
  have hstands : Stands s.text (byteSize front) line := ⟨front, back, by simp [h], rfl⟩
  have hnone : line.count '\n' = 0 := List.count_eq_zero_of_not_mem hline
  rw [lineText, lineStart?_of_fresh h hfresh]
  cases back with
  | nil =>
    have hlast : s.lineStarts[1 + front.count '\n']? = none := by
      have hend := length_lineStarts_append h
      rw [List.append_nil, hnone] at hend
      exact List.getElem?_eq_none (by omega)
    have hsize : s.size = byteSize front + byteSize line := by
      rw [size, h, List.append_nil, byteSize_append]
    simp only [hlast, hsize, hstands.slice?, Option.getD_some]
  | cons c back =>
    cases hback c rfl
    have hbehind : s.text = (front ++ line ++ ['\n']) ++ back := by simp [h]
    have hnext := lineStart?_of_fresh hbehind (.inr ⟨_, rfl⟩)
    rw [lineStart?, if_neg (by simp), List.count_append, List.count_append, hnone,
      Nat.add_sub_cancel_left, List.count_singleton_self, Nat.add_zero, Nat.add_comm] at hnext
    have hsize : byteSize (front ++ line ++ ['\n']) - 1 = byteSize front + byteSize line := by
      rw [byteSize_append, byteSize_append]
      rfl
    simp only [hnext, hsize, hstands.slice?, Option.getD_some]

/-! ## Places between characters -/

theorem lineColumn_of_fresh {s : Source} {front tail back : List Char}
    (h : s.text = front ++ (tail ++ back)) (hfresh : Fresh front) (htail : '\n' ∉ tail) :
    s.lineColumn (byteSize front + byteSize tail) = (1 + front.count '\n', tail.length) := by
  have hplace : s.text = (front ++ tail) ++ back := by rw [h, List.append_assoc]
  have hstands : Stands s.text (byteSize front) tail := ⟨front, back, hplace, rfl⟩
  have hinside : min (byteSize front + byteSize tail) s.size = byteSize front + byteSize tail :=
    Nat.min_eq_left hstands.stop_le
  have hreached := lineStarts_reached hplace
  rw [byteSize_append, startsAfter_append, startsAfter_eq_nil htail, List.append_nil] at hreached
  rw [lineColumn]
  simp only [hinside, hreached, getLast?_of_fresh hfresh, Option.getD_some, hstands.slice?,
    List.length_cons, length_startsAfter, Nat.add_comm 1]

theorem lineColumn_front {s : Source} {front back : List Char} (h : s.text = front ++ back) :
    s.lineColumn (byteSize front) =
      (1 + front.count '\n', (front.reverse.takeWhile (· != '\n')).length) := by
  obtain ⟨before, tail, rfl, hfresh, htail⟩ := exists_fresh front
  have hcount : (before ++ tail).count '\n' = before.count '\n' := by
    rw [List.count_append, List.count_eq_zero_of_not_mem htail, Nat.add_zero]
  have hcolumn : (before ++ tail).reverse.takeWhile (· != '\n') = tail.reverse := by
    have hpass : ∀ c ∈ tail.reverse, (c != '\n') = true :=
      bne_of_not_mem fun hmem => htail (List.mem_reverse.1 hmem)
    rw [List.reverse_append, List.takeWhile_append_of_pos hpass]
    rcases hfresh with rfl | ⟨earlier, rfl⟩
    · simp
    · simp
  rw [hcount, hcolumn, List.length_reverse, byteSize_append]
  exact lineColumn_of_fresh (by rw [h, List.append_assoc]) hfresh htail

/-- A place between characters is found again from its line and its column. -/
theorem lineColumn_inverse {s : Source} {o : Nat} (h : Boundary s.text o) :
    ∃ start line, s.lineStart? (s.lineColumn o).1 = some start ∧
      (splitOn '\n' s.text)[(s.lineColumn o).1 - 1]? = some line ∧
      s.lineText (s.lineColumn o).1 = dropReturns line ∧
      start + byteSize (line.take (s.lineColumn o).2) = o := by
  obtain ⟨front, back, htext, rfl⟩ := boundary_iff.1 h
  obtain ⟨before, tail, rfl, hfresh, htail⟩ := exists_fresh front
  -- the line goes on up to the next line feed
  have hrest : back = back.takeWhile (· != '\n') ++ back.dropWhile (· != '\n') :=
    List.takeWhile_append_dropWhile.symm
  have hend : ∀ c ∈ (back.dropWhile (· != '\n')).head?, c = '\n' := by
    intro c hc
    have hnot := List.head?_dropWhile_not (· != '\n') back
    rw [Option.mem_def.1 hc] at hnot
    simpa using hnot
  have hline : '\n' ∉ tail ++ back.takeWhile (· != '\n') := by
    rw [List.mem_append, not_or]
    refine ⟨htail, fun hmem => ?_⟩
    have hpass := List.mem_takeWhile_imp hmem
    simp at hpass
  have hplace : s.text = before ++ (tail ++ back) := by rw [htext, List.append_assoc]
  have hwhole : s.text = before ++ ((tail ++ back.takeWhile (· != '\n')) ++
      back.dropWhile (· != '\n')) := by
    rw [List.append_assoc, ← hrest, hplace]
  rw [byteSize_append, lineColumn_of_fresh hplace hfresh htail, Nat.add_sub_cancel_left]
  refine ⟨byteSize before, tail ++ back.takeWhile (· != '\n'), lineStart?_of_fresh hplace hfresh, ?_,
    lineText_of_fresh hwhole hfresh hline hend, ?_⟩
  · rw [hwhole]
    exact splitOn_of_fresh hfresh hline hend
  · rw [List.take_left']
    rfl

theorem lineColumn_strictMono {s : Source} {o o' : Nat} (ho : Boundary s.text o)
    (ho' : Boundary s.text o') (h : o < o') :
    Prod.Lex (· < ·) (· < ·) (s.lineColumn o) (s.lineColumn o') := by
  obtain ⟨front, back, htext, rfl⟩ := boundary_iff.1 ho
  obtain ⟨front', back', htext', rfl⟩ := boundary_iff.1 ho'
  obtain ⟨between, rfl, hne⟩ : ∃ between, front' = front ++ between ∧ between ≠ [] := by
    rcases List.append_eq_append_iff.1 (htext.symm.trans htext') with ⟨between, hfront, -⟩ |
      ⟨between, hfront, -⟩
    · refine ⟨between, hfront, ?_⟩
      rintro rfl
      rw [hfront, List.append_nil] at h
      exact Nat.lt_irrefl _ h
    · rw [hfront, byteSize_append] at h
      omega
  rw [lineColumn_front htext, lineColumn_front htext', List.count_append]
  by_cases hbreak : '\n' ∈ between
  · have hpos : 0 < between.count '\n' := List.count_pos_iff.2 hbreak
    exact .left _ _ (by omega)
  · have hpass : ∀ c ∈ between.reverse, (c != '\n') = true :=
      bne_of_not_mem fun hmem => hbreak (List.mem_reverse.1 hmem)
    rw [List.count_eq_zero_of_not_mem hbreak, Nat.add_zero, List.reverse_append,
      List.takeWhile_append_of_pos hpass, List.length_append, List.length_reverse]
    exact .right _ (by have := List.length_pos_iff.2 hne; omega)

/-! ## All offsets -/

/-- The line starts no later than the offset, and the next one, if there is one, behind it. -/
def Holds (s : Source) (line offset : Nat) : Prop :=
  ∃ start, s.lineStart? line = some start ∧ start ≤ offset ∧
    ∀ next, s.lineStart? (line + 1) = some next → offset < next

/-- The lines that start up to an offset; the first one always does. -/
def reached (s : Source) (offset : Nat) : List Nat := s.lineStarts.takeWhile (· ≤ min offset s.size)

theorem reached_ne_nil (s : Source) (offset : Nat) : s.reached offset ≠ [] := by
  rw [reached, lineStarts, List.takeWhile_cons_of_pos (by simp)]
  exact List.cons_ne_nil _ _

theorem reached_append (s : Source) (offset : Nat) :
    s.reached offset ++ s.lineStarts.dropWhile (· ≤ min offset s.size) = s.lineStarts :=
  List.takeWhile_append_dropWhile

theorem lineColumn_fst (s : Source) (offset : Nat) :
    (s.lineColumn offset).1 = (s.reached offset).length := by
  rw [lineColumn]
  split
  · rfl
  · rfl

theorem lineStart?_lineColumn (s : Source) (offset : Nat) :
    s.lineStart? (s.lineColumn offset).1 = (s.reached offset).getLast? := by
  have hpos : 0 < (s.reached offset).length := List.length_pos_iff.2 (s.reached_ne_nil offset)
  rw [lineColumn_fst, lineStart?, if_neg (by simpa using s.reached_ne_nil offset),
    ← s.reached_append offset, List.getElem?_append_left (by omega), List.getLast?_eq_getElem?]

theorem lineColumn_holds (s : Source) (offset : Nat) :
    Holds s (s.lineColumn offset).1 (min offset s.size) := by
  have hlast := List.getLast?_eq_some_getLast (s.reached_ne_nil offset)
  refine ⟨_, (s.lineStart?_lineColumn offset).trans hlast, ?_, fun next hnext => ?_⟩
  · have hmem := List.mem_takeWhile_imp (List.getLast_mem (s.reached_ne_nil offset))
    exact of_decide_eq_true hmem
  · rw [lineColumn_fst, lineStart?, if_neg (by simp), Nat.add_sub_cancel, ← s.reached_append offset,
      List.getElem?_append_right (Nat.le_refl _), Nat.sub_self, ← List.head?_eq_getElem?] at hnext
    have hnot := List.head?_dropWhile_not (· ≤ min offset s.size) s.lineStarts
    rw [hnext] at hnot
    exact Nat.lt_of_not_le (of_decide_eq_false hnot)

theorem lineColumn_line_bounds (s : Source) (offset : Nat) :
    1 ≤ (s.lineColumn offset).1 ∧ (s.lineColumn offset).1 ≤ s.lineCount := by
  rw [lineColumn_fst]
  exact ⟨List.length_pos_iff.2 (s.reached_ne_nil offset), (List.takeWhile_sublist _).length_le⟩

theorem lineColumn_beyond {s : Source} {offset : Nat} (h : s.size ≤ offset) :
    s.lineColumn offset = s.lineColumn s.size := by
  rw [lineColumn, lineColumn, Nat.min_eq_right h, Nat.min_self]

/-- Inside a character the column is the distance from the start of the line. -/
theorem lineColumn_inside {s : Source} {offset : Nat} (h : ¬Boundary s.text offset)
    (hsize : offset ≤ s.size) :
    ∃ start, s.lineStart? (s.lineColumn offset).1 = some start ∧
      start + (s.lineColumn offset).2 = offset := by
  obtain ⟨start, hstart, hle, -⟩ := s.lineColumn_holds offset
  rw [Nat.min_eq_left hsize] at hle
  refine ⟨start, hstart, ?_⟩
  have hslice : slice? s.text ⟨start, offset⟩ = none := by
    by_contra hsome
    obtain ⟨piece, hpiece⟩ := Option.ne_none_iff_exists'.1 hsome
    exact h (boundary_of_slice? hpiece)
  rw [lineStart?_lineColumn, reached, Nat.min_eq_left hsize] at hstart
  rw [lineColumn]
  simp only [Nat.min_eq_left hsize, hstart, Option.getD_some, hslice]
  exact Nat.add_sub_cancel' hle

/-! ## Searching the table -/

theorem startsAfter_ascend (offset : Nat) (cs : List Char) :
    (startsAfter offset cs).Pairwise (· < ·) := by
  induction cs generalizing offset with
  | nil => exact .nil
  | cons c cs ih =>
    rw [startsAfter]
    split
    · exact .cons (fun start hstart => (between_of_mem_startsAfter hstart).1) (ih _)
    · exact ih _

theorem lineStarts_ascend (s : Source) : s.lineStarts.Pairwise (· < ·) :=
  .cons (fun _ hstart => (between_of_mem_startsAfter hstart).1) (startsAfter_ascend 0 s.text)

/-- What a search for a number in an ascending table answers: the place where it is found, or
the place where it would have to be put. -/
inductive Sought (table : List Nat) (x : Nat) : Except Nat Nat → Prop where
  | found {i : Nat} (here : table[i]? = some x) : Sought table x (.ok i)
  | missing {i : Nat} (inside : i ≤ table.length) (before : ∀ y ∈ table.take i, y < x)
      (after : ∀ y ∈ table.drop i, x < y) : Sought table x (.error i)

/-- The line that the answer points to, counted from zero; it stands before a place where the offset
would have to be put. -/
def indexOf? : Except Nat Nat → Option Nat
  | .ok i => some i
  | .error i => if i = 0 then none else some (i - 1)

theorem takeWhile_eq_take {table : List Nat} {x i : Nat} (hbefore : ∀ y ∈ table.take i, y ≤ x)
    (hafter : ∀ y ∈ table.drop i, x < y) : table.takeWhile (· ≤ x) = table.take i := by
  have hrest : (table.drop i).takeWhile (· ≤ x) = [] := by
    cases hdrop : table.drop i with
    | nil => rfl
    | cons y rest =>
      have hy := hafter y (by simp [hdrop])
      exact List.takeWhile_cons_of_neg (by simpa using hy)
  calc table.takeWhile (· ≤ x) = (table.take i ++ table.drop i).takeWhile (· ≤ x) := by
        rw [List.take_append_drop]
    _ = table.take i := by
        rw [List.takeWhile_append_of_pos (by simpa using hbefore), hrest, List.append_nil]

/-- In an ascending table smaller numbers stand before a number and larger ones behind it. -/
theorem ascend_around {table : List Nat} (hascend : table.Pairwise (· < ·)) {x i : Nat}
    (h : table[i]? = some x) :
    (∀ y ∈ table.take (i + 1), y ≤ x) ∧ ∀ y ∈ table.drop (i + 1), x < y := by
  obtain ⟨hi, rfl⟩ := List.getElem?_eq_some_iff.1 h
  have hsplit : table = table.take i ++ table[i] :: table.drop (i + 1) := by
    rw [← List.drop_eq_getElem_cons hi, List.take_append_drop]
  rw [hsplit, List.pairwise_append, List.pairwise_cons] at hascend
  obtain ⟨-, ⟨hafter, -⟩, hbefore⟩ := hascend
  refine ⟨fun y hy => ?_, hafter⟩
  rw [List.take_succ_eq_append_getElem hi, List.mem_append, List.mem_singleton] at hy
  rcases hy with hy | rfl
  · exact Nat.le_of_lt (hbefore y hy _ List.mem_cons_self)
  · exact Nat.le_refl _

/-- However the table is searched, the answer leads to the line, and never before the first. -/
theorem indexOf?_of_sought {s : Source} {offset : Nat} {answer : Except Nat Nat}
    (h : Sought s.lineStarts (min offset s.size) answer) :
    indexOf? answer = some ((s.lineColumn offset).1 - 1) := by
  rw [lineColumn_fst, reached]
  cases h with
  | @found i here =>
    obtain ⟨hbefore, hafter⟩ := ascend_around s.lineStarts_ascend here
    have hi : i < s.lineStarts.length := (List.getElem?_eq_some_iff.1 here).1
    rw [takeWhile_eq_take hbefore hafter, List.length_take, Nat.min_eq_left hi]
    rfl
  | @missing i inside before after =>
    have hpos : i ≠ 0 := by
      rintro rfl
      -- the first line starts at zero
      have hfirst := after 0 List.mem_cons_self
      exact Nat.not_lt_zero _ hfirst
    rw [takeWhile_eq_take (fun y hy => Nat.le_of_lt (before y hy)) after, List.length_take,
      Nat.min_eq_left inside, indexOf?, if_neg hpos]

theorem exists_sought {table : List Nat} (hascend : table.Pairwise (· < ·)) (x : Nat) :
    ∃ answer, Sought table x answer := by
  by_cases hmem : x ∈ table
  · obtain ⟨i, hi⟩ := List.mem_iff_getElem?.1 hmem
    exact ⟨.ok i, .found hi⟩
  · induction table with
    | nil => exact ⟨.error 0, .missing (Nat.le_refl 0) (by simp) (by simp)⟩
    | cons y rest ih =>
      rw [List.pairwise_cons] at hascend
      rw [List.mem_cons, not_or] at hmem
      by_cases hy : y < x
      · obtain ⟨answer, hanswer⟩ := ih hascend.2 hmem.2
        cases hanswer with
        | found here => exact absurd (List.mem_of_getElem? here) hmem.2
        | @missing i inside before after =>
          refine ⟨.error (i + 1), .missing (Nat.succ_le_succ inside) ?_ after⟩
          exact List.forall_mem_cons.2 ⟨hy, before⟩
      · have hlater : x < y := by omega
        refine ⟨.error 0, .missing (Nat.zero_le _) (by simp) ?_⟩
        exact List.forall_mem_cons.2 ⟨hlater, fun z hz => Nat.lt_trans hlater (hascend.1 z hz)⟩

/-- What every offset gets, be it between characters, inside of one or beyond the text. -/
structure Located (s : Source) (offset : Nat) : Prop where
  line_pos : 1 ≤ (s.lineColumn offset).1
  line_le : (s.lineColumn offset).1 ≤ s.lineCount
  holds : Holds s (s.lineColumn offset).1 (min offset s.size)
  beyond : s.size ≤ offset → s.lineColumn offset = s.lineColumn s.size
  inside : ¬Boundary s.text offset → offset ≤ s.size →
    ∃ start, s.lineStart? (s.lineColumn offset).1 = some start ∧
      start + (s.lineColumn offset).2 = offset
  searched : ∃ answer, Sought s.lineStarts (min offset s.size) answer
  indexed : ∀ answer, Sought s.lineStarts (min offset s.size) answer →
    indexOf? answer = some ((s.lineColumn offset).1 - 1)

theorem located (s : Source) (offset : Nat) : Located s offset where
  line_pos := (s.lineColumn_line_bounds offset).1
  line_le := (s.lineColumn_line_bounds offset).2
  holds := s.lineColumn_holds offset
  beyond := lineColumn_beyond
  inside := lineColumn_inside
  searched := exists_sought s.lineStarts_ascend _
  indexed := fun _ => indexOf?_of_sought

/-- Places between characters and positions correspond one to one. The line counts the line feeds
before a place and the column the characters since the last of them; the place is found again
from both; and later places have later positions. All other offsets are on the line that holds
them. -/
theorem lineColumn_exact (s : Source) :
    (∀ front back, s.text = front ++ back →
      s.lineColumn (byteSize front) =
        (1 + front.count '\n', (front.reverse.takeWhile (· != '\n')).length)) ∧
    (∀ o, Boundary s.text o → ∃ start line, s.lineStart? (s.lineColumn o).1 = some start ∧
      (splitOn '\n' s.text)[(s.lineColumn o).1 - 1]? = some line ∧
      s.lineText (s.lineColumn o).1 = dropReturns line ∧
      start + byteSize (line.take (s.lineColumn o).2) = o) ∧
    (∀ o o', Boundary s.text o → Boundary s.text o' → o < o' →
      Prod.Lex (· < ·) (· < ·) (s.lineColumn o) (s.lineColumn o')) ∧
    ∀ o, Located s o :=
  ⟨fun _ _ => lineColumn_front, fun _ => lineColumn_inverse, fun _ _ => lineColumn_strictMono,
    s.located⟩

/-- Three lines, with a carriage return at the end of the first and a character of two bytes in the
second. -/
def threeLines : Source :=
  ofChars "a.js" "a.js" .javascript ['a', 'b', '\r', '\n', 'c', 'd', 'é', '\n', 'f']

theorem lineColumn_exact_threeLines :
    threeLines.lineColumn 8 = (2, 3) ∧
    (∃ start line, threeLines.lineStart? (threeLines.lineColumn 3).1 = some start ∧
      (splitOn '\n' threeLines.text)[(threeLines.lineColumn 3).1 - 1]? = some line ∧
      threeLines.lineText (threeLines.lineColumn 3).1 = dropReturns line ∧
      start + byteSize (line.take (threeLines.lineColumn 3).2) = 3) ∧
    Prod.Lex (· < ·) (· < ·) (threeLines.lineColumn 8) (threeLines.lineColumn 9) ∧
    ¬Boundary threeLines.text 7 ∧ Located threeLines 7 ∧ Located threeLines 99 := by
  obtain ⟨hfront, hinverse, hmono, hlocated⟩ := lineColumn_exact threeLines
  have hboundary : ∀ o ∈ [3, 8, 9], Boundary threeLines.text o := by
    simp only [Boundary]
    decide +kernel
  refine ⟨?_, hinverse 3 (hboundary 3 (by decide)),
    hmono 8 9 (hboundary 8 (by decide)) (hboundary 9 (by decide)) (by decide), by rw [Boundary]; decide +kernel,
    hlocated 7, hlocated 99⟩
  exact hfront ['a', 'b', '\r', '\n', 'c', 'd', 'é'] ['\n', 'f'] rfl

end LeakScan.Source
