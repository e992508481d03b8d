import LeakScan.Proofs.Text.Offset
import LeakScan.Source

/-!
# LeakScan.Proofs.Source

The table of lines of a source file.

* `startsAfter_append`, `length_startsAfter` — one line starts after each line feed.
* `lineStarts_reached` — the lines that start no later than a place are those of the text before it.
* `lineColumn_line` — the line of a place counts the line feeds before it.
-/

namespace LeakScan.Source

open Text

theorem startsAfter_append (offset : Nat) (a b : List Char) :
    startsAfter offset (a ++ b) = startsAfter offset a ++ startsAfter (offset + byteSize a) b := by
  induction a generalizing offset with
  | nil => simp [startsAfter]
  | cons c cs ih =>
    simp only [List.cons_append, startsAfter, ih, byteSize_cons, Nat.add_assoc]
    split
    · rfl
    · rfl

theorem length_startsAfter (offset : Nat) (cs : List Char) :
    (startsAfter offset cs).length = cs.count '\n' := by
  induction cs generalizing offset with
  | nil => rfl
  | cons c cs ih =>
    simp only [startsAfter, List.count_cons]
    split
    · rw [List.length_cons, ih]
    · rw [ih, Nat.add_zero]

/-- A line starts behind its line feed and no later than the end. -/
theorem between_of_mem_startsAfter {offset start : Nat} {cs : List Char}
    (h : start ∈ startsAfter offset cs) : offset < start ∧ start ≤ offset + byteSize cs := by
  induction cs generalizing offset with
  | nil => cases h
  | cons c cs ih =>
    have hpos := c.utf8Size_pos
    simp only [startsAfter] at h
    rw [byteSize_cons]
    split at h
    · rcases List.mem_cons.1 h with rfl | hmem
      · omega
      · have hbetween := ih hmem
        omega
    · have hbetween := ih h
      omega

theorem lineStarts_reached {s : Source} {front back : List Char} (h : s.text = front ++ back) :
    s.lineStarts.takeWhile (· ≤ byteSize front) = 0 :: startsAfter 0 front := by
  have hreached : ∀ start ∈ 0 :: startsAfter 0 front, decide (start ≤ byteSize front) = true := by
    intro start hstart
    rw [decide_eq_true_eq]
    rcases List.mem_cons.1 hstart with rfl | hmem
    · exact Nat.zero_le _
    · simpa using (between_of_mem_startsAfter hmem).2
  have hbeyond : (startsAfter (byteSize front) back).takeWhile (· ≤ byteSize front) = [] := by
    cases hstarts : startsAfter (byteSize front) back with
    | nil => rfl
    | cons start rest =>
      have hmem : start ∈ startsAfter (byteSize front) back := by simp [hstarts]
      have hlater := (between_of_mem_startsAfter hmem).1
      exact List.takeWhile_cons_of_neg (by simpa using hlater)
  rw [lineStarts, h, startsAfter_append, Nat.zero_add, ← List.cons_append,
    List.takeWhile_append_of_pos hreached, hbeyond, List.append_nil]

theorem lineColumn_line {s : Source} {front back : List Char} (h : s.text = front ++ back) :
    (s.lineColumn (byteSize front)).1 = 1 + front.count '\n' := by
  have hinside : min (byteSize front) s.size = byteSize front := by
    rw [size, h, byteSize_append]
    exact Nat.min_eq_left (Nat.le_add_right _ _)
  have hlength : (0 :: startsAfter 0 front).length = 1 + front.count '\n' := by
    rw [List.length_cons, length_startsAfter, Nat.add_comm]
  rw [lineColumn]
  simp only [hinside, lineStarts_reached h]
  split
  · exact hlength
  · exact hlength

end LeakScan.Source
