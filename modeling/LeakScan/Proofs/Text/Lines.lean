import LeakScan.Proofs.Json.Number
import LeakScan.Proofs.Text.Literal
import LeakScan.Proofs.Text.Words

/-!
# LeakScan.Proofs.Text.Lines

Texts that are read line by line.

* `takeWhile_append_stop` — a run of characters up to one that does not belong to it.
* `trim_append_blank`, `trimEnd_append_cons` — what is cut off the ends of a line.
* `lined` — lines as one text; `filterMap_textLines` reads them back.
* `readNumber?_toDigits`, `splitFirst?_eq_some_iff` — the parts of a line.
-/

namespace LeakScan.Text

/-! ## Runs of characters -/

section Runs

variable {p : Char → Bool} {front back : List Char}

theorem takeWhile_append_stop (hfront : ∀ c ∈ front, p c = true)
    (hback : ∀ c ∈ back.head?, p c = false) : (front ++ back).takeWhile p = front := by
  rw [List.takeWhile_append_of_pos hfront]
  cases back with
  | nil => simp
  | cons c back => simp [hback c rfl]

theorem dropWhile_append_stop (hfront : ∀ c ∈ front, p c = true)
    (hback : ∀ c ∈ back.head?, p c = false) : (front ++ back).dropWhile p = back := by
  rw [List.dropWhile_append_of_pos hfront]
  cases back with
  | nil => rfl
  | cons c back => simp [hback c rfl]

end Runs

theorem splitFirst?_eq_some_iff {sep : Char} {cs front back : List Char} :
    splitFirst? sep cs = some (front, back) ↔ cs = front ++ sep :: back ∧ sep ∉ front := by
  constructor
  · intro h
    have hsplit : cs.takeWhile (· != sep) ++ cs.dropWhile (· != sep) = cs :=
      List.takeWhile_append_dropWhile
    have hstop := List.head?_dropWhile_not (· != sep) cs
    rw [splitFirst?] at h
    split at h
    · cases h
    · rename_i c rest hrest
      cases h
      rw [hrest] at hsplit hstop
      have hc : c = sep := by simpa using hstop
      rw [hc] at hsplit
      exact ⟨hsplit.symm, fun hmem => by simpa using List.mem_takeWhile_imp hmem⟩
  · rintro ⟨rfl, hfront⟩
    have hstop : ∀ c ∈ (sep :: back).head?, (c != sep) = false := by simp
    rw [splitFirst?, dropWhile_append_stop (bne_of_not_mem hfront) hstop,
      takeWhile_append_stop (bne_of_not_mem hfront) hstop]

/-! ## The ends of a line -/

theorem trimEnd_append_blank {gap : List Char} (h : AllBlank gap) (cs : List Char) :
    trimEnd (cs ++ gap) = trimEnd cs := by
  rw [trimEnd, trimEnd, List.reverse_append,
    List.dropWhile_append_of_pos fun c hc => h c (List.mem_reverse.1 hc)]

theorem trimEnd_append_cons {c : Char} (h : isBlank c = false) (front back : List Char) :
    trimEnd (front ++ c :: back) = front ++ c :: trimEnd back := by
  have hreverse : (front ++ c :: back).reverse = back.reverse ++ c :: front.reverse := by simp
  rw [trimEnd, trimEnd, hreverse, dropWhile_cut h]
  simp

theorem trimEnd_eq_self {cs : List Char} (h : ∀ c ∈ cs.getLast?, isBlank c = false) :
    trimEnd cs = cs := by
  rw [← List.head?_reverse] at h
  have hdrop := dropWhile_append_stop (p := isBlank) (List.forall_mem_nil _) h
  rw [List.nil_append] at hdrop
  rw [trimEnd, hdrop, List.reverse_reverse]

theorem trimStart_eq_self {cs : List Char} (h : ∀ c ∈ cs.head?, isBlank c = false) :
    trimStart cs = cs :=
  dropWhile_append_stop (List.forall_mem_nil _) h

theorem trim_append_blank {gap : List Char} (h : AllBlank gap) (cs : List Char) :
    trim (cs ++ gap) = trim cs := by
  have hgap : gap.dropWhile isBlank = [] := List.dropWhile_eq_nil_iff.2 h
  change trimEnd ((cs ++ gap).dropWhile isBlank) = trimEnd (cs.dropWhile isBlank)
  rw [List.dropWhile_append]
  split
  · rename_i hnone
    rw [hgap, List.isEmpty_iff.1 hnone]
  · exact trimEnd_append_blank h _

theorem trim_eq_nil_iff {cs : List Char} : trim cs = [] ↔ AllBlank cs := by
  constructor
  · intro h
    obtain ⟨front, back, hfront, hback, hcs⟩ := exists_trim cs
    rw [hcs, h]
    exact hfront.append hback
  · exact fun h => trim_append_blank h []

theorem exists_dropReturn (line : List Char) : ∃ gap, AllBlank gap ∧ line = dropReturn line ++ gap := by
  rw [dropReturn]
  split
  · rename_i rest hline
    refine ⟨['\r'], allBlank_nil.cons (by decide), ?_⟩
    rw [← List.reverse_reverse line, hline, List.reverse_cons]
  · exact ⟨[], allBlank_nil, (List.append_nil line).symm⟩

theorem trimEnd_dropReturn (line : List Char) : trimEnd (dropReturn line) = trimEnd line := by
  obtain ⟨gap, hgap, hline⟩ := exists_dropReturn line
  rw [hline, trimEnd_append_blank hgap, ← hline]

theorem trim_dropReturn (line : List Char) : trim (dropReturn line) = trim line := by
  obtain ⟨gap, hgap, hline⟩ := exists_dropReturn line
  rw [hline, trim_append_blank hgap, ← hline]

/-! ## Lines as one text -/

/-- The lines as one text, the last one closed by a line feed or left open. -/
def lined (lines : List (List Char)) (closed : Bool) : List Char :=
  ['\n'].intercalate lines ++ if closed then ['\n'] else []

section Lined

variable {α : Type} {f : List Char → Option α}

/-- A reader that passes over empty lines and over a return at the end of a line can take the
pieces between line feeds for the lines. -/
theorem filterMap_textLines_eq (hnil : f [] = none) (hreturn : ∀ line, f (dropReturn line) = f line)
    (cs : List Char) : (textLines cs).filterMap f = (splitOn '\n' cs).filterMap f := by
  have hmap : ∀ lines : List (List Char), (lines.map dropReturn).filterMap f = lines.filterMap f := by
    intro lines
    rw [List.filterMap_map]
    exact List.filterMap_congr fun line _ => hreturn line
  have hpieces : ∀ last rest, (splitOn '\n' cs).reverse = last :: rest →
      splitOn '\n' cs = rest.reverse ++ [last] := by
    intro last rest h
    rw [← List.reverse_cons, ← h, List.reverse_reverse]
  rw [textLines]
  split
  · rename_i h
    rw [List.reverse_eq_nil_iff.1 h]
  · rename_i rest h
    rw [hpieces _ _ h, hmap, List.filterMap_append, List.filterMap_cons_none hnil,
      List.filterMap_nil, List.append_nil]
  · rename_i last rest _ h
    rw [hpieces _ _ h, List.filterMap_append, List.filterMap_append, hmap]

theorem filterMap_splitOn_lined (hnil : f [] = none) {lines : List (List Char)}
    (h : ∀ line ∈ lines, '\n' ∉ line) (closed : Bool) :
    (splitOn '\n' (lined lines closed)).filterMap f = lines.filterMap f := by
  have hopen : (splitOn '\n' (['\n'].intercalate lines)).filterMap f = lines.filterMap f := by
    cases lines with
    | nil => simp [splitOn, hnil]
    | cons line lines => rw [splitOn_intercalate (List.cons_ne_nil _ _) h]
  cases closed with
  | false => rwa [lined, if_neg (by decide), List.append_nil]
  | true =>
    rw [lined, if_pos rfl, splitOn_append_cons, List.filterMap_append, hopen]
    simp [splitOn, hnil]

theorem filterMap_textLines (hnil : f [] = none) (hreturn : ∀ line, f (dropReturn line) = f line)
    {lines : List (List Char)} (h : ∀ line ∈ lines, '\n' ∉ line) (closed : Bool) :
    (textLines (lined lines closed)).filterMap f = lines.filterMap f := by
  rw [filterMap_textLines_eq hnil hreturn, filterMap_splitOn_lined hnil h]

end Lined

/-! ## Numbers -/

theorem readNumber?_eq_some_iff {ds : List Char} {n : Nat} :
    readNumber? ds = some n ↔
      ds ≠ [] ∧ (∀ d ∈ ds, d.isDigit = true) ∧ digitsValue ds = n ∧ n < wordLimit := by
  have hplain : (ds.isEmpty || !ds.all Char.isDigit) = true ↔
      ¬ (ds ≠ [] ∧ ∀ d ∈ ds, d.isDigit = true) := by
    rw [Bool.or_eq_true, List.isEmpty_iff, Bool.not_eq_true', ← Bool.not_eq_true, List.all_eq_true,
      not_and_or, not_not]
  rw [readNumber?]
  split
  · rename_i hnone
    exact iff_of_false (by simp) fun h => hplain.1 hnone ⟨h.1, h.2.1⟩
  · rename_i hdigits
    obtain ⟨hne, hall⟩ := not_not.1 (mt hplain.2 hdigits)
    split
    · rename_i hlt
      rw [Option.some.injEq]
      exact ⟨fun h => ⟨hne, hall, h, h ▸ hlt⟩, fun h => h.2.2.1⟩
    · rename_i hge
      exact iff_of_false (by simp) fun h => hge (h.2.2.1.symm ▸ h.2.2.2)

theorem readNumber?_toDigits {n : Nat} (h : n < wordLimit) :
    readNumber? (Nat.toDigits 10 n) = some n :=
  readNumber?_eq_some_iff.2
    ⟨Nat.toDigits_ne_nil, fun _ hd => isDigit_of_mem_toDigits hd, digitsValue_toDigits n, h⟩

end LeakScan.Text
