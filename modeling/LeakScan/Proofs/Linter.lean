import LeakScan.Linter
import LeakScan.Proofs.Text.Lines
import LeakScan.Proofs.Totals.Merge

/-!
# LeakScan.Proofs.Linter

The issues that a checker prints are read back as they are.

* `Issue` — an issue that can be told from its line: its file name holds no colon, and the blanks
  around its message are not part of it.
* `readIssue?_text` — the line of an issue is read as that issue, whatever its message looks like.
* `LintLine` — an issue, or a line without a colon.
* `readIssues_lossless` — a whole output.
-/

namespace LeakScan

open Text

/-! ## Issues -/

structure Issue where
  file : String
  line : Nat
  column : Nat
  message : String
  file_nonempty : file ≠ ""
  file_first : ∀ c ∈ file.toList.head?, isBlank c = false
  file_plain : ':' ∉ file.toList ∧ '\n' ∉ file.toList
  line_fits : line < wordLimit
  column_fits : column < wordLimit
  message_first : ∀ c ∈ message.toList.head?, isBlank c = false
  message_last : ∀ c ∈ message.toList.getLast?, isBlank c = false
  message_plain : '\n' ∉ message.toList

namespace Issue

/-- The line that a checker prints. -/
def text (i : Issue) : String := s!"{i.file}:{i.line}:{i.column}: {i.message}"

def location (i : Issue) : Location where
  file := i.file
  line := i.line
  column := i.column
  snippet := some i.message

theorem toList_text (i : Issue) :
    i.text.toList = i.file.toList ++ ':' :: (Nat.toDigits 10 i.line ++
      ':' :: (Nat.toDigits 10 i.column ++ ':' :: (' ' :: i.message.toList))) := by
  simp [text, toString, String.toList_append]

end Issue

/-! ## Reading one line -/

theorem digitsBeforeColon?_toDigits (n : Nat) (rest : List Char) :
    digitsBeforeColon? (Nat.toDigits 10 n ++ ':' :: rest) = some (Nat.toDigits 10 n, rest) := by
  have hdigits : ∀ c ∈ Nat.toDigits 10 n, isDecimal c = true := by
    intro c hc
    rw [isDecimal, isDigit_of_mem_toDigits hc, Bool.true_or]
  have hcolon : ∀ c ∈ (':' :: rest).head?, isDecimal c = false := by
    rintro c ⟨⟩
    decide
  rw [digitsBeforeColon?, takeWhile_append_stop hdigits hcolon,
    dropWhile_append_stop hdigits hcolon]
  cases h : Nat.toDigits 10 n with
  | nil => exact absurd h Nat.toDigits_ne_nil
  | cons d ds => rfl

theorem fileBeforeColon?_append {file : List Char} (hne : file ≠ [])
    (hfirst : ∀ c ∈ file.head?, isBlank c = false) (hplain : ':' ∉ file) (rest : List Char) :
    fileBeforeColon? (file ++ ':' :: rest) = some (file, rest) := by
  obtain ⟨c, file, rfl⟩ := List.exists_cons_of_ne_nil hne
  rw [fileBeforeColon?, splitFirst?_eq_some_iff.2 ⟨rfl, hplain⟩]
  simp [hfirst c rfl]

/-- The blank before the message is cut off on one side of a message and, when the message is empty,
on the other. -/
theorem Issue.trim_message (i : Issue) :
    trim (trimEnd (' ' :: i.message.toList)) = i.message.toList := by
  by_cases hnone : i.message.toList = []
  · rw [hnone]
    decide
  · have hlast : (' ' :: i.message.toList).getLast? = i.message.toList.getLast? :=
      List.getLast?_cons_of_ne_nil hnone
    have hkeep : trimEnd (' ' :: i.message.toList) = ' ' :: i.message.toList :=
      trimEnd_eq_self (hlast ▸ i.message_last)
    rw [hkeep]
    change trimEnd (trimStart (' ' :: i.message.toList)) = i.message.toList
    rw [trimStart, List.dropWhile_cons_of_pos (by decide), ← trimStart,
      trimStart_eq_self i.message_first, trimEnd_eq_self i.message_last]

theorem readIssue?_text (i : Issue) : readIssue? i.text.toList = some i.location := by
  have hcolon : isBlank ':' = false := by decide
  have htrim : trimEnd i.text.toList = i.file.toList ++ ':' :: (Nat.toDigits 10 i.line ++
      ':' :: (Nat.toDigits 10 i.column ++ ':' :: trimEnd (' ' :: i.message.toList))) := by
    rw [i.toList_text, trimEnd_append_cons hcolon, trimEnd_append_cons hcolon,
      trimEnd_append_cons hcolon]
  have hne : i.file.toList ≠ [] := fun h => i.file_nonempty (String.toList_eq_nil_iff.1 h)
  rw [readIssue?, htrim, fileBeforeColon?_append hne i.file_first i.file_plain.1]
  simp only [digitsBeforeColon?_toDigits, readNumber?_toDigits i.line_fits,
    readNumber?_toDigits i.column_fits, Option.getD_some, i.trim_message, String.ofList_toList]
  rfl

theorem readIssue?_eq_none {cs : List Char} (h : ':' ∉ cs) : readIssue? cs = none := by
  have hnone : fileBeforeColon? (trimEnd cs) = none := by
    rw [fileBeforeColon?]
    split
    · rename_i c file rest hsplit
      obtain ⟨hcs, -⟩ := splitFirst?_eq_some_iff.1 hsplit
      have hmem : ':' ∈ trimEnd cs := by simp [hcs]
      rw [trimEnd, List.mem_reverse] at hmem
      exact absurd (List.mem_reverse.1 ((List.dropWhile_suffix _).subset hmem)) h
    · rfl
  rw [readIssue?, hnone]

/-! ## Reading an output -/

/-- A line of an output: an issue, or some text that is none. -/
inductive LintLine where
  | issue (i : Issue)
  | other (cs : List Char) (hcolon : ':' ∉ cs) (hbreak : '\n' ∉ cs)

namespace LintLine

def chars : LintLine → List Char
  | .issue i => i.text.toList
  | .other cs _ _ => cs

def issue? : LintLine → Option Issue
  | .issue i => some i
  | .other _ _ _ => none

theorem readIssue?_chars (l : LintLine) : readIssue? l.chars = l.issue?.map Issue.location := by
  cases l with
  | issue i => exact readIssue?_text i
  | other cs hcolon hbreak => exact readIssue?_eq_none hcolon

theorem not_mem_chars (l : LintLine) : '\n' ∉ l.chars := by
  have hdigits : ∀ n : Nat, '\n' ∉ Nat.toDigits 10 n := by
    intro n hmem
    have hdigit := isDigit_of_mem_toDigits hmem
    revert hdigit
    decide
  cases l with
  | issue i =>
    rw [chars, i.toList_text]
    simp [hdigits, i.file_plain.2, i.message_plain]
  | other cs hcolon hbreak => exact hbreak

end LintLine

/-- Every issue of an output is counted, and of all issues the smallest are kept, up to the limit,
each with its own file, line, column and message. -/
theorem readIssues_lossless (name : String) (lines : List LintLine) (closed : Bool) (limit : Nat) :
    ∃ samples rest, readIssues name (lined (lines.map LintLine.chars) closed) limit =
      ⟨name, (lines.filterMap LintLine.issue?).length, samples⟩ ∧
      (samples ++ rest).Perm ((lines.filterMap LintLine.issue?).map Issue.location) ∧
      samples.length = min limit (lines.filterMap LintLine.issue?).length ∧
      samples.Pairwise (fun a b => (compare a b).isLE = true) ∧
      ∀ a ∈ samples, ∀ b ∈ rest, (compare a b).isLE = true := by
  have hread : (textLines (lined (lines.map LintLine.chars) closed)).filterMap readIssue? =
      (lines.filterMap LintLine.issue?).map Issue.location := by
    have hbreaks : ∀ line ∈ lines.map LintLine.chars, '\n' ∉ line :=
      List.forall_mem_map.2 fun l _ => l.not_mem_chars
    have hreturn : ∀ line, readIssue? (dropReturn line) = readIssue? line := by
      intro line
      rw [readIssue?, readIssue?, trimEnd_dropReturn]
    rw [filterMap_textLines (readIssue?_eq_none (List.not_mem_nil)) hreturn hbreaks,
      List.filterMap_map, List.map_filterMap]
    exact List.filterMap_congr fun l _ => l.readIssue?_chars
  let issues := (lines.filterMap LintLine.issue?).map Issue.location
  obtain ⟨rest, hperm, hle, -⟩ := lowest_split limit issues
  refine ⟨lowest limit issues, rest, ?_, hperm, ?_, ascending_lowest limit issues, hle⟩
  · rw [readIssues, hread, smallest_eq_lowest, List.append_nil, List.length_map]
  · rw [length_lowest, List.length_map]

/-- The message of this issue looks like another issue, and its column is the largest. -/
def nestedIssue : Issue where
  file := "src/a b.py"
  line := 12
  column := 18446744073709551615
  message := "see c.py:1:2: unused"
  file_nonempty := by decide
  file_first := by rintro c ⟨⟩; decide
  file_plain := by decide
  line_fits := by decide
  column_fits := by decide
  message_first := by rintro c ⟨⟩; decide
  message_last := by rintro c ⟨⟩; decide
  message_plain := by decide

/-- An issue without a message. -/
def silentIssue : Issue where
  file := "a.go"
  line := 1
  column := 0
  message := ""
  file_nonempty := by decide
  file_first := by rintro c ⟨⟩; decide
  file_plain := by decide
  line_fits := by decide
  column_fits := by decide
  message_first := by rintro c ⟨⟩
  message_last := by rintro c ⟨⟩
  message_plain := by decide

/-- The smaller issue comes last and after a line that is none. -/
theorem nested_issue_read_back :
    ∃ samples rest, readIssues "vet" (lined [nestedIssue.text.toList, "2 issues".toList,
        silentIssue.text.toList] false) 1 = ⟨"vet", 2, samples⟩ ∧
      (samples ++ rest).Perm [nestedIssue.location, silentIssue.location] ∧
      samples.length = 1 ∧ ∀ a ∈ samples, ∀ b ∈ rest, (compare a b).isLE = true := by
  obtain ⟨samples, rest, hread, hperm, hlen, -, hle⟩ := readIssues_lossless "vet"
    [.issue nestedIssue, .other "2 issues".toList (by decide) (by decide), .issue silentIssue] false 1
  exact ⟨samples, rest, hread, hperm, hlen, hle⟩

end LeakScan
