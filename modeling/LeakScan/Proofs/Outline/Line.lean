import LeakScan.Proofs.Text.Offset
import LeakScan.Proofs.Text.Words
import LeakScan.Scope.Outline.Line

/-!
# LeakScan.Proofs.Outline.Line

Lines stand in their text, one after the other.

* `joinWith_splitOn` — the pieces of a text joined again.
* `linesOf_stand` — each line is found where it says, and ends before the next one starts.
* `linesOf_run` — a pass over the lines, from what one line does.
* `Line.body_stands`, `Line.trimmed_stands` — the same of a line without blanks around it.
* `lineStatements_sound` — guards that one line shows.
-/

namespace LeakScan

namespace Text

theorem joinWith_cons {sep piece : List Char} {pieces : List (List Char)} (h : pieces ≠ []) :
    joinWith sep (piece :: pieces) = piece ++ sep ++ joinWith sep pieces := by
  rw [joinWith]
  exact h

theorem joinWith_splitOn (sep : Char) (cs : List Char) : joinWith [sep] (splitOn sep cs) = cs := by
  induction cs with
  | nil => rfl
  | cons c cs ih =>
    rw [splitOn]
    split
    · rename_i hsep
      rw [joinWith_cons (splitOn_ne_nil sep cs), ih, beq_iff_eq.1 hsep]
      rfl
    · split
      · rename_i piece pieces hpieces
        rw [hpieces] at ih
        rw [← ih]
        cases pieces with
        | nil => rfl
        | cons next rest =>
          rw [joinWith_cons (List.cons_ne_nil next rest), joinWith_cons (List.cons_ne_nil next rest)]
          rfl
      · rename_i hnil
        exact absurd hnil (splitOn_ne_nil sep cs)

theorem joinWith_append (sep : List Char) (front back : List (List Char)) :
    ∃ rest, joinWith sep (front ++ back) = joinWith sep front ++ rest := by
  induction front with
  | nil => exact ⟨joinWith sep back, rfl⟩
  | cons piece front ih =>
    cases front with
    | nil =>
      cases back with
      | nil => exact ⟨[], (List.append_nil _).symm⟩
      | cons next rest =>
        refine ⟨sep ++ joinWith sep (next :: rest), ?_⟩
        rw [List.singleton_append, joinWith_cons (List.cons_ne_nil next rest), List.append_assoc]
        rfl
    | cons next front =>
      obtain ⟨rest, hrest⟩ := ih
      refine ⟨rest, ?_⟩
      rw [List.cons_append, joinWith_cons (by simp), hrest,
        joinWith_cons (List.cons_ne_nil next front), List.append_assoc (piece ++ sep)]

end Text

namespace Scope.Outline

open Text

theorem dropLineEnd_prefix (piece : List Char) : ∃ ending, piece = dropLineEnd piece ++ ending := by
  refine ⟨(piece.reverse.takeWhile fun c => c == '\n' || c == '\r').reverse, ?_⟩
  rw [dropLineEnd, ← List.reverse_append, List.takeWhile_append_dropWhile, List.reverse_reverse]

/-- By induction on the pieces; `front` is the text before them. -/
theorem placeLines_stand {cs front back : List Char} {pieces : List (List Char)}
    (hcs : cs = front ++ joinWith ['\n'] pieces ++ back) :
    (∀ l ∈ placeLines (byteSize front) pieces,
      Stands cs l.start l.text ∧ byteSize front ≤ l.start) ∧
      (placeLines (byteSize front) pieces).Pairwise fun a b => a.stop < b.start := by
  induction pieces generalizing front with
  | nil => simp [placeLines]
  | cons piece rest ih =>
    obtain ⟨ending, hending⟩ := dropLineEnd_prefix piece
    have hpiece : ∃ after, cs = front ++ piece ++ after := by
      obtain ⟨after, hafter⟩ := joinWith_append ['\n'] [piece] rest
      rw [List.singleton_append] at hafter
      exact ⟨after ++ back, by rw [hcs, hafter, joinWith]; simp⟩
    have hline : Stands cs (byteSize front) (dropLineEnd piece) := by
      obtain ⟨after, hafter⟩ := hpiece
      refine ⟨front, ending ++ after, ?_, rfl⟩
      rw [hafter]
      nth_rewrite 1 [hending]
      simp
    cases rest with
    | nil => simpa [placeLines] using hline
    | cons next rest =>
      have hsize : byteSize (front ++ piece ++ ['\n']) = byteSize front + byteSize piece + 1 := by
        simp
        rfl
      have hnext : cs = front ++ piece ++ ['\n'] ++ joinWith ['\n'] (next :: rest) ++ back := by
        rw [hcs, joinWith_cons (List.cons_ne_nil next rest)]
        simp
      obtain ⟨hstand, hordered⟩ := ih hnext
      rw [hsize] at hstand hordered
      have hstop : byteSize (dropLineEnd piece) ≤ byteSize piece := by
        nth_rewrite 2 [hending]
        simp
      rw [placeLines]
      constructor
      · intro l hl
        rcases List.mem_cons.1 hl with rfl | hl
        · exact ⟨hline, Nat.le_refl _⟩
        · obtain ⟨hl, hle⟩ := hstand l hl
          exact ⟨hl, by omega⟩
      · refine List.pairwise_cons.2 ⟨fun l hl => ?_, hordered⟩
        have hle := (hstand l hl).2
        simp only [Line.stop]
        omega

theorem linesOf_stand (cs : List Char) :
    (∀ l ∈ linesOf cs, Stands cs l.start l.text) ∧
      (linesOf cs).Pairwise fun a b => a.stop < b.start := by
  have hall : ∀ pieces rest, splitOn '\n' cs = pieces ++ rest →
      (∀ l ∈ placeLines 0 pieces, Stands cs l.start l.text) ∧
        (placeLines 0 pieces).Pairwise fun a b => a.stop < b.start := by
    intro pieces rest hsplit
    obtain ⟨back, hback⟩ := joinWith_append ['\n'] pieces rest
    have hcs : cs = [] ++ joinWith ['\n'] pieces ++ back := by
      rw [List.nil_append, ← hback, ← hsplit, joinWith_splitOn]
    obtain ⟨hstand, hordered⟩ := placeLines_stand hcs
    exact ⟨fun l hl => (hstand l hl).1, hordered⟩
  rw [linesOf]
  split
  · rename_i rest hrest
    exact hall rest.reverse [[]] (by rw [← List.reverse_reverse (splitOn '\n' cs), hrest]; simp)
  · exact hall _ [] (by simp)

/-- A pass over the lines of a text. What a line keeps holds of all of them; the invariant may say
how far the pass has come. -/
theorem linesOf_run {σ : Type} {Inv : Nat → σ → Prop} {step : σ → Line → σ} {cs : List Char}
    (hstep : ∀ reach st l, Stands cs l.start l.text → reach ≤ l.start → Inv reach st →
      Inv l.stop (step st l)) {st : σ} (h : Inv 0 st) :
    ∃ reach ≤ byteSize cs, Inv reach ((linesOf cs).foldl step st) := by
  have hall : ∀ (lines : List Line) (reach : Nat) (st : σ),
      (∀ l ∈ lines, Stands cs l.start l.text) → lines.Pairwise (fun a b => a.stop < b.start) →
      (∀ l ∈ lines, reach ≤ l.start) → reach ≤ byteSize cs → Inv reach st →
      ∃ reach ≤ byteSize cs, Inv reach (lines.foldl step st) := by
    intro lines
    induction lines with
    | nil => exact fun reach st _ _ _ hle h => ⟨reach, hle, h⟩
    | cons l rest ih =>
      intro reach st hstand hordered hreach _ h
      have hline := hstand l List.mem_cons_self
      obtain ⟨hnext, hrest⟩ := List.pairwise_cons.1 hordered
      exact ih l.stop (step st l) (fun b hb => hstand b (List.mem_cons_of_mem l hb)) hrest
        (fun b hb => Nat.le_of_lt (hnext b hb)) hline.stop_le
        (hstep reach st l hline (hreach l List.mem_cons_self) h)
  obtain ⟨hstand, hordered⟩ := linesOf_stand cs
  exact hall _ 0 st hstand hordered (fun _ _ => Nat.zero_le _) (Nat.zero_le _) h

/-! ## Blanks around a line -/

namespace Line

variable {cs : List Char} {l : Line}

theorem text_eq (l : Line) : l.text = l.text.takeWhile isBlank ++ l.body :=
  List.takeWhile_append_dropWhile.symm

theorem bodyStart_add (l : Line) : l.bodyStart + byteSize l.body = l.stop := by
  rw [bodyStart, stop, Nat.add_assoc, ← byteSize_append, ← l.text_eq]

theorem start_le_bodyStart (l : Line) : l.start ≤ l.bodyStart := Nat.le_add_right _ _

theorem body_stands (h : Stands cs l.start l.text) : Stands cs l.bodyStart l.body := by
  rw [l.text_eq, ← List.append_nil (l.text.takeWhile isBlank ++ l.body)] at h
  exact h.part

theorem body_eq (l : Line) : ∃ after, l.body = l.trimmed ++ after := by
  obtain ⟨after, hsplit⟩ := trim_split l.text
  have hsame : l.text.takeWhile isBlank ++ l.body =
      l.text.takeWhile isBlank ++ (l.trimmed ++ after) := by
    rw [← l.text_eq, ← List.append_assoc]
    exact hsplit
  exact ⟨after, List.append_cancel_left hsame⟩

theorem trimmed_stands (h : Stands cs l.start l.text) : Stands cs l.bodyStart l.trimmed := h.trim

theorem stretch (h : Stands cs l.start l.text) (hne : l.body ≠ []) :
    Stretch cs ⟨l.bodyStart, l.stop⟩ := by
  rw [← l.bodyStart_add]
  exact (body_stands h).stretch hne

end Line

theorem lineStatements_sound (language : Language) {cs : List Char} {lines : List Line}
    (h : ∀ l ∈ lines, Stands cs l.start l.text) :
    ∀ g ∈ (lineStatements language lines).guards, Stretch cs g.span := by
  intro g hg
  rw [lineStatements] at hg
  simp only at hg
  split at hg
  · obtain ⟨l, hl, hdefer⟩ := List.mem_filterMap.1 hg
    rw [Line.defer?] at hdefer
    split at hdefer
    · rename_i hstarts
      cases hdefer
      refine Line.stretch (h l hl) ?_
      intro hnil
      rw [hnil] at hstarts
      simp [startsWith, stripPrefix?] at hstarts
    · cases hdefer
  · cases hg

end Scope.Outline

end LeakScan
