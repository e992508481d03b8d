import LeakScan.Proofs.Imports.Statements

/-!
# LeakScan.Proofs.Imports.Lines

Lines that start no import, and what may stand in them.

* `Still`, `Calm` — no line starts an import, or none but the first.
* `Still.append_blanks`, `Calm.still_cons`, `Calm.still_name` — such texts, put together.
* `Calm.plainBindings_eq`, `Calm.qualifiedBindings_eq` — they are passed over in both halves of the
  table.
-/

namespace LeakScan.ImportAliases

open Text

/-- No line starts an import. -/
def Still (cs : List Char) : Prop := ∀ line ∈ splitOn '\n' cs, Idle line

/-- No line but the first starts an import. -/
def Calm (cs : List Char) : Prop := ∀ line ∈ (splitOn '\n' cs).tail, Idle line

section Lines

variable {c : Char} {cs : List Char}

theorem Still.calm (h : Still cs) : Calm cs := fun line hline => h line (List.mem_of_mem_tail hline)

theorem calm_of_not_mem (h : '\n' ∉ cs) : Calm cs := by
  rw [Calm, splitOn_eq_singleton h]
  intro line hline
  cases hline

theorem Calm.append {front : List Char} (hfront : '\n' ∉ front) (h : Calm cs) :
    Calm (front ++ cs) := by
  obtain ⟨first, rest, hcs⟩ := List.exists_cons_of_ne_nil (splitOn_ne_nil '\n' cs)
  rw [Calm, splitOn_of_not_mem hfront hcs]
  rwa [Calm, hcs] at h

theorem Calm.cons (h : Calm cs) (hc : '\n' ≠ c) : Calm (c :: cs) := by
  have hfront : '\n' ∉ [c] := by simpa using hc
  exact h.append hfront

theorem Still.calm_newline (h : Still cs) : Calm ('\n' :: cs) := h

theorem Calm.of_append {front : List Char} (h : Calm (front ++ cs)) : Calm cs := by
  induction front with
  | nil => exact h
  | cons c front ih =>
    rw [List.cons_append] at h
    by_cases hc : c = '\n'
    · rw [hc] at h
      exact ih (Still.calm h)
    · obtain ⟨first, rest, hsplit⟩ :=
        List.exists_cons_of_ne_nil (splitOn_ne_nil '\n' (front ++ cs))
      apply ih
      rw [Calm, splitOn, if_neg (by simpa using hc), hsplit] at h
      rwa [Calm, hsplit]

theorem idle_nil : Idle [] := ⟨rfl, rfl⟩

theorem idle_cons (hblank : isLineBlank c = false) (himport : c ≠ 'i') (hfrom : c ≠ 'f')
    (line : List Char) : Idle (c :: line) := by
  have hline : (c :: line).dropWhile isLineBlank = c :: line := by simp [hblank]
  refine ⟨?_, ?_⟩
  · rw [hline]
    exact keyword?_of_head rfl himport
  · rw [hline]
    exact keyword?_of_head rfl hfrom

theorem Calm.still_cons (h : Calm cs) (hblank : isLineBlank c = false) (hline : c ≠ '\n')
    (himport : c ≠ 'i') (hfrom : c ≠ 'f') : Still (c :: cs) := by
  obtain ⟨first, rest, hcs⟩ := List.exists_cons_of_ne_nil (splitOn_ne_nil '\n' cs)
  rw [Calm, hcs] at h
  rw [Still, splitOn, if_neg (by simpa using hline), hcs]
  intro line hmem
  rcases List.mem_cons.1 hmem with rfl | hmem
  · exact idle_cons hblank himport hfrom first
  · exact h line hmem

theorem Still.cons_blank (h : Still cs) (hc : isBlank c = true) : Still (c :: cs) := by
  by_cases hline : c = '\n'
  · rw [Still, hline]
    intro line hmem
    rcases List.mem_cons.1 hmem with rfl | hmem
    · exact idle_nil
    · exact h line hmem
  · by_cases hblank : isLineBlank c = true
    · obtain ⟨first, rest, hcs⟩ := List.exists_cons_of_ne_nil (splitOn_ne_nil '\n' cs)
      rw [Still, hcs] at h
      rw [Still, splitOn, if_neg (by simpa using hline), hcs]
      intro line hmem
      rcases List.mem_cons.1 hmem with rfl | hmem
      · have hfirst := h first List.mem_cons_self
        have hdrop : (c :: first).dropWhile isLineBlank = first.dropWhile isLineBlank := by
          simp [hblank]
        exact ⟨hdrop ▸ hfirst.noImport, hdrop ▸ hfirst.noFrom⟩
      · exact h line (List.mem_cons_of_mem _ hmem)
    · refine h.calm.still_cons (by simpa using hblank) hline ?_ ?_ <;> rintro rfl
      · exact absurd hc (by decide)
      · exact absurd hc (by decide)

theorem Still.append_blanks {blanks : List Char} (hblanks : AllBlank blanks) (h : Still cs) :
    Still (blanks ++ cs) := by
  induction blanks with
  | nil => exact h
  | cons c blanks ih =>
    exact (ih fun d hd => hblanks d (List.mem_cons_of_mem _ hd)).cons_blank
      (hblanks c List.mem_cons_self)

theorem head?_of_splitOn {sep : Char} {first : List Char} {rest : List (List Char)}
    (h : splitOn sep cs = first :: rest) (hc : c ∈ first.head?) : c ∈ cs.head? := by
  cases cs with
  | nil =>
    cases h
    cases hc
  | cons d cs =>
    rw [splitOn] at h
    split at h
    · cases h
      cases hc
    · split at h
      · cases h
        exact hc
      · cases h
        exact hc

/-- A word that is no keyword starts no statement. -/
theorem keyword?_word {word : String} {w rest : List Char}
    (hword : word.toList.all isWordChar = true) (hw : ∀ c ∈ w, isWordChar c = true)
    (hrest : ∀ c ∈ rest.head?, isWordChar c = false) (hne : w ≠ word.toList) :
    keyword? word (w ++ rest) = none := by
  have htake : ∀ v : List Char, (∀ c ∈ v, isWordChar c = true) → ∀ back : List Char,
      (∀ c ∈ back.head?, isWordChar c = false) → (v ++ back).takeWhile isWordChar = v := by
    intro v hv back hback
    cases back with
    | nil => rw [List.append_nil, List.takeWhile_eq_self_iff.2 hv]
    | cons c back => rw [takeWhile_cut (hback c rfl), List.takeWhile_eq_self_iff.2 hv]
  rw [keyword?]
  split
  · rename_i c after hstrip
    split
    · rename_i hblank
      have hc : isWordChar c = false := by
        rw [← Bool.not_eq_true]
        intro hc
        rw [not_isLineBlank_of_isDotted (isDotted_of_isWordChar hc)] at hblank
        cases hblank
      have hsame := congrArg (List.takeWhile isWordChar) (stripPrefix?_eq_some_iff.1 hstrip)
      rw [htake w hw rest hrest, htake _ (List.all_eq_true.1 hword) (c :: after) (by
        rintro d ⟨⟩
        exact hc)] at hsame
      exact absurd hsame hne
    · rfl
  · rfl

theorem Calm.still_name (h : Calm cs) (name : Name) (hcs : ∀ c ∈ cs.head?, isWordChar c = false) :
    Still (name.chars ++ cs) := by
  have hline : '\n' ∉ name.chars := fun hmem => absurd (name.word _ hmem) (by decide)
  obtain ⟨first, rest, hsplit⟩ := List.exists_cons_of_ne_nil (splitOn_ne_nil '\n' cs)
  have hfirst : ∀ c ∈ first.head?, isWordChar c = false :=
    fun c hc => hcs c (head?_of_splitOn hsplit hc)
  have hstart : (name.chars ++ first).dropWhile isLineBlank = name.chars ++ first :=
    dropWhile_isLineBlank_dotted name.ne_nil name.isDotted first
  rw [Calm, hsplit] at h
  rw [Still, splitOn_of_not_mem hline hsplit]
  intro line hmem
  rcases List.mem_cons.1 hmem with rfl | hmem
  · refine ⟨?_, ?_⟩
    · rw [hstart]
      exact keyword?_word (by decide) name.word hfirst name.ne_import
    · rw [hstart]
      exact keyword?_word (by decide) name.word hfirst name.ne_from
  · exact h line hmem

/-- Such lines are passed over in both halves of the table. -/
theorem Calm.plainBindings_eq {module : ModulePath} {head : List Char} (h : Calm cs)
    (hhead : LeadIn module head) (after : List Char) :
    plainBindings (head ++ (cs ++ '\n' :: after)) = plainBindings after := by
  obtain ⟨first, rest, hsplit⟩ := List.exists_cons_of_ne_nil (splitOn_ne_nil '\n' cs)
  have hnone : (splitOn '\n' (head ++ cs)).filterMap importList? = [] := by
    rw [splitOn_of_not_mem hhead.not_mem hsplit, List.filterMap_cons,
      hhead.importList?_eq_none, List.filterMap_eq_nil_iff]
    rw [Calm, hsplit] at h
    intro line hline
    rw [importList?, (h line hline).noImport]
    rfl
  rw [← List.append_assoc, plainBindings, splitOn_append_cons, List.filterMap_append, hnone]
  rfl

theorem Still.fromImport?_eq_none (h : Still cs) (after : List Char) :
    fromImport? (cs ++ '\n' :: after) = none := by
  by_cases hmem : '\n' ∈ cs
  · obtain ⟨line, rest, rfl, hline⟩ := List.eq_append_cons_of_mem hmem
    rw [Still, splitOn_append_cons, splitOn_eq_singleton hline] at h
    rw [List.append_assoc]
    exact ImportAliases.fromImport?_eq_none (breaks_cons _) (h line List.mem_cons_self).noFrom
  · rw [Still, splitOn_eq_singleton hmem] at h
    exact ImportAliases.fromImport?_eq_none (breaks_cons _) (h cs List.mem_cons_self).noFrom

theorem Calm.qualifiedBindings_eq {cs : List Char} (h : Calm cs) (after : List Char) :
    qualifiedBindings (nextLine (cs ++ '\n' :: after)) = qualifiedBindings after := by
  by_cases hmem : '\n' ∈ cs
  · obtain ⟨line, rest, hcs, hline⟩ := List.eq_append_cons_of_mem hmem
    have hrest : Still rest := by
      rwa [Calm, hcs, splitOn_append_cons, splitOn_eq_singleton hline] at h
    rw [hcs, List.append_assoc, List.cons_append, nextLine_append hline (breaks_cons _),
      List.drop_one, List.tail_cons, qualifiedBindings,
      statementsFrom_of_none (hrest.fromImport?_eq_none after)]
    exact hrest.calm.qualifiedBindings_eq after
  · rw [nextLine_append hmem (breaks_cons after)]
    rfl
termination_by cs.length
decreasing_by
  rw [hcs, List.length_append, List.length_cons]
  omega

end Lines

end LeakScan.ImportAliases
