import LeakScan.Proofs.Outline.Braces

/-!
# LeakScan.Proofs.Outline.Bare

A text with blanks in place of its comments, cut into lexemes again.

* `blanked`, `blankComments` — blanks for a piece of text and for all comments of a text.
* `Lexeme.bare` — what becomes of a lexeme: a comment turns into blanks, all else stays.
* `HidesDirective` — a `#` that follows only blanks and comments in its line. A preprocessor line
  needs a line that was blank so far, so it is one without the comments only.
* `lexemes_blankComments_iff` — nothing else changes.
-/

namespace LeakScan.Scope.Outline

open Text

/-- Blanks in place of a text, one for each byte. Line feeds stay. -/
def blanked (cs : List Char) : List Char :=
  cs.flatMap fun c => if c == '\n' then ['\n'] else List.replicate c.utf8Size ' '

namespace Lexeme

def bare : Lexeme → List Lexeme
  | .comment cs => (blanked cs).map .code
  | l => [l]

def bareChars : Lexeme → List Char
  | .comment cs => blanked cs
  | l => l.chars

/-- Whether a line without its comments is still blank after a lexeme. -/
def keepsBlank (blank : Bool) : Lexeme → Bool
  | .code c => c == '\n' || (blank && isAsciiBlank c)
  | .comment cs => blank || cs.contains '\n'
  | _ => false

end Lexeme

/-- A text without its comments. -/
def blankComments (language : Language) (cs : List Char) : List Char :=
  (lexemes language cs).flatMap Lexeme.bareChars

/-- A `#` is no preprocessor line because a comment stands before it. -/
def HidesDirective (language : Language) (cs : List Char) : Prop :=
  language = .cpp ∧ ∃ front back, lexemes language cs = front ++ .code '#' :: back ∧
    front.foldl Lexeme.keepsBlank true = true

/-! ## Blanks -/

theorem blanked_cons (c : Char) (cs : List Char) :
    blanked (c :: cs) =
      (if c == '\n' then ['\n'] else List.replicate c.utf8Size ' ') ++ blanked cs := rfl

theorem mem_blanked {c : Char} {cs : List Char} (h : c ∈ blanked cs) : c = ' ' ∨ c = '\n' := by
  obtain ⟨d, -, hc⟩ := List.mem_flatMap.1 h
  split at hc
  · exact .inr (List.mem_singleton.1 hc)
  · exact .inl (List.eq_of_mem_replicate hc)

@[simp] theorem newline_mem_blanked {cs : List Char} : '\n' ∈ blanked cs ↔ '\n' ∈ cs := by
  rw [blanked, List.mem_flatMap]
  constructor
  · rintro ⟨c, hc, hmem⟩
    split at hmem
    · rename_i hline
      rwa [← beq_iff_eq.1 hline]
    · exact absurd (List.eq_of_mem_replicate hmem) (by decide)
  · exact fun h => ⟨'\n', h, by simp⟩

@[simp] theorem byteSize_blanked (cs : List Char) : byteSize (blanked cs) = byteSize cs := by
  have hspaces : ∀ n, byteSize (List.replicate n ' ') = n := by
    intro n
    induction n with
    | zero => rfl
    | succ n ih =>
      rw [List.replicate_succ, byteSize_cons, ih]
      exact Nat.add_comm 1 n
  induction cs with
  | nil => rfl
  | cons c cs ih =>
    rw [blanked_cons, byteSize_append, ih, byteSize_cons]
    split
    · rename_i hc
      rw [beq_iff_eq.1 hc]
      rfl
    · rw [hspaces]

@[simp] theorem byteSize_bareChars (l : Lexeme) : byteSize l.bareChars = byteSize l.chars := by
  cases l <;> simp [Lexeme.bareChars, Lexeme.chars]

theorem flatMap_chars_bare (l : Lexeme) : l.bare.flatMap Lexeme.chars = l.bareChars := by
  cases l with
  | comment cs =>
    rw [Lexeme.bare, List.flatMap_map]
    exact List.flatMap_singleton' _
  | _ => simp [Lexeme.bare, Lexeme.bareChars]

/-! ## Other text behind a lexeme -/

/-- The text behind a lexeme before and after blanking: the same first character, unless a comment
starts there. -/
def Follows (rest rest' : List Char) : Prop :=
  rest'.head? = rest.head? ∨ (rest.head? = some '/' ∧ rest'.head? = some ' ')

theorem Follows.nil_iff {rest rest' : List Char} (h : Follows rest rest') :
    rest' = [] ↔ rest = [] := by
  rw [← List.head?_eq_none_iff, ← List.head?_eq_none_iff (l := rest)]
  rcases h with h | ⟨h, h'⟩
  · rw [h]
  · simp [h, h']

theorem Follows.head_iff {rest rest' : List Char} (h : Follows rest rest') {c : Char}
    (hc : c ≠ '/') (hc' : c ≠ ' ') : rest'.head? = some c ↔ rest.head? = some c := by
  rcases h with h | ⟨h, h'⟩
  · rw [h]
  · simp [h, h', hc.symm, hc'.symm]

theorem stringRest_plain {quote c : Char} (hc : ¬(c == '\\') = true) (cs : List Char) :
    stringRest quote (c :: cs) =
      if c == '\n' && quote != '\x60' then ([], c :: cs)
      else if c == quote then ([c], cs)
      else (c :: (stringRest quote cs).1, (stringRest quote cs).2) := by
  rw [stringRest.eq_def]
  simp only [if_neg hc]

theorem stringRest_follows {quote : Char} {cs taken rest rest' : List Char}
    (h : stringRest quote cs = (taken, rest)) (hfollows : Follows rest rest') :
    stringRest quote (taken ++ rest') = (taken, rest') := by
  fun_induction stringRest quote cs generalizing taken with
  | case1 =>
    cases h
    rw [hfollows.nil_iff.2 rfl]
    rfl
  | case2 c hc =>
    cases h
    rw [hfollows.nil_iff.2 rfl]
    simp [stringRest, hc]
  | case3 c hc d ds more back hmore ih =>
    cases h
    simp [stringRest, hc, ih hmore]
  | case4 c cs hc hline =>
    cases h
    have hhead : rest'.head? = some '\n' := by
      rw [hfollows.head_iff (by decide) (by decide)]
      simpa using (Bool.and_eq_true_iff.1 hline).1
    obtain ⟨after, rfl⟩ := List.head?_eq_some_iff.1 hhead
    rw [beq_iff_eq.1 (Bool.and_eq_true_iff.1 hline).1] at hline
    rw [List.nil_append, stringRest_plain (by decide), if_pos hline]
  | case5 c cs hc hline hquote =>
    cases h
    rw [List.singleton_append, stringRest_plain hc, if_neg hline, if_pos hquote]
  | case6 c cs hc hline hquote more back hmore ih =>
    cases h
    rw [List.cons_append, stringRest_plain hc, if_neg hline, if_neg hquote, ih hmore]

theorem through_length {mark cs taken rest : List Char} (h : through mark cs = (taken, rest))
    (hrest : rest ≠ []) : mark.length ≤ taken.length := by
  fun_induction through mark cs generalizing taken with
  | case1 =>
    cases h
    exact absurd rfl hrest
  | case2 c cs after hafter =>
    cases h
    exact Nat.le_refl _
  | case3 c cs hnone more back hmore ih =>
    cases h
    exact Nat.le_succ_of_le (ih hmore)

theorem through_follows {mark cs taken rest rest' : List Char} (hmark : mark ≠ [])
    (h : through mark cs = (taken, rest)) (hfollows : Follows rest rest') :
    through mark (taken ++ rest') = (taken, rest') := by
  fun_induction through mark cs generalizing taken with
  | case1 =>
    cases h
    rw [hfollows.nil_iff.2 rfl]
    rfl
  | case2 c cs after hafter =>
    cases h
    obtain ⟨d, ds, rfl⟩ := List.exists_cons_of_ne_nil hmark
    rw [List.cons_append, through, ← List.cons_append, stripPrefix?_eq_some_iff.2 rfl]
  | case3 c cs hnone more back hmore ih =>
    cases h
    have hno : stripPrefix? mark (c :: (more ++ rest')) = none := by
      by_contra hsome
      obtain ⟨after, hafter⟩ := Option.ne_none_iff_exists'.1 hsome
      rw [stripPrefix?_eq_some_iff] at hafter
      have hsplit := through_append mark cs
      rw [hmore] at hsplit
      have hstart : mark <+: c :: cs := by
        rw [← hsplit]
        by_cases hrest : rest = []
        · rw [hrest, ← hfollows.nil_iff.2 hrest]
          exact ⟨after, hafter.symm⟩
        · have hlength := through_length hmore hrest
          have hshort : mark <+: c :: more :=
            List.prefix_of_prefix_length_le ⟨after, hafter.symm⟩ ⟨rest', rfl⟩
              (Nat.le_succ_of_le hlength)
          exact hshort.trans ⟨rest, rfl⟩
      obtain ⟨tail, htail⟩ := hstart
      rw [stripPrefix?_eq_some_iff.2 htail.symm] at hnone
      cases hnone
    rw [List.cons_append, through, hno, ih hmore]

theorem restOfLine_follows {cs taken rest rest' : List Char} (h : restOfLine cs = (taken, rest))
    (hfollows : Follows rest rest') : restOfLine (taken ++ rest') = (taken, rest') := by
  obtain ⟨rfl, rfl⟩ := Prod.mk.inj h
  have hall : ∀ c ∈ cs.takeWhile (· != '\n'), (c != '\n') = true := fun c hc =>
    List.all_eq_true.1 List.all_takeWhile c hc
  have hstop : rest'.takeWhile (· != '\n') = [] ∧ rest'.dropWhile (· != '\n') = rest' := by
    cases hrest : cs.dropWhile (· != '\n') with
    | nil =>
      rw [hrest] at hfollows
      rw [hfollows.nil_iff.2 rfl]
      exact ⟨rfl, rfl⟩
    | cons d ds =>
      have hd : d = '\n' := by
        have := List.head?_dropWhile_not (fun c => c != '\n') cs
        rw [hrest] at this
        simpa using this
      have hhead : rest'.head? = some '\n' := by
        rw [hfollows.head_iff (by decide) (by decide), hrest, hd]
        rfl
      obtain ⟨after, rfl⟩ := List.head?_eq_some_iff.1 hhead
      simp
  rw [restOfLine, List.takeWhile_append_of_pos hall, List.dropWhile_append_of_pos hall, hstop.1,
    hstop.2, List.append_nil]

theorem longLexeme?_other {directives blank : Bool} {c : Char} {cs : List Char}
    (htriple : ∀ more, c = '"' → cs = '"' :: '"' :: more → False)
    (hline : ∀ more, c = '/' → cs = '/' :: more → False)
    (hblock : ∀ more, c = '/' → cs = '*' :: more → False) :
    longLexeme? directives blank (c :: cs) =
      if c == '"' || c == '\'' || c == '\x60' then
        some (.string (c :: (stringRest c cs).1), (stringRest c cs).2)
      else if c == '#' && directives && blank then
        some (.directive (c :: (restOfLine cs).1), (restOfLine cs).2)
      else none := by
  rw [longLexeme?]
  · exact htriple
  · exact hline
  · exact hblock

/-- A lexeme other than a comment is found again whatever follows it, and also if its line counts
as blank although it did not before. -/
theorem longLexeme?_follows {directives b b' : Bool} {cs rest rest' : List Char} {l : Lexeme}
    (h : longLexeme? directives b cs = some (l, rest)) (hl : ∀ text, l ≠ .comment text)
    (hfollows : Follows rest rest') (hb : b = true → b' = true) :
    longLexeme? directives b' (l.chars ++ rest') = some (l, rest') := by
  revert h
  fun_cases longLexeme? directives b cs with
  | case1 cs taken back hcut =>
    rintro ⟨⟩
    have hagain := through_follows (List.cons_ne_nil _ _) hcut hfollows
    simp only [Lexeme.chars, List.cons_append, longLexeme?, hagain]
  | case2 =>
    rintro ⟨⟩
    exact absurd rfl (hl _)
  | case3 =>
    rintro ⟨⟩
    exact absurd rfl (hl _)
  | case4 c cs htriple hline hblock hquote taken back hcut =>
    rintro ⟨⟩
    have hagain := stringRest_follows hcut hfollows
    have hslash : c ≠ '/' := by
      rintro rfl
      simp at hquote
    rw [Lexeme.chars, List.cons_append, longLexeme?_other _ (fun _ h => absurd h hslash)
      (fun _ h => absurd h hslash), if_pos hquote, hagain]
    -- an empty literal and a quote behind it would have been three quotes before
    rintro more rfl heq
    rw [heq, stringRest_plain (by decide)] at hagain
    obtain ⟨rfl, rfl⟩ := Prod.mk.inj hagain
    obtain ⟨after, rfl⟩ := List.head?_eq_some_iff.1
      ((hfollows.head_iff (by decide) (by decide)).1 rfl)
    have hcs := stringRest_append '"' cs
    rw [hcut] at hcs
    exact htriple after rfl hcs.symm
  | case5 c cs htriple hline hblock hquote hdirective taken back hcut =>
    rintro ⟨⟩
    have hagain := restOfLine_follows hcut hfollows
    simp only [Bool.and_eq_true, beq_iff_eq] at hdirective
    obtain ⟨⟨rfl, hdirectives⟩, hblank⟩ := hdirective
    rw [Lexeme.chars, List.cons_append, longLexeme?_other (fun _ h => absurd h (by decide))
      (fun _ h => absurd h (by decide)) (fun _ h => absurd h (by decide)), if_neg hquote, hagain]
    simp [hdirectives, hb hblank]
  | case6 =>
    intro h
    cases h
  | case7 =>
    intro h
    cases h

theorem code_of_longLexeme? {directives blank : Bool} {c : Char} {cs : List Char}
    (h : longLexeme? directives blank (c :: cs) = none) :
    (c == '"' || c == '\'' || c == '\x60') = false ∧
      (c = '/' → cs.head? ≠ some '/' ∧ cs.head? ≠ some '*') := by
  rw [longLexeme?.eq_def] at h
  split at h
  · cases h
  · cases h
  · cases h
  · rename_i d ds _ hline hblock heq
    cases heq
    refine ⟨?_, fun hc => ⟨fun hhead => ?_, fun hhead => ?_⟩⟩
    · rw [← Bool.not_eq_true]
      intro hquote
      rw [if_pos hquote] at h
      cases h
    · obtain ⟨more, rfl⟩ := List.head?_eq_some_iff.1 hhead
      exact hline more hc rfl
    · obtain ⟨more, rfl⟩ := List.head?_eq_some_iff.1 hhead
      exact hblock more hc rfl
  · rename_i heq
    cases heq

/-- A code character stays one, unless it is a `#` in a line that now counts as blank. -/
theorem longLexeme?_none_follows {directives b : Bool} {c : Char} {cs cs' : List Char}
    (h : longLexeme? directives b (c :: cs) = none) (hfollows : Follows cs cs') (b' : Bool) :
    longLexeme? directives b' (c :: cs') =
      if c == '#' && directives && b' then
        some (.directive (c :: (restOfLine cs').1), (restOfLine cs').2)
      else none := by
  obtain ⟨hquote, hslash⟩ := code_of_longLexeme? h
  have hno : c = '/' → cs'.head? = cs.head? := fun hc =>
    hfollows.resolve_right fun hcomment => (hslash hc).1 hcomment.1
  rw [longLexeme?_other, if_neg (by simp [hquote])]
  · rintro more rfl -
    simp at hquote
  · rintro more hc rfl
    exact (hslash hc).1 (hno hc).symm
  · rintro more hc rfl
    exact (hslash hc).2 (hno hc).symm

/-! ## The whole text -/

/-- The text of some lexemes without the comments. -/
def bareText (ls : List Lexeme) : List Char := ls.flatMap Lexeme.bareChars

theorem bareText_cons (l : Lexeme) (ls : List Lexeme) :
    bareText (l :: ls) = l.bareChars ++ bareText ls := rfl

theorem comment_head {directives blank : Bool} {cs text rest : List Char} :
    longLexeme? directives blank cs = some (.comment text, rest) → ∃ more, text = '/' :: more := by
  fun_cases longLexeme? directives blank cs with
  | case2 =>
    rintro ⟨⟩
    exact ⟨_, rfl⟩
  | case3 =>
    rintro ⟨⟩
    exact ⟨_, rfl⟩
  | _ =>
    intro h
    cases h

theorem lexemesFrom_follows (directives blank : Bool) {fuel : Nat} {cs : List Char}
    (h : cs.length ≤ fuel) : Follows cs (bareText (lexemesFrom directives fuel blank cs)) := by
  fun_cases lexemesFrom directives fuel blank cs with
  | case1 =>
    rw [List.length_eq_zero_iff.1 (Nat.le_zero.1 h)]
    exact .inl rfl
  | case2 => exact .inl rfl
  | case3 fuel blank' c cs' l rest hlong =>
    obtain ⟨hsplit, hne⟩ := longLexeme?_splits hlong
    rw [hsplit, bareText_cons]
    cases l with
    | comment text =>
      obtain ⟨more, rfl⟩ := comment_head hlong
      exact .inr ⟨rfl, rfl⟩
    | _ =>
      left
      simp only [Lexeme.bareChars, List.head?_append_of_ne_nil _ hne]
  | case4 => exact .inl rfl

theorem not_code_of_longLexeme? {directives blank : Bool} {cs rest : List Char} {c : Char} :
    longLexeme? directives blank cs ≠ some (.code c, rest) := by
  fun_cases longLexeme? directives blank cs <;>
  · intro h
    cases h

/-- Whether a `#` of the lexemes hides behind comments, the line being blank before them or not. -/
def hides (directives : Bool) : Bool → List Lexeme → Bool
  | _, [] => false
  | blank, l :: ls =>
    (l == .code '#' && directives && blank) || hides directives (l.keepsBlank blank) ls

theorem hides_iff {directives blank : Bool} {ls : List Lexeme} :
    hides directives blank ls = true ↔ directives = true ∧ ∃ front back,
      ls = front ++ .code '#' :: back ∧ front.foldl Lexeme.keepsBlank blank = true := by
  induction ls generalizing blank with
  | nil => simp [hides]
  | cons l ls ih =>
    rw [hides, Bool.or_eq_true, ih]
    constructor
    · rintro (hhere | ⟨hdirectives, front, back, rfl, hblank⟩)
      · simp only [Bool.and_eq_true, beq_iff_eq] at hhere
        obtain ⟨⟨rfl, hdirectives⟩, hblank⟩ := hhere
        exact ⟨hdirectives, [], ls, rfl, hblank⟩
      · exact ⟨hdirectives, l :: front, back, rfl, hblank⟩
    · rintro ⟨hdirectives, front, back, heq, hblank⟩
      cases front with
      | nil =>
        cases heq
        exact .inl (by simpa [hdirectives] using hblank)
      | cons first front =>
        cases heq
        exact .inr ⟨hdirectives, front, back, rfl, hblank⟩

/-- Blanks are read as code, and a line feed among them starts a blank line. -/
theorem lexemesFrom_blanks {directives blank : Bool} {fuel : Nat} {blanks cs : List Char}
    (h : ∀ c ∈ blanks, c = ' ' ∨ c = '\n') :
    lexemesFrom directives (blanks.length + fuel) blank (blanks ++ cs) =
      blanks.map .code ++ lexemesFrom directives fuel (blank || blanks.contains '\n') cs := by
  induction blanks generalizing blank with
  | nil => simp
  | cons c blanks ih =>
    have hmore := fun d hd => h d (List.mem_cons_of_mem c hd)
    rw [List.length_cons, Nat.add_right_comm, List.cons_append, lexemesFrom]
    rcases h c List.mem_cons_self with rfl | rfl
    · rw [longLexeme?_other (fun _ h => absurd h (by decide)) (fun _ h => absurd h (by decide))
        (fun _ h => absurd h (by decide))]
      simp [ih hmore, isAsciiBlank]
    · rw [longLexeme?_other (fun _ h => absurd h (by decide)) (fun _ h => absurd h (by decide))
        (fun _ h => absurd h (by decide))]
      simp [ih hmore]

/-- By induction on the lexemes. The line may count as blank without its comments where it did not
with them. -/
theorem lexemesFrom_bare_iff {directives b b' : Bool} {fuel fuel' : Nat} {cs : List Char}
    (h : cs.length ≤ fuel) (hb : b = true → b' = true)
    (h' : (bareText (lexemesFrom directives fuel b cs)).length ≤ fuel') :
    lexemesFrom directives fuel' b' (bareText (lexemesFrom directives fuel b cs)) =
        (lexemesFrom directives fuel b cs).flatMap Lexeme.bare ↔
      hides directives b' (lexemesFrom directives fuel b cs) = false := by
  fun_induction lexemesFrom directives fuel b cs generalizing b' fuel' with
  | case1 => cases fuel' <;> simp [bareText, lexemesFrom, hides]
  | case2 => cases fuel' <;> simp [bareText, lexemesFrom, hides]
  | case3 fuel b c cs l rest hlong ih =>
    obtain ⟨hsplit, hne⟩ := longLexeme?_splits hlong
    have hrest : rest.length ≤ fuel := by
      have hlength := congrArg List.length hsplit
      have hpos := List.length_pos_iff.2 hne
      rw [List.length_append] at hlength
      omega
    rw [bareText_cons, List.length_append] at h'
    rw [bareText_cons, List.flatMap_cons, hides]
    by_cases hcomment : ∃ text, l = .comment text
    · obtain ⟨text, rfl⟩ := hcomment
      obtain ⟨more, rfl⟩ := Nat.exists_eq_add_of_le (Nat.le_trans (Nat.le_add_right _ _) h')
      rw [Lexeme.bareChars, lexemesFrom_blanks fun _ => mem_blanked, Lexeme.bare,
        List.append_cancel_left_eq]
      refine (ih hrest Bool.noConfusion (by simp only [Lexeme.bareChars] at h'; omega)).trans ?_
      simp [Lexeme.keepsBlank]
    · have hl : ∀ text, l ≠ .comment text := fun text heq => hcomment ⟨text, heq⟩
      have hagain := longLexeme?_follows hlong hl (lexemesFrom_follows directives false hrest) hb
      have hkept : l.bare = [l] ∧ l.bareChars = l.chars ∧ l.keepsBlank b' = false ∧
          (l == .code '#') = false := by
        cases l with
        | comment text => exact absurd rfl (hl text)
        | code c => exact absurd hlong not_code_of_longLexeme?
        | string text => exact ⟨rfl, rfl, rfl, by simp⟩
        | directive text => exact ⟨rfl, rfl, rfl, by simp⟩
      obtain ⟨hbare, hchars, hblank, hcode⟩ := hkept
      obtain ⟨d, ds, hds⟩ := List.exists_cons_of_ne_nil hne
      rw [hchars, hds] at h'
      obtain ⟨more, rfl⟩ := Nat.exists_eq_add_of_le (Nat.le_trans (Nat.le_add_left 1 _)
        (Nat.le_trans (Nat.le_add_right _ _) h'))
      rw [hds, List.cons_append] at hagain
      rw [hchars, hds, List.cons_append, Nat.add_comm, lexemesFrom, hagain, hbare,
        List.singleton_append, List.cons.injEq, hblank, hcode]
      simp only [true_and, Bool.false_and, Bool.false_or]
      exact ih hrest Bool.noConfusion (by rw [List.length_cons] at h'; omega)
  | case4 fuel b c cs hnone blank =>
    rename_i ih
    rw [List.length_cons] at h
    rw [bareText_cons] at h'
    rw [bareText_cons, List.flatMap_cons, hides]
    obtain ⟨more, rfl⟩ := Nat.exists_eq_add_of_le (Nat.le_trans (Nat.le_add_left 1 _) h')
    have hagain := longLexeme?_none_follows hnone
      (lexemesFrom_follows directives blank (Nat.le_of_succ_le_succ h)) b'
    simp only [Lexeme.bareChars, Lexeme.chars, Lexeme.bare, List.singleton_append] at h' ⊢
    rw [Nat.add_comm, lexemesFrom, hagain]
    by_cases hhash : (c == '#' && directives && b') = true
    · have hhidden : (Lexeme.code c == .code '#' && directives && b') = true := by
        simpa using hhash
      rw [if_pos hhash, hhidden]
      simp
    · have hplain : (Lexeme.code c == .code '#' && directives && b') = false := by
        simpa using hhash
      rw [if_neg hhash, hplain, Bool.false_or, List.cons.injEq]
      simp only [true_and]
      refine ih (Nat.le_of_succ_le_succ h) ?_ (by rw [List.length_cons] at h'; omega)
      intro hblank
      simp only [blank, Bool.or_eq_true, Bool.and_eq_true] at hblank ⊢
      exact hblank.imp_right fun hspace => ⟨hb hspace.1, hspace.2⟩

theorem hidesDirective_iff {language : Language} {cs : List Char} :
    HidesDirective language cs ↔ hides (language == .cpp) true (lexemes language cs) = true := by
  rw [hides_iff, beq_iff_eq]
  rfl

instance (language : Language) (cs : List Char) : Decidable (HidesDirective language cs) :=
  decidable_of_iff _ hidesDirective_iff.symm

/-- Without its comments a text has the same lexemes, blanks in place of the comments, exactly if no
preprocessor line hides behind one. -/
theorem lexemes_blankComments_iff (language : Language) (cs : List Char) :
    lexemes language (blankComments language cs) = (lexemes language cs).flatMap Lexeme.bare ↔
      ¬HidesDirective language cs := by
  refine (lexemesFrom_bare_iff (Nat.le_refl cs.length) (fun h => h) (Nat.le_refl _)).trans ?_
  rw [hidesDirective_iff, Bool.not_eq_true]
  rfl

end LeakScan.Scope.Outline
