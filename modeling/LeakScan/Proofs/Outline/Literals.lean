import Mathlib.Data.Set.Basic
import LeakScan.Proofs.Outline.Discipline
import LeakScan.Proofs.Outline.KeywordLiteral
import LeakScan.Proofs.Outline.Line
import LeakScan.Scope.Outline

/-!
# LeakScan.Proofs.Outline.Literals

When the contents of string literals leave no trace in the outline of a text.

* `IsLiteral` — a string literal of a text on one line, outside comments and longer quotes.
* `masked` — as many letters `x` as a content has bytes.
* `Inert` — contents over some alphabet can be masked, in every literal of every text, without a
  change of scopes and guards.
* `linesOf_withLiteral` — masking changes one line and moves none.
* `inert_iff` — the alphabets for which this holds, in indented texts and in texts with keyword
  blocks. A bracket is in no such alphabet of the first kind: `bracket_hides_function`.
-/

namespace LeakScan.Scope.Outline

open Text Regex

/-! ## Literals of a text -/

/-- What is open after some characters of a text. One or two quotes may be the start of three, which
open a longer quote in some languages. -/
inductive QuoteState where
  | code
  | opened (quote : Char)
  | doubled (quote : Char)
  | inside (quote : Char) (escaped : Bool)
  | tripled (quote : Char) (closing : Nat) (escaped : Bool)
  | comment
  deriving DecidableEq, Repr

namespace QuoteState

def stepCode (c : Char) : QuoteState :=
  if c == '#' then .comment else if c == '"' || c == '\'' then .opened c else .code

/-- A literal that is not closed on its line is open no longer. -/
def stepInside (quote c : Char) : QuoteState :=
  if c == '\\' then .inside quote true
  else if c == quote || c == '\n' then .code
  else .inside quote false

def step (language : Language) : QuoteState → Char → QuoteState
  | .code, c => stepCode c
  | .opened q, c => if c == q then .doubled q else stepInside q c
  | .doubled q, c => if c == q && language == .python then .tripled q 0 false else stepCode c
  | .inside q true, _ => .inside q false
  | .inside q false, c => stepInside q c
  | .tripled q _ true, _ => .tripled q 0 false
  | .tripled q n false, c =>
    if c == '\\' then .tripled q 0 true
    else if c == q then if n == 2 then .code else .tripled q (n + 1) false
    else .tripled q 0 false
  | .comment, c => if c == '\n' then .code else .comment

end QuoteState

/-- What may stand between two quotes: no line feed, no such quote without a backslash before it, and
no backslash at the end. `escaped` tells whether the next character has a backslash before it. -/
def isContent (quote : Char) (escaped : Bool) : List Char → Bool
  | [] => !escaped
  | c :: cs => c != '\n' && (escaped || c != quote) && isContent quote (!escaped && c == '\\') cs

/-- Between `front` and `back` stands a string literal on one line. -/
structure IsLiteral (language : Language) (front : List Char) (quote : Char)
    (content back : List Char) : Prop where
  opens : (front ++ [quote]).foldl (QuoteState.step language) .code = .opened quote
  fits : isContent quote false content = true
  single : language = .python → content = [] → back.head? ≠ some quote

instance (language : Language) (front : List Char) (quote : Char) (content back : List Char) :
    Decidable (IsLiteral language front quote content back) :=
  decidable_of_iff
    ((front ++ [quote]).foldl (QuoteState.step language) .code = .opened quote ∧
      isContent quote false content = true ∧
      (language = .python → content = [] → back.head? ≠ some quote))
    ⟨fun h => ⟨h.1, h.2.1, h.2.2⟩, fun h => ⟨h.opens, h.fits, h.single⟩⟩

/-- As many letters as the content has bytes. -/
def masked (content : List Char) : List Char := List.replicate (byteSize content) 'x'

/-- The outlines have the same scopes and guards. -/
def SameBlocks (a b : Skeleton) : Prop := a.scopes = b.scopes ∧ a.guards = b.guards

instance (a b : Skeleton) : Decidable (SameBlocks a b) := inferInstanceAs (Decidable (_ ∧ _))

/-- What literals over the alphabet say does not matter to the outline. -/
def Inert (language : Language) (alphabet : Set Char) : Prop :=
  ∀ front quote content back, IsLiteral language front quote content back →
    (∀ c ∈ content, c ∈ alphabet) →
      SameBlocks (outline language (withLiteral front quote (masked content) back))
        (outline language (withLiteral front quote content back))

namespace QuoteState

theorem stepCode_opened {c quote : Char} (h : stepCode c = .opened quote) : IsQuote quote := by
  rw [stepCode] at h
  split at h
  · cases h
  · split at h
    · rename_i hquote
      cases h
      simpa [IsQuote] using hquote
    · cases h

theorem stepInside_ne (quote c other : Char) : stepInside quote c ≠ .opened other := by
  rw [stepInside]
  split
  · simp
  · split <;> simp

theorem step_opened {language : Language} {st : QuoteState} {c quote : Char}
    (h : st.step language c = .opened quote) : IsQuote quote := by
  cases st with
  | code => exact stepCode_opened h
  | opened q =>
    rw [step] at h
    split at h
    · cases h
    · exact absurd h (stepInside_ne q c quote)
  | doubled q =>
    rw [step] at h
    split at h
    · cases h
    · exact stepCode_opened h
  | inside q escaped =>
    cases escaped with
    | true => cases h
    | false => exact absurd h (stepInside_ne q c quote)
  | tripled q n escaped =>
    cases escaped with
    | true => cases h
    | false =>
      rw [step] at h
      split at h
      · cases h
      · split at h
        · split at h <;> cases h
        · cases h
  | comment =>
    rw [step] at h
    split at h <;> cases h

end QuoteState

theorem IsLiteral.isQuote {language : Language} {front content back : List Char} {quote : Char}
    (h : IsLiteral language front quote content back) : IsQuote quote := by
  have hopens := h.opens
  rw [List.foldl_append] at hopens
  exact QuoteState.step_opened hopens

theorem byteSize_masked (content : List Char) : byteSize (masked content) = byteSize content := by
  have hsize : ∀ n, byteSize (List.replicate n 'x') = n := by
    intro n
    induction n with
    | zero => rfl
    | succ n ih =>
      rw [List.replicate_succ, byteSize_cons, ih, Nat.add_comm]
      rfl
  exact hsize _

/-! ## Contents -/

theorem newline_not_mem {quote : Char} {escaped : Bool} {content : List Char}
    (h : isContent quote escaped content = true) : '\n' ∉ content := by
  induction content generalizing escaped with
  | nil => simp
  | cons c content ih =>
    rw [isContent, Bool.and_eq_true, Bool.and_eq_true, bne_iff_ne] at h
    simp [ih h.2, h.1.1.symm]

/-- Each backslash of a content escapes a character of it. -/
theorem foldl_step_inside {quote other : Char} {escaped : Bool} {content : List Char}
    (h : isContent quote escaped content = true) (hother : other ∉ content) :
    content.foldl CodeState.step (.string other escaped) = .string other false := by
  induction content generalizing escaped with
  | nil =>
    rw [isContent, Bool.not_eq_true'] at h
    rw [h]
    rfl
  | cons c content ih =>
    have hc : ¬ (c == other) = true := fun heq => hother (by simp [beq_iff_eq.1 heq])
    rw [isContent, Bool.and_eq_true] at h
    rw [List.foldl_cons, ← ih h.2 (List.not_mem_of_not_mem_cons hother)]
    congr 1
    cases escaped with
    | true => rfl
    | false =>
      rw [CodeState.step, if_neg hc]
      cases c == '\\' <;> rfl

/-- Alphabets whose contents are quiet in an indented text. -/
structure IndentSafe (alphabet : Set Char) : Prop where
  chars : ∀ c ∈ alphabet, c ∉ indentMarks
  noLambda : ∃ c ∈ "lambda".toList, c ∉ alphabet

/-- Alphabets whose contents are quiet in a text with keyword blocks. -/
structure KeywordSafe (alphabet : Set Char) : Prop where
  noClose : ')' ∉ alphabet
  noBar : '|' ∉ alphabet
  noComment : ' ' ∉ alphabet ∨ '#' ∉ alphabet
  noAssignment : ' ' ∉ alphabet ∨ '=' ∉ alphabet
  noCall : '(' ∉ alphabet ∨ ∀ c ∈ alphabet, nameStart.contains c = false

theorem IndentSafe.quiet {alphabet : Set Char} (h : IndentSafe alphabet) {quote : Char}
    {content : List Char} (hfits : isContent quote false content = true)
    (hover : ∀ c ∈ content, c ∈ alphabet) : IndentQuiet content where
  chars c hc := h.chars c (hover c hc)
  oneLine := newline_not_mem hfits
  noLambda hpart := by
    obtain ⟨c, hc, hnot⟩ := h.noLambda
    exact hnot (hover c (hpart.subset hc))
  escapes other hother := by
    refine foldl_step_inside hfits fun hmem => h.chars other (hover other hmem) ?_
    rcases hother with rfl | rfl <;> decide

theorem occursIn_eq_false {needle content : List Char} {alphabet : Set Char}
    (hover : ∀ c ∈ content, c ∈ alphabet) {c : Char} (hc : c ∈ needle) (hnot : c ∉ alphabet) :
    occursIn needle content = false := by
  rw [Bool.eq_false_iff, ne_eq, occursIn_iff]
  exact fun hpart => hnot (hover c (hpart.subset hc))

theorem KeywordSafe.quiet {alphabet : Set Char} (h : KeywordSafe alphabet) {content : List Char}
    (hover : ∀ c ∈ content, c ∈ alphabet) : KeywordQuiet content where
  noClose hmem := h.noClose (hover _ hmem)
  noBar hmem := h.noBar (hover _ hmem)
  noComment := by
    rcases h.noComment with hnot | hnot
    · exact occursIn_eq_false hover (by decide) hnot
    · exact occursIn_eq_false hover (by decide) hnot
  noAssignment := by
    rcases h.noAssignment with hnot | hnot
    · exact occursIn_eq_false hover (by decide) hnot
    · exact occursIn_eq_false hover (by decide) hnot
  noCall := by
    rcases h.noCall with hnot | hname
    · exact .inl fun hmem => hnot (hover _ hmem)
    · exact .inr fun c hc => hname c (hover c hc)

/-- The letter `x` alone is quiet everywhere. -/
theorem indentSafe_mask : IndentSafe {'x'} where
  chars := by
    rintro _ rfl
    decide
  noLambda := ⟨'l', by decide, by simp⟩

theorem keywordSafe_mask : KeywordSafe {'x'} where
  noClose := by simp
  noBar := by simp
  noComment := by simp
  noAssignment := by simp
  noCall := by simp

theorem mem_masked (content : List Char) : ∀ c ∈ masked content, c ∈ ({'x'} : Set Char) :=
  fun _ hc => List.eq_of_mem_replicate hc

theorem isContent_masked {quote : Char} (hquote : IsQuote quote) (content : List Char) :
    isContent quote false (masked content) = true := by
  have hne : ('x' != quote) = true := by rcases hquote with rfl | rfl <;> rfl
  have hall : ∀ n, isContent quote false (List.replicate n 'x') = true := by
    intro n
    induction n with
    | zero => rfl
    | succ n ih =>
      rw [List.replicate_succ, isContent, hne]
      exact ih
  exact hall _

/-! ## Lines around a literal -/

/-- A literal stands in one line, and the other lines do not depend on its content. -/
theorem splitOn_withLiteral {quote : Char} (hquote : quote ≠ '\n') (front back : List Char) :
    ∃ above before after below, ∀ content, '\n' ∉ content →
      splitOn '\n' (withLiteral front quote content back) =
        above ++ withLiteral before quote content after :: below := by
  induction front with
  | nil =>
    obtain ⟨after, below, hback⟩ := List.exists_cons_of_ne_nil (splitOn_ne_nil '\n' back)
    refine ⟨[], [], after, below, fun content hcontent => ?_⟩
    have hpiece : '\n' ∉ quote :: (content ++ [quote]) := by
      simpa [hquote.symm] using hcontent
    rw [withLiteral_eq, List.nil_append, splitOn_of_not_mem hpiece hback, withLiteral_eq]
    rfl
  | cons c front ih =>
    obtain ⟨above, before, after, below, hsplit⟩ := ih
    by_cases hc : (c == '\n') = true
    · refine ⟨[] :: above, before, after, below, fun content hcontent => ?_⟩
      have hrest := hsplit content hcontent
      rw [withLiteral] at hrest ⊢
      rw [List.cons_append, splitOn, if_pos hc, hrest]
      rfl
    · cases above with
      | nil =>
        refine ⟨[], c :: before, after, below, fun content hcontent => ?_⟩
        have hrest := hsplit content hcontent
        rw [withLiteral] at hrest ⊢
        rw [List.cons_append, splitOn, if_neg hc, hrest]
        rfl
      | cons piece above =>
        refine ⟨(c :: piece) :: above, before, after, below, fun content hcontent => ?_⟩
        have hrest := hsplit content hcontent
        rw [withLiteral] at hrest ⊢
        rw [List.cons_append, splitOn, if_neg hc, hrest]
        rfl

/-- Only an empty last piece is no line, so it makes no difference what another piece is. -/
theorem linesOf_of_splitOn (above below : List (List Char)) :
    ∃ below', ∀ cs piece, piece ≠ [] → splitOn '\n' cs = above ++ piece :: below →
      linesOf cs = placeLines 0 (above ++ piece :: below') := by
  rcases List.eq_nil_or_concat below with rfl | ⟨init, last, rfl⟩
  · refine ⟨[], fun cs piece hne hsplit => ?_⟩
    obtain ⟨c, rest, rfl⟩ := List.exists_cons_of_ne_nil hne
    rw [linesOf, hsplit]
    simp
  · cases last with
    | nil =>
      refine ⟨init, fun cs piece _ hsplit => ?_⟩
      rw [linesOf, hsplit]
      simp
    | cons c rest =>
      refine ⟨init ++ [c :: rest], fun cs piece _ hsplit => ?_⟩
      rw [linesOf, hsplit]
      simp

/-- The bytes of some pieces and of the line feeds behind them. -/
def linesSize (pieces : List (List Char)) : Nat := (pieces.map (byteSize · + 1)).sum

theorem placeLines_append (offset : Nat) (above below : List (List Char)) :
    placeLines offset (above ++ below) =
      placeLines offset above ++ placeLines (offset + linesSize above) below := by
  induction above generalizing offset with
  | nil => rfl
  | cons piece above ih =>
    rw [List.cons_append, placeLines, placeLines, ih, List.cons_append]
    simp [linesSize, Nat.add_assoc]

theorem linesOf_withLiteral {quote : Char} (hquote : IsQuote quote) (front back : List Char)
    (size : Nat) :
    ∃ above start before after below, ∀ content, '\n' ∉ content → byteSize content = size →
      linesOf (withLiteral front quote content back) =
        above ++ ⟨start, withLiteral before quote content after⟩ :: below := by
  have hend : (quote == '\n' || quote == '\r') = false := by rcases hquote with rfl | rfl <;> rfl
  have hfeed : quote ≠ '\n' := hquote.ne (by decide) (by decide)
  obtain ⟨above, before, after, below, hsplit⟩ := splitOn_withLiteral hfeed front back
  obtain ⟨below', hlines⟩ := linesOf_of_splitOn above below
  refine ⟨placeLines 0 above, 0 + linesSize above, before, dropLineEnd after,
    placeLines (0 + linesSize above + (byteSize before + (2 * quote.utf8Size + size) +
      byteSize after) + 1) below', fun content hcontent hsize => ?_⟩
  rw [hlines _ _ (withLiteral_ne _ _ (by simp)) (hsplit content hcontent), placeLines_append,
    placeLines, byteSize_withLiteral, hsize, dropLineEnd, dropEnd_withLiteral _ _ hend]
  rfl

/-- A pass over the lines, when the line of the literal makes no difference to it. -/
theorem foldl_lines_exchange {σ : Type} {f : σ → Line → σ} {x : Exchange} (Inv : σ → Prop)
    (hinv : ∀ st l, Inv st → Inv (f st l))
    (hline : ∀ st front back start, Inv st →
      f st ⟨start, withLiteral front x.quote x.left back⟩ =
        f st ⟨start, withLiteral front x.quote x.right back⟩)
    (hleft : '\n' ∉ x.left) (hright : '\n' ∉ x.right) {st : σ} (hst : Inv st) :
    (linesOf x.first).foldl f st = (linesOf x.second).foldl f st := by
  obtain ⟨above, start, before, after, below, hlines⟩ :=
    linesOf_withLiteral x.isQuote x.front x.back (byteSize x.left)
  have habove : Inv (above.foldl f st) :=
    List.foldlRecOn above f hst fun st h l _ => hinv st l h
  rw [Exchange.first, Exchange.second, hlines x.left hleft rfl, hlines x.right hright x.size.symm,
    List.foldl_append, List.foldl_append, List.foldl_cons, List.foldl_cons,
    hline _ before after start habove]

theorem opensTriple?_isQuote {trimmed : List Char} : ∀ q ∈ opensTriple? trimmed, IsQuote q := by
  intro q hq
  rw [opensTriple?] at hq
  split at hq
  · exact .inl (Option.some.inj hq).symm
  · split at hq
    · exact .inr (Option.some.inj hq).symm
    · cases hq

theorem IndentState.docstring_step {st : IndentState} (h : ∀ q ∈ st.docstring, IsQuote q)
    (l : Line) : ∀ q ∈ (st.step l).docstring, IsQuote q := by
  cases hdoc : st.docstring with
  | some quote =>
    rw [IndentState.step, hdoc]
    simp only
    split
    · simp
    · rw [← hdoc]
      exact h
  | none =>
    rw [IndentState.step, hdoc]
    simp only
    split
    · exact h
    · exact opensTriple?_isQuote

theorem outline_python_exchange {x : Exchange} (hleft : IndentQuiet x.left)
    (hright : IndentQuiet x.right) :
    SameBlocks (outline .python x.first) (outline .python x.second) := by
  have hrun : (linesOf x.first).foldl IndentState.step {} =
      (linesOf x.second).foldl IndentState.step {} := by
    refine foldl_lines_exchange (fun st => ∀ q ∈ st.docstring, IsQuote q)
      (fun st l h => IndentState.docstring_step h l)
      (fun st front back start h => ?_) hleft.oneLine hright.oneLine (by simp)
    let y : Exchange := { x with front := front, back := back }
    have hleft : IndentQuiet y.left := hleft
    exact IndentState.step_exchange hleft hright h start
  simp only [SameBlocks, outline, indentationBlocks, hrun, x.byteSize_eq, scopes_append,
    guards_append, lineStatements]
  exact ⟨trivial, rfl⟩

theorem outline_ruby_exchange {x : Exchange} (hleft : KeywordQuiet x.left)
    (hright : KeywordQuiet x.right) (hleft' : '\n' ∉ x.left) (hright' : '\n' ∉ x.right) :
    SameBlocks (outline .ruby x.first) (outline .ruby x.second) := by
  have hrun : (linesOf x.first).foldl KeywordState.step {} =
      (linesOf x.second).foldl KeywordState.step {} := by
    refine foldl_lines_exchange (fun _ => True) (fun _ _ _ => trivial)
      (fun st front back start _ => ?_) hleft' hright' trivial
    let y : Exchange := { x with front := front, back := back }
    have hleft : KeywordQuiet y.left := hleft
    exact KeywordState.step_exchange hleft hright st start
  simp only [SameBlocks, outline, keywordBlocks, hrun, x.byteSize_eq, scopes_append,
    guards_append, lineStatements]
  exact ⟨trivial, rfl⟩

/-! ## Contents that stir -/

/-- A literal whose content shows in the outline of its text. -/
def Stirs (language : Language) (front : List Char) (quote : Char) (content back : List Char) :
    Prop :=
  IsLiteral language front quote content back ∧
    ¬ SameBlocks (outline language (withLiteral front quote (masked content) back))
      (outline language (withLiteral front quote content back))

instance (language : Language) (front : List Char) (quote : Char) (content back : List Char) :
    Decidable (Stirs language front quote content back) := inferInstanceAs (Decidable (_ ∧ _))

theorem Inert.exists_not_mem {language : Language} {alphabet : Set Char}
    (h : Inert language alphabet) {front content back : List Char} {quote : Char}
    (hstirs : Stirs language front quote content back) : ∃ c ∈ content, c ∉ alphabet := by
  by_contra hall
  push Not at hall
  exact hstirs.2 (h front quote content back hstirs.1 hall)

/-- A literal that holds one character only, several times perhaps. -/
theorem Inert.not_mem {language : Language} {alphabet : Set Char} (h : Inert language alphabet)
    {front content back : List Char} {quote c : Char}
    (hstirs : Stirs language front quote content back) (hc : ∀ d ∈ content, d = c) :
    c ∉ alphabet := by
  obtain ⟨d, hd, hnot⟩ := h.exists_not_mem hstirs
  rwa [← hc d hd]

/-- The lines of a function that a text ends in. -/
def functionBelow : List Char := "\ndef f():\n    pass\n".toList

theorem IndentSafe.of_inert {alphabet : Set Char} (h : Inert .python alphabet) :
    IndentSafe alphabet where
  chars c hc hmem := by
    have hopening : ∀ c, Stirs .python "s = ".toList '"' [c] functionBelow → c ∉ alphabet :=
      fun c hstirs => h.not_mem hstirs (by simp)
    have hclosing : ∀ c, Stirs .python "s = (".toList '"' [c] functionBelow → c ∉ alphabet :=
      fun c hstirs => h.not_mem hstirs (by simp)
    have hquotes : ∀ quote c, Stirs .python "s = ".toList quote [c, c, c] functionBelow →
        c ∉ alphabet := fun quote c hstirs => h.not_mem hstirs (by simp)
    have hcomment : Stirs .python "s = (".toList '"' ['#'] (')' :: functionBelow) := by
      decide +kernel
    have hcolon : Stirs .python "with a: s = ".toList '"' [':'] [] := by decide +kernel
    simp only [indentMarks, brackets, List.cons_append, List.nil_append, List.mem_cons,
      List.not_mem_nil, or_false] at hmem
    rcases hmem with rfl | rfl | rfl | rfl | rfl | rfl | rfl | rfl | rfl | rfl
    · exact h.not_mem hcomment (by simp) hc
    · exact hopening '(' (by decide +kernel) hc
    · exact hopening '[' (by decide +kernel) hc
    · exact hopening '\x7b' (by decide +kernel) hc
    · exact hclosing ')' (by decide +kernel) hc
    · exact hclosing ']' (by decide +kernel) hc
    · exact hclosing '\x7d' (by decide +kernel) hc
    · exact h.not_mem hcolon (by simp) hc
    · exact hquotes '\'' '"' (by decide +kernel) hc
    · exact hquotes '"' '\'' (by decide +kernel) hc
  noLambda := by
    -- the lone quote in the longer quote turns what is inside and what is outside around
    have hstirs : Stirs .python "s = \"\"\"a\"b\"\"\" + ".toList '"' "lambda".toList [] := by
      decide +kernel
    exact h.exists_not_mem hstirs

/-- The letters that a name may start with. -/
def nameStarts : List Char := "ABCDEFGHIJKLMNOPQRSTUVWXYZabcdefghijklmnopqrstuvwxyz_".toList

theorem mem_nameStarts {c : Char} (h : nameStart.contains c = true) : c ∈ nameStarts := by
  have hascii : ∀ n < 128, nameStart.contains (Char.ofNat n) = true →
      Char.ofNat n ∈ nameStarts := by
    decide +kernel
  have hsmall : c.toNat < 128 := by
    simp only [nameStart, asciiLetter, CharClass.one, CharClass.contains, Bool.or_eq_true,
      Bool.and_eq_true, decide_eq_true_eq] at h
    have hZ : 'Z'.toNat = 90 := rfl
    have hz : 'z'.toNat = 122 := rfl
    have hline : '_'.toNat = 95 := rfl
    omega
  rw [← Char.ofNat_toNat c] at h ⊢
  exact hascii _ hsmall h

theorem KeywordSafe.of_inert {alphabet : Set Char} (h : Inert .ruby alphabet) :
    KeywordSafe alphabet where
  noClose := by
    have hstirs : Stirs .ruby "foo(".toList '"' [')'] ") do\nend\n".toList := by decide +kernel
    exact h.not_mem hstirs (by simp)
  noBar := by
    have hstirs : Stirs .ruby "foo do |a = ".toList '"' ['|'] "|\nend\n".toList := by decide +kernel
    exact h.not_mem hstirs (by simp)
  noComment := by
    have hstirs : Stirs .ruby "foo(".toList '"' [' ', '#'] ") do\nend\n".toList := by decide +kernel
    simpa using h.exists_not_mem hstirs
  noAssignment := by
    have hstirs : Stirs .ruby "def f(a: ".toList '"' [' ', '=', ' '] ")\nend\n".toList := by
      decide +kernel
    obtain ⟨c, hc, hnot⟩ := h.exists_not_mem hstirs
    simp only [List.mem_cons, List.not_mem_nil, or_false] at hc
    rcases hc with rfl | rfl | rfl
    · exact .inl hnot
    · exact .inr hnot
    · exact .inl hnot
  noCall := by
    have hstirs : nameStarts.all (fun c =>
        decide (Stirs .ruby "puts ".toList '"' [c, '('] " + (1) do\nend\n".toList)) = true := by
      decide +kernel
    by_cases hopen : '(' ∈ alphabet
    · refine .inr fun c hc => Bool.eq_false_iff.2 fun hname => ?_
      have hc' := of_decide_eq_true (List.all_eq_true.1 hstirs c (mem_nameStarts hname))
      obtain ⟨d, hd, hnot⟩ := h.exists_not_mem hc'
      simp only [List.mem_cons, List.not_mem_nil, or_false] at hd
      rcases hd with rfl | rfl
      · exact hnot hc
      · exact hnot hopen
    · exact .inl hopen

/-! ## Inert alphabets -/

/-- A literal with its content masked, and with the content itself. -/
def masking (front content back : List Char) {quote : Char} (h : IsQuote quote) : Exchange where
  front := front
  quote := quote
  left := masked content
  right := content
  back := back
  isQuote := h
  size := byteSize_masked content

/-- What a literal says never shows exactly if its alphabet is safe: a content over a safe one is
quiet in its line, and each way not to be safe has a literal that shows. -/
theorem inert_iff (alphabet : Set Char) :
    (Inert .python alphabet ↔ IndentSafe alphabet) ∧
      (Inert .ruby alphabet ↔ KeywordSafe alphabet) := by
  refine ⟨⟨IndentSafe.of_inert, fun hsafe front quote content back hliteral hover => ?_⟩,
    ⟨KeywordSafe.of_inert, fun hsafe front quote content back hliteral hover => ?_⟩⟩
  · let x := masking front content back hliteral.isQuote
    have hleft : IndentQuiet x.left :=
      indentSafe_mask.quiet (isContent_masked hliteral.isQuote content) (mem_masked content)
    have hright : IndentQuiet x.right := hsafe.quiet hliteral.fits hover
    have hsame := outline_python_exchange hleft hright
    exact hsame
  · let x := masking front content back hliteral.isQuote
    have hleft : KeywordQuiet x.left := keywordSafe_mask.quiet (mem_masked content)
    have hright : KeywordQuiet x.right := hsafe.quiet hover
    have hleft' : '\n' ∉ x.left := newline_not_mem (isContent_masked hliteral.isQuote content)
    have hright' : '\n' ∉ x.right := newline_not_mem hliteral.fits
    have hsame := outline_ruby_exchange hleft hright hleft' hright'
    exact hsame

/-- A bracket between quotes takes the next lines for a continuation, and the function below is
not seen. -/
theorem bracket_hides_function :
    IsLiteral .python "s = ".toList '"' ['('] functionBelow ∧
      (outline .python (withLiteral "s = ".toList '"' (masked ['(']) functionBelow)).scopes =
        [{ kind := .function, span := ⟨8, 26⟩, name := some "f" }] ∧
      (outline .python (withLiteral "s = ".toList '"' ['('] functionBelow)).scopes = [] := by
  decide +kernel

end LeakScan.Scope.Outline
