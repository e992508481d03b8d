import Mathlib.Data.List.Find
import LeakScan.Proofs.Regex.Literal
import LeakScan.Scope.Outline.Indentation

/-!
# LeakScan.Proofs.Outline.IndentLiteral

A line of an indented text reads the same whatever quiet content a string literal of it has.

* `IndentQuiet` — contents that nothing in the reading of a line stops at: no brackets, no quotes,
  no `#`, no colon, no `lambda`.
* `lineBlock_exchange`, `withGuard?_exchange`, `lambdaScope?_exchange`, `opensTriple?_exchange`,
  `bracketDelta_exchange` — each reading of a line.
* `IndentState.step_exchange` — so one line leads to the same state.
-/

namespace LeakScan

open Text

namespace Scope.Outline

open Regex

/-- A word without quotes holds the quote of no literal. -/
theorem quote_not_mem (x : Exchange) {needle : List Char} (hdouble : '"' ∉ needle)
    (hsingle : '\'' ∉ needle) : x.quote ∉ needle := by
  rcases x.isQuote with h | h
  · rwa [h]
  · rwa [h]

theorem nameOf_exchange {x : Exchange} {r : Regex} {m : Match}
    (h : Exchange.SameMatch x.Outside (r.find? x.first) (r.find? x.second))
    (hm : r.find? x.first = some m) : nameOf x.first m = nameOf x.second m := by
  rw [nameOf, nameOf, Exchange.groupText?_eq h hm]

theorem isMatch_exchange {x : Exchange} {ok : Span → Prop} {r : Regex}
    (h : Exchange.SameMatch ok (r.find? x.first) (r.find? x.second)) :
    r.isMatch x.first = r.isMatch x.second := by
  rw [isMatch, isMatch, h.eq]

theorem returnLine_exchange (x : Exchange) :
    returnLine.isMatch x.first = returnLine.isMatch x.second :=
  isMatch_exchange (Exchange.find?_readsNoQuote (by decide +kernel))

/-! ## What a line opens -/

theorem lineBlock_exchange (x : Exchange) : lineBlock x.first = lineBlock x.second := by
  have hdef : Exchange.SameMatch x.Outside (defLine.find? x.first) (defLine.find? x.second) :=
    Exchange.find?_readsNoQuote (by decide +kernel)
  have hclass : Exchange.SameMatch x.Outside (classLine.find? x.first) (classLine.find? x.second) :=
    Exchange.find?_readsNoQuote (by decide +kernel)
  rw [lineBlock, lineBlock, ← hdef.eq, ← hclass.eq, x.getLast?_eq,
    x.startsWith_eq (quote_not_mem x (by decide) (by decide))]
  cases hm : defLine.find? x.first with
  | some m => simp only [nameOf_exchange hdef hm]
  | none =>
    cases hm : classLine.find? x.first with
    | some m => simp only [nameOf_exchange hclass hm]
    | none => rfl

/-- The items of a `with` line end at its last colon, which is no part of the content. -/
theorem withGuard?_exchange {x : Exchange} (hleft : ':' ∉ x.left ∧ '\n' ∉ x.left)
    (hright : ':' ∉ x.right ∧ '\n' ∉ x.right) (start : Nat) :
    withGuard? start x.first = withGuard? start x.second := by
  have hok : ∀ span, x.Outside span → (fun _ : Span => True) span := fun _ _ => trivial
  have hclass : ∀ content, ':' ∉ content ∧ '\n' ∉ content → ∀ e ∈ x.quote :: content,
      (CharClass.noneOf "\n").contains e = true ∧ e ≠ ':' := by
    intro content hcontent e he
    rw [contains_noneOf]
    rcases List.mem_cons.1 he with rfl | he
    · exact ⟨by simpa using x.isQuote.ne (by decide) (by decide), x.isQuote.ne (by decide) (by decide)⟩
    · refine ⟨?_, fun heq => hcontent.1 (heq ▸ he)⟩
      have hne : e ≠ '\n' := fun heq => hcontent.2 (heq ▸ he)
      simpa using hne
  have hitems : x.Tracks (fun _ => True)
      (seqs [.group "items" (plus (noneOf "\n")), one ':']) := by
    intro k k' hk beyond t u h
    refine Exchange.run_plus_across (hclass _ hleft) (hclass _ hright)
      (fun v hv => awaits_one ':' k _ hv) (fun v hv => awaits_one ':' k' _ hv)
      (fun _ v w hvw => ?_) h
    refine Exchange.tracks_of_readsNoQuote hok (by decide +kernel) hk ⟨?_, by simp, hvw.abreast⟩
    simp only [hvw.groups, hvw.abreast.offset_eq, h.abreast.offset_eq]
  have hline : Exchange.SameMatch (fun _ => True) (withLine.find? x.first)
      (withLine.find? x.second) := by
    refine Exchange.find?_anchored (.cons ?_ (.cons ?_ (.cons ?_ (.cons ?_ hitems)))) <;>
      exact Exchange.tracks_of_readsNoQuote hok (by decide +kernel)
  rw [withGuard?, withGuard?, hline.eq]

/-! ## Brackets and quotes -/

def brackets : List Char := ['(', '[', '\x7b', ')', ']', '\x7d']

theorem foldl_brackets_quiet {piece : List Char} (h : ∀ c ∈ piece, c ∉ brackets) (n : Int) :
    piece.foldl (fun n c =>
      if c == '(' || c == '[' || c == '\x7b' then n + 1
      else if c == ')' || c == ']' || c == '\x7d' then n - 1
      else n) n = n := by
  induction piece with
  | nil => rfl
  | cons c piece ih =>
    have hc := h c List.mem_cons_self
    simp only [brackets, List.mem_cons, List.not_mem_nil, or_false, not_or] at hc
    rw [List.foldl_cons]
    simpa [hc] using ih fun d hd => h d (List.mem_cons_of_mem c hd)

/-- A piece without brackets and `#` adds nothing. -/
theorem bracketDelta_skip {piece : List Char} (h : ∀ c ∈ piece, c ∉ '#' :: brackets)
    (front back : List Char) :
    bracketDelta (front ++ (piece ++ back)) = bracketDelta (front ++ back) := by
  have hquiet : ∀ c ∈ piece, c ∉ brackets := fun c hc => List.not_mem_of_not_mem_cons (h c hc)
  have hpiece : ∀ c ∈ piece, (c != '#') = true := by
    rintro c hc
    have hne : c ≠ '#' := by
      rintro rfl
      exact h _ hc (by decide)
    simpa using hne
  by_cases hcut : '#' ∈ front
  · obtain ⟨a, b, rfl⟩ := List.append_of_mem hcut
    simp only [bracketDelta, List.append_assoc, List.cons_append]
    rw [takeWhile_cut (by decide), takeWhile_cut (by decide)]
  · have hfront : ∀ c ∈ front, (c != '#') = true := by
      intro c hc
      have hne : c ≠ '#' := fun heq => hcut (heq ▸ hc)
      simpa using hne
    simp only [bracketDelta, List.takeWhile_append_of_pos hfront,
      List.takeWhile_append_of_pos hpiece, List.foldl_append, foldl_brackets_quiet hquiet]

theorem bracketDelta_exchange {x : Exchange}
    (hleft : ∀ c ∈ x.left, c ∉ '#' :: brackets) (hright : ∀ c ∈ x.right, c ∉ '#' :: brackets) :
    bracketDelta x.first = bracketDelta x.second := by
  have hquote : x.quote ∉ '#' :: brackets := quote_not_mem x (by decide) (by decide)
  rw [Exchange.first, Exchange.second, withLiteral_eq, withLiteral_eq,
    bracketDelta_skip (forall_literal hquote hleft),
    bracketDelta_skip (forall_literal hquote hright)]

theorem countTriple_cons_of_ne {quote c : Char} (hc : c ≠ quote) (back : List Char) :
    countTriple quote (c :: back) = countTriple quote back := by
  match back with
  | [] => rfl
  | [_] => rfl
  | a :: b :: rest => rw [countTriple, if_neg (by simp [hc])]

theorem countTriple_cut {quote c : Char} (hc : c ≠ quote) (front back : List Char) :
    countTriple quote (front ++ c :: back) = countTriple quote front + countTriple quote back := by
  have hskip : ∀ a, countTriple quote (a :: c :: back) = countTriple quote back := by
    intro a
    cases back with
    | nil => rfl
    | cons b rest =>
      rw [countTriple, if_neg (by simp [hc]), countTriple_cons_of_ne hc]
  induction front using countTriple.induct quote with
  | case1 a b d rest h ih =>
    simp only [List.cons_append]
    rw [countTriple, if_pos h, countTriple, if_pos h, ih]
    omega
  | case2 a b d rest h ih =>
    simp only [List.cons_append] at ih ⊢
    rw [countTriple, if_neg h, countTriple, if_neg h, ih]
  | case3 front hshort =>
    match front with
    | [] => exact (countTriple_cons_of_ne hc back).trans (Nat.zero_add _).symm
    | [a] => exact (hskip a).trans (Nat.zero_add _).symm
    | [a, b] =>
      simp only [List.cons_append, List.nil_append]
      rw [countTriple, if_neg (by simp [hc]), hskip]
      exact (Nat.zero_add _).symm
    | a :: b :: d :: rest => exact absurd rfl (hshort a b d rest)

theorem opensTriple?_exchange {x : Exchange} (hleft : ∀ c ∈ x.left, ¬ IsQuote c)
    (hright : ∀ c ∈ x.right, ¬ IsQuote c) : opensTriple? x.first = opensTriple? x.second := by
  have hcount : ∀ quote, IsQuote quote →
      countTriple quote x.first = countTriple quote x.second := by
    intro quote hquote
    refine x.eq_of_cut (o := (· + ·)) (fun c hc => countTriple_cut ?_) Nat.zero_add hleft hright
    rintro rfl
    exact hc hquote
  rw [opensTriple?, opensTriple?, hcount '"' (.inl rfl), hcount '\'' (.inr rfl)]

theorem occursIn_triple_exchange {x : Exchange} (hleft : ∀ c ∈ x.left, ¬ IsQuote c)
    (hright : ∀ c ∈ x.right, ¬ IsQuote c) {quote : Char} (hquote : IsQuote quote) :
    occursIn [quote, quote, quote] x.first = occursIn [quote, quote, quote] x.second := by
  refine x.eq_of_cut (o := or) (fun c hc => occursIn_cut ?_ (by simp)) (fun _ => rfl) hleft hright
  intro hmem
  have heq : c = quote := by simpa using hmem
  exact hc (heq ▸ hquote)

/-! ## Places of code -/

/-- The quote of an open string literal is a quote. -/
def CodeState.Sound : CodeState → Prop
  | .string quote _ => IsQuote quote
  | _ => True

theorem CodeState.Sound.step {st : CodeState} (h : st.Sound) (c : Char) : (st.step c).Sound := by
  cases st with
  | comment => trivial
  | string quote escaped =>
    cases escaped with
    | true => exact h
    | false =>
      rw [CodeState.step]
      split
      · exact h
      · split
        · trivial
        · exact h
  | code =>
    rw [CodeState.step]
    split
    · trivial
    · split
      · rename_i hquote
        simpa [CodeState.Sound, IsQuote] using hquote
      · trivial

theorem CodeState.Sound.foldl {st : CodeState} (h : st.Sound) (cs : List Char) :
    (cs.foldl CodeState.step st).Sound := by
  induction cs generalizing st with
  | nil => exact h
  | cons c cs ih => exact ih (h.step c)

/-- Only a backslash escapes. -/
theorem CodeState.step_ne_escaped (st : CodeState) {c : Char} (hc : c ≠ '\\') (quote : Char) :
    st.step c ≠ .string quote true := by
  cases st with
  | comment => simp [CodeState.step]
  | string other escaped =>
    cases escaped with
    | true => simp [CodeState.step]
    | false =>
      rw [CodeState.step, if_neg (by simpa using hc)]
      split <;> simp
  | code =>
    rw [CodeState.step]
    split
    · simp
    · split <;> simp

/-- The characters that the reading of an indented line stops at, between quotes too. -/
def indentMarks : List Char := '#' :: brackets ++ [':', '"', '\'']

/-- Contents that nothing in the reading of an indented line stops at. Each backslash comes with the
character that it escapes, so an open literal is as open behind them. -/
structure IndentQuiet (content : List Char) : Prop where
  chars : ∀ c ∈ content, c ∉ indentMarks
  oneLine : '\n' ∉ content
  noLambda : ¬ "lambda".toList <:+: content
  escapes : ∀ quote, IsQuote quote →
    content.foldl CodeState.step (.string quote false) = .string quote false

namespace IndentQuiet

variable {content : List Char} (h : IndentQuiet content)

include h

theorem not_mem {c : Char} (hc : c ∈ indentMarks) : c ∉ content := fun hmem => h.chars c hmem hc

theorem not_quote : ∀ c ∈ content, ¬ IsQuote c := by
  rintro c hc (rfl | rfl)
  · exact h.not_mem (by decide) hc
  · exact h.not_mem (by decide) hc

theorem foldl_code : content.foldl CodeState.step .code = .code := by
  refine List.foldlRecOn content CodeState.step (motive := (· = CodeState.code)) rfl ?_
  rintro _ rfl c hc
  have hchars := h.chars c hc
  simp only [indentMarks, brackets, List.cons_append, List.nil_append, List.mem_cons, not_or]
    at hchars
  simp [CodeState.step, hchars]

/-- The content does not change what is open behind a quote. -/
theorem foldl_step {st : CodeState} (hst : st.Sound) {quote : Char} (hquote : IsQuote quote) :
    content.foldl CodeState.step (st.step quote) = st.step quote := by
  have hsound := hst.step quote
  have hopen : ∀ other, st.step quote ≠ .string other true :=
    st.step_ne_escaped (by rcases hquote with rfl | rfl <;> decide)
  generalize st.step quote = after at hsound hopen
  cases after with
  | comment =>
    exact List.foldlRecOn content CodeState.step (motive := (· = CodeState.comment)) rfl
      (by rintro _ rfl c _; rfl)
  | code => exact h.foldl_code
  | string other escaped =>
    cases escaped with
    | true => exact absurd rfl (hopen other)
    | false => exact h.escapes other hsound

end IndentQuiet

/-! ## Lambdas -/

theorem wordPlaces_eq_nil {word content : List Char} (h : ¬ word <:+: content)
    (before : Option Char) (offset : Nat) : wordPlaces word before offset content = [] := by
  induction content generalizing before offset with
  | nil => rfl
  | cons d content ih =>
    have hhere : standsAlone word before (d :: content) = false := by
      cases hstrip : stripPrefix? word (d :: content) with
      | none => simp [standsAlone, hstrip]
      | some rest =>
        exact absurd ⟨[], rest, (stripPrefix?_eq_some_iff.1 hstrip).symm⟩ h
    rw [wordPlaces, hhere]
    exact ih (fun hpart => h (hpart.trans (List.suffix_cons d content).isInfix)) _ _

section Words

variable {word : List Char} {c : Char} (hword : IsWord word) (hc : isWordChar c = false)

include hword hc

theorem standsAlone_cut (before : Option Char) (front back : List Char) :
    standsAlone word before (front ++ c :: back) = standsAlone word before front := by
  have hmem : c ∉ word := fun hmem => by simp [hword.chars c hmem] at hc
  rw [standsAlone, standsAlone, stripPrefix?_cut hmem, Option.any_map]
  congr 2
  funext rest
  cases rest with
  | nil => simp [hc]
  | cons d rest => rfl

/-- A character of no word keeps the words on its two sides apart. -/
theorem wordPlaces_cut (before : Option Char) (offset : Nat) (front back : List Char) :
    wordPlaces word before offset (front ++ c :: back) =
      wordPlaces word before offset front ++
        wordPlaces word (some c) (offset + byteSize front + c.utf8Size) back := by
  induction front generalizing before offset with
  | nil =>
    have hhere : standsAlone word before (c :: back) = standsAlone word before [] :=
      standsAlone_cut hword hc before [] back
    have hnil : standsAlone word before [] = false := by
      obtain ⟨d, rest, rfl⟩ := List.exists_cons_of_ne_nil hword.nonempty
      simp [standsAlone, stripPrefix?]
    have hskip : wordPlaces word before offset (c :: back) =
        wordPlaces word (some c) (offset + c.utf8Size) back := by
      rw [wordPlaces, hhere, hnil]
      rfl
    exact hskip
  | cons d front ih =>
    have hhere := standsAlone_cut hword hc before (d :: front) back
    rw [List.cons_append] at hhere ⊢
    rw [wordPlaces, wordPlaces, hhere, ih, byteSize_cons, ← Nat.add_assoc offset]
    split <;> rfl

end Words

theorem mem_wordPlaces {word : List Char} {before : Option Char} {offset n : Nat} {cs : List Char}
    (h : n ∈ wordPlaces word before offset cs) :
    ∃ front back, cs = front ++ back ∧ n = offset + byteSize front := by
  induction cs generalizing before offset with
  | nil => cases h
  | cons c cs ih =>
    have hmore : n ∈ wordPlaces word (some c) (offset + c.utf8Size) cs →
        ∃ front back, c :: cs = front ++ back ∧ n = offset + byteSize front := by
      intro hn
      obtain ⟨front, back, rfl, rfl⟩ := ih hn
      exact ⟨c :: front, back, rfl, by simp [Nat.add_assoc]⟩
    rw [wordPlaces] at h
    split at h
    · rcases List.mem_cons.1 h with rfl | h
      · exact ⟨[], c :: cs, rfl, rfl⟩
      · exact hmore h
    · exact hmore h

/-- The two texts up to a byte offset are the same, or again differ in the literal only. -/
def SameStart (x : Exchange) (n : Nat) : Prop :=
  takeBytes x.first n = takeBytes x.second n ∨
    ∃ back, takeBytes x.first n = (x.before back).first ∧
      takeBytes x.second n = (x.before back).second

theorem SameStart.eq {x : Exchange} {n : Nat} (h : SameStart x n) {α : Type} {f : List Char → α}
    (hf : ∀ back, f (x.before back).first = f (x.before back).second) :
    f (takeBytes x.first n) = f (takeBytes x.second n) := by
  rcases h with h | ⟨back, hfirst, hsecond⟩
  · rw [h]
  · rw [hfirst, hsecond, hf]

theorem takeBytes_append {front back : List Char} {n : Nat} (h : byteSize front = n) :
    takeBytes (front ++ back) n = front := by
  rw [takeBytes, ← h, splitAt?_byteSize]

theorem isWord_lambda : IsWord "lambda".toList := ⟨by decide, List.all_eq_true.1 (by decide)⟩

theorem lambdaAt?_eq_find? (line : List Char) :
    lambdaAt? line = (wordPlaces "lambda".toList none 0 line).find? (isCode line) :=
  congrArg (·.find? (isCode line)) (findAll_wordRegex isWord_lambda line)

section Lambda

variable {x : Exchange} (hleft : IndentQuiet x.left) (hright : IndentQuiet x.right)

include hleft hright

theorem lambdaPlaces_exchange :
    wordPlaces "lambda".toList none 0 x.first = wordPlaces "lambda".toList none 0 x.second ∧
      ∀ n ∈ wordPlaces "lambda".toList none 0 x.first, SameStart x n := by
  have hquote : isWordChar x.quote = false := x.isQuote.not_mem (by decide) (by decide)
  have hplaces : ∀ content, IndentQuiet content →
      wordPlaces "lambda".toList none 0 (withLiteral x.front x.quote content x.back) =
        wordPlaces "lambda".toList none 0 x.front ++
          wordPlaces "lambda".toList (some x.quote)
            (byteSize x.front + (2 * x.quote.utf8Size + byteSize content)) x.back := by
    intro content hquiet
    rw [withLiteral, wordPlaces_cut isWord_lambda hquote, wordPlaces_cut isWord_lambda hquote,
      wordPlaces_eq_nil hquiet.noLambda, List.nil_append]
    congr 2
    omega
  refine ⟨?_, fun n hn => ?_⟩
  · rw [Exchange.first, Exchange.second, hplaces _ hleft, hplaces _ hright, x.size]
  · rw [Exchange.first, hplaces _ hleft] at hn
    rcases List.mem_append.1 hn with hn | hn
    · obtain ⟨front, back, hfront, rfl⟩ := mem_wordPlaces hn
      left
      rw [Exchange.first, Exchange.second, withLiteral, withLiteral, hfront, List.append_assoc,
        List.append_assoc, takeBytes_append (Nat.zero_add _).symm,
        takeBytes_append (Nat.zero_add _).symm]
    · obtain ⟨front, back, hback, rfl⟩ := mem_wordPlaces hn
      right
      have hfirst : x.first = (x.before front).first ++ back := by
        simp [Exchange.first, Exchange.before, withLiteral, hback]
      have hsecond : x.second = (x.before front).second ++ back := by
        simp [Exchange.second, Exchange.before, withLiteral, hback]
      rw [hfirst, hsecond]
      refine ⟨front, takeBytes_append ?_, takeBytes_append ?_⟩
      · rw [Exchange.first, byteSize_withLiteral]
        rfl
      · rw [Exchange.second, byteSize_withLiteral]
        simp [Exchange.before, x.size]

theorem isCode_exchange {n : Nat} (h : SameStart x n) : isCode x.first n = isCode x.second n := by
  refine h.eq (f := fun cs => cs.foldl CodeState.step .code == .code) fun back => ?_
  have hcode : CodeState.code.Sound := trivial
  have hsound := hcode.foldl x.front
  simp only [Exchange.first, Exchange.second, Exchange.before, withLiteral, List.foldl_append,
    List.foldl_cons, hleft.foldl_step hsound x.isQuote, hright.foldl_step hsound x.isQuote]

theorem lambdaAt?_exchange : lambdaAt? x.first = lambdaAt? x.second := by
  obtain ⟨hsame, hstart⟩ := lambdaPlaces_exchange hleft hright
  rw [lambdaAt?_eq_find?, lambdaAt?_eq_find?, ← hsame]
  exact List.find?_congr fun n hn => isCode_exchange hleft hright (hstart n hn)

end Lambda

/-! ## The call that a lambda is passed to -/

/-- Nothing, or the same from both texts, or what stands before the literal with the literal. -/
inductive SameRest (x : Exchange) : Option (List Char) → Option (List Char) → Prop where
  | same (found : Option (List Char)) : SameRest x found found
  | around (front : List Char) :
      SameRest x (some (withLiteral front x.quote x.left x.back))
        (some (withLiteral front x.quote x.right x.back))

/-- What stands before an opening parenthesis, read from the end; `last` tells from the number of
parentheses that are closed behind it whether it is the one. -/
def beforeParen (last : Nat → Bool) (depth : Nat) : List Char → Option (List Char)
  | [] => none
  | c :: rest =>
    if c == ')' then beforeParen last (depth + 1) rest
    else if c == '(' then if last depth then some rest else beforeParen last (depth - 1) rest
    else beforeParen last depth rest

theorem beforeOpen_eq (depth : Nat) (cs : List Char) :
    beforeOpen depth cs = beforeParen (· == 0) depth cs := by
  induction cs generalizing depth with
  | nil => rfl
  | cons c cs ih => simp only [beforeOpen, beforeParen, ih]

theorem beforePartner_eq (depth : Nat) (cs : List Char) :
    beforePartner depth cs = beforeParen (fun n => decide (n ≤ 1)) depth cs := by
  induction cs generalizing depth with
  | nil => rfl
  | cons c cs ih => simp only [beforePartner, beforeParen, ih, decide_eq_true_eq]

theorem beforeParen_skip {piece : List Char} (h : ∀ c ∈ piece, c ≠ '(' ∧ c ≠ ')')
    (last : Nat → Bool) (depth : Nat) (rest : List Char) :
    beforeParen last depth (piece ++ rest) = beforeParen last depth rest := by
  induction piece with
  | nil => rfl
  | cons c piece ih =>
    obtain ⟨hopen, hclose⟩ := h c List.mem_cons_self
    rw [List.cons_append, beforeParen, if_neg (by simpa using hclose),
      if_neg (by simpa using hopen), ih fun d hd => h d (List.mem_cons_of_mem c hd)]

section Callee

variable {x : Exchange} (hleft : ∀ c ∈ x.left, c ≠ '(' ∧ c ≠ ')')
  (hright : ∀ c ∈ x.right, c ≠ '(' ∧ c ≠ ')')

include hleft hright

theorem beforeParen_exchange (last : Nat → Bool) (depth : Nat) (front : List Char) :
    SameRest x (beforeParen last depth (withLiteral front x.quote x.left x.back))
      (beforeParen last depth (withLiteral front x.quote x.right x.back)) := by
  induction front generalizing depth with
  | nil =>
    have hskip : ∀ content, (∀ c ∈ content, c ≠ '(' ∧ c ≠ ')') →
        beforeParen last depth (withLiteral [] x.quote content x.back) =
          beforeParen last depth x.back := by
      intro content hcontent
      have hquote : x.quote ≠ '(' ∧ x.quote ≠ ')' :=
        ⟨x.isQuote.ne (by decide) (by decide), x.isQuote.ne (by decide) (by decide)⟩
      rw [withLiteral_eq, List.nil_append, beforeParen_skip (forall_literal hquote hcontent)]
    rw [hskip _ hleft, hskip _ hright]
    exact .same _
  | cons c front ih =>
    simp only [withLiteral, List.cons_append, beforeParen] at ih ⊢
    split
    · exact ih (depth + 1)
    · split
      · split
        · exact .around front
        · exact ih (depth - 1)
      · exact ih depth

theorem beforeCall_exchange : SameRest x (beforeCall x.first) (beforeCall x.second) := by
  have hopen : SameRest x (beforeOpen 0 x.first) (beforeOpen 0 x.second) := by
    rw [beforeOpen_eq, beforeOpen_eq]
    exact beforeParen_exchange hleft hright _ 0 x.front
  have hpartner : SameRest x (beforePartner 0 x.first) (beforePartner 0 x.second) := by
    rw [beforePartner_eq, beforePartner_eq]
    exact beforeParen_exchange hleft hright _ 0 x.front
  rw [beforeCall, beforeCall, x.head?_eq]
  generalize beforeOpen 0 x.first = a at hopen
  generalize beforeOpen 0 x.second = b at hopen
  cases hopen with
  | same =>
    cases a with
    | some found => exact .same _
    | none =>
      simp only
      split
      · exact hpartner
      · exact .around x.front
  | around front => exact .around front

end Callee

theorem calleeOf_exchange {x : Exchange} (hleft : ∀ c ∈ x.left, c ≠ '(' ∧ c ≠ ')')
    (hright : ∀ c ∈ x.right, c ≠ '(' ∧ c ≠ ')') : calleeOf x.first = calleeOf x.second := by
  have hcall : SameRest x.reversed (beforeCall x.first.reverse) (beforeCall x.second.reverse) := by
    rw [x.reverse_first, x.reverse_second]
    exact beforeCall_exchange (x := x.reversed) (fun c hc => hleft c (List.mem_reverse.1 hc))
      (fun c hc => hright c (List.mem_reverse.1 hc))
  rw [calleeOf, calleeOf]
  generalize beforeCall x.first.reverse = a at hcall
  generalize beforeCall x.second.reverse = b at hcall
  cases hcall with
  | same => rfl
  | around front =>
    -- no name reaches over a quote
    have hname : isNameChar x.reversed.quote = false :=
      x.reversed.isQuote.not_mem (by decide +kernel) (by decide +kernel)
    simp only [withLiteral, dropWhile_cut x.reversed.isQuote.not_blank, takeWhile_cut hname]

/-! ## One line -/

section Step

variable {x : Exchange} (hleft : IndentQuiet x.left) (hright : IndentQuiet x.right)

include hleft hright

theorem lambdaScope?_exchange (start : Nat) :
    lambdaScope? ⟨start, x.first⟩ = lambdaScope? ⟨start, x.second⟩ := by
  have hparens : ∀ content, IndentQuiet content → ∀ c ∈ content, c ≠ '(' ∧ c ≠ ')' := by
    intro content hquiet c hc
    refine ⟨?_, ?_⟩ <;> rintro rfl <;> exact hquiet.not_mem (by decide) hc
  have hcallee : ∀ back, calleeOf (trimEnd (x.before back).first) =
      calleeOf (trimEnd (x.before back).second) := by
    intro back
    rw [Exchange.first, Exchange.second, trimEnd_withLiteral _ _ (x.before back).isQuote,
      trimEnd_withLiteral _ _ (x.before back).isQuote]
    exact calleeOf_exchange (x := x.before (trimEnd back)) (hparens _ hleft) (hparens _ hright)
  have hstart := (lambdaPlaces_exchange hleft hright).2
  simp only [lambdaScope?, ← lambdaAt?_exchange hleft hright]
  cases hplace : lambdaAt? x.first with
  | none => rfl
  | some n =>
    rw [lambdaAt?_eq_find?] at hplace
    have hn : SameStart x n := hstart n (List.mem_of_find?_eq_some hplace)
    have hstop : (Line.mk start x.first).stop = (Line.mk start x.second).stop := by
      simp only [Line.stop, x.byteSize_eq]
    simp only [hstop, hn.eq (f := fun cs => calleeOf (trimEnd cs)) hcallee,
      hn.eq (f := returnLine.isMatch) fun back => returnLine_exchange (x.before back)]

theorem IndentState.statement_exchange (st : IndentState) (start : Nat) :
    st.statement ⟨start, x.first⟩ = st.statement ⟨start, x.second⟩ := by
  have hfirst : (Line.mk start x.first).trimmed = x.trimmed.first := x.trim_first
  have hsecond : (Line.mk start x.second).trimmed = x.trimmed.second := x.trim_second
  have hcolon : ∀ content, IndentQuiet content → ':' ∉ content ∧ '\n' ∉ content :=
    fun _ hquiet => ⟨hquiet.not_mem (by decide), hquiet.oneLine⟩
  have hguard := withGuard?_exchange (x := x.trimmed) (hcolon _ hleft) (hcolon _ hright)
  simp only [IndentState.statement, Line.indent, Line.bodyStart,
    x.takeWhile_eq x.isQuote.not_blank, hfirst, hsecond, lineBlock_exchange x.trimmed, hguard]

theorem IndentState.step_exchange {st : IndentState} (hst : ∀ q ∈ st.docstring, IsQuote q)
    (start : Nat) : st.step ⟨start, x.first⟩ = st.step ⟨start, x.second⟩ := by
  have hfirst : (Line.mk start x.first).trimmed = x.trimmed.first := x.trim_first
  have hsecond : (Line.mk start x.second).trimmed = x.trimmed.second := x.trim_second
  have hstop : (Line.mk start x.first).stop = (Line.mk start x.second).stop := by
    simp only [Line.stop, x.byteSize_eq]
  cases hdoc : st.docstring with
  | some quote =>
    have hclose := occursIn_triple_exchange (x := x.trimmed) hleft.not_quote hright.not_quote
      (hst quote hdoc)
    simp only [IndentState.step, hdoc, hfirst, hsecond, hclose, hstop]
  | none =>
    have hopens := opensTriple?_exchange (x := x.trimmed) hleft.not_quote hright.not_quote
    have hbrackets : ∀ content, IndentQuiet content → ∀ c ∈ content, c ∉ '#' :: brackets :=
      fun content hquiet c hc hmem => hquiet.chars c hc (List.mem_append_left _ hmem)
    have hdelta := bracketDelta_exchange (hbrackets _ hleft) (hbrackets _ hright)
    simp only [IndentState.step, hdoc, hfirst, hsecond, hstop, hopens, hdelta, x.trimmed.head?_eq,
      List.isEmpty_eq_false_iff.2 x.trimmed.first_ne_nil,
      List.isEmpty_eq_false_iff.2 x.trimmed.second_ne_nil,
      lambdaScope?_exchange hleft hright, statement_exchange hleft hright]

end Step

end Scope.Outline

end LeakScan
