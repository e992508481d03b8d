import LeakScan.Proofs.Bindings
import LeakScan.Proofs.Text.Offset

/-!
# LeakScan.Proofs.Text.Literal

Texts with a string literal in them.

* `withLiteral` — a content between two quotes, and the text around it.
* `takeWhile_cut`, `startsWith_cut`, `occursIn_cut` — a character that a reader does not pass, or
  that a text does not hold, keeps apart what stands on its two sides.
* `trim_withLiteral` — blanks are removed on the outside only.
* `Exchange` — two texts that differ in the content of one literal, both of the same size.
* `Exchange.eq_of_cut`, `Exchange.stands_second` — what both texts have in common.
-/

namespace LeakScan.Text

def withLiteral (front : List Char) (quote : Char) (content back : List Char) : List Char :=
  front ++ quote :: (content ++ quote :: back)

/-- The quotes of string literals. -/
def IsQuote (c : Char) : Prop := c = '"' ∨ c = '\''

/-- A class of characters without the two quotes. -/
theorem IsQuote.not_mem {quote : Char} (h : IsQuote quote) {p : Char → Bool}
    (hdouble : p '"' = false) (hsingle : p '\'' = false) : p quote = false := by
  rcases h with rfl | rfl
  · exact hdouble
  · exact hsingle

theorem IsQuote.ne {quote c : Char} (h : IsQuote quote) (hdouble : '"' ≠ c) (hsingle : '\'' ≠ c) :
    quote ≠ c := by
  rcases h with rfl | rfl
  · exact hdouble
  · exact hsingle

theorem IsQuote.not_blank {quote : Char} (h : IsQuote quote) : isBlank quote = false :=
  h.not_mem (by decide) (by decide)

/-! ## Two sides of a character -/

section Cut

variable {c : Char} {p : Char → Bool} {needle : List Char}

theorem takeWhile_cut (h : p c = false) (front back : List Char) :
    (front ++ c :: back).takeWhile p = front.takeWhile p := by
  induction front with
  | nil => simp [h]
  | cons d front ih =>
    rw [List.cons_append, List.takeWhile_cons, List.takeWhile_cons, ih]

theorem dropWhile_cut (h : p c = false) (front back : List Char) :
    (front ++ c :: back).dropWhile p = front.dropWhile p ++ c :: back := by
  induction front with
  | nil => simp [h]
  | cons d front ih =>
    rw [List.cons_append, List.dropWhile_cons, List.dropWhile_cons, ih]
    split <;> rfl

theorem stripPrefix?_cut (h : c ∉ needle) (front back : List Char) :
    stripPrefix? needle (front ++ c :: back) =
      (stripPrefix? needle front).map (· ++ c :: back) := by
  induction needle generalizing front with
  | nil => simp [stripPrefix?]
  | cons d needle ih =>
    have hd : d ≠ c := (List.ne_of_not_mem_cons h).symm
    cases front with
    | nil => simp [stripPrefix?, hd]
    | cons e front =>
      rw [List.cons_append, stripPrefix?, stripPrefix?, ih (List.not_mem_of_not_mem_cons h)]
      split <;> rfl

theorem startsWith_cut (h : c ∉ needle) (front back : List Char) :
    startsWith needle (front ++ c :: back) = startsWith needle front := by
  rw [startsWith, stripPrefix?_cut h, Option.isSome_map, ← startsWith]

theorem occursIn_cut (h : c ∉ needle) (hne : needle ≠ []) (front back : List Char) :
    occursIn needle (front ++ c :: back) = (occursIn needle front || occursIn needle back) := by
  have hempty : needle.isEmpty = false := by simpa using hne
  induction front with
  | nil =>
    have hno : startsWith needle (c :: back) = startsWith needle [] := startsWith_cut h [] back
    have hnil : startsWith needle [] = false := by
      cases needle with
      | nil => exact absurd rfl hne
      | cons d needle => rfl
    simp [occursIn, hno, hnil, hempty]
  | cons d front ih =>
    have hstart := startsWith_cut h (d :: front) back
    rw [List.cons_append] at hstart ⊢
    rw [occursIn, occursIn, hstart, ih, Bool.or_assoc]

theorem stripSuffix?_isSome (suffix cs : List Char) :
    (stripSuffix? suffix cs).isSome = startsWith suffix.reverse cs.reverse := by
  rw [stripSuffix?, Option.isSome_map, startsWith]

theorem stripSuffix?_cut (h : c ∉ needle) (front back : List Char) :
    (stripSuffix? needle (front ++ c :: back)).isSome = (stripSuffix? needle back).isSome := by
  have hreverse : (front ++ c :: back).reverse = back.reverse ++ c :: front.reverse := by simp
  rw [stripSuffix?_isSome, hreverse, startsWith_cut (by simpa using h), stripSuffix?_isSome]

end Cut

/-! ## Around a literal -/

section Around

variable {quote : Char} {content : List Char} (front back : List Char)

theorem withLiteral_eq :
    withLiteral front quote content back = front ++ (quote :: (content ++ [quote]) ++ back) := by
  simp [withLiteral]

theorem forall_literal {P : Char → Prop} (hquote : P quote) (hcontent : ∀ c ∈ content, P c) :
    ∀ c ∈ quote :: (content ++ [quote]), P c := by
  intro c hc
  simp only [List.mem_cons, List.mem_append, List.not_mem_nil, or_false] at hc
  rcases hc with rfl | hc | rfl
  · exact hquote
  · exact hcontent c hc
  · exact hquote

theorem byteSize_withLiteral :
    byteSize (withLiteral front quote content back) =
      byteSize front + (2 * quote.utf8Size + byteSize content) + byteSize back := by
  simp only [withLiteral, byteSize_append, byteSize_cons]
  omega

theorem trimStart_withLiteral (hquote : IsQuote quote) :
    trimStart (withLiteral front quote content back) =
      withLiteral (trimStart front) quote content back :=
  dropWhile_cut hquote.not_blank _ _

theorem reverse_withLiteral :
    (withLiteral front quote content back).reverse =
      withLiteral back.reverse quote content.reverse front.reverse := by
  simp [withLiteral]

/-- What is dropped from the end does not go beyond a quote. -/
theorem dropEnd_withLiteral {p : Char → Bool} (h : p quote = false) :
    ((withLiteral front quote content back).reverse.dropWhile p).reverse =
      withLiteral front quote content (back.reverse.dropWhile p).reverse := by
  rw [reverse_withLiteral, withLiteral, dropWhile_cut h, ← withLiteral, reverse_withLiteral,
    List.reverse_reverse, List.reverse_reverse]

theorem trimEnd_withLiteral (hquote : IsQuote quote) :
    trimEnd (withLiteral front quote content back) =
      withLiteral front quote content (trimEnd back) :=
  dropEnd_withLiteral front back hquote.not_blank

theorem trim_withLiteral (hquote : IsQuote quote) :
    trim (withLiteral front quote content back) =
      withLiteral (trimStart front) quote content (trimEnd back) :=
  (congrArg trimEnd (trimStart_withLiteral front back hquote)).trans
    (trimEnd_withLiteral _ _ hquote)

theorem getLast?_withLiteral :
    (withLiteral front quote content back).getLast? = some (back.getLastD quote) := by
  rw [withLiteral, ← List.cons_append, ← List.append_assoc, List.getLast?_append]
  simp [List.getLast?_cons]

/-- No word without quotes is a whole text with a literal in it. -/
theorem withLiteral_ne {word : List Char} (h : quote ∉ word) :
    withLiteral front quote content back ≠ word := by
  rintro rfl
  simp [withLiteral] at h

theorem occursIn_withLiteral {needle : List Char} (h : quote ∉ needle) (hne : needle ≠ []) :
    occursIn needle (withLiteral front quote content back) =
      (occursIn needle front || (occursIn needle content || occursIn needle back)) := by
  rw [withLiteral, occursIn_cut h hne, occursIn_cut h hne]

end Around

theorem byteSize_eq_zero {cs : List Char} (h : byteSize cs = 0) : cs = [] := by
  by_contra hne
  exact Nat.ne_of_gt (byteSize_pos hne) h

/-- Of two starts of a text, the one with fewer bytes is a start of the other. -/
theorem prefix_of_byteSize_le {a b cs : List Char} (ha : a <+: cs) (hb : b <+: cs)
    (h : byteSize a ≤ byteSize b) : a <+: b := by
  rcases List.prefix_or_prefix_of_prefix ha hb with hab | ⟨more, rfl⟩
  · exact hab
  · have hmore : more = [] := byteSize_eq_zero (by rw [byteSize_append] at h; omega)
    simp [hmore]

/-! ## Two contents -/

/-- A literal with its content in either of two texts, and what stands around it in both. -/
structure Exchange where
  front : List Char
  quote : Char
  left : List Char
  right : List Char
  back : List Char
  isQuote : IsQuote quote
  size : byteSize left = byteSize right

namespace Exchange

def first (x : Exchange) : List Char := withLiteral x.front x.quote x.left x.back

def second (x : Exchange) : List Char := withLiteral x.front x.quote x.right x.back

/-- Where the literal starts. -/
def place (x : Exchange) : Nat := byteSize x.front

/-- Where the literal ends. -/
def reach (x : Exchange) : Nat := x.place + (2 * x.quote.utf8Size + byteSize x.left)

/-- The stretch does not touch the literal. -/
def Outside (x : Exchange) (span : Span) : Prop := span.stop ≤ x.place ∨ x.reach ≤ span.start

/-- The same literal with other text behind it. -/
def before (x : Exchange) (back : List Char) : Exchange := { x with back := back }

/-- The texts without blanks around them. -/
def trimmed (x : Exchange) : Exchange :=
  { x with front := trimStart x.front, back := trimEnd x.back }

variable (x : Exchange)

theorem trim_first : trim x.first = x.trimmed.first := trim_withLiteral _ _ x.isQuote

theorem trim_second : trim x.second = x.trimmed.second := trim_withLiteral _ _ x.isQuote

theorem byteSize_eq : byteSize x.first = byteSize x.second := by
  rw [first, second, byteSize_withLiteral, byteSize_withLiteral, x.size]

theorem getLast?_eq : x.first.getLast? = x.second.getLast? := by
  rw [first, second, getLast?_withLiteral, getLast?_withLiteral]

theorem head?_eq : x.first.head? = x.second.head? := by
  simp only [first, second, withLiteral]
  cases x.front <;> rfl

theorem first_ne_nil : x.first ≠ [] := withLiteral_ne _ _ (by simp)

theorem second_ne_nil : x.second ≠ [] := withLiteral_ne _ _ (by simp)

theorem startsWith_eq {needle : List Char} (h : x.quote ∉ needle) :
    startsWith needle x.first = startsWith needle x.second := by
  rw [first, second, withLiteral, withLiteral, startsWith_cut h, startsWith_cut h]

theorem takeWhile_eq {p : Char → Bool} (h : p x.quote = false) :
    x.first.takeWhile p = x.second.takeWhile p := by
  rw [first, second, withLiteral, withLiteral, takeWhile_cut h, takeWhile_cut h]

/-- The texts read from the end. -/
def reversed : Exchange where
  front := x.back.reverse
  quote := x.quote
  left := x.left.reverse
  right := x.right.reverse
  back := x.front.reverse
  isQuote := x.isQuote
  size := by rw [byteSize_reverse, byteSize_reverse, x.size]

theorem reverse_first : x.first.reverse = x.reversed.first := reverse_withLiteral _ _

theorem reverse_second : x.second.reverse = x.reversed.second := reverse_withLiteral _ _

/-- A value of a text that any character of the contents splits in two, one part for each side, does
not depend on the contents. -/
theorem eq_of_cut {α : Type} {f : List Char → α} {o : α → α → α} {P : Char → Prop}
    (hcut : ∀ c, P c → ∀ front back, f (front ++ c :: back) = o (f front) (f back))
    (hnil : ∀ a, o (f []) a = a) (hleft : ∀ c ∈ x.left, P c) (hright : ∀ c ∈ x.right, P c) :
    f x.first = f x.second := by
  have hsides : ∀ content front back, content ≠ [] → (∀ c ∈ content, P c) →
      f (front ++ (content ++ back)) = o (f front) (f back) := by
    intro content
    induction content with
    | nil => exact fun _ _ hne => absurd rfl hne
    | cons c content ih =>
      intro front back _ hP
      rw [List.cons_append, hcut c (hP c List.mem_cons_self)]
      by_cases hne : content = []
      · rw [hne, List.nil_append]
      · have hrest := ih [] back hne fun d hd => hP d (List.mem_cons_of_mem c hd)
        rw [List.nil_append] at hrest
        rw [hrest, hnil]
  by_cases hne : x.left = []
  · have hother : x.right = [] := byteSize_eq_zero (by rw [← x.size, hne]; rfl)
    rw [first, second, hne, hother]
  · have hother : x.right ≠ [] := by
      intro hnil
      exact hne (byteSize_eq_zero (by rw [x.size, hnil]; rfl))
    have hfirst := hsides _ (x.front ++ [x.quote]) (x.quote :: x.back) hne hleft
    have hsecond := hsides _ (x.front ++ [x.quote]) (x.quote :: x.back) hother hright
    rw [List.append_assoc] at hfirst hsecond
    exact hfirst.trans hsecond.symm

/-- What stands outside the literal stands in both texts. -/
theorem stands_second {x : Exchange} {offset : Nat} {piece : List Char}
    (h : Stands x.first offset piece) (hout : x.Outside ⟨offset, offset + byteSize piece⟩) :
    Stands x.second offset piece := by
  obtain ⟨before, after, hfirst, rfl⟩ := h
  have hsplit : x.first = x.front ++ x.quote :: (x.left ++ [x.quote]) ++ x.back := by
    simp [first, withLiteral]
  rcases hout with hahead | hbeyond
  · have hwithin : before ++ piece <+: x.front := by
      refine prefix_of_byteSize_le ⟨after, hfirst.symm⟩ (List.prefix_append _ _) ?_
      simpa [place] using hahead
    obtain ⟨more, hmore⟩ := hwithin
    refine ⟨before, more ++ x.quote :: (x.right ++ x.quote :: x.back), ?_, rfl⟩
    rw [second, withLiteral, ← hmore, List.append_assoc (before ++ piece)]
  · have hpast : x.front ++ x.quote :: (x.left ++ [x.quote]) <+: before := by
      refine prefix_of_byteSize_le ⟨x.back, hsplit.symm⟩
        ⟨piece ++ after, by rw [hfirst, List.append_assoc]⟩ ?_
      simp only [reach, place] at hbeyond
      simp only [byteSize_append, byteSize_cons, byteSize_nil]
      omega
    obtain ⟨more, rfl⟩ := hpast
    have hback : x.back = more ++ piece ++ after := by
      rw [hfirst] at hsplit
      simpa using hsplit.symm
    refine ⟨x.front ++ x.quote :: (x.right ++ [x.quote]) ++ more, after, ?_, ?_⟩
    · simp [second, withLiteral, hback]
    · simp [x.size]

end Exchange

end LeakScan.Text
