import LeakScan.Proofs.Bindings
import LeakScan.Proofs.Text.Words

/-!
# LeakScan.Proofs.Normalization

What is left of a text when its layout is forgotten.

* `ink` — the visible characters of a text.
* `Neighbours` — two visible characters with only blanks between them.
* `SameShape` — the same visible characters, with blanks between the same words.
* `Mark`, `marks` — the visible characters, each with a sign whether a blank is written before it;
  `normalizeFrom_eq` and `marks_normalizeFrom` say that normal form and marks determine each other.
* `codeWords`, `codeWords_normalizeFrom` — words of code stay apart.
* `normalize_eq_iff` — texts have one normal form if they have the same shape, and only then.
-/

namespace LeakScan

open Text

/-- The visible characters of a text. -/
def ink (cs : List Char) : List Char := cs.filter fun c => !isBlank c

/-- Two visible characters with only the blanks `gap` between them, after `n` others. -/
structure Neighbours (cs : List Char) (n : Nat) (c : Char) (gap : List Char) (d : Char) : Prop where
  left : isBlank c = false
  blanks : AllBlank gap
  right : isBlank d = false
  stands : ∃ front back, cs = front ++ c :: (gap ++ d :: back) ∧ (ink front).length = n

/-- The same visible characters; and where two of them that follow each other belong to words, both
texts have blanks between them or neither has. -/
structure SameShape (s t : List Char) : Prop where
  visible : ink s = ink t
  gaps : ∀ n c d gap gap', Neighbours s n c gap d → Neighbours t n c gap' d →
    isWordPart c = true → isWordPart d = true → (gap = [] ↔ gap' = [])

/-! ## Visible characters -/

theorem ink_cons_blank {c : Char} (h : isBlank c = true) (cs : List Char) :
    ink (c :: cs) = ink cs := by
  simp [ink, h]

theorem ink_cons_visible {c : Char} (h : isBlank c = false) (cs : List Char) :
    ink (c :: cs) = c :: ink cs := by
  simp [ink, h]

theorem ink_append (front back : List Char) : ink (front ++ back) = ink front ++ ink back :=
  List.filter_append front back

theorem ink_allBlank {cs : List Char} (h : AllBlank cs) : ink cs = [] := by
  simpa [ink, AllBlank] using h

/-- A visible character is found behind as many others as its index says. -/
theorem exists_of_ink {cs : List Char} {n : Nat} (h : n < (ink cs).length) :
    ∃ front c back, cs = front ++ c :: back ∧ isBlank c = false ∧ (ink front).length = n := by
  induction cs generalizing n with
  | nil => simp [ink] at h
  | cons c cs ih =>
    by_cases hc : isBlank c = true
    · rw [ink_cons_blank hc] at h
      obtain ⟨front, d, back, rfl, hd, hn⟩ := ih h
      exact ⟨c :: front, d, back, rfl, hd, by rw [ink_cons_blank hc, hn]⟩
    · have hvisible : isBlank c = false := by simpa using hc
      cases n with
      | zero => exact ⟨[], c, cs, rfl, hvisible, rfl⟩
      | succ n =>
        rw [ink_cons_visible hvisible, List.length_cons] at h
        obtain ⟨front, d, back, rfl, hd, hn⟩ := ih (Nat.lt_of_succ_lt_succ h)
        exact ⟨c :: front, d, back, rfl, hd, by rw [ink_cons_visible hvisible, List.length_cons, hn]⟩

theorem exists_neighbours {cs : List Char} {n : Nat} (h : n + 1 < (ink cs).length) :
    ∃ c gap d, Neighbours cs n c gap d := by
  obtain ⟨front, c, back, rfl, hc, rfl⟩ := exists_of_ink (Nat.lt_of_succ_lt h)
  rw [ink_append, ink_cons_visible hc, List.length_append, List.length_cons] at h
  have hrest : 0 < (ink back).length := by omega
  obtain ⟨gap, d, rest, rfl, hd, hgap⟩ := exists_of_ink hrest
  have hblanks : AllBlank gap := by
    have hnone : ink gap = [] := List.eq_nil_of_length_eq_zero hgap
    simpa [ink, AllBlank] using hnone
  exact ⟨c, gap, d, hc, hblanks, hd, front, rest, rfl, rfl⟩

theorem Neighbours.getElem?_ink {cs gap : List Char} {n : Nat} {c d : Char}
    (h : Neighbours cs n c gap d) : (ink cs)[n]? = some c ∧ (ink cs)[n + 1]? = some d := by
  obtain ⟨front, back, rfl, rfl⟩ := h.stands
  rw [ink_append, ink_cons_visible h.left, ink_append, ink_allBlank h.blanks, List.nil_append,
    ink_cons_visible h.right]
  simp

/-! ## Marks -/

/-- A visible character, and whether a blank is written before it. -/
structure Mark where
  char : Char
  apart : Bool

def Mark.written (m : Mark) : List Char := if m.apart then [' ', m.char] else [m.char]

/-- The marks of a text. `last` is the visible character before it, and `gap` says whether blanks
were passed since. -/
def marks (last : Option Char) (gap : Bool) : List Char → List Mark
  | [] => []
  | c :: cs =>
    if isBlank c then marks last true cs
    else ⟨c, gap && last.any isWordPart && isWordPart c⟩ :: marks (some c) false cs

theorem marks_cons_blank {c : Char} (h : isBlank c = true) (last : Option Char) (gap : Bool)
    (cs : List Char) : marks last gap (c :: cs) = marks last true cs := by
  rw [marks, if_pos h]

theorem marks_cons_visible {c : Char} (h : isBlank c = false) (last : Option Char) (gap : Bool)
    (cs : List Char) : marks last gap (c :: cs) =
      ⟨c, gap && last.any isWordPart && isWordPart c⟩ :: marks (some c) false cs := by
  rw [marks, if_neg (by simp [h])]

theorem normalizeFrom_eq (last : Option Char) (gap : Bool) (cs : List Char) :
    normalizeFrom last gap cs = (marks last gap cs).flatMap Mark.written := by
  fun_induction normalizeFrom last gap cs with
  | case1 => rfl
  | case2 last gap c cs hc ih => rw [marks_cons_blank hc, ih]
  | case3 last gap c cs hc hapart ih =>
    rw [marks_cons_visible (by simpa using hc), List.flatMap_cons, hapart, ← ih]
    rfl
  | case4 last gap c cs hc hapart ih =>
    rw [marks_cons_visible (by simpa using hc), List.flatMap_cons, Bool.eq_false_iff.2 hapart, ← ih]
    rfl

theorem map_char_marks (last : Option Char) (gap : Bool) (cs : List Char) :
    (marks last gap cs).map Mark.char = ink cs := by
  fun_induction marks last gap cs with
  | case1 => rfl
  | case2 last gap c cs hc ih => rw [ih, ink_cons_blank hc]
  | case3 last gap c cs hc ih => rw [List.map_cons, ih, ink_cons_visible (by simpa using hc)]

theorem length_marks (last : Option Char) (gap : Bool) (cs : List Char) :
    (marks last gap cs).length = (ink cs).length := by
  rw [← map_char_marks last gap cs, List.length_map]

/-- A normal form has the marks of the text that it comes from. -/
theorem marks_normalizeFrom (last : Option Char) (gap : Bool) (cs : List Char) :
    marks last false (normalizeFrom last gap cs) = marks last gap cs := by
  fun_induction normalizeFrom last gap cs with
  | case1 => rfl
  | case2 last gap c cs hc ih => rw [ih, marks_cons_blank hc]
  | case3 last gap c cs hc hapart ih =>
    have hvisible : isBlank c = false := by simpa using hc
    rw [Bool.and_eq_true, Bool.and_eq_true] at hapart
    rw [marks_cons_blank (by decide), marks_cons_visible hvisible, ih,
      marks_cons_visible hvisible, hapart.1.1]
  | case4 last gap c cs hc hapart ih =>
    have hvisible : isBlank c = false := by simpa using hc
    rw [marks_cons_visible hvisible, ih, marks_cons_visible hvisible, Bool.eq_false_iff.2 hapart,
      Bool.false_and, Bool.false_and]

theorem normalize_eq_iff_marks {s t : List Char} :
    normalize s = normalize t ↔ marks none false s = marks none false t := by
  constructor
  · intro h
    rw [← marks_normalizeFrom none false s, ← normalize, h, normalize, marks_normalizeFrom]
  · intro h
    rw [normalize, normalize, normalizeFrom_eq, normalizeFrom_eq, h]

theorem normalize_normalize (cs : List Char) : normalize (normalize cs) = normalize cs :=
  normalize_eq_iff_marks.2 (marks_normalizeFrom none false cs)

/-- Nothing is written before the first visible character. -/
theorem head?_marks (gap : Bool) (cs : List Char) :
    (marks none gap cs).head? = (ink cs).head?.map (Mark.mk · false) := by
  induction cs generalizing gap with
  | nil => rfl
  | cons c cs ih =>
    by_cases hc : isBlank c = true
    · rw [marks_cons_blank hc, ink_cons_blank hc, ih]
    · have hvisible : isBlank c = false := by simpa using hc
      rw [marks_cons_visible hvisible, ink_cons_visible hvisible]
      simp

/-- After a visible character the marks depend on it and on what follows only. -/
theorem marks_append_cons {c : Char} (h : isBlank c = false) (front back : List Char)
    (last : Option Char) (gap : Bool) :
    ∃ m, marks last gap (front ++ c :: back) =
      marks last gap front ++ m :: marks (some c) false back := by
  induction front generalizing last gap with
  | nil => exact ⟨_, marks_cons_visible h last gap back⟩
  | cons d front ih =>
    by_cases hd : isBlank d = true
    · rw [List.cons_append, marks_cons_blank hd, marks_cons_blank hd]
      exact ih last true
    · have hvisible : isBlank d = false := by simpa using hd
      obtain ⟨m, hm⟩ := ih (some d) false
      exact ⟨m, by rw [List.cons_append, marks_cons_visible hvisible, marks_cons_visible hvisible, hm,
        List.cons_append]⟩

theorem marks_blank_append {gap : List Char} (h : AllBlank gap) (last : Option Char) (passed : Bool)
    (cs : List Char) : marks last passed (gap ++ cs) = marks last (passed || !gap.isEmpty) cs := by
  induction gap generalizing passed with
  | nil => simp
  | cons c gap ih =>
    obtain ⟨hc, hgap⟩ := List.forall_mem_cons.1 h
    rw [List.cons_append, marks_cons_blank hc, ih hgap]
    simp

theorem Neighbours.getElem?_marks {cs gap : List Char} {n : Nat} {c d : Char}
    (h : Neighbours cs n c gap d) :
    (marks none false cs)[n + 1]? =
      some ⟨d, !gap.isEmpty && isWordPart c && isWordPart d⟩ := by
  obtain ⟨front, back, rfl, rfl⟩ := h.stands
  obtain ⟨m, hm⟩ := marks_append_cons h.left front (gap ++ d :: back) none false
  rw [hm, marks_blank_append h.blanks, marks_cons_visible h.right, ← length_marks none false front]
  simp

theorem SameShape.marks_eq {s t : List Char} (h : SameShape s t) :
    marks none false s = marks none false t := by
  apply List.ext_getElem?
  intro i
  cases i with
  | zero => rw [← List.head?_eq_getElem?, ← List.head?_eq_getElem?, head?_marks, head?_marks, h.visible]
  | succ n =>
    by_cases hn : n + 1 < (ink s).length
    · obtain ⟨c, gap, d, hs⟩ := exists_neighbours hn
      obtain ⟨c', gap', d', ht⟩ := exists_neighbours (h.visible ▸ hn)
      -- both pairs are found at one place of the same visible text
      have hink := hs.getElem?_ink
      rw [h.visible, ht.getElem?_ink.1, ht.getElem?_ink.2] at hink
      obtain ⟨hc, hd⟩ := hink
      cases hc
      cases hd
      rw [hs.getElem?_marks, ht.getElem?_marks]
      by_cases hwords : isWordPart c = true ∧ isWordPart d = true
      · have hgaps := h.gaps n c d gap gap' hs ht hwords.1 hwords.2
        rw [← List.isEmpty_iff, ← List.isEmpty_iff, ← Bool.eq_iff_iff] at hgaps
        rw [hgaps]
      · have hnone : (isWordPart c && isWordPart d) = false := by simpa using hwords
        rw [Bool.and_assoc, Bool.and_assoc, hnone, Bool.and_false, Bool.and_false]
    · rw [List.getElem?_eq_none (by rw [length_marks]; omega),
        List.getElem?_eq_none (by rw [length_marks, ← h.visible]; omega)]

theorem sameShape_of_marks_eq {s t : List Char} (h : marks none false s = marks none false t) :
    SameShape s t where
  visible := by rw [← map_char_marks none false s, h, map_char_marks]
  gaps := by
    intro n c d gap gap' hs ht hc hd
    have hsame := hs.getElem?_marks
    rw [h, ht.getElem?_marks, hc, hd] at hsame
    have hempty : gap.isEmpty = gap'.isEmpty := by simpa using hsame.symm
    rw [← List.isEmpty_iff, ← List.isEmpty_iff, hempty]

theorem normalize_eq_iff {s t : List Char} : normalize s = normalize t ↔ SameShape s t :=
  normalize_eq_iff_marks.trans ⟨sameShape_of_marks_eq, SameShape.marks_eq⟩

/-! ## Words of code -/

theorem not_isBlank_of_isWordPart {c : Char} (h : isWordPart c = true) : isBlank c = false := by
  have hnone : (blankCodes.all fun n => !isWordPart (Char.ofNat n)) = true := by decide +kernel
  by_contra hblank
  have hcode := List.all_eq_true.1 hnone _ (mem_blankCodes (by simpa using hblank))
  rw [Char.ofNat_toNat, h] at hcode
  cases hcode

/-- The runs of characters that belong to words; all other characters count as blanks. -/
def codeWords (cs : List Char) : List (List Char) :=
  words (cs.map fun c => if isWordPart c then c else ' ')

theorem codeWords_append_cons {c : Char} (h : isWordPart c = false) (front back : List Char) :
    codeWords (front ++ c :: back) = codeWords front ++ codeWords back := by
  rw [codeWords, List.map_append, List.map_cons, if_neg (by simp [h])]
  exact words_append_cons (by decide) _ _

theorem codeWords_cons_other {c : Char} (h : isWordPart c = false) (cs : List Char) :
    codeWords (c :: cs) = codeWords cs :=
  codeWords_append_cons h [] cs

/-- What stands before a character sees only the words from it on. -/
theorem codeWords_cons_congr {c : Char} {cs cs' : List Char}
    (h : codeWords (c :: cs) = codeWords (c :: cs')) (d : Char) :
    codeWords (d :: c :: cs) = codeWords (d :: c :: cs') := by
  simp only [codeWords, List.map_cons] at h ⊢
  rw [words, words, h]

/-- Two characters of which one belongs to no word keep their words apart without a blank. -/
theorem codeWords_append_of_other {last : Option Char} {c : Char}
    (h : (last.any isWordPart && isWordPart c) = false) (cs : List Char) :
    codeWords (last.toList ++ c :: cs) = codeWords last.toList ++ codeWords (c :: cs) := by
  cases last with
  | none => rfl
  | some d =>
    rw [Option.any_some, Bool.and_eq_false_iff] at h
    rcases h with hd | hc
    · rw [Option.toList_some, List.singleton_append, codeWords_cons_other hd,
        codeWords_cons_other hd]
      rfl
    · rw [codeWords_append_cons hc, codeWords_cons_other hc]

theorem codeWords_append_blank (cs : List Char) : codeWords (cs ++ [' ']) = codeWords cs := by
  rw [codeWords_append_cons (by decide)]
  exact List.append_nil _

/-- The words before and after the blanks that were passed are those of the text. -/
theorem codeWords_normalizeFrom (last : Option Char) (gap : Bool) (cs : List Char) :
    codeWords (last.toList ++ normalizeFrom last gap cs) =
      codeWords (last.toList ++ (if gap then [' '] else []) ++ cs) := by
  fun_induction normalizeFrom last gap cs with
  | case1 last gap =>
    cases gap with
    | false => simp
    | true => simp [codeWords_append_blank]
  | case2 last gap c cs hc ih =>
    have hother : isWordPart c = false := by
      by_contra hword
      rw [not_isBlank_of_isWordPart (by simpa using hword)] at hc
      cases hc
    rw [ih, if_pos rfl, List.append_assoc, List.singleton_append,
      codeWords_append_cons (by decide), codeWords_append_cons hother]
    cases gap with
    | false => simp
    | true => simp [codeWords_append_blank]
  | case3 last gap c cs hc hapart ih =>
    rw [Bool.and_eq_true, Bool.and_eq_true] at hapart
    rw [Option.toList_some, List.singleton_append] at ih
    rw [hapart.1.1, if_pos rfl, List.append_assoc, List.singleton_append,
      codeWords_append_cons (by decide), codeWords_append_cons (by decide), ih]
    simp
  | case4 last gap c cs hc hapart ih =>
    rw [Option.toList_some, List.singleton_append] at ih
    have hsame : codeWords (c :: normalizeFrom (some c) false cs) = codeWords (c :: cs) := by
      rw [ih]
      simp
    cases gap with
    | false =>
      cases last with
      | none => simpa using hsame
      | some d => simpa using codeWords_cons_congr hsame d
    | true =>
      rw [Bool.true_and, Bool.not_eq_true] at hapart
      rw [codeWords_append_of_other hapart, hsame, if_pos rfl, List.append_assoc,
        List.singleton_append, codeWords_append_cons (by decide)]

/-- Normalizing forgets layout and nothing else: two texts have one normal form if they have the
same visible characters and blanks between the same words, and only then. So normal forms are
fixed, captures are equal if their texts have the same shape, and no two words become one. -/
theorem normalize_forgets_layout :
    (∀ s t : String, normalizeString s = normalizeString t ↔ SameShape s.toList t.toList) ∧
    (∀ s : String, normalizeString (normalizeString s) = normalizeString s) ∧
    (∀ (a b : Bindings) (name : String) (v w : List Char),
      (a.bind name v).get? name = (b.bind name w).get? name ↔ SameShape v w) ∧
    ∀ s : String, codeWords (normalizeString s).toList = codeWords s.toList := by
  refine ⟨fun s t => ?_, fun s => ?_, fun a b name v w => ?_, fun s => ?_⟩
  · rw [normalizeString, normalizeString, String.ofList_inj, normalize_eq_iff]
  · rw [normalizeString, normalizeString, String.toList_ofList, normalize_normalize]
  · rw [Bindings.bind, Bindings.bind, SortedMap.insert, SortedMap.insert, SortedMap.get?_alter,
      SortedMap.get?_alter, if_pos rfl, if_pos rfl, Option.some_inj, String.ofList_inj,
      normalize_eq_iff]
  · rw [normalizeString, String.toList_ofList]
    exact codeWords_normalizeFrom none false s.toList

end LeakScan
