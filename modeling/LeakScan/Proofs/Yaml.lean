import Mathlib.Data.List.Basic
import LeakScan.Yaml.Scalar

/-!
# LeakScan.Proofs.Yaml

Texts that are written as they are.

* `isMarkChar` — letters, digits and `#`.
* `hasIndicatorAfter_marks`, `allowsPlain_marks` — such characters need no quotes after a letter.
* `field_plain` — a text of them that nothing else could be meant by is written plainly.
-/

namespace LeakScan.Yaml

open Text

/-- Letters, digits and `#`. -/
def isMarkChar (c : Char) : Bool := c.isAlphanum || c == '#'

theorem isMarkChar_ascii {c : Char} (h : isMarkChar c = true) : c.toNat < 128 := by
  delta isMarkChar Char.isAlphanum Char.isAlpha Char.isUpper Char.isLower Char.isDigit at h
  simp only [Bool.or_eq_true, Bool.and_eq_true, decide_eq_true_eq, beq_iff_eq,
    UInt32.le_iff_toNat_le] at h
  change (((65 ≤ c.toNat ∧ c.toNat ≤ 90) ∨ (97 ≤ c.toNat ∧ c.toNat ≤ 122)) ∨
    (48 ≤ c.toNat ∧ c.toNat ≤ 57)) ∨ c = '#' at h
  rcases h with h | rfl
  · omega
  · decide

theorem isMarkChar_of_isAlpha {c : Char} (h : c.isAlpha = true) : isMarkChar c = true := by
  rw [isMarkChar, Char.isAlphanum, h]
  rfl

/-- What holds of the ASCII characters one by one holds of these. -/
theorem isMarkChar_forall (p : Char → Bool)
    (h : ((List.range 128).all fun n => p (Char.ofNat n)) = true) {c : Char}
    (hc : isMarkChar c = true) : p c = true := by
  have hp := List.all_eq_true.1 h c.toNat (List.mem_range.2 (isMarkChar_ascii hc))
  rwa [Char.ofNat_toNat] at hp

/-- They are neither blanks nor breaks, nor have they to be escaped. -/
theorem isMarkChar_plain {c : Char} (h : isMarkChar c = true) :
    isSpace c = false ∧ isBreak c = false ∧ isPrintable c = true ∧ c ≠ ':' ∧ c ≠ '\t' := by
  have hplain := isMarkChar_forall (fun c => !isMarkChar c || (!isSpace c && !isBreak c &&
    isPrintable c && c != ':' && c != '\t')) (by decide +kernel) h
  simpa [h, and_assoc] using hplain

theorem hasNeighbours_eq_false {p q : Char → Bool} {cs : List Char} (h : ∀ c ∈ cs, p c = false) :
    hasNeighbours p q cs = false := by
  induction cs with
  | nil => rfl
  | cons c cs ih =>
    cases cs with
    | nil => rfl
    | cons d cs =>
      obtain ⟨hc, hcs⟩ := List.forall_mem_cons.1 h
      rw [hasNeighbours, hc, ih hcs]
      rfl

section Marks

variable {c : Char} {cs : List Char}

theorem hasIndicatorAfter_marks (hc : isMarkChar c = true) (h : ∀ d ∈ cs, isMarkChar d = true) :
    hasIndicatorAfter c cs = false := by
  induction cs generalizing c with
  | nil => rfl
  | cons d cs ih =>
    obtain ⟨hd, hcs⟩ := List.forall_mem_cons.1 h
    obtain ⟨hspace, hbreak, -, -, htab⟩ := isMarkChar_plain hc
    obtain ⟨-, -, -, hcolon, -⟩ := isMarkChar_plain hd
    have hblank : isBlankOrEnd (some c) = false := by
      simp only [isBlankOrEnd, hbreak, Bool.or_false, Bool.or_eq_false_iff]
      exact ⟨hspace, by simpa using htab⟩
    rw [hasIndicatorAfter, indicatesInside, ih hd hcs, hblank, beq_eq_false_iff_ne.2 hcolon]
    simp

/-- A letter at the start has no meaning of its own there. -/
theorem hasIndicator_marks (hfirst : c.isAlpha = true) (h : ∀ d ∈ cs, isMarkChar d = true) :
    hasIndicator (c :: cs) = false := by
  have hmark := isMarkChar_of_isAlpha hfirst
  have hletter := isMarkChar_forall (fun c => !c.isAlpha ||
    (!"#,[]\x7b\x7d&*!|>'\"%@\x60".toList.contains c && c != '?' && c != ':' && c != '-' &&
      c != '.')) (by decide +kernel) hmark
  simp only [hfirst, Bool.not_true, Bool.false_or, Bool.and_eq_true, Bool.not_eq_true',
    bne_iff_ne] at hletter
  obtain ⟨⟨⟨⟨hstart, hquestion⟩, hcolon⟩, hdash⟩, hdot⟩ := hletter
  have hindicates : indicatesAtStart c cs.head? = false := by
    rw [indicatesAtStart, hstart, beq_eq_false_iff_ne.2 hquestion, beq_eq_false_iff_ne.2 hcolon,
      beq_eq_false_iff_ne.2 hdash]
    rfl
  rw [hasIndicator, hindicates, hasIndicatorAfter_marks hmark h, startsWith, startsWith,
    stripPrefix?, stripPrefix?, if_neg (by simpa using hdash.symm), if_neg (by simpa using hdot.symm)]
  rfl

theorem allowsPlain_marks (hfirst : c.isAlpha = true) (h : ∀ d ∈ cs, isMarkChar d = true) :
    allowsPlain (c :: cs) = true := by
  have hmarks : ∀ d ∈ c :: cs, isMarkChar d = true :=
    List.forall_mem_cons.2 ⟨isMarkChar_of_isAlpha hfirst, h⟩
  have hplain : ∀ d ∈ c :: cs, isSpace d = false ∧ isBreak d = false ∧ isPrintable d = true := by
    intro d hd
    obtain ⟨hspace, hbreak, hprint, -⟩ := isMarkChar_plain (hmarks d hd)
    exact ⟨hspace, hbreak, hprint⟩
  have hends : ∀ d ∈ c :: cs, (isSpace d || isBreak d) = false := by
    intro d hd
    rw [(hplain d hd).1, (hplain d hd).2.1]
    rfl
  have hescapes : needsEscapes (c :: cs) = false := by
    rw [needsEscapes, hasNeighbours_eq_false fun d hd => (hplain d hd).1, Bool.false_or,
      List.any_eq_false]
    exact fun d hd => by simp [(hplain d hd).2.2]
  have hbreaks : (c :: cs).any isBreak = false :=
    List.any_eq_false.2 fun d hd => by simp [(hplain d hd).2.1]
  have hhead : (c :: cs).head?.any (fun d => isSpace d || isBreak d) = false :=
    hends c List.mem_cons_self
  have hlast : (c :: cs).getLast?.any (fun d => isSpace d || isBreak d) = false := by
    rw [List.getLast?_eq_some_getLast (List.cons_ne_nil c cs)]
    exact hends _ (List.getLast_mem _)
  simp only [allowsPlain, allowsSingle, hescapes, hbreaks, hhead, hlast,
    hasNeighbours_eq_false fun d hd => (hplain d hd).2.1, hasIndicator_marks hfirst h]
  rfl

end Marks

/-! ## Fields -/

theorem contains_eq_false {words : List String} {s : String}
    (h : ∀ w ∈ words, w.toList.head? ≠ s.toList.head?) : words.contains s = false := by
  rw [List.contains_eq_mem, decide_eq_false_iff_not]
  exact fun hmem => h s hmem rfl

section Fields

variable {s : String} {c : Char} {cs : List Char}

/-- No number and no word for a truth value or for nothing starts with these letters. -/
theorem looksTyped_eq_false (hs : s.toList = c :: cs) (hc : c = 'a' ∨ c = 'c') :
    looksTyped s = false := by
  have hreserved : reservedWords.contains s = false := by
    refine contains_eq_false ?_
    rw [hs, List.head?_cons]
    rcases hc with rfl | rfl <;> decide
  have hspecial : [".inf", ".Inf", ".INF", "+.inf", "+.Inf", "+.INF", "-.inf", "-.Inf", "-.INF",
      ".nan", ".NaN", ".NAN"].contains (String.ofList (c :: cs)) = false := by
    refine contains_eq_false ?_
    rw [String.toList_ofList, List.head?_cons]
    rcases hc with rfl | rfl <;> decide
  have hdecimal : isDecimalText (c :: cs) = false := by
    simp only [isDecimalText, hspecial]
    rcases hc with rfl | rfl <;> rfl
  rw [looksTyped, hreserved, hs, hdecimal]
  rcases hc with rfl | rfl <;> rfl

theorem styleOf_eq_plain (hs : s.toList = c :: cs) (hc : c = 'a' ∨ c = 'c')
    (hmarks : ∀ d ∈ cs, isMarkChar d = true) : styleOf s = .plain := by
  have hfirst : c.isAlpha = true := by rcases hc with rfl | rfl <;> decide
  have hbreak : (c :: cs).contains '\n' = false := by
    rw [List.contains_eq_mem, decide_eq_false_iff_not, List.mem_cons]
    rintro (rfl | hmem)
    · simp at hc
    · exact absurd (hmarks _ hmem) (by decide)
  rw [styleOf, looksTyped_eq_false hs hc]
  simp only [hs, hbreak, allowsPlain_marks hfirst hmarks, Bool.false_eq_true, if_false, if_true]

theorem field_plain (name : String) (hs : s.toList = c :: cs) (hc : c = 'a' ∨ c = 'c')
    (hmarks : ∀ d ∈ cs, isMarkChar d = true) : field 0 name s = name ++ ": " ++ s ++ "\n" := by
  have hscalar : scalar (0 + 2) s = s := by
    simp only [scalar, styleOf_eq_plain hs hc hmarks, String.ofList_toList]
  have hlast : s.toList.getLast? ≠ some '\n' := by
    intro h
    have hmem := List.mem_of_getLast? h
    rw [hs, List.mem_cons] at hmem
    rcases hmem with rfl | hmem
    · simp at hc
    · exact absurd (hmarks _ hmem) (by decide)
  rw [field, hscalar, if_neg (by simpa using hlast)]
  simp

end Fields

end LeakScan.Yaml
