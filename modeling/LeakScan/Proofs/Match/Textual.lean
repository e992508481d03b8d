import LeakScan.Match.Textual
import LeakScan.Proofs.Regex.Reads
import LeakScan.Proofs.Regex.Run
import LeakScan.Proofs.Source

/-!
# LeakScan.Proofs.Match.Textual

What a rule finds in a file as text.

* `Rule.Readable` — every pattern of the rule has an expression for the file.
* `textShare`, `textualMatches_eq_ok` — then the matches are those of one pattern after the other.
* `rawMatch_mem_textShare` — a match is among them exactly if it counts.
* `Led` — a match with the blanks at its start, between the place where the matcher looks for a
  comment and the place that the match is given; `reported_iff_line_of_start`.
-/

namespace LeakScan

open Text

/-- No pattern of the rule is broken by the imports of the file. -/
def Rule.Readable (source : Source) (rule : Rule) : Prop :=
  ∀ p ∈ textualPatterns .everything rule, ∃ regex, p.2.2.regexFor source.imports rule.id = .ok regex

instance (source : Source) (rule : Rule) : Decidable (rule.Readable source) :=
  decidable_of_iff
    ((textualPatterns .everything rule).all fun p =>
      (p.2.2.regexFor source.imports rule.id).isOk) <| by
    rw [List.all_eq_true]
    refine forall₂_congr fun p _ => ?_
    cases p.2.2.regexFor source.imports rule.id <;> simp [Except.isOk, Except.toBool]

/-- The matches of one pattern. -/
def patternMatches (source : Source) (rule : Rule) (p : Role × Nat × TextualPattern) :
    List RawMatch :=
  match p.2.2.regexFor source.imports rule.id with
  | .ok regex => regexMatches source rule.id p.1 p.2.1 regex
  | .error _ => []

def textShare (coverage : Coverage) (source : Source) (rule : Rule) : List RawMatch :=
  (textualPatterns coverage rule).flatMap (patternMatches source rule)

theorem patternMatches_of_ok {source : Source} {rule : Rule} {p : Role × Nat × TextualPattern}
    {regex : Regex} (h : p.2.2.regexFor source.imports rule.id = .ok regex) :
    patternMatches source rule p = regexMatches source rule.id p.1 p.2.1 regex := by
  rw [patternMatches, h]

theorem matchPatterns_eq_ok {source : Source} {rule : Rule} {ps : List (Role × Nat × TextualPattern)}
    (h : ∀ p ∈ ps, ∃ regex, p.2.2.regexFor source.imports rule.id = .ok regex) :
    matchPatterns source false rule ps = .ok (ps.flatMap (patternMatches source rule)) := by
  induction ps with
  | nil => rfl
  | cons p ps ih =>
    obtain ⟨regex, hregex⟩ := h p List.mem_cons_self
    rw [matchPatterns, if_neg Bool.false_ne_true, hregex,
      ih fun q hq => h q (List.mem_cons_of_mem _ hq), List.flatMap_cons, patternMatches_of_ok hregex]

/-- Leaving roles out leaves patterns out. -/
theorem textualPatterns_subset (coverage : Coverage) (rule : Rule) :
    textualPatterns coverage rule ⊆ textualPatterns .everything rule := by
  intro p hp
  obtain ⟨role, -, hrole⟩ := List.mem_flatMap.1 hp
  have hall : role ∈ Role.all := by cases role <;> decide
  exact List.mem_flatMap.2 ⟨role, hall, hrole⟩

theorem textualMatches_eq_ok {source : Source} {rule : Rule} (h : rule.Readable source)
    (coverage : Coverage) :
    textualMatches coverage source false rule = .ok (textShare coverage source rule) :=
  matchPatterns_eq_ok fun p hp => h p (textualPatterns_subset coverage rule hp)

/-! ## The record of a match -/

def rawMatch (source : Source) (rule : Rule) (p : Role × Nat × TextualPattern) (m : Regex.Match) :
    RawMatch where
  ruleId := rule.id
  role := p.1
  pattern := p.2.1
  span := m.span
  bindings := groupBindings source.text m
  text := String.ofList ((slice? source.text m.span).getD [])
  mode := .textual

section Record

variable {source : Source} {rule : Rule} {p : Role × Nat × TextualPattern} {regex : Regex}
  {m : Regex.Match}

theorem mem_patternMatches (h : p.2.2.regexFor source.imports rule.id = .ok regex) {r : RawMatch} :
    r ∈ patternMatches source rule p ↔
      ∃ m ∈ regex.findAll source.text, counts source m = true ∧ rawMatch source rule p m = r := by
  rw [patternMatches_of_ok h, regexMatches, List.mem_map]
  simp only [List.mem_filter, and_assoc]
  rfl

/-- Whether a match counts can be read off its record. -/
theorem rawMatch_mem_textShare (hread : rule.Readable source)
    (hp : p ∈ textualPatterns .everything rule)
    (hregex : p.2.2.regexFor source.imports rule.id = .ok regex)
    (hm : m ∈ regex.findAll source.text) :
    rawMatch source rule p m ∈ textShare .everything source rule ↔ counts source m = true := by
  rw [textShare, List.mem_flatMap]
  constructor
  · rintro ⟨q, hq, hmem⟩
    obtain ⟨regex', hregex'⟩ := hread q hq
    obtain ⟨m', -, hcounts, hsame⟩ := (mem_patternMatches hregex').1 hmem
    have hspan : m'.span = m.span := congrArg RawMatch.span hsame
    rw [counts, hspan] at hcounts
    exact hcounts
  · intro hcounts
    exact ⟨p, hp, (mem_patternMatches hregex).2 ⟨m, hm, hcounts, rfl⟩⟩

end Record

/-! ## Comment lines -/

/-- The line is a comment, or looks like the inside of one. -/
def Source.commentAt (s : Source) (line : Nat) : Bool := isCommentText s.language (s.lineText line)

theorem resolve_line (m : RawMatch) (kind : String) (source : Source) (tree : ScopeTree) :
    (Match.resolve m kind source tree).line = (source.lineColumn m.trimmedSpan.start).1 := rfl

/-- The text of a match, cut at the first character that is no blank. -/
structure Led (source : Source) (m : RawMatch) (front blanks body back : List Char) : Prop where
  text : source.text = front ++ (blanks ++ body) ++ back
  own : m.text.toList = blanks ++ body
  start : m.span.start = byteSize front
  stop : m.span.stop = byteSize (front ++ (blanks ++ body))
  blank : ∀ c ∈ blanks, isBlank c = true
  visible : ∀ c ∈ body.head?, isBlank c = false

namespace Led

variable {source : Source} {m : RawMatch} {front blanks body back : List Char}

theorem line_start (h : Led source m front blanks body back) :
    (source.lineColumn m.span.start).1 = 1 + front.count '\n' := by
  have htext : source.text = front ++ (blanks ++ body ++ back) := by
    rw [h.text, List.append_assoc]
  rw [h.start]
  exact Source.lineColumn_line htext

theorem takeWhile_isBlank (h : Led source m front blanks body back) :
    m.text.toList.takeWhile isBlank = blanks := by
  rw [h.own, List.takeWhile_append_of_pos h.blank]
  cases body with
  | nil => simp
  | cons c body =>
    have hvisible := h.visible c rfl
    rw [List.takeWhile_cons_of_neg (by simp [hvisible]), List.append_nil]

theorem trimmedSpan_start (h : Led source m front blanks body back) :
    m.trimmedSpan.start = byteSize (front ++ blanks) := by
  have hstart : m.trimmedSpan.start =
      min (m.span.start + byteSize (m.text.toList.takeWhile isBlank)) m.span.stop := rfl
  rw [hstart, h.takeWhile_isBlank, h.start, h.stop]
  simp only [byteSize_append]
  omega

theorem line_resolve (h : Led source m front blanks body back) (kind : String) (tree : ScopeTree) :
    (Match.resolve m kind source tree).line = 1 + (front ++ blanks).count '\n' := by
  have htext : source.text = (front ++ blanks) ++ (body ++ back) := by
    rw [h.text]
    simp
  rw [resolve_line, h.trimmedSpan_start]
  exact Source.lineColumn_line htext

end Led

theorem exists_led {source : Source} (rule : Rule) (p : Role × Nat × TextualPattern) {regex : Regex}
    {m : Regex.Match} (hm : m ∈ regex.findAll source.text) :
    ∃ front blanks body back, Led source (rawMatch source rule p m) front blanks body back ∧
      ∀ c ∈ (blanks ++ body).head?, regex.mayStart c = true := by
  obtain ⟨piece, hstands, hstop, -, hfirst⟩ := (Regex.matched_findAll hm).span_stands
  have hspan : m.span = ⟨m.span.start, m.span.start + byteSize piece⟩ := by
    rw [← hstop]
  have hslice : slice? source.text m.span = some piece := by
    rw [hspan]
    exact hstands.slice?
  have hpiece : piece.takeWhile isBlank ++ piece.dropWhile isBlank = piece :=
    List.takeWhile_append_dropWhile
  obtain ⟨front, back, htext, hfront⟩ := hstands
  refine ⟨front, piece.takeWhile isBlank, piece.dropWhile isBlank, back,
    ⟨?_, ?_, hfront.symm, ?_, ?_, ?_⟩, ?_⟩
  · rw [hpiece]
    exact htext
  · rw [rawMatch, hslice, hpiece]
    simp
  · rw [hpiece, byteSize_append, hfront]
    exact hstop
  · exact List.all_eq_true.1 List.all_takeWhile
  · intro c hc
    exact head?_dropWhile_isBlank hc
  · rw [hpiece]
    exact hfirst

theorem counts_eq_true_iff {source : Source} {m : Regex.Match} (hne : m.span.isEmpty = false) :
    counts source m = true ↔ source.commentAt (source.lineColumn m.span.start).1 = false := by
  rw [counts, hne, Bool.not_false, Bool.true_and, Bool.not_eq_true']
  rfl

/-- The comment test looks at the line on which the matched text starts, blanks included, whereas
the match is placed on the line of its first visible character. The two disagree exactly where the
leading blanks of a match go from a comment line to another line, or the other way. -/
theorem reported_iff_line_of_start (source : Source) (rule : Rule) (hread : rule.Readable source) :
    ∃ found, textualMatches .everything source false rule = .ok found ∧
      ∀ p ∈ textualPatterns .everything rule,
      ∀ regex, p.2.2.regexFor source.imports rule.id = .ok regex →
      ∀ m ∈ regex.findAll source.text, m.span.isEmpty = false →
      ∀ (kind : String) (tree : ScopeTree),
        let raw := rawMatch source rule p m
        let placed := (Match.resolve raw kind source tree).line
        ∃ front blanks body back, Led source raw front blanks body back ∧
          placed = 1 + (front ++ blanks).count '\n' ∧
          (raw ∈ found ↔ source.commentAt (1 + front.count '\n') = false) ∧
          ((raw ∈ found ↔ source.commentAt placed = false) ↔
            ¬ ('\n' ∈ blanks ∧ source.commentAt (1 + front.count '\n') ≠ source.commentAt placed)) ∧
          ((∀ c, isBlank c = true → regex.mayStart c = false) →
            (raw ∈ found ↔ source.commentAt placed = false)) := by
  refine ⟨_, textualMatches_eq_ok hread _, ?_⟩
  intro p hp regex hregex m hm hne kind tree raw placed
  obtain ⟨front, blanks, body, back, hled, hfirst⟩ := exists_led rule p hm
  have hreported : raw ∈ textShare .everything source rule ↔
      source.commentAt (1 + front.count '\n') = false := by
    have hline : (source.lineColumn m.span.start).1 = 1 + front.count '\n' := hled.line_start
    rw [rawMatch_mem_textShare hread hp hregex hm, counts_eq_true_iff hne, hline]
  have hplaced : placed = 1 + (front ++ blanks).count '\n' := hled.line_resolve kind tree
  have hsame (h : '\n' ∉ blanks) : placed = 1 + front.count '\n' := by
    rw [hplaced, List.count_append, List.count_eq_zero.2 h, Nat.add_zero]
  refine ⟨front, blanks, body, back, hled, hplaced, hreported, ?_, ?_⟩
  · rw [hreported]
    constructor
    · rintro hagree ⟨-, hdiffer⟩
      apply hdiffer
      cases hbegin : source.commentAt (1 + front.count '\n') with
      | false => exact (hagree.1 hbegin).symm
      | true =>
        cases hend : source.commentAt placed with
        | false => exact absurd (hagree.2 hend) (by simp [hbegin])
        | true => rfl
    · intro hnot
      by_cases hfeed : '\n' ∈ blanks
      · have hequal : source.commentAt (1 + front.count '\n') = source.commentAt placed := by
          by_contra hdiffer
          exact hnot ⟨hfeed, hdiffer⟩
        rw [hequal]
      · rw [hsame hfeed]
  · intro hnever
    have hnil : blanks = [] := by
      cases blanks with
      | nil => rfl
      | cons c blanks =>
        have hstart := hfirst c rfl
        rw [hnever c (hled.blank c List.mem_cons_self)] at hstart
        cases hstart
    rw [hreported, hsame (by simp [hnil])]

/-- A call of `open` whose name does not end a longer one. The character before it belongs to the
match. -/
def openRegex : Regex :=
  .seq (.alt (.anchor .textStart) (.char (.compl (.union (.union .nothing .word) (.one '.')))))
    (.seq (.one 'o') (.seq (.one 'p') (.seq (.one 'e') (.seq (.one 'n')
      (.seq (.many (.char .blank)) (.one '('))))))

def openPattern : TextualPattern where
  source := "(?:^|[^\\w.])open\\s*\\("
  expanded := "(?:^|[^\\w.])open\\s*\\("
  regex := openRegex
  calls := []

def callPattern : TextualPattern where
  source := "open\\("
  expanded := "open\\("
  regex := .seq (.one 'o') (.seq (.one 'p') (.seq (.one 'e') (.seq (.one 'n') (.one '('))))
  calls := []

theorem ofSource_openPattern : TextualPattern.ofSource openPattern.source = .ok openPattern := by
  have hregex : Regex.ofPattern (ImportAliases.expand {} openPattern.source) = .ok openRegex := by
    decide +kernel
  have hexpand : ImportAliases.expand {} openPattern.source = openPattern.expanded := by
    decide +kernel
  have hcalls : placeholderCalls openPattern.source = [] := by decide +kernel
  rw [TextualPattern.ofSource, hregex, hexpand, hcalls]
  rfl

def fileRule : Rule where
  id := "py.file.open"
  language := .python
  kind := "file_handle"
  category := "io-handles"
  severity := .warning
  acquire := [⟨none, some openPattern⟩, ⟨none, some callPattern⟩]
  cleanup := []
  anchors := ["open("]
  summary := "File opened without close() or a with block"
  remediation := none
  contexts := [.sameScope]

def codeSource : Source := .ofText "a.py" .python "x = 1\nopen(path)\n"

def notedSource : Source := .ofText "a.py" .python "# read the file\nopen(path)\n"

theorem textualPatterns_fileRule :
    textualPatterns .everything fileRule =
      [(.acquire, 0, openPattern), (.acquire, 1, callPattern)] := rfl

/-- The match starts at the end of a line of code and is placed on the next line. -/
def codeOpen : RawMatch := rawMatch codeSource fileRule (.acquire, 0, openPattern) ⟨⟨5, 11⟩, []⟩

def codeCall : RawMatch := rawMatch codeSource fileRule (.acquire, 1, callPattern) ⟨⟨6, 11⟩, []⟩

theorem open_after_code :
    fileRule.Readable codeSource ∧
    ∃ found, textualMatches .everything codeSource false fileRule = .ok found ∧
      ∀ (kind : String) (tree : ScopeTree),
        (codeOpen ∈ found ↔ codeSource.commentAt 1 = false) ∧
        (Match.resolve codeOpen kind codeSource tree).line = 2 ∧
        (codeCall ∈ found ↔
          codeSource.commentAt (Match.resolve codeCall kind codeSource tree).line = false) := by
  have hread : fileRule.Readable codeSource := by decide +kernel
  have hopen : ⟨⟨5, 11⟩, []⟩ ∈ openRegex.findAll codeSource.text := by decide +kernel
  have hcall : ⟨⟨6, 11⟩, []⟩ ∈ callPattern.regex.findAll codeSource.text := by decide +kernel
  have hbegin : (codeSource.lineColumn 5).1 = 1 := by decide +kernel
  have hplaced : (codeSource.lineColumn codeOpen.trimmedSpan.start).1 = 2 := by decide +kernel
  have hvisible : ∀ c, isBlank c = true → callPattern.regex.mayStart c = false := by
    intro c hc
    have hstart : callPattern.regex.mayStart c = ((Regex.CharClass.one 'o').contains c || false) :=
      rfl
    rw [hstart, Bool.or_false, Regex.contains_one, beq_eq_false_iff_ne]
    rintro rfl
    exact absurd hc (by decide)
  obtain ⟨found, hfound, hreported⟩ := reported_iff_line_of_start codeSource fileRule hread
  refine ⟨hread, found, hfound, fun kind tree => ?_⟩
  obtain ⟨front, blanks, body, back, hled, -, hiff, -⟩ :=
    hreported (.acquire, 0, openPattern) (by simp [textualPatterns_fileRule]) openRegex rfl _ hopen
      rfl kind tree
  obtain ⟨-, -, -, -, -, -, -, -, hstatic⟩ :=
    hreported (.acquire, 1, callPattern) (by simp [textualPatterns_fileRule]) callPattern.regex rfl _
      hcall rfl kind tree
  refine ⟨?_, (resolve_line _ _ _ _).trans hplaced, hstatic hvisible⟩
  rw [← hled.line_start] at hiff
  rw [← hbegin]
  exact hiff

/-- The call stands on a line of its own, but the match starts with the end of the comment. -/
def notedOpen : RawMatch := rawMatch notedSource fileRule (.acquire, 0, openPattern) ⟨⟨15, 21⟩, []⟩

theorem open_after_comment_lost :
    TextualPattern.ofSource "(?:^|[^\\w.])open\\s*\\(" = .ok openPattern ∧
    (.acquire, 0, openPattern) ∈ textualPatterns .everything fileRule ∧
    openPattern.regexFor notedSource.imports fileRule.id = .ok openRegex ∧
    ⟨⟨15, 21⟩, []⟩ ∈ openRegex.findAll notedSource.text ∧
    ∃ found, textualMatches .everything notedSource false fileRule = .ok found ∧ notedOpen ∉ found ∧
      ∀ (kind : String) (tree : ScopeTree),
        notedSource.commentAt (Match.resolve notedOpen kind notedSource tree).line = false := by
  have hread : fileRule.Readable notedSource := by decide +kernel
  have hmatch : ⟨⟨15, 21⟩, []⟩ ∈ openRegex.findAll notedSource.text := by decide +kernel
  have hmem : (.acquire, 0, openPattern) ∈ textualPatterns .everything fileRule := by
    simp [textualPatterns_fileRule]
  have hcomment : counts notedSource ⟨⟨15, 21⟩, []⟩ = false := by decide +kernel
  have hplaced : notedSource.commentAt (notedSource.lineColumn notedOpen.trimmedSpan.start).1 =
      false := by decide +kernel
  refine ⟨ofSource_openPattern, hmem, rfl, hmatch, _, textualMatches_eq_ok hread _, ?_, ?_⟩
  · rw [notedOpen, rawMatch_mem_textShare hread hmem rfl hmatch, hcomment]
    exact Bool.false_ne_true
  · intro kind tree
    rw [resolve_line]
    exact hplaced

end LeakScan
