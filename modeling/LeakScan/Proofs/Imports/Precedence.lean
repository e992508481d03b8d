import LeakScan.Proofs.Imports.Statements
import LeakScan.Proofs.SortedMap

/-!
# LeakScan.Proofs.Imports.Precedence

What a local name stands for when several imports bind it.

* `ImportStatement` — an import on one line; `binds` gives its local name and the path of that.
* `Written statements text` — the text has these imports, in this order, among lines of other code.
* `Written.plain`, `Written.qualified` — the two halves of the table, each in the order of the text.
* `last` — the last of the statements that bind a name.
* `last_import_wins_iff` — a `from` statement goes before any `import`, so the last of all wins
  unless an `import` gives a name that a `from` statement has given to something else.
-/

namespace LeakScan.ImportAliases

open Text

/-- `import PATH as NAME`, or `from MODULE import ITEM`. -/
inductive ImportStatement where
  | whole (path : ModulePath) (name : Name)
  | part (module : ModulePath) (item : Item)

namespace ImportStatement

/-- The local name, and the path it stands for. -/
def binds : ImportStatement → String × String
  | whole path name => (String.ofList name.chars, String.ofList path.chars)
  | part module item => item.binding module

def isPart : ImportStatement → Bool
  | whole .. => false
  | part .. => true

end ImportStatement

/-- The `import` statements. -/
def wholes (statements : List ImportStatement) : List ImportStatement :=
  statements.filter (!·.isPart)

/-- The `from` statements. -/
def parts (statements : List ImportStatement) : List ImportStatement :=
  statements.filter (·.isPart)

/-! ## Texts of import statements -/

/-- What may follow a statement on its line. -/
structure Ending (cs : List Char) : Prop where
  comment : ∀ c ∈ cs.head?, c = '#'
  oneLine : '\n' ∉ cs

/-- The line holds the statement, or none. -/
inductive OnLine : Option ImportStatement → List Char → Prop
  | other {line : List Char} (hidle : Idle line) (hline : '\n' ∉ line) : OnLine none line
  | whole {path : ModulePath} {name : Name} {indent gap list ending : List Char}
      (hindent : LineBlanks indent) (hgap : Gap gap)
      (hwords : words list = [path.chars, "as".toList, name.chars]) (hlist : '\n' ∉ list)
      (hending : Ending ending) :
      OnLine (some (.whole path name)) (indent ++ ("import".toList ++ (gap ++ (list ++ ending))))
  | part {module : ModulePath} {item : Item} {head list ending : List Char}
      (hhead : LeadIn module head) (hwords : words list = item.words) (hlist : '\n' ∉ list)
      (hending : Ending ending) :
      OnLine (some (.part module item)) (head ++ (list ++ ending))

inductive Written : List ImportStatement → List Char → Prop
  | single {s : Option ImportStatement} {line : List Char} (hline : OnLine s line) :
      Written s.toList line
  | line {s : Option ImportStatement} {statements : List ImportStatement} {line rest : List Char}
      (hline : OnLine s line) (hrest : Written statements rest) :
      Written (s.toList ++ statements) (line ++ '\n' :: rest)

/-! ## Reading one line -/

theorem isBlank_of_isLineBlank {c : Char} (h : isLineBlank c = true) : isBlank c = true := by
  rw [isLineBlank, Bool.or_eq_true, beq_iff_eq, beq_iff_eq] at h
  rcases h with rfl | rfl
  · decide
  · decide

theorem words_dropWhile_isLineBlank (cs : List Char) :
    words (cs.dropWhile isLineBlank) = words cs := by
  have hblank : AllBlank (cs.takeWhile isLineBlank) := fun c hc =>
    isBlank_of_isLineBlank (List.mem_takeWhile_imp hc)
  rw [← words_blank_append hblank, List.takeWhile_append_dropWhile]

section OneLine

variable {list : List Char}

theorem dropWhile_isLineBlank_append (list : List Char) {tail : List Char}
    (htail : ∀ c ∈ tail.head?, c = '#' ∨ c = '\n') :
    (list ++ tail).dropWhile isLineBlank = list.dropWhile isLineBlank ++ tail := by
  cases tail with
  | nil => rw [List.append_nil, List.append_nil]
  | cons c tail =>
    have hblank : isLineBlank c = false := by rcases htail c rfl with rfl | rfl <;> decide
    exact dropWhile_cut hblank list tail

theorem Dotted.head?_trim (h : Dotted list) : (trim list).head? ≠ some '(' := by
  rw [Dotted, ← words_trim] at h
  exact fun hhead => Dotted.not_mem h (by decide) (by decide) (List.mem_of_head? hhead)

theorem importBindings_renamed {path : ModulePath} {name : Name}
    (h : words list = [path.chars, "as".toList, name.chars]) :
    importBindings list = [(String.ofList name.chars, String.ofList path.chars)] := by
  have hdotted : Dotted list := dotted_renamed h path.dotted name.isDotted
  rw [← words_trim] at h
  have hcomma : ',' ∉ trim list :=
    (dotted_renamed h path.dotted name.isDotted).not_mem (by decide) (by decide)
  rw [importBindings, splitNames, unwrapList_bare hdotted.head?_trim, splitOn_eq_singleton hcomma]
  simp [binding?_renamed h path.dotted name.word]

theorem fromBindings_item {module : ModulePath} {item : Item} (h : words list = item.words) :
    fromBindings module.chars list = [item.binding module] := by
  have hdotted : Dotted list := dotted_item h
  rw [fromBindings_bare _ hdotted.head?_trim,
    listBindings_singleton _ (hdotted.not_mem (by decide) (by decide)), pieceBinding?_item h]
  rfl

/-- The list is what stands between the keyword and the end of the statement. -/
theorem statementPart_list (h : Dotted list) (hline : '\n' ∉ list)
    {tail : List Char} (htail : ∀ c ∈ tail.head?, c = '#' ∨ c = '\n') :
    statementPart ((list ++ tail).dropWhile isLineBlank) = list.dropWhile isLineBlank := by
  have hcomment : '#' ∉ list := h.not_mem (by decide) (by decide)
  have hsemicolon : ';' ∉ list := h.not_mem (by decide) (by decide)
  have hpass : ∀ c ∈ list.dropWhile isLineBlank, (c != '#' && c != '\n' && c != ';') = true := by
    intro c hc
    have hc : c ∈ list := (List.dropWhile_suffix _).mem hc
    simp only [Bool.and_eq_true, bne_iff_ne]
    refine ⟨⟨?_, ?_⟩, ?_⟩ <;> rintro rfl
    · exact hcomment hc
    · exact hline hc
    · exact hsemicolon hc
  rw [dropWhile_isLineBlank_append list htail, statementPart]
  cases tail with
  | nil => rw [List.append_nil, List.takeWhile_eq_self_iff.2 hpass]
  | cons c tail =>
    have hstop : (c != '#' && c != '\n' && c != ';') = false := by
      rcases htail c rfl with rfl | rfl <;> decide
    rw [takeWhile_cut hstop, List.takeWhile_eq_self_iff.2 hpass]

end OneLine

namespace OnLine

variable {s : Option ImportStatement} {line tail : List Char}

theorem not_mem (h : OnLine s line) : '\n' ∉ line := by
  cases h with
  | other _ hline => exact hline
  | whole hindent hgap _ hlist hending =>
    simp [hindent.not_mem, hgap.blank.not_mem, hlist, hending.oneLine]
  | part hhead _ hlist hending => simp [hhead.not_mem, hlist, hending.oneLine]

/-- What the line adds to the first half of the table. -/
theorem plain (h : OnLine s line) : (importList? line).toList.flatMap importBindings =
    (wholes s.toList).map (·.binds) := by
  cases h with
  | other hidle _ =>
    rw [importList?, hidle.noImport]
    rfl
  | @whole path name indent gap list ending hindent hgap hwords hlist hending =>
    have hdotted : Dotted list := dotted_renamed hwords path.dotted name.isDotted
    have hread : importList? (indent ++ ("import".toList ++ (gap ++ (list ++ ending)))) =
        some (list.dropWhile isLineBlank) := by
      rw [importList?, hgap.keyword?_indented hindent (by decide), Option.map_some,
        statementPart_list hdotted hlist fun c hc => .inl (hending.comment c hc)]
    rw [hread, Option.toList_some, List.flatMap_singleton,
      importBindings_renamed ((words_dropWhile_isLineBlank list).trans hwords)]
    rfl
  | part hhead _ _ _ =>
    rw [hhead.importList?_eq_none]
    rfl

/-- What it adds to the second half; the reading goes on with the next line. -/
theorem qualified (h : OnLine s line) (htail : Breaks tail) : qualifiedBindings (line ++ tail) =
    (parts s.toList).map (·.binds) ++ qualifiedBindings (tail.drop 1) := by
  have hline := h.not_mem
  cases h with
  | other hidle _ => exact qualifiedBindings_line_none hline htail hidle.noFrom
  | whole hindent _ _ _ _ =>
    refine qualifiedBindings_line_none hline htail ?_
    rw [dropWhile_lineBlanks hindent]
    rfl
  | @part module item head list ending hhead hwords hlist hending =>
    have hdotted : Dotted list := dotted_item hwords
    have hparen : '(' ∉ list := hdotted.not_mem (by decide) (by decide)
    have hstop : ∀ c ∈ (ending ++ tail).head?, c = '#' ∨ c = '\n' := by
      cases ending with
      | nil => exact fun c hc => .inr (htail c hc)
      | cons d ending => exact fun c hc => .inl (hending.comment c hc)
    have hbody := dropWhile_isLineBlank_append list hstop
    have hbare : ((list ++ (ending ++ tail)).dropWhile isLineBlank).head? ≠ some '(' := by
      rw [hbody, List.head?_append, ne_eq, Option.or_eq_some_iff]
      rintro (hhead | ⟨-, hhead⟩)
      · exact hparen ((List.dropWhile_suffix _).mem (List.mem_of_head? hhead))
      · rcases hstop _ hhead with h | h <;> cases h
    have hrest : '\n' ∉ list.dropWhile isLineBlank ++ ending := by
      rw [List.mem_append, not_or]
      exact ⟨fun hmem => hlist ((List.dropWhile_suffix _).mem hmem), hending.oneLine⟩
    rw [List.append_assoc, List.append_assoc,
      qualifiedBindings_of_some (fromImport?_bare hhead hbare),
      statementPart_list hdotted hlist hstop,
      fromBindings_item ((words_dropWhile_isLineBlank list).trans hwords), hbody,
      ← List.append_assoc, nextLine_append hrest htail]
    rfl

end OnLine

theorem Written.plain {statements : List ImportStatement} {text : List Char}
    (h : Written statements text) :
    plainBindings text = (wholes statements).map (·.binds) := by
  induction h with
  | @single s line hline =>
    have hread := plainBindings_line hline.not_mem breaks_nil
    rw [List.append_nil, hline.plain] at hread
    exact hread.trans (List.append_nil _)
  | @line s statements line rest hline _ ih =>
    rw [plainBindings_line hline.not_mem (breaks_cons rest), hline.plain, List.drop_one,
      List.tail_cons, ih, ← List.map_append, wholes, wholes, ← List.filter_append]
    rfl

theorem Written.qualified {statements : List ImportStatement} {text : List Char}
    (h : Written statements text) :
    qualifiedBindings text = (parts statements).map (·.binds) := by
  induction h with
  | @single s line hline =>
    have hread := hline.qualified breaks_nil
    rw [List.append_nil] at hread
    exact hread.trans (List.append_nil _)
  | @line s statements line rest hline _ ih =>
    rw [hline.qualified (breaks_cons rest), List.drop_one, List.tail_cons, ih, ← List.map_append,
      parts, parts, ← List.filter_append]
    rfl

/-! ## Precedence -/

/-- The last statement that binds the name. -/
def last (statements : List ImportStatement) (name : String) : Option ImportStatement :=
  statements.reverse.find? (·.binds.1 = name)

section Last

variable {statements : List ImportStatement} {name : String}

theorem last_filter_of_some {s : ImportStatement} {p : ImportStatement → Bool}
    (h : last statements name = some s) (hs : p s = true) :
    last (statements.filter p) name = some s := by
  rw [last, List.find?_eq_some_iff_append] at h
  obtain ⟨hname, later, earlier, hsplit, hlater⟩ := h
  rw [last, ← List.filter_reverse, hsplit, List.filter_append, List.filter_cons_of_pos hs,
    List.find?_eq_some_iff_append]
  exact ⟨hname, _, _, rfl, fun t ht => hlater t (List.mem_of_mem_filter ht)⟩

theorem last_filter_of_none (p : ImportStatement → Bool) (h : last statements name = none) :
    last (statements.filter p) name = none := by
  rw [last, List.find?_eq_none] at h ⊢
  intro s hs
  rw [← List.filter_reverse] at hs
  exact h s (List.mem_of_mem_filter hs)

theorem Written.get?_eq {text : List Char} (h : Written statements text) (name : String) :
    (ofPython text).get? name =
      ((last (parts statements) name).or (last (wholes statements) name)).map (·.binds.2) := by
  rw [ofPython_eq, get?, SortedMap.get?_ofList, h.plain, h.qualified, List.reverse_append,
    List.find?_append, ← List.map_reverse, ← List.map_reverse, List.find?_map, List.find?_map,
    ← Option.map_or, Option.map_map]
  rfl

end Last

/-- A name stands for what the last `from` statement gives it, or else the last `import`. So the
last of all imports wins exactly if an `import` never comes after a `from` statement that has given
its name to another path. -/
theorem last_import_wins_iff {statements : List ImportStatement} {text : List Char}
    (h : Written statements text) :
    (∀ name, (ofPython text).get? name =
      ((last (parts statements) name).or (last (wholes statements) name)).map (·.binds.2)) ∧
    ((∀ name, (ofPython text).get? name = (last statements name).map (·.binds.2)) ↔
      ∀ name s t, last statements name = some s → s.isPart = false →
        last (parts statements) name = some t → t.binds.2 = s.binds.2) := by
  refine ⟨h.get?_eq, ?_⟩
  constructor
  · intro hwins name s t hs _ ht
    have hname := hwins name
    rw [h.get?_eq, ht, hs] at hname
    exact Option.some.inj hname
  · intro hagree name
    rw [h.get?_eq]
    cases hs : last statements name with
    | none =>
      rw [parts, wholes, last_filter_of_none _ hs, last_filter_of_none _ hs]
      rfl
    | some s =>
      cases hpart : s.isPart with
      | true =>
        rw [parts, last_filter_of_some hs hpart]
        rfl
      | false =>
        rw [wholes, last_filter_of_some hs (by simp [hpart])]
        cases ht : last (parts statements) name with
        | none => rfl
        | some t => exact congrArg some (hagree name s t hs hpart ht)

/-! ## Two orders of one pair of imports -/

def socketPath : ModulePath := ⟨"socket".toList, by decide, List.all_eq_true.1 (by decide)⟩

def shortName : Name := ⟨['s'], by decide, List.all_eq_true.1 (by decide), by decide, by decide⟩

def connectionName : Name :=
  ⟨"create_connection".toList, by decide, List.all_eq_true.1 (by decide), by decide, by decide⟩

/-- `import socket as s`. -/
def socketImport : ImportStatement := .whole socketPath shortName

/-- `from socket import create_connection as s`. -/
def connectionImport : ImportStatement := .part socketPath ⟨connectionName, some shortName⟩

theorem ending_nil : Ending [] := ⟨by rintro c ⟨⟩, List.not_mem_nil⟩

theorem onLine_socketImport : OnLine (some socketImport) "import socket as s".toList := by
  have hline : "import socket as s".toList =
      [] ++ ("import".toList ++ ([' '] ++ ("socket as s".toList ++ []))) := by decide
  rw [hline]
  exact .whole lineBlanks_nil gap_blank (by decide) (by decide) ending_nil

theorem onLine_connectionImport :
    OnLine (some connectionImport) "from socket import create_connection as s".toList := by
  have hline : "from socket import create_connection as s".toList =
      ([] ++ ("from".toList ++ ([' '] ++ (socketPath.chars ++ ([' '] ++
        ("import".toList ++ [' '])))))) ++ ("create_connection as s".toList ++ []) := by decide
  rw [hline]
  exact .part (.mk lineBlanks_nil gap_blank gap_blank gap_blank) (by decide) (by decide) ending_nil

theorem onLine_nil : OnLine none [] := .other ⟨rfl, rfl⟩ List.not_mem_nil

def importFirst : List Char :=
  "import socket as s".toList ++ '\n' ::
    ("from socket import create_connection as s".toList ++ ['\n'])

def importSecond : List Char :=
  "from socket import create_connection as s".toList ++ '\n' ::
    ("import socket as s".toList ++ ['\n'])

theorem written_importFirst : Written [socketImport, connectionImport] importFirst :=
  .line onLine_socketImport (.line onLine_connectionImport (.single onLine_nil))

theorem written_importSecond : Written [connectionImport, socketImport] importSecond :=
  .line onLine_connectionImport (.line onLine_socketImport (.single onLine_nil))

theorem from_after_import_wins :
    Written [socketImport, connectionImport] importFirst ∧
    (∀ name, (ofPython importFirst).get? name =
      (last [socketImport, connectionImport] name).map (·.binds.2)) ∧
    (ofPython importFirst).get? "s" = some "socket.create_connection" := by
  have hwins : ∀ name, (ofPython importFirst).get? name =
      (last [socketImport, connectionImport] name).map (·.binds.2) := by
    refine (last_import_wins_iff written_importFirst).2.2 fun name s t hs hwhole _ => ?_
    by_cases hname : "s" = name
    · have hlast : last [socketImport, connectionImport] "s" = some connectionImport := rfl
      rw [← hname, hlast] at hs
      cases hs
      cases hwhole
    · have hfirst : socketImport.binds.1 ≠ name := hname
      have hsecond : connectionImport.binds.1 ≠ name := hname
      simp [last, hfirst, hsecond] at hs
  exact ⟨written_importFirst, hwins, hwins "s"⟩

/-- The last import of the name is the one of the module, but it stands for the function. -/
theorem import_after_from_loses :
    Written [connectionImport, socketImport] importSecond ∧
    last [connectionImport, socketImport] "s" = some socketImport ∧
    socketImport.binds = ("s", "socket") ∧
    (ofPython importSecond).get? "s" = some "socket.create_connection" :=
  ⟨written_importSecond, rfl, rfl, written_importSecond.get?_eq "s"⟩

end LeakScan.ImportAliases
