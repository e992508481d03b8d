import Mathlib.Data.List.TakeWhile
import LeakScan.Match.Chain
import LeakScan.Proofs.Bindings

/-!
# LeakScan.Proofs.Imports.Spellings

The local ways to write a call.

* `LocalSpelling a target s` — by the bindings of the file, `s` calls `target`.
* `NamesItself a target` — a module is imported under the name it has anyway, and the target is in it.
* `mem_spellings_iff` — `spellings` gives the local spellings. The target itself is among them only
  if a module names itself.
* `namesItself_iff` — in a file that is `import M as M`, where `M` is the first part of the target.
* `spellings_exact_iff` — so the target is kept out of its spellings exactly in the other files.
-/

namespace LeakScan.ImportAliases

open Text

/-- The target is written by the local name of the whole path, or by that of a first part of it. -/
inductive LocalSpelling (a : ImportAliases) (target : String) : String → Prop
  | whole {name : String} (hname : a.get? name = some target) : LocalSpelling a target name
  | part {name path rest : String} (hname : a.get? name = some path)
      (htarget : path ++ "." ++ rest = target) : LocalSpelling a target (name ++ "." ++ rest)

/-- A first part of the target is bound to itself. -/
def NamesItself (a : ImportAliases) (target : String) : Prop :=
  ∃ name rest, a.get? name = some name ∧ name ++ "." ++ rest = target

/-- The call may have any path in front of its name. -/
def Starred (target : String) : Prop := ['*', '.'] <+: target.toList

instance : DecidablePred Starred := fun target =>
  inferInstanceAs (Decidable (['*', '.'] <+: target.toList))

variable {a : ImportAliases} {target s : String}

theorem namesItself_iff_entries : NamesItself a target ↔
    ∃ e ∈ a.bindings.entries, e.1 = e.2 ∧ e.1.toList ++ ['.'] <+: target.toList := by
  constructor
  · rintro ⟨name, rest, hget, rfl⟩
    exact ⟨(name, name), SortedMap.mem_entries_iff.2 hget, rfl, rest.toList, by simp⟩
  · rintro ⟨⟨name, path⟩, hmem, hself, rest, hrest⟩
    obtain rfl : name = path := hself
    refine ⟨name, String.ofList rest, SortedMap.mem_entries_iff.1 hmem, ?_⟩
    rw [← String.toList_inj, ← hrest]
    simp

instance : Decidable (NamesItself a target) := decidable_of_iff _ namesItself_iff_entries.symm

theorem mem_spellings : s ∈ a.spellings target ↔
    ∃ name path, a.get? name = some path ∧ spelling? target.toList name path = some s := by
  rw [spellings, List.mem_filterMap]
  constructor
  · rintro ⟨⟨name, path⟩, hmem, hs⟩
    exact ⟨name, path, SortedMap.mem_entries_iff.1 hmem, hs⟩
  · rintro ⟨name, path, hget, hs⟩
    exact ⟨(name, path), SortedMap.mem_entries_iff.2 hget, hs⟩

theorem spelling?_eq_some_iff (hstar : ¬ Starred target) {name path : String} :
    spelling? target.toList name path = some s ↔
      (path = target ∧ name ≠ target ∧ s = name) ∨
        ∃ rest, path ++ "." ++ rest = target ∧ s = name ++ "." ++ rest := by
  have hplain : stripPrefix? ['*', '.'] target.toList = none := by
    rw [← Option.not_isSome_iff_eq_none]
    exact fun hsome => hstar (startsWith_iff.1 hsome)
  have hpart : ∀ {rest : List Char}, stripPrefix? (path.toList ++ ['.']) target.toList = some rest ↔
      path ++ "." ++ String.ofList rest = target := by
    intro rest
    rw [stripPrefix?_eq_some_iff, ← String.toList_inj, eq_comm]
    simp
  rw [spelling?, hplain]
  simp only [Bool.and_eq_true, beq_iff_eq, bne_iff_ne, ne_eq, String.toList_inj]
  split
  · rename_i hwhole
    obtain ⟨rfl, hother⟩ := hwhole
    constructor
    · rintro ⟨⟩
      exact .inl ⟨rfl, hother, rfl⟩
    · rintro (⟨-, -, rfl⟩ | ⟨rest, hrest, -⟩)
      · rfl
      · -- a path is no proper part of itself
        have hdot : ".".length = 1 := rfl
        have hlength := congrArg String.length hrest
        rw [String.length_append, String.length_append] at hlength
        omega
  · rename_i hwhole
    split
    · rename_i rest hrest
      rw [hpart] at hrest
      constructor
      · rintro ⟨⟩
        exact .inr ⟨String.ofList rest, hrest, rfl⟩
      · rintro (⟨hpath, hname, -⟩ | ⟨rest', hrest', rfl⟩)
        · exact absurd ⟨hpath, hname⟩ hwhole
        · have hsame : rest' = String.ofList rest := by
            rw [← hrest, String.append_right_inj] at hrest'
            exact hrest'
          rw [hsame]
    · rename_i hnone
      constructor
      · rintro ⟨⟩
      · rintro (⟨hpath, hname, -⟩ | ⟨rest, hrest, -⟩)
        · exact absurd ⟨hpath, hname⟩ hwhole
        · rw [← String.ofList_toList (s := rest), ← hpart, hnone] at hrest
          cases hrest

/-- A spelling is what a local name makes of the target, other than the target itself; but a module
that names itself gives the target back. -/
theorem mem_spellings_iff (hstar : ¬ Starred target) :
    s ∈ a.spellings target ↔ LocalSpelling a target s ∧ (s ≠ target ∨ NamesItself a target) := by
  rw [mem_spellings]
  constructor
  · rintro ⟨name, path, hget, hs⟩
    rcases (spelling?_eq_some_iff hstar).1 hs with ⟨rfl, hother, rfl⟩ | ⟨rest, hrest, rfl⟩
    · exact ⟨.whole hget, .inl hother⟩
    · refine ⟨.part hget hrest, ?_⟩
      by_cases hown : name = path
      · subst hown
        exact .inr ⟨name, rest, hget, hrest⟩
      · left
        intro hsame
        rw [← hrest, String.append_left_inj, String.append_left_inj] at hsame
        exact hown hsame
  · rintro ⟨hspelling, hother⟩
    cases hspelling with
    | part hget hrest => exact ⟨_, _, hget, (spelling?_eq_some_iff hstar).2 (.inr ⟨_, hrest, rfl⟩)⟩
    | whole hget =>
      by_cases hself : s = target
      · subst hself
        obtain ⟨name, rest, hname, hrest⟩ := hother.resolve_left (· rfl)
        exact ⟨name, name, hname, (spelling?_eq_some_iff hstar).2 (.inr ⟨rest, hrest, hrest.symm⟩)⟩
      · exact ⟨s, target, hget, (spelling?_eq_some_iff hstar).2 (.inl ⟨rfl, hself, rfl⟩)⟩

theorem NamesItself.localSpelling (h : NamesItself a target) : LocalSpelling a target target := by
  obtain ⟨name, rest, hname, rfl⟩ := h
  exact .part hname rfl

/-! ## Files -/

/-- A statement `import PATH as NAME` of the file. -/
def ImportsAs (text : List Char) (path name : String) : Prop :=
  ∃ line ∈ splitOn '\n' text, ∃ list, importList? line = some list ∧
    (path, some name) ∈ splitNames list

theorem isWordChar_of_mem_splitNames {list : List Char} {path name : String}
    (h : (path, some name) ∈ splitNames list) : ∀ c ∈ name.toList, isWordChar c = true := by
  obtain ⟨item, -, hitem⟩ := List.mem_filterMap.1 h
  rw [binding?] at hitem
  simp only at hitem
  split at hitem
  · split at hitem
    · cases hitem
    · cases hitem
  · split at hitem
    · rename_i hall
      cases hitem
      rw [String.toList_ofList]
      simpa using (Bool.and_eq_true_iff.1 hall).2
    · cases hitem
  · cases hitem

theorem dot_not_mem_of_mem_splitNames {list : List Char} {path name : String}
    (h : (path, some name) ∈ splitNames list) : '.' ∉ name.toList := by
  intro hdot
  exact absurd (isWordChar_of_mem_splitNames h '.' hdot) (by decide)

theorem mem_importBindings {list : List Char} {name path : String} :
    (name, path) ∈ importBindings list ↔ (path, some name) ∈ splitNames list := by
  rw [importBindings, List.mem_filterMap]
  constructor
  · rintro ⟨⟨p, l⟩, hmem, hl⟩
    obtain ⟨l, rfl, heq⟩ := Option.map_eq_some_iff.1 hl
    cases heq
    exact hmem
  · intro hmem
    exact ⟨(path, some name), hmem, rfl⟩

/-- A path that a `from` statement binds has a dot in front of the name, and the local name has none
or is that name. -/
theorem ne_of_mem_fromBindings {module list : List Char} {name path : String}
    (h : (name, path) ∈ fromBindings module list) : name ≠ path := by
  obtain ⟨⟨n, l⟩, hmem, hbinding⟩ := List.mem_filterMap.1 h
  simp only at hbinding
  split at hbinding
  · cases hbinding
  · cases hbinding
    cases l with
    | none =>
      intro hsame
      have hdot : ".".length = 1 := rfl
      have hlength := congrArg String.length hsame
      rw [Option.getD_none, String.length_append, String.length_append] at hlength
      omega
    | some l =>
      rintro rfl
      exact dot_not_mem_of_mem_splitNames hmem (by simp)

/-- A name that is bound to itself has been imported so. -/
theorem importsAs_of_get?_self {text : List Char} {name : String}
    (h : (ofPython text).get? name = some name) :
    ImportsAs text name name ∧ '.' ∉ name.toList := by
  rw [get?, ofPython, SortedMap.get?_ofList] at h
  obtain ⟨⟨n, p⟩, hfind, hp⟩ := Option.map_eq_some_iff.1 h
  obtain rfl : n = name := by simpa using List.find?_some hfind
  obtain rfl : p = n := hp
  have hmem := List.mem_reverse.1 (List.mem_of_find?_eq_some hfind)
  rcases List.mem_append.1 hmem with hplain | hqualified
  · obtain ⟨list, hlist, hbinding⟩ := List.mem_flatMap.1 hplain
    obtain ⟨line, hline, himport⟩ := List.mem_filterMap.1 hlist
    rw [mem_importBindings] at hbinding
    exact ⟨⟨line, hline, list, himport, hbinding⟩, dot_not_mem_of_mem_splitNames hbinding⟩
  · obtain ⟨⟨module, list⟩, -, hbinding⟩ := List.mem_flatMap.1 hqualified
    exact absurd rfl (ne_of_mem_fromBindings hbinding)

theorem namesItself_iff {text : List Char} : NamesItself (ofPython text) target ↔
    ∃ module rest, (ofPython text).get? module = some module ∧ ImportsAs text module module ∧
      '.' ∉ module.toList ∧ module ++ "." ++ rest = target := by
  constructor
  · rintro ⟨module, rest, hget, htarget⟩
    obtain ⟨himport, hdot⟩ := importsAs_of_get?_self hget
    exact ⟨module, rest, hget, himport, hdot, htarget⟩
  · rintro ⟨module, rest, hget, -, -, htarget⟩
    exact ⟨module, rest, hget, htarget⟩

theorem lastPart_of_not_mem {path : List Char} (h : '.' ∉ path) : lastPart path = path := by
  have hnone : path.reverse.dropWhile (· != '.') = [] := by
    rw [List.dropWhile_eq_nil_iff]
    intro c hc
    rw [bne_iff_ne]
    rintro rfl
    exact h (List.mem_reverse.1 hc)
  rw [lastPart, splitLast?, hnone]

/-- Where every name is bound to itself, a star stands for nothing new. -/
theorem spelling?_starred (hstar : Starred target) {name : String} (hdot : '.' ∉ name.toList) :
    spelling? target.toList name name = none := by
  obtain ⟨rest, hrest⟩ := hstar
  have hstrip : stripPrefix? ['*', '.'] target.toList = some rest :=
    stripPrefix?_eq_some_iff.2 hrest.symm
  rw [spelling?, hstrip]
  simp only [lastPart_of_not_mem hdot]
  rw [if_neg]
  simp

/-- A file that imports modules under their own names only. -/
def OwnNames (a : ImportAliases) : Prop := ∀ name path, a.get? name = some path → name = path

theorem ownNames_iff_entries : OwnNames a ↔ ∀ e ∈ a.bindings.entries, e.1 = e.2 :=
  ⟨fun h e he => h e.1 e.2 (SortedMap.mem_entries_iff.1 he),
    fun h name path hget => h (name, path) (SortedMap.mem_entries_iff.2 hget)⟩

instance : Decidable (OwnNames a) := decidable_of_iff _ ownNames_iff_entries.symm

theorem OwnNames.eq_of_localSpelling (h : OwnNames a) (hs : LocalSpelling a target s) :
    s = target := by
  cases hs with
  | whole hname => exact h _ _ hname
  | part hname htarget => rw [h _ _ hname, htarget]

theorem OwnNames.affects_eq_false_iff {text : List Char} (h : OwnNames (ofPython text))
    {calls : List String} : (ofPython text).affects calls = false ↔
      ∀ target ∈ calls, ¬ Starred target → ¬ NamesItself (ofPython text) target := by
  have hcall : ∀ target, (ofPython text).spellings target = [] ↔
      (¬ Starred target → ¬ NamesItself (ofPython text) target) := by
    intro target
    rw [List.eq_nil_iff_forall_not_mem]
    by_cases hstar : Starred target
    · refine ⟨fun _ hno => absurd hstar hno, fun _ s hs => ?_⟩
      obtain ⟨name, path, hget, hspelling⟩ := mem_spellings.1 hs
      obtain rfl := h _ _ hget
      rw [spelling?_starred hstar (importsAs_of_get?_self hget).2] at hspelling
      cases hspelling
    · constructor
      · intro hnone _ hself
        exact hnone target ((mem_spellings_iff hstar).2 ⟨hself.localSpelling, .inr hself⟩)
      · intro hnone s hs
        obtain ⟨hspelling, hother⟩ := (mem_spellings_iff hstar).1 hs
        rcases hother with hother | hself
        · exact hother (h.eq_of_localSpelling hspelling)
        · exact hnone hstar hself
  rw [affects, List.any_eq_false]
  simp only [Bool.not_eq_true', List.isEmpty_eq_false_iff, ne_eq, not_not, hcall]

/-- The spellings of a call are its local spellings, other than its own path, exactly if the file
does not say `import M as M` of the module `M` that its path starts with. So a file that imports
modules under their own names only is not taken for one that renames them, and structural matching
is kept, exactly if no rule that is matched has a call in one of these modules. -/
theorem spellings_exact_iff (text : List Char) :
    (∀ target, ¬ Starred target →
      (∀ s, s ∈ (ofPython text).spellings target ↔
        LocalSpelling (ofPython text) target s ∧
          (s ≠ target ∨ NamesItself (ofPython text) target)) ∧
      ((∀ s, s ∈ (ofPython text).spellings target ↔
          s ≠ target ∧ LocalSpelling (ofPython text) target s) ↔
        ¬ NamesItself (ofPython text) target)) ∧
    (∀ target, NamesItself (ofPython text) target ↔
      ∃ module rest, (ofPython text).get? module = some module ∧ ImportsAs text module module ∧
        '.' ∉ module.toList ∧ module ++ "." ++ rest = target) ∧
    (OwnNames (ofPython text) →
      ∀ (path display : String) (rule : Rule) (matcher : StructuralMatcher),
        rule.hasStructural = true →
        ((Source.ofChars path display .python text).imports.affects rule.textualCalls = false ∧
            structuralFor (some matcher) (.ofChars path display .python text) rule = some matcher ↔
          ∀ target ∈ rule.textualCalls, ¬ Starred target →
            ¬ NamesItself (ofPython text) target)) := by
  refine ⟨fun target hstar => ⟨fun s => mem_spellings_iff hstar, ?_⟩,
    fun target => namesItself_iff, ?_⟩
  · constructor
    · intro hexact hself
      have hmem : target ∈ (ofPython text).spellings target :=
        (mem_spellings_iff hstar).2 ⟨hself.localSpelling, .inr hself⟩
      exact ((hexact target).1 hmem).1 rfl
    · intro hnone s
      rw [mem_spellings_iff hstar, or_iff_left hnone, and_comm]
  · intro hown path display rule matcher hstructural
    have himports : (Source.ofChars path display .python text).imports = ofPython text := rfl
    rw [himports, hown.affects_eq_false_iff, structuralFor, himports, hstructural, Bool.true_and]
    constructor
    · exact And.left
    · intro hnone
      rw [hown.affects_eq_false_iff.2 hnone]
      exact ⟨hnone, rfl⟩

/-! ## Two files

One renames a module and a call; the other imports a module under its own name. -/

def renamingText : List Char :=
  "import socket as s, os as os\nfrom subprocess import Popen as P\n".toList

def ownNameText : List Char := "import socket as socket\n".toList

def renamingTable : ImportAliases :=
  ⟨⟨[("P", "subprocess.Popen"), ("os", "os"), ("s", "socket")], by unfold KeysAscend; decide⟩⟩

def ownNameTable : ImportAliases := ⟨⟨[("socket", "socket")], by unfold KeysAscend; decide⟩⟩

theorem ofPython_renamingText : ofPython renamingText = renamingTable :=
  congrArg ImportAliases.mk (by decide +kernel)

theorem ofPython_ownNameText : ofPython ownNameText = ownNameTable :=
  congrArg ImportAliases.mk (by decide +kernel)

/-- A rule with one call, in both forms. -/
def callRule (structural textual : String) : Rule where
  id := "py.call"
  language := .python
  kind := "handle"
  category := "io-handles"
  severity := .warning
  acquire := [⟨some structural, (TextualPattern.ofSource textual).toOption⟩]
  cleanup := []
  anchors := []
  summary := "Handle is never closed"
  remediation := none
  contexts := [.sameScope]

def popenRule : Rule := callRule "subprocess.Popen($A)" "@\x7bsubprocess.Popen\x7d\\("

def socketRule : Rule := callRule "socket.socket($A)" "@\x7bsocket.socket\x7d\\("

theorem popen_spelled :
    ¬ Starred "subprocess.Popen" ∧ ¬ NamesItself (ofPython renamingText) "subprocess.Popen" ∧
    (∀ s, s ∈ (ofPython renamingText).spellings "subprocess.Popen" ↔
      s ≠ "subprocess.Popen" ∧ LocalSpelling (ofPython renamingText) "subprocess.Popen" s) ∧
    (ofPython renamingText).spellings "subprocess.Popen" = ["P"] ∧
    (ofPython renamingText).spellings "socket.socket" = ["s.socket"] ∧
    OwnNames (ofPython ownNameText) ∧ popenRule.hasStructural = true ∧
    popenRule.textualCalls = ["subprocess.Popen"] ∧
    ∀ matcher, structuralFor (some matcher) (.ofChars "a.py" "a.py" .python ownNameText) popenRule =
      some matcher := by
  have hstar : ¬ Starred "subprocess.Popen" := by decide
  have hrenamed : ¬ NamesItself (ofPython renamingText) "subprocess.Popen" := by
    rw [ofPython_renamingText]
    decide
  have hown : OwnNames (ofPython ownNameText) := by
    rw [ofPython_ownNameText]
    decide
  have helsewhere : ¬ NamesItself (ofPython ownNameText) "subprocess.Popen" := by
    rw [ofPython_ownNameText]
    decide
  have hstructural : popenRule.hasStructural = true := by decide +kernel
  have hcalls : popenRule.textualCalls = ["subprocess.Popen"] := by decide +kernel
  have hpopen : renamingTable.spellings "subprocess.Popen" = ["P"] := by decide +kernel
  have hsocket : renamingTable.spellings "socket.socket" = ["s.socket"] := by decide +kernel
  refine ⟨hstar, hrenamed, ((spellings_exact_iff renamingText).1 _ hstar).2.2 hrenamed,
    by rw [ofPython_renamingText, hpopen], by rw [ofPython_renamingText, hsocket], hown, hstructural,
    hcalls, fun matcher => ?_⟩
  refine (((spellings_exact_iff ownNameText).2.2 hown _ _ _ matcher hstructural).2 ?_).2
  intro target htarget _
  rw [hcalls, List.mem_singleton] at htarget
  rw [htarget]
  exact helsewhere

/-- The call is its own spelling, and the rule is matched as text although nothing is renamed. -/
theorem own_name_taken_for_alias :
    OwnNames (ofPython ownNameText) ∧ ¬ Starred "socket.socket" ∧
    ¬ (∀ s, s ∈ (ofPython ownNameText).spellings "socket.socket" ↔
      s ≠ "socket.socket" ∧ LocalSpelling (ofPython ownNameText) "socket.socket" s) ∧
    (ofPython ownNameText).affects ["socket.socket"] = true ∧
    socketRule.hasStructural = true ∧
    ∀ matcher, structuralFor (some matcher) (.ofChars "a.py" "a.py" .python ownNameText) socketRule =
      none := by
  have hcalls : socketRule.textualCalls = ["socket.socket"] := by decide +kernel
  have hspellings : (ofPython ownNameText).spellings "socket.socket" = ["socket.socket"] := by
    rw [ofPython_ownNameText]
    decide +kernel
  have haliased : (ofPython ownNameText).affects ["socket.socket"] = true := by
    simp [affects, hspellings]
  refine ⟨?_, by decide, fun hexact => ?_, haliased, by decide +kernel, fun matcher => ?_⟩
  · rw [ofPython_ownNameText]
    decide
  · have hmem : "socket.socket" ∈ (ofPython ownNameText).spellings "socket.socket" := by
      rw [hspellings]
      exact List.mem_singleton_self _
    exact ((hexact _).1 hmem).1 rfl
  · have himports : (Source.ofChars "a.py" "a.py" .python ownNameText).imports =
        ofPython ownNameText := rfl
    rw [structuralFor, himports, hcalls, haliased, Bool.not_true, Bool.and_false]
    rfl

end LeakScan.ImportAliases
