import LeakScan.Discovery
import LeakScan.Proofs.Ordered
import LeakScan.Proofs.Path

/-!
# LeakScan.Proofs.Discovery

The files that a scan looks at, path by path.

* `Entry.Leads` — the names on the way from an entry to one below it.
* `Entry.WellNamed` — entries of a directory have proper names, no two the same.
* `Spared` — the names lead to a file, and nothing on the way is excluded; `spared_file` and
  `spared_directory` say what that is for either kind of entry.
* `mem_walk_iff`, `walk_nodup` — a walk finds the files that are spared, each once.
* `Wanted` — which file is to be scanned, said of its path alone.
* `discover_pathwise` — these files are found, each once and in order.
-/

namespace LeakScan

open Text

/-! ## Trees -/

/-- The names on the way from an entry to one below it. -/
inductive Entry.Leads : Entry → List String → Entry → Prop where
  | here (e : Entry) : Leads e [] e
  | into {children : List (String × Entry)} {name : String} {child e : Entry} {names : List String}
      (mem : (name, child) ∈ children) (rest : Leads child names e) :
      Leads (.directory children) (name :: names) e

mutual

/-- The entries of every directory have proper names, no two the same. -/
def Entry.WellNamed : Entry → Prop
  | .file _ => True
  | .directory children => (children.map (·.1)).Nodup ∧ AllWellNamed children

def AllWellNamed : List (String × Entry) → Prop
  | [] => True
  | (name, e) :: rest => Path.IsName name ∧ e.WellNamed ∧ AllWellNamed rest

end

theorem AllWellNamed.of_mem {children : List (String × Entry)} (h : AllWellNamed children)
    {name : String} {child : Entry} (hmem : (name, child) ∈ children) :
    Path.IsName name ∧ child.WellNamed := by
  induction children with
  | nil => cases hmem
  | cons c rest ih =>
    obtain ⟨n, e⟩ := c
    rw [AllWellNamed] at h
    rcases List.mem_cons.1 hmem with heq | hmem
    · cases heq
      exact ⟨h.1, h.2.1⟩
    · exact ih h.2.2 hmem

theorem Entry.WellNamed.isName_of_leads {e found : Entry} {names : List String} (h : e.WellNamed)
    (hleads : e.Leads names found) : ∀ n ∈ names, Path.IsName n := by
  induction hleads with
  | here e => exact List.forall_mem_nil _
  | into mem rest ih =>
    rw [Entry.WellNamed] at h
    obtain ⟨hname, hchild⟩ := h.2.of_mem mem
    exact List.forall_mem_cons.2 ⟨hname, ih hchild⟩

/-! ## Walks -/

/-- The names lead from the entry to a file, and no path on the way is excluded. -/
def Spared (excludes : String → Bool) (relative : String) (e : Entry) (names : List String) : Prop :=
  (∃ content, e.Leads names (.file content)) ∧
    ∀ front, front <+: names → excludes (front.foldl below relative) = false

theorem spared_file {excludes : String → Bool} {relative : String} {content : List UInt8}
    {names : List String} :
    Spared excludes relative (.file content) names ↔ names = [] ∧ excludes relative = false := by
  constructor
  · rintro ⟨⟨found, hleads⟩, hspared⟩
    cases hleads
    exact ⟨rfl, hspared [] (List.nil_prefix)⟩
  · rintro ⟨rfl, hspared⟩
    refine ⟨⟨content, .here _⟩, fun front hfront => ?_⟩
    rw [List.prefix_nil.1 hfront]
    exact hspared

theorem spared_directory {excludes : String → Bool} {relative : String}
    {children : List (String × Entry)} {names : List String} :
    Spared excludes relative (.directory children) names ↔ excludes relative = false ∧
      ∃ name child rest, names = name :: rest ∧ (name, child) ∈ children ∧
        Spared excludes (below relative name) child rest := by
  constructor
  · rintro ⟨⟨found, hleads⟩, hspared⟩
    cases hleads with
    | into mem rest =>
      refine ⟨hspared [] List.nil_prefix, _, _, _, rfl, mem, ⟨found, rest⟩, fun front hfront => ?_⟩
      exact hspared (_ :: front) (List.cons_prefix_cons.2 ⟨rfl, hfront⟩)
  · rintro ⟨hhere, name, child, rest, rfl, mem, ⟨found, hleads⟩, hspared⟩
    refine ⟨⟨found, .into mem hleads⟩, fun front hfront => ?_⟩
    rcases List.prefix_cons_iff.1 hfront with rfl | ⟨inner, rfl, hinner⟩
    · exact hhere
    · exact hspared inner hinner

mutual

theorem mem_walk_iff {excludes : String → Bool} {path relative : String} :
    ∀ {e : Entry}, path ∈ walk excludes relative e ↔
      ∃ names, Spared excludes relative e names ∧ path = names.foldl below relative
  | .file _ => by
    rw [walk]
    simp only [spared_file]
    split
    · rename_i hexcluded
      simp [hexcluded]
    · rename_i hspared
      simp [hspared]
  | .directory children => by
    rw [walk]
    simp only [spared_directory]
    split
    · rename_i hexcluded
      simp [hexcluded]
    · rename_i hspared
      rw [mem_walkAll_iff]
      constructor
      · rintro ⟨name, child, names, mem, hchild, rfl⟩
        exact ⟨name :: names, ⟨by simpa using hspared, name, child, names, rfl, mem, hchild⟩, rfl⟩
      · rintro ⟨_, ⟨-, name, child, names, rfl, mem, hchild⟩, rfl⟩
        exact ⟨name, child, names, mem, hchild, rfl⟩

theorem mem_walkAll_iff {excludes : String → Bool} {path relative : String} :
    ∀ {children : List (String × Entry)}, path ∈ walkAll excludes relative children ↔
      ∃ name child names, (name, child) ∈ children ∧
        Spared excludes (below relative name) child names ∧
        path = names.foldl below (below relative name)
  | [] => by simp [walkAll]
  | (name, e) :: rest => by
    rw [walkAll, List.mem_append, mem_walk_iff, mem_walkAll_iff]
    constructor
    · rintro (⟨names, hspared, rfl⟩ | ⟨other, child, names, mem, hspared, rfl⟩)
      · exact ⟨name, e, names, List.mem_cons_self, hspared, rfl⟩
      · exact ⟨other, child, names, List.mem_cons_of_mem _ mem, hspared, rfl⟩
    · rintro ⟨other, child, names, mem, hspared, rfl⟩
      rcases List.mem_cons.1 mem with heq | mem
      · cases heq
        exact .inl ⟨names, hspared, rfl⟩
      · exact .inr ⟨other, child, names, mem, hspared, rfl⟩

end

/-! ## Relative paths -/

theorem below_ofParts {above : List String} (h : ∀ n ∈ above, Path.IsName n) (name : String) :
    below (Path.ofParts false above) name = Path.ofParts false (above ++ [name]) := by
  by_cases hne : above = []
  · subst hne
    simp [below, Path.ofParts]
  · rw [below, if_neg (by simpa using Path.ofParts_ne_empty hne h), Path.ofParts_concat hne]

theorem foldl_below {above names : List String} (habove : ∀ n ∈ above, Path.IsName n)
    (hnames : ∀ n ∈ names, Path.IsName n) :
    names.foldl below (Path.ofParts false above) = Path.ofParts false (above ++ names) := by
  induction names generalizing above with
  | nil => rw [List.append_nil, List.foldl_nil]
  | cons name names ih =>
    obtain ⟨hname, hrest⟩ := List.forall_mem_cons.1 hnames
    have hconcat : ∀ n ∈ above ++ [name], Path.IsName n :=
      List.forall_mem_append.2 ⟨habove, by simpa using hname⟩
    rw [List.foldl_cons, below_ofParts habove, ih hconcat hrest, List.append_assoc,
      List.singleton_append]

theorem Spared.isName {excludes : String → Bool} {relative : String} {e : Entry}
    {names : List String} (h : Spared excludes relative e names) (hnamed : e.WellNamed) :
    ∀ n ∈ names, Path.IsName n := by
  obtain ⟨⟨content, hleads⟩, -⟩ := h
  exact hnamed.isName_of_leads hleads

mutual

theorem walk_nodup {excludes : String → Bool} :
    ∀ (e : Entry) (above : List String), (∀ n ∈ above, Path.IsName n) → e.WellNamed →
      (walk excludes (Path.ofParts false above) e).Nodup
  | .file _ => by
    intro above _ _
    rw [walk]
    split
    · exact List.nodup_nil
    · exact List.nodup_singleton _
  | .directory children => by
    intro above habove hnamed
    rw [Entry.WellNamed] at hnamed
    rw [walk]
    split
    · exact List.nodup_nil
    · exact walkAll_nodup children above habove hnamed.1 hnamed.2

theorem walkAll_nodup {excludes : String → Bool} :
    ∀ (children : List (String × Entry)) (above : List String), (∀ n ∈ above, Path.IsName n) →
      (children.map (·.1)).Nodup → AllWellNamed children →
      (walkAll excludes (Path.ofParts false above) children).Nodup
  | [] => by
    intro above _ _ _
    rw [walkAll]
    exact List.nodup_nil
  | (name, e) :: rest => by
    intro above habove hdistinct hnamed
    rw [AllWellNamed] at hnamed
    obtain ⟨hname, he, hrest⟩ := hnamed
    rw [List.map_cons, List.nodup_cons] at hdistinct
    have hconcat : ∀ n, Path.IsName n → ∀ m ∈ above ++ [n], Path.IsName m := fun n hn =>
      List.forall_mem_append.2 ⟨habove, by simpa using hn⟩
    rw [walkAll, below_ofParts habove, List.nodup_append]
    refine ⟨walk_nodup e _ (hconcat name hname) he,
      walkAll_nodup rest above habove hdistinct.2 hrest, ?_⟩
    -- two paths that are the same would go on with the same name
    rintro path hpath _ hpath' rfl
    obtain ⟨names, hspared, heq⟩ := mem_walk_iff.1 hpath
    obtain ⟨other, child, names', mem, hspared', heq'⟩ := mem_walkAll_iff.1 hpath'
    obtain ⟨hother, hchild⟩ := hrest.of_mem mem
    have hnames := hspared.isName he
    have hnames' := hspared'.isName hchild
    rw [foldl_below (hconcat name hname) hnames] at heq
    rw [below_ofParts habove, foldl_below (hconcat other hother) hnames'] at heq'
    have hsame := Path.ofParts_inj (by simp) (by simp)
      (List.forall_mem_append.2 ⟨hconcat name hname, hnames⟩)
      (List.forall_mem_append.2 ⟨hconcat other hother, hnames'⟩) (heq.symm.trans heq')
    rw [List.append_assoc, List.append_assoc, List.append_cancel_left_eq] at hsame
    cases (List.cons.inj hsame).1
    exact hdistinct.1 (List.mem_map.2 ⟨_, mem, rfl⟩)

end

/-- From the root on, a walk finds the files with no excluded path on the way. -/
theorem mem_walkAll_root {excludes : String → Bool} {path : String}
    {children : List (String × Entry)} (hnamed : AllWellNamed children) :
    path ∈ walkAll excludes "" children ↔
      ∃ names, names ≠ [] ∧ (∃ content, (Entry.directory children).Leads names (.file content)) ∧
        path = Path.ofParts false names ∧
        ∀ front, front ≠ [] → front <+: names → excludes (Path.ofParts false front) = false := by
  -- a name and the names after it, put behind the root one by one
  have hpath : ∀ {name : String} {names : List String}, Path.IsName name →
      (∀ n ∈ names, Path.IsName n) →
      names.foldl below (below "" name) = Path.ofParts false (name :: names) := by
    intro name names hname hnames
    have hnone : ∀ n ∈ ([] : List String), Path.IsName n := List.forall_mem_nil _
    exact foldl_below hnone (List.forall_mem_cons.2 ⟨hname, hnames⟩)
  rw [mem_walkAll_iff]
  constructor
  · rintro ⟨name, child, names, mem, hspared, rfl⟩
    obtain ⟨hname, hchild⟩ := hnamed.of_mem mem
    have hnames := hspared.isName hchild
    obtain ⟨⟨content, hleads⟩, hway⟩ := hspared
    refine ⟨name :: names, List.cons_ne_nil _ _, ⟨content, .into mem hleads⟩, hpath hname hnames,
      fun front hne hfront => ?_⟩
    rcases List.prefix_cons_iff.1 hfront with rfl | ⟨inner, rfl, hinner⟩
    · exact absurd rfl hne
    · rw [← hpath hname fun n hn => hnames n (hinner.subset hn)]
      exact hway inner hinner
  · rintro ⟨_, hne, ⟨content, hleads⟩, rfl, hway⟩
    cases hleads with
    | @into _ name child _ names mem rest =>
      obtain ⟨hname, hchild⟩ := hnamed.of_mem mem
      have hnames := hchild.isName_of_leads rest
      refine ⟨name, child, names, mem, ⟨⟨content, rest⟩, fun inner hinner => ?_⟩,
        (hpath hname hnames).symm⟩
      rw [hpath hname fun n hn => hnames n (hinner.subset hn)]
      exact hway (name :: inner) (List.cons_ne_nil _ _) (List.cons_prefix_cons.2 ⟨rfl, hinner⟩)

/-! ## Files to scan -/

/-- The path of a file is reason enough to scan it: it is a regular file in a language that is
known by its extension, its path is included, and neither that path nor the path of a directory above
it is excluded. -/
structure Wanted (filter : FileFilter) (root : String) (tree : Entry) (file : DiscoveredFile)
    (above : List String) (name : String) : Prop where
  regular : ∃ content, tree.Leads (above ++ [name]) (.file content)
  path : file.path = Path.join root (Path.ofParts false (above ++ [name]))
  display : file.display = displayOf (Path.ofParts false (above ++ [name]))
  language : ∃ ext, Path.HasExtension name ext ∧ lowerAscii ext ∈ file.language.extensions
  included : filter.includes (Path.ofParts false (above ++ [name])) = true
  spared : filter.excludes (Path.ofParts false (above ++ [name])) = false
  reached : ∀ front, front ≠ [] → front <+: above →
    filter.excludes (Path.ofParts false front) = false

theorem fileBelow?_eq_some_iff {root relative : String} {file : DiscoveredFile} :
    fileBelow? root relative = some file ↔ file.path = Path.join root relative ∧
      file.display = displayOf relative ∧ Language.ofPath? relative = some file.language := by
  obtain ⟨path, display, language⟩ := file
  rw [fileBelow?, Option.map_eq_some_iff]
  constructor
  · rintro ⟨l, hl, heq⟩
    cases heq
    exact ⟨rfl, rfl, hl⟩
  · rintro ⟨rfl, rfl, hl⟩
    exact ⟨language, hl, rfl⟩

theorem ofPath?_ofParts {above : List String} {name : String} {language : Language}
    (h : ∀ n ∈ above ++ [name], Path.IsName n) :
    Language.ofPath? (Path.ofParts false (above ++ [name])) = some language ↔
      ∃ ext, Path.HasExtension name ext ∧ lowerAscii ext ∈ language.extensions := by
  obtain ⟨habove, hname⟩ := List.forall_mem_append.1 h
  simp only [ofPath?_eq_some_iff, Path.extension?_ofParts habove (hname name (by simp))]

theorem mem_filesBelow {filter : FileFilter} {root : String} {children : List (String × Entry)}
    (hnamed : (Entry.directory children).WellNamed) {file : DiscoveredFile} :
    file ∈ filesBelow filter root children ↔
      ∃ above name, Wanted filter root (.directory children) file above name := by
  have hchildren := hnamed
  rw [Entry.WellNamed] at hchildren
  rw [filesBelow, List.mem_mergeSort, List.mem_filterMap]
  constructor
  · rintro ⟨relative, hrelative, hfile⟩
    rw [List.mem_filter] at hrelative
    obtain ⟨hwalk, hincluded⟩ := hrelative
    obtain ⟨names, hne, ⟨content, hleads⟩, rfl, hway⟩ := (mem_walkAll_root hchildren.2).1 hwalk
    obtain ⟨above, name, rfl⟩ : ∃ above name, names = above ++ [name] :=
      ⟨names.dropLast, names.getLast hne, (List.dropLast_append_getLast hne).symm⟩
    obtain ⟨hpath, hdisplay, hlanguage⟩ := fileBelow?_eq_some_iff.1 hfile
    exact ⟨above, name, {
      regular := ⟨content, hleads⟩
      path := hpath
      display := hdisplay
      language := (ofPath?_ofParts (hnamed.isName_of_leads hleads)).1 hlanguage
      included := hincluded
      spared := hway _ hne (List.prefix_refl _)
      reached := fun front hfront habove =>
        hway front hfront (habove.trans (List.prefix_append above [name])) }⟩
  · rintro ⟨above, name, hwanted⟩
    obtain ⟨content, hleads⟩ := hwanted.regular
    refine ⟨Path.ofParts false (above ++ [name]), List.mem_filter.2 ⟨?_, hwanted.included⟩,
      fileBelow?_eq_some_iff.2 ⟨hwanted.path, hwanted.display,
        (ofPath?_ofParts (hnamed.isName_of_leads hleads)).2 hwanted.language⟩⟩
    refine (mem_walkAll_root hchildren.2).2 ⟨above ++ [name], by simp, hwanted.regular, rfl,
      fun front hne hfront => ?_⟩
    rcases List.prefix_concat_iff.1 hfront with rfl | habove
    · exact hwanted.spared
    · exact hwanted.reached front hne habove

theorem filesBelow_nodup {filter : FileFilter} {root : String} {children : List (String × Entry)}
    (hnamed : (Entry.directory children).WellNamed) :
    ((filesBelow filter root children).map (·.path)).Nodup := by
  have hchildren := hnamed
  rw [Entry.WellNamed] at hchildren
  rw [filesBelow, ((List.mergeSort_perm _ _).map _).nodup_iff, List.Nodup, List.pairwise_map,
    List.pairwise_filterMap]
  have hwalk : (walkAll filter.excludes "" children).Nodup :=
    walkAll_nodup children [] (List.forall_mem_nil _) hchildren.1 hchildren.2
  -- paths below the root are relative, so that joining them to it loses nothing
  have hrelative : ∀ path ∈ walkAll filter.excludes "" children, Path.isAbsolute path = false := by
    intro path hpath
    obtain ⟨names, -, ⟨content, hleads⟩, rfl, -⟩ := (mem_walkAll_root hchildren.2).1 hpath
    exact Path.isAbsolute_ofParts (hnamed.isName_of_leads hleads)
  refine (hwalk.filter _).imp_of_mem fun {path path'} hpath hpath' hne => ?_
  intro file hfile file' hfile' heq
  rw [(fileBelow?_eq_some_iff.1 hfile).1, (fileBelow?_eq_some_iff.1 hfile').1] at heq
  exact hne (Path.join_inj (hrelative path (List.mem_filter.1 hpath).1)
    (hrelative path' (List.mem_filter.1 hpath').1) heq)

theorem isLE_compare_iff {a b : String} : (compare a b).isLE = true ↔ a ≤ b :=
  isLE_compareOfLessAndEq String.le_antisymm String.not_le String.le_total

theorem filesBelow_ascend (filter : FileFilter) (root : String) (children : List (String × Entry)) :
    (filesBelow filter root children).Pairwise fun a b => a.display ≤ b.display := by
  have hsorted := List.pairwise_mergeSort (fun _ _ _ => Std.TransCmp.isLE_trans)
    (isLE_total (compareOn DiscoveredFile.display))
    (((walkAll filter.excludes "" children).filter filter.includes).filterMap (fileBelow? root))
  exact hsorted.imp isLE_compare_iff.1

/-! ## Patterns -/

theorem mem_parseAll {patterns : List String} {globs : List Glob}
    (h : Glob.parseAll patterns = .ok globs) {g : Glob} :
    g ∈ globs ↔ ∃ pattern ∈ patterns, Glob.parse pattern = .ok g := by
  induction patterns generalizing globs with
  | nil =>
    cases h
    simp
  | cons pattern rest ih =>
    rw [Glob.parseAll] at h
    split at h
    · cases h
    · rename_i first hfirst
      split at h
      · rename_i others hothers
        cases h
        simp [ih hothers, hfirst, eq_comm]
      · cases h

/-- The path matches one of the patterns. -/
def Matches (patterns : List String) (path : String) : Prop :=
  ∃ pattern ∈ patterns, ∃ g, Glob.parse pattern = .ok g ∧ g.isMatch path = true

theorem anyMatch_iff {patterns : List String} {globs : List Glob}
    (h : Glob.parseAll patterns = .ok globs) (path : String) :
    Glob.anyMatch globs path = true ↔ Matches patterns path := by
  rw [Glob.anyMatch, List.any_eq_true]
  constructor
  · rintro ⟨g, hg, hmatch⟩
    obtain ⟨pattern, hpattern, hparse⟩ := (mem_parseAll h).1 hg
    exact ⟨pattern, hpattern, g, hparse, hmatch⟩
  · rintro ⟨pattern, hpattern, g, hparse, hmatch⟩
    exact ⟨g, (mem_parseAll h).2 ⟨pattern, hpattern, hparse⟩, hmatch⟩

theorem isEmpty_parseAll {patterns : List String} {globs : List Glob}
    (h : Glob.parseAll patterns = .ok globs) : globs.isEmpty = true ↔ patterns = [] := by
  cases patterns with
  | nil =>
    cases h
    simp
  | cons pattern rest =>
    rw [Glob.parseAll] at h
    split at h
    · cases h
    · split at h
      · cases h
        simp
      · cases h

theorem ofPatterns_iff {includes excludes : List String} {filter : FileFilter}
    (h : FileFilter.ofPatterns includes excludes = .ok filter) (path : String) :
    (filter.includes path = true ↔ includes = [] ∨ Matches includes path) ∧
      (filter.excludes path = true ↔ Matches excludes path) := by
  rw [FileFilter.ofPatterns] at h
  split at h
  · cases h
  · rename_i wanted hwanted
    split at h
    · cases h
    · rename_i unwanted hunwanted
      cases h
      simp only [Bool.or_eq_true]
      exact ⟨or_congr (isEmpty_parseAll hwanted) (anyMatch_iff hwanted path),
        anyMatch_iff hunwanted path⟩

/-- A walk that cuts off excluded directories finds exactly the files that are wanted by their path,
each once and in the order of their display paths. Patterns include what matches one of them, or
everything where none is given, and exclude what matches one. -/
theorem discover_pathwise {here : Entry} {root : String} {children : List (String × Entry)}
    (hroot : here.find root = .ok (.directory children))
    (hnamed : (Entry.directory children).WellNamed) :
    (∀ filter : FileFilter, ∃ files, discover filter here root = .ok files ∧
      (∀ file, file ∈ files ↔
        ∃ above name, Wanted filter root (.directory children) file above name) ∧
      (files.map (·.path)).Nodup ∧ files.Pairwise fun a b => a.display ≤ b.display) ∧
    ∀ includes excludes filter, FileFilter.ofPatterns includes excludes = .ok filter →
      ∀ path, (filter.includes path = true ↔ includes = [] ∨ Matches includes path) ∧
        (filter.excludes path = true ↔ Matches excludes path) := by
  refine ⟨fun filter => ⟨filesBelow filter root children, ?_, fun file => mem_filesBelow hnamed,
    filesBelow_nodup hnamed, filesBelow_ascend filter root children⟩,
    fun _ _ _ h => ofPatterns_iff h⟩
  rw [discover, hroot]

/-- A project with sources, some of them generated. -/
def projectTree : Entry :=
  .directory [("README.md", .file []),
    ("src", .directory [("app.ts", .file []), ("gen", .directory [("out.ts", .file [])])])]

/-- All but what was generated. -/
def handwritten : FileFilter := { includes := fun _ => true, excludes := fun p => p == "src/gen" }

theorem discover_pathwise_project :
    projectTree.find "." = .ok projectTree ∧ projectTree.WellNamed ∧
    (∃ files, discover handwritten projectTree "." = .ok files ∧
      ⟨"./src/app.ts", "src/app.ts", .typescript⟩ ∈ files ∧ (files.map (·.path)).Nodup ∧
      files.Pairwise fun a b => a.display ≤ b.display) ∧
    ∃ filter, FileFilter.ofPatterns ["*.ts"] ["gen"] = .ok filter ∧
      ∀ path, (filter.includes path = true ↔ ["*.ts"] = [] ∨ Matches ["*.ts"] path) ∧
        (filter.excludes path = true ↔ Matches ["gen"] path) := by
  have hroot : projectTree.find "." = .ok projectTree := by rfl
  have hnamed : projectTree.WellNamed := by
    simp only [projectTree, Entry.WellNamed, AllWellNamed]
    decide
  obtain ⟨hfound, hpatterns⟩ := discover_pathwise hroot hnamed
  refine ⟨hroot, hnamed, ?_, ?_⟩
  · obtain ⟨files, hfiles, hmem, honce, horder⟩ := hfound handwritten
    refine ⟨files, hfiles, (hmem _).2 ⟨["src"], "app.ts", ?_⟩, honce, horder⟩
    exact {
      regular := ⟨[], .into (.tail _ (.head _)) (.into (.head _) (.here _))⟩
      path := by decide +kernel
      display := by decide +kernel
      language := ⟨"ts", ⟨['a', 'p', 'p'], by decide, by decide, by decide⟩, by decide +kernel⟩
      included := rfl
      spared := by decide +kernel
      reached := by
        intro front hne hfront
        rcases List.prefix_cons_iff.1 hfront with rfl | ⟨rest, rfl, hrest⟩
        · exact absurd rfl hne
        · rw [List.prefix_nil.1 hrest]
          decide +kernel }
  · cases hfilter : FileFilter.ofPatterns ["*.ts"] ["gen"] with
    | error e =>
      have hok : (FileFilter.ofPatterns ["*.ts"] ["gen"]).isOk = true := by decide +kernel
      rw [hfilter] at hok
      cases hok
    | ok filter => exact ⟨filter, rfl, hpatterns _ _ filter hfilter⟩

end LeakScan
