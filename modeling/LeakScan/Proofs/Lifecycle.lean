import LeakScan.Catalog

/-!
# LeakScan.Proofs.Lifecycle

Merged lifecycle tables.

* `Query`, `answer` — all that can be asked of a table.
* `setups`, `Pairs` — the setup names of some pairs, and which teardowns they list for a setup name;
  `setups_foldl_addPair` and `pairs_foldl_addPair` say what becomes of either when pairs are added.
* `answer_merge` — a merged table answers yes where one of the two does.
* `answer_foldl_absorb` — the table of a catalog answers for all documents that it has taken in.
-/

namespace LeakScan.Lifecycle

/-- What can be asked of a table. -/
inductive Query where
  | setup (name : String)
  | callback (name : String)
  | teardown (name : String)
  | hook (name : String)
  | pairing (setup teardown : String)

def answer (t : Lifecycle) : Query → Bool
  | .setup name => t.isSetup name
  | .callback name => t.isCallback name
  | .teardown name => t.isTeardown name
  | .hook name => t.isHook name
  | .pairing setup teardown => t.pairsWith setup teardown

/-! ## Names -/

theorem addNames_cons_of_mem {names : List String} {name : String} (h : name ∈ names)
    (more : List String) : addNames names (name :: more) = addNames names more := by
  rw [addNames, List.foldl_cons, if_pos (List.contains_iff_mem.2 h), ← addNames]

theorem addNames_cons_of_not_mem {names : List String} {name : String} (h : name ∉ names)
    (more : List String) : addNames names (name :: more) = addNames (names ++ [name]) more := by
  rw [addNames, List.foldl_cons, if_neg (h ∘ List.contains_iff_mem.1), ← addNames]

theorem mem_addNames {names more : List String} {name : String} :
    name ∈ addNames names more ↔ name ∈ names ∨ name ∈ more := by
  induction more generalizing names with
  | nil => simp [addNames]
  | cons n more ih =>
    by_cases hknown : n ∈ names
    · rw [addNames_cons_of_mem hknown, ih, List.mem_cons]
      constructor
      · exact Or.imp_right .inr
      · rintro (h | rfl | h)
        · exact .inl h
        · exact .inl hknown
        · exact .inr h
    · rw [addNames_cons_of_not_mem hknown, ih, List.mem_append, List.mem_singleton, or_assoc,
        List.mem_cons]

/-- A name that is there stays as often as it is, and one that is not comes in once. -/
theorem count_addNames (names more : List String) (name : String) :
    (addNames names more).count name =
      if name ∈ names then names.count name else if name ∈ more then 1 else 0 := by
  induction more generalizing names with
  | nil =>
    by_cases hmem : name ∈ names
    · simp [addNames, hmem]
    · simp [addNames, hmem, List.count_eq_zero_of_not_mem]
  | cons n more ih =>
    by_cases hknown : n ∈ names
    · rw [addNames_cons_of_mem hknown, ih]
      by_cases hmem : name ∈ names
      · rw [if_pos hmem, if_pos hmem]
      · have hother : name ≠ n := fun h => hmem (h ▸ hknown)
        simp [hmem, hother]
    · rw [addNames_cons_of_not_mem hknown, ih]
      by_cases hsame : name = n
      · subst hsame
        simp [hknown, List.count_eq_zero_of_not_mem]
      · simp [hsame, Ne.symm hsame]

/-! ## Pairs -/

/-- The setup names of some pairs. -/
def setups (ps : List LifecyclePair) : List String := ps.map (·.setup)

/-- One of the pairs lists the teardown for the setup name. -/
def Pairs (ps : List LifecyclePair) (setup teardown : String) : Prop :=
  ∃ p ∈ ps, p.setup = setup ∧ teardown ∈ p.teardown

theorem pairs_cons {p : LifecyclePair} {ps : List LifecyclePair} {setup teardown : String} :
    Pairs (p :: ps) setup teardown ↔
      p.setup = setup ∧ teardown ∈ p.teardown ∨ Pairs ps setup teardown := by
  simp [Pairs]

theorem setups_addPair (pair : LifecyclePair) (ps : List LifecyclePair) :
    setups (addPair pair ps) = addNames (setups ps) [pair.setup] := by
  induction ps with
  | nil => rfl
  | cons p ps ih =>
    rw [addPair]
    by_cases hsame : p.setup = pair.setup
    · rw [if_pos (beq_iff_eq.2 hsame), addNames_cons_of_mem (by simp [setups, hsame])]
      rfl
    · rw [if_neg (by simpa using hsame), setups, List.map_cons, ← setups, ih]
      by_cases hknown : pair.setup ∈ setups ps
      · have hmem : pair.setup ∈ setups (p :: ps) := List.mem_cons_of_mem _ hknown
        rw [addNames_cons_of_mem hknown, addNames_cons_of_mem hmem]
        rfl
      · have hfresh : pair.setup ∉ setups (p :: ps) := by
          rw [setups, List.map_cons, List.mem_cons, not_or]
          exact ⟨Ne.symm hsame, hknown⟩
        rw [addNames_cons_of_not_mem hknown, addNames_cons_of_not_mem hfresh]
        rfl

theorem pairs_addPair {pair : LifecyclePair} {ps : List LifecyclePair} {setup teardown : String} :
    Pairs (addPair pair ps) setup teardown ↔
      Pairs ps setup teardown ∨ pair.setup = setup ∧ teardown ∈ pair.teardown := by
  induction ps with
  | nil => simp [addPair, Pairs]
  | cons p ps ih =>
    rw [addPair]
    split
    · rename_i hsame
      have hsetup : p.setup = pair.setup := beq_iff_eq.1 hsame
      rw [pairs_cons, pairs_cons, mem_addNames, hsetup, and_or_left, or_right_comm]
    · rw [pairs_cons, pairs_cons, ih, or_assoc]

/-- Adding pairs adds their setup names. -/
theorem setups_foldl_addPair (more ps : List LifecyclePair) :
    setups (more.foldl (fun ps p => addPair p ps) ps) = addNames (setups ps) (setups more) := by
  induction more generalizing ps with
  | nil => rfl
  | cons p more ih =>
    rw [List.foldl_cons, ih, setups_addPair]
    rfl

/-- Adding pairs adds the teardowns that they list, even when they repeat a setup name. -/
theorem pairs_foldl_addPair {more ps : List LifecyclePair} {setup teardown : String} :
    Pairs (more.foldl (fun ps p => addPair p ps) ps) setup teardown ↔
      Pairs ps setup teardown ∨ Pairs more setup teardown := by
  induction more generalizing ps with
  | nil => simp [Pairs]
  | cons p more ih => rw [List.foldl_cons, ih, pairs_addPair, pairs_cons, or_assoc]

/-! ## Queries -/

theorem isSetup_iff {t : Lifecycle} {name : String} :
    t.isSetup name = true ↔ name ∈ setups t.pairs := by
  simp [isSetup, setups]

theorem pairsWith_iff {t : Lifecycle} {setup teardown : String} :
    t.pairsWith setup teardown = true ↔ Pairs t.pairs setup teardown := by
  simp [pairsWith, Pairs]

theorem isCallback_iff {t : Lifecycle} {name : String} :
    t.isCallback name = true ↔ name ∈ setups t.pairs ∨ ∃ setup, Pairs t.pairs setup name := by
  simp only [isCallback, setups, Pairs, List.any_eq_true, Bool.or_eq_true, beq_iff_eq,
    List.contains_iff_mem, List.mem_map]
  constructor
  · rintro ⟨p, hp, hsetup | hteardown⟩
    · exact .inl ⟨p, hp, hsetup⟩
    · exact .inr ⟨p.setup, p, hp, rfl, hteardown⟩
  · rintro (⟨p, hp, hsetup⟩ | ⟨setup, p, hp, -, hteardown⟩)
    · exact ⟨p, hp, .inl hsetup⟩
    · exact ⟨p, hp, .inr hteardown⟩

theorem isTeardown_iff {t : Lifecycle} {name : String} :
    t.isTeardown name = true ↔ name ∈ t.teardown ∨ ∃ setup, Pairs t.pairs setup name := by
  simp only [isTeardown, Pairs, List.any_eq_true, Bool.or_eq_true, List.contains_iff_mem]
  constructor
  · rintro (h | ⟨p, hp, hteardown⟩)
    · exact .inl h
    · exact .inr ⟨p.setup, p, hp, rfl, hteardown⟩
  · rintro (h | ⟨setup, p, hp, -, hteardown⟩)
    · exact .inl h
    · exact .inr ⟨p, hp, hteardown⟩

theorem isHook_iff {t : Lifecycle} {name : String} :
    t.isHook name = true ↔ name ∈ t.hooks :=
  List.contains_iff_mem

theorem mem_setups_merge {a b : Lifecycle} {name : String} :
    name ∈ setups (a.merge b).pairs ↔ name ∈ setups a.pairs ∨ name ∈ setups b.pairs := by
  rw [merge, setups_foldl_addPair, mem_addNames]

theorem pairs_merge {a b : Lifecycle} {setup teardown : String} :
    Pairs (a.merge b).pairs setup teardown ↔
      Pairs a.pairs setup teardown ∨ Pairs b.pairs setup teardown :=
  pairs_foldl_addPair

theorem answer_merge (a b : Lifecycle) (q : Query) :
    (a.merge b).answer q = (a.answer q || b.answer q) := by
  rw [Bool.eq_iff_iff, Bool.or_eq_true]
  cases q with
  | setup name =>
    simp only [answer, isSetup_iff]
    exact mem_setups_merge
  | callback name =>
    simp only [answer, isCallback_iff, mem_setups_merge, pairs_merge, exists_or]
    exact or_or_or_comm
  | teardown name =>
    simp only [answer, isTeardown_iff, pairs_merge, exists_or]
    rw [merge, mem_addNames]
    exact or_or_or_comm
  | hook name =>
    simp only [answer, isHook_iff]
    exact mem_addNames
  | pairing setup teardown =>
    simp only [answer, pairsWith_iff]
    exact pairs_merge

theorem countP_setup (t : Lifecycle) (name : String) :
    t.pairs.countP (·.setup == name) = (setups t.pairs).count name := by
  rw [setups, List.count, List.countP_map]
  rfl

/-! ## Documents -/

theorem lifecycle_foldl_add (c : Catalog) (rules : List Rule) :
    (rules.foldl Catalog.add c).lifecycle = c.lifecycle := by
  induction rules generalizing c with
  | nil => rfl
  | cons r rest ih =>
    rw [List.foldl_cons, ih, Catalog.add]
    split
    · rfl
    · rfl

theorem answer_absorb (c : Catalog) (d : LoadedRules) (q : Query) :
    (c.absorb d).lifecycle.answer q = (c.lifecycle.answer q || d.lifecycle.any (·.answer q)) := by
  rw [Catalog.absorb, lifecycle_foldl_add]
  cases hd : d.lifecycle with
  | none => simp
  | some t => exact answer_merge c.lifecycle t q

theorem answer_foldl_absorb (c : Catalog) (ds : List LoadedRules) (q : Query) :
    (ds.foldl Catalog.absorb c).lifecycle.answer q = true ↔
      c.lifecycle.answer q = true ∨
        ∃ t, (∃ d ∈ ds, d.lifecycle = some t) ∧ t.answer q = true := by
  induction ds generalizing c with
  | nil => simp
  | cons d ds ih =>
    rw [List.foldl_cons, ih, answer_absorb, Bool.or_eq_true, Option.any_eq_true, or_assoc]
    simp only [List.mem_cons, or_and_right, exists_or, exists_eq_left]

/-- Merging tables is union for all that can be asked of them. What documents contribute depends
neither on their order nor on how often they come, and a setup name that is there gets no second
pair. -/
theorem merge_union :
    (∀ (a b : Lifecycle) (q : Query), (a.merge b).answer q = (a.answer q || b.answer q)) ∧
    (∀ (c : Catalog) (ds es : List LoadedRules),
      (∀ t, (∃ d ∈ ds, d.lifecycle = some t) ↔ ∃ e ∈ es, e.lifecycle = some t) →
      ∀ q, (ds.foldl Catalog.absorb c).lifecycle.answer q =
        (es.foldl Catalog.absorb c).lifecycle.answer q) ∧
    ∀ (a b : Lifecycle) (name : String), (a.merge b).pairs.countP (·.setup == name) =
      if a.isSetup name then a.pairs.countP (·.setup == name)
      else if b.isSetup name then 1 else 0 := by
  refine ⟨answer_merge, fun c ds es hsame q => ?_, fun a b name => ?_⟩
  · rw [Bool.eq_iff_iff, answer_foldl_absorb, answer_foldl_absorb]
    simp only [hsame]
  · simp only [countP_setup, isSetup_iff]
    rw [merge, setups_foldl_addPair, count_addNames]

/-- A table that repeats a setup name. -/
def componentTable : Lifecycle where
  pairs := [⟨"mount", ["unmount"]⟩, ⟨"mount", ["destroy"]⟩]
  hooks := ["useEffect"]

/-- A table that repeats that name and a new one. -/
def serviceTable : Lifecycle where
  pairs := [⟨"start", ["stop"]⟩, ⟨"mount", ["dispose"]⟩, ⟨"start", ["halt"]⟩]
  teardown := ["close"]

theorem merge_union_repeated_setups :
    (componentTable.merge serviceTable).answer (.pairing "mount" "dispose") = true ∧
    (componentTable.merge serviceTable).answer (.pairing "start" "halt") = true ∧
    (componentTable.merge serviceTable).answer (.pairing "mount" "stop") = false ∧
    (∀ q, (List.foldl Catalog.absorb {}
        [{ lifecycle := componentTable }, {}, { lifecycle := serviceTable }]).lifecycle.answer q =
      (List.foldl Catalog.absorb {} [{ lifecycle := serviceTable }, { lifecycle := componentTable },
        { lifecycle := serviceTable }]).lifecycle.answer q) ∧
    (componentTable.merge serviceTable).pairs.countP (·.setup == "mount") = 2 ∧
    (componentTable.merge serviceTable).pairs.countP (·.setup == "start") = 1 := by
  obtain ⟨hunion, horder, hcount⟩ := merge_union
  refine ⟨(hunion _ _ _).trans (by decide), (hunion _ _ _).trans (by decide),
    (hunion _ _ _).trans (by decide), horder _ _ _ fun t => ?_, (hcount _ _ _).trans (by decide),
    (hcount _ _ _).trans (by decide)⟩
  simp only [List.mem_cons, List.not_mem_nil, exists_eq_or_imp, exists_eq_left, or_false,
    reduceCtorEq, false_or]
  constructor
  · exact .inr
  · rintro (h | h)
    · exact .inr h
    · exact h

end LeakScan.Lifecycle
