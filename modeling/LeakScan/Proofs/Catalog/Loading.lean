import LeakScan.Catalog
import LeakScan.Proofs.Rule.Check

/-!
# LeakScan.Proofs.Catalog.Loading

A catalog accounts for everything that it is asked to load, and what comes later changes nothing
that is there.

* `Item`, `Item.outcome` — what is loaded, and what becomes of it: the first valid definition of an
  id is a rule of the catalog, and all else has a diagnostic.
* `Accounts` — a catalog with the outcomes of some items.
* `Accounts.addItem`, `Accounts.foldl_addItem` — one item, and one after another.
* `Noted` — the same catalog with further diagnostics. A document reports its malformed entries
  before its repeated ones; `foldl_addItem_noted` says that this is all that differs.
* `load_accounted` — the statement about all lists of rule files.
-/

namespace LeakScan

theorem RuleEntry.check_wellFormed {e : RuleEntry} {r : Rule} (h : e.check = .ok r) :
    r.WellFormed := by
  rw [check] at h
  split at h
  · exact RuleDraft.check_wellFormed h
  · cases h

theorem RuleEntry.malformed_of_check {e : RuleEntry} {f : Failure} (h : e.check = .error f) :
    ∃ ruleId reason, f = .malformedRule ruleId reason := by
  rw [check] at h
  split at h
  · exact RuleDraft.malformed_of_check h
  · cases h
    exact ⟨_, _, rfl⟩

namespace Catalog

/-! ## Items -/

/-- What is loaded: an entry of a document, or a file that holds no document. -/
inductive Item where
  | entry (origin : String) (e : RuleEntry)
  | unloadable (path : String) (reason : Failure)

/-- What is said about a file without a document. -/
def unloadableNote (path : String) (reason : Failure) : Diagnostic :=
  (Diagnostic.warning .malformedRule s!"cannot load rule file: {reason.message}").withPath path

namespace Item

/-- The rule of an entry that passes its check. -/
def rule? : Item → Option Rule
  | .entry _ e => e.check.toOption
  | .unloadable _ _ => none

def defines (id : String) (i : Item) : Bool := i.rule?.any (·.id == id)

/-- What becomes of an item that is loaded after others. -/
def outcome (before : List Item) : Item → Except Diagnostic Rule
  | .entry origin e =>
    match e.check with
    | .ok r =>
      if before.any (defines r.id) then
        .error (Diagnostic.ofFailure (.malformedRule r.id "duplicate rule id"))
      else .ok r
    | .error f => .error ((Diagnostic.ofFailure f).withPath origin)
  | .unloadable path reason => .error (unloadableNote path reason)

/-- A rule is the first definition of its id; what is left out is a later one or none. -/
theorem outcome_cases (before : List Item) (i : Item) :
    (∃ r, i.outcome before = .ok r ∧ i.rule? = some r ∧ r.WellFormed ∧
      before.any (defines r.id) = false) ∨
    ∃ d, i.outcome before = .error d ∧ d.kind = .malformedRule ∧
      ∀ r, i.rule? = some r → before.any (defines r.id) = true := by
  cases i with
  | unloadable path reason =>
    refine .inr ⟨_, rfl, rfl, fun r hr => ?_⟩
    cases hr
  | entry origin e =>
    rw [outcome]
    cases hcheck : e.check with
    | error f =>
      obtain ⟨ruleId, reason, rfl⟩ := RuleEntry.malformed_of_check hcheck
      refine .inr ⟨_, rfl, rfl, fun r hr => ?_⟩
      rw [rule?, hcheck] at hr
      cases hr
    | ok r =>
      have hrule : rule? (.entry origin e) = some r := by
        rw [rule?, hcheck]
        rfl
      cases htaken : before.any (defines r.id) with
      | false =>
        exact .inl ⟨r, by simp [htaken], hrule, RuleEntry.check_wellFormed hcheck, htaken⟩
      | true =>
        refine .inr ⟨Diagnostic.ofFailure (.malformedRule r.id "duplicate rule id"),
          by simp [htaken], rfl, fun q hq => ?_⟩
        rw [hrule] at hq
        cases hq
        exact htaken

end Item

def outcomes (before : List Item) : List Item → List (Except Diagnostic Rule)
  | [] => []
  | i :: rest => i.outcome before :: outcomes (before ++ [i]) rest

theorem outcomes_append (before items more : List Item) :
    outcomes before (items ++ more) = outcomes before items ++ outcomes (before ++ items) more := by
  induction items generalizing before with
  | nil => rw [List.nil_append, List.append_nil, outcomes, List.nil_append]
  | cons i rest ih =>
    rw [List.cons_append, outcomes, ih, outcomes, List.append_assoc]
    rfl

theorem outcomes_concat (items : List Item) (i : Item) :
    outcomes [] (items ++ [i]) = outcomes [] items ++ [i.outcome items] := by
  rw [outcomes_append]
  rfl

theorem length_outcomes (before items : List Item) :
    (outcomes before items).length = items.length := by
  induction items generalizing before with
  | nil => rfl
  | cons i rest ih => rw [outcomes, List.length_cons, ih, List.length_cons]

def accepted (os : List (Except Diagnostic Rule)) : List Rule := os.filterMap Except.toOption

def rejected (os : List (Except Diagnostic Rule)) : List Diagnostic :=
  os.filterMap fun
    | .ok _ => none
    | .error d => some d

theorem accepted_append (os more : List (Except Diagnostic Rule)) :
    accepted (os ++ more) = accepted os ++ accepted more := List.filterMap_append

theorem rejected_append (os more : List (Except Diagnostic Rule)) :
    rejected (os ++ more) = rejected os ++ rejected more := List.filterMap_append

theorem length_accepted_add_rejected (os : List (Except Diagnostic Rule)) :
    (accepted os).length + (rejected os).length = os.length := by
  induction os with
  | nil => rfl
  | cons o rest ih =>
    rw [accepted, rejected] at ih ⊢
    cases o with
    | ok r =>
      simp only [List.filterMap_cons, Except.toOption, List.length_cons]
      omega
    | error d =>
      simp only [List.filterMap_cons, Except.toOption, List.length_cons]
      omega

/-! ## One after another -/

/-- A catalog with the outcomes of some items, in the order of loading. -/
structure Accounts (items : List Item) (c : Catalog) : Prop where
  distinct : (c.rules.map (·.id)).Nodup
  first : ∀ id, c.rule? id = (items.filterMap Item.rule?).find? (·.id == id)
  rules : c.rules = accepted (outcomes [] items)
  diagnostics : c.diagnostics.Perm (rejected (outcomes [] items))

def note (c : Catalog) (d : Diagnostic) : Catalog :=
  { c with diagnostics := c.diagnostics ++ [d] }

def settle (c : Catalog) : Except Diagnostic Rule → Catalog
  | .ok r => { c with rules := c.rules ++ [r] }
  | .error d => c.note d

def addItem (c : Catalog) : Item → Catalog
  | .entry origin e =>
    match e.check with
    | .ok r => c.add r
    | .error f => c.note ((Diagnostic.ofFailure f).withPath origin)
  | .unloadable path reason => c.note (unloadableNote path reason)

namespace Accounts

variable {items : List Item} {c : Catalog}

theorem taken (h : Accounts items c) (id : String) :
    c.rules.any (·.id == id) = items.any (Item.defines id) := by
  rw [← List.isSome_find?]
  refine (congrArg Option.isSome (h.first id)).trans ?_
  rw [List.isSome_find?, List.any_filterMap]
  rfl

theorem addItem_eq (h : Accounts items c) (i : Item) :
    c.addItem i = c.settle (i.outcome items) := by
  cases i with
  | unloadable path reason => rfl
  | entry origin e =>
    rw [Catalog.addItem, Item.outcome]
    cases e.check with
    | error f => rfl
    | ok r =>
      simp only [add, h.taken]
      split <;> rfl

theorem accept (h : Accounts items c) {i : Item} {r : Rule} (hok : i.outcome items = .ok r)
    (hrule : i.rule? = some r) (hnew : items.any (Item.defines r.id) = false) :
    Accounts (items ++ [i]) (c.settle (.ok r)) := by
  have hfresh : r.id ∉ c.rules.map (·.id) := by
    rw [← h.taken] at hnew
    simpa using hnew
  have hdefined : (items ++ [i]).filterMap Item.rule? = items.filterMap Item.rule? ++ [r] := by
    rw [List.filterMap_append, List.filterMap_cons_some hrule, List.filterMap_nil]
  constructor
  case distinct =>
    rw [settle, List.map_append, List.nodup_append]
    refine ⟨h.distinct, List.pairwise_singleton _ _, fun id hid other hother => ?_⟩
    rw [List.mem_singleton.1 hother]
    exact ne_of_mem_of_not_mem hid hfresh
  case first =>
    intro id
    rw [hdefined, List.find?_append, ← h.first id]
    exact List.find?_append
  case rules =>
    rw [outcomes_concat, accepted_append, ← h.rules, hok]
    rfl
  case diagnostics =>
    rw [outcomes_concat, rejected_append, hok]
    exact h.diagnostics.trans (.of_eq (List.append_nil _).symm)

theorem reject (h : Accounts items c) {i : Item} {d : Diagnostic}
    (herror : i.outcome items = .error d)
    (hold : ∀ r, i.rule? = some r → items.any (Item.defines r.id) = true) :
    Accounts (items ++ [i]) (c.settle (.error d)) := by
  constructor
  case distinct => exact h.distinct
  case first =>
    intro id
    rw [List.filterMap_append, List.find?_append, ← h.first id]
    cases hfound : c.rule? id with
    | some r => exact hfound
    | none =>
      refine hfound.trans (List.find?_eq_none.2 fun r hr hid => ?_).symm
      have hrule : i.rule? = some r := by simpa using hr
      have htaken := hold r hrule
      rw [beq_iff_eq.1 hid, ← h.taken, ← List.isSome_find?] at htaken
      rw [rule?] at hfound
      rw [hfound] at htaken
      cases htaken
  case rules =>
    rw [outcomes_concat, accepted_append, ← h.rules, herror]
    exact (List.append_nil _).symm
  case diagnostics =>
    rw [outcomes_concat, rejected_append, herror]
    exact h.diagnostics.append_right [d]

theorem addItem (h : Accounts items c) (i : Item) : Accounts (items ++ [i]) (c.addItem i) := by
  rw [h.addItem_eq]
  rcases i.outcome_cases items with ⟨r, hok, hrule, -, hnew⟩ | ⟨d, herror, -, hold⟩
  · rw [hok]
    exact h.accept hok hrule hnew
  · rw [herror]
    exact h.reject herror hold

theorem foldl_addItem (h : Accounts items c) (more : List Item) :
    Accounts (items ++ more) (more.foldl Catalog.addItem c) := by
  induction more generalizing items c with
  | nil => rwa [List.append_nil]
  | cons i rest ih =>
    rw [List.append_cons]
    exact ih (h.addItem i)

/-- Lifecycle tables and the order of diagnostics do not matter. -/
theorem of_perm {c' : Catalog} (h : Accounts items c) (hrules : c'.rules = c.rules)
    (hdiagnostics : c'.diagnostics.Perm c.diagnostics) : Accounts items c' where
  distinct := hrules ▸ h.distinct
  first id := by
    rw [rule?, hrules]
    exact h.first id
  rules := hrules.trans h.rules
  diagnostics := hdiagnostics.trans h.diagnostics

end Accounts

/-! ## Documents and files -/

/-- `c` is `c'` with further diagnostics. -/
structure Noted (ds : List Diagnostic) (c c' : Catalog) : Prop where
  rules : c.rules = c'.rules
  lifecycle : c.lifecycle = c'.lifecycle
  diagnostics : c.diagnostics.Perm (c'.diagnostics ++ ds)

namespace Noted

variable {ds : List Diagnostic} {c c' : Catalog}

/-- Diagnostics that both get next. -/
theorem append (h : Noted ds c c') (more : List Diagnostic) :
    (c.diagnostics ++ more).Perm (c'.diagnostics ++ more ++ ds) := by
  refine (h.diagnostics.append_right more).trans ?_
  rw [List.append_assoc, List.append_assoc]
  exact List.perm_append_comm.append_left _

theorem add (h : Noted ds c c') (r : Rule) : Noted ds (c.add r) (c'.add r) := by
  rw [Catalog.add, Catalog.add, h.rules]
  split
  · exact ⟨rfl, h.lifecycle, h.append _⟩
  · exact ⟨rfl, h.lifecycle, h.diagnostics⟩

theorem foldl_add (h : Noted ds c c') (rules : List Rule) :
    Noted ds (rules.foldl Catalog.add c) (rules.foldl Catalog.add c') := by
  induction rules generalizing c c' with
  | nil => exact h
  | cons r rest ih => exact ih (h.add r)

theorem trans {ds' : List Diagnostic} {c'' : Catalog} (h : Noted ds c c') (h' : Noted ds' c' c'') :
    Noted (ds' ++ ds) c c'' where
  rules := h.rules.trans h'.rules
  lifecycle := h.lifecycle.trans h'.lifecycle
  diagnostics := by
    rw [← List.append_assoc]
    exact h.diagnostics.trans (h'.diagnostics.append_right ds)

theorem absorb (h : Noted ds c c') (d : LoadedRules) : Noted ds (c.absorb d) (c'.absorb d) := by
  rw [Catalog.absorb, Catalog.absorb]
  refine foldl_add ?_ d.rules
  exact ⟨h.rules, by simp only [h.lifecycle], h.append _⟩

theorem addFile (h : Noted ds c c') (f : RuleFile) : Noted ds (c.addFile f) (c'.addFile f) := by
  rw [Catalog.addFile, Catalog.addFile]
  split
  · exact h.absorb _
  · exact ⟨h.rules, h.lifecycle, h.append _⟩

theorem foldl_addFile (h : Noted ds c c') (files : List RuleFile) :
    Noted ds (files.foldl Catalog.addFile c) (files.foldl Catalog.addFile c') := by
  induction files generalizing c c' with
  | nil => exact h
  | cons f rest ih => exact ih (h.addFile f)

end Noted

def documentItems (d : RuleDocument) : List Item := d.entries.map (.entry d.origin)

def RuleFile.items (f : RuleFile) : List Item :=
  match f.document with
  | .ok d => documentItems d
  | .error e => [.unloadable f.path e]

/-- Everything that a list of rule files asks for, after what is built in. -/
def items (files : List RuleFile) : List Item :=
  documentItems Builtin.document ++ files.flatMap RuleFile.items

/-- The catalog with the lifecycle table of a document. -/
def withLifecycle (c : Catalog) (t : Option Lifecycle) : Catalog :=
  { c with lifecycle := match t with
    | some t => c.lifecycle.merge t
    | none => c.lifecycle }

theorem absorb_noted (d : LoadedRules) (c : Catalog) :
    Noted d.diagnostics (c.absorb d) (d.rules.foldl add (c.withLifecycle d.lifecycle)) := by
  rw [absorb]
  refine Noted.foldl_add ?_ d.rules
  exact ⟨rfl, rfl, .refl _⟩

/-- Entry by entry, the same rules and diagnostics come as from the document as a whole. -/
theorem foldl_addItem_noted (d : RuleDocument) (c : Catalog) :
    Noted d.load.diagnostics ((documentItems d).foldl addItem c) (d.load.rules.foldl add c) := by
  obtain ⟨origin, lifecycle, entries⟩ := d
  induction entries generalizing c with
  | nil => exact ⟨rfl, rfl, .of_eq (List.append_nil _).symm⟩
  | cons e rest ih =>
    cases hcheck : e.check with
    | ok r =>
      have hstep : c.addItem (.entry origin e) = c.add r := by rw [addItem, hcheck]
      have hload : (RuleDocument.load ⟨origin, lifecycle, e :: rest⟩).rules =
          r :: (RuleDocument.load ⟨origin, lifecycle, rest⟩).rules ∧
          (RuleDocument.load ⟨origin, lifecycle, e :: rest⟩).diagnostics =
            (RuleDocument.load ⟨origin, lifecycle, rest⟩).diagnostics := by
        simp [RuleDocument.load, RuleDocument.checkedEntries, hcheck]
      rw [hload.1, hload.2, List.foldl_cons, ← hstep]
      exact ih _
    | error f =>
      have hstep : c.addItem (.entry origin e) =
          c.note ((Diagnostic.ofFailure f).withPath origin) := by rw [addItem, hcheck]
      have hload : (RuleDocument.load ⟨origin, lifecycle, e :: rest⟩).rules =
          (RuleDocument.load ⟨origin, lifecycle, rest⟩).rules ∧
          (RuleDocument.load ⟨origin, lifecycle, e :: rest⟩).diagnostics =
            [(Diagnostic.ofFailure f).withPath origin] ++
              (RuleDocument.load ⟨origin, lifecycle, rest⟩).diagnostics := by
        simp [RuleDocument.load, RuleDocument.checkedEntries, hcheck]
      -- the diagnostic of the entry comes first here, and with those of the document there
      have hnoted : Noted [(Diagnostic.ofFailure f).withPath origin]
          (c.addItem (.entry origin e)) c := by
        rw [hstep]
        exact ⟨rfl, rfl, .refl _⟩
      rw [hload.1, hload.2]
      exact (ih _).trans (hnoted.foldl_add _)

namespace Accounts

variable {items : List Item} {c : Catalog}

theorem absorb (h : Accounts items c) (d : RuleDocument) :
    Accounts (items ++ documentItems d) (c.absorb d.load) := by
  have hentries := foldl_addItem_noted d (c.withLifecycle d.load.lifecycle)
  have hwhole := absorb_noted d.load c
  have hprepared : Accounts items (c.withLifecycle d.load.lifecycle) := h.of_perm rfl (.refl _)
  exact (hprepared.foldl_addItem (documentItems d)).of_perm
    (hwhole.rules.trans hentries.rules.symm) (hwhole.diagnostics.trans hentries.diagnostics.symm)

theorem addFile (h : Accounts items c) (f : RuleFile) :
    Accounts (items ++ f.items) (c.addFile f) := by
  rw [Catalog.addFile, RuleFile.items]
  cases f.document with
  | ok d => exact h.absorb d
  | error e => exact h.addItem (.unloadable f.path e)

theorem foldl_addFile (h : Accounts items c) (files : List RuleFile) :
    Accounts (items ++ files.flatMap RuleFile.items) (files.foldl Catalog.addFile c) := by
  induction files generalizing items c with
  | nil => rwa [List.flatMap_nil, List.append_nil]
  | cons f rest ih =>
    rw [List.flatMap_cons, ← List.append_assoc]
    exact ih (h.addFile f)

end Accounts

theorem accounts_load (files : List RuleFile) : Accounts (items files) (load files) := by
  have hnone : Accounts [] {} := ⟨List.nodup_nil, fun _ => rfl, rfl, .refl _⟩
  exact (hnone.absorb Builtin.document).foldl_addFile files

/-! ## Counting -/

def RuleFile.isUnloadable (f : RuleFile) : Bool :=
  match f.document with
  | .ok _ => false
  | .error _ => true

def RuleFile.entries (f : RuleFile) : List RuleEntry :=
  match f.document with
  | .ok d => d.entries
  | .error _ => []

theorem length_flatMap_items (files : List RuleFile) :
    (files.flatMap RuleFile.items).length =
      (files.flatMap RuleFile.entries).length + files.countP RuleFile.isUnloadable := by
  induction files with
  | nil => rfl
  | cons f rest ih =>
    rw [List.flatMap_cons, List.flatMap_cons, List.length_append, List.length_append, ih,
      List.countP_cons, RuleFile.items, RuleFile.entries, RuleFile.isUnloadable]
    cases f.document with
    | ok d =>
      simp only [documentItems, List.length_map, Bool.false_eq_true, if_false]
      omega
    | error e =>
      simp only [List.length_singleton, List.length_nil, if_true]
      omega

theorem length_items (files : List RuleFile) :
    (items files).length = Builtin.document.entries.length +
      (files.flatMap RuleFile.entries).length + files.countP RuleFile.isUnloadable := by
  rw [items, List.length_append, length_flatMap_items, documentItems, List.length_map,
    Nat.add_assoc]

/-! ## All rule files -/

theorem exists_of_mem_outcomes {before items : List Item} {o : Except Diagnostic Rule}
    (h : o ∈ outcomes before items) : ∃ (others : List Item) (i : Item), i.outcome others = o := by
  induction items generalizing before with
  | nil => cases h
  | cons i rest ih =>
    rcases List.mem_cons.1 h with rfl | hrest
    · exact ⟨before, i, rfl⟩
    · exact ih hrest

theorem wellFormed_of_mem_accepted {items : List Item} {r : Rule}
    (h : r ∈ accepted (outcomes [] items)) : r.WellFormed := by
  obtain ⟨o, ho, hr⟩ := List.mem_filterMap.1 h
  obtain ⟨others, i, rfl⟩ := exists_of_mem_outcomes ho
  rcases i.outcome_cases others with ⟨q, hok, _, hwell, _⟩ | ⟨d, herror, _⟩
  · rw [hok] at hr
    cases hr
    exact hwell
  · rw [herror] at hr
    cases hr

theorem kind_of_mem_rejected {items : List Item} {d : Diagnostic}
    (h : d ∈ rejected (outcomes [] items)) : d.kind = .malformedRule := by
  obtain ⟨o, ho, hd⟩ := List.mem_filterMap.1 h
  obtain ⟨others, i, rfl⟩ := exists_of_mem_outcomes ho
  rcases i.outcome_cases others with ⟨q, hok, _⟩ | ⟨e, herror, hkind, _⟩
  · rw [hok] at hd
    cases hd
  · rw [herror] at hd
    cases hd
    exact hkind

theorem load_append (earlier later : List RuleFile) :
    load (earlier ++ later) = later.foldl addFile (load earlier) := List.foldl_append

/-- Rules of later files come after those of earlier ones. -/
theorem rules_load_append (earlier later : List RuleFile) :
    (load earlier).rules <+: (load (earlier ++ later)).rules := by
  have hitems : items (earlier ++ later) = items earlier ++ later.flatMap RuleFile.items := by
    rw [items, items, List.flatMap_append, List.append_assoc]
  rw [(accounts_load _).rules, (accounts_load _).rules, hitems, outcomes_append, accepted_append]
  exact List.prefix_append _ _

/-- Of everything that is loaded, each entry and each file without a document has one outcome: it is
in the catalog or has its own diagnostic. Ids are distinct, and the first valid definition of an id
wins. What is loaded later adds rules at the end, and a file without a document adds nothing but
its diagnostic, wherever it stands. -/
theorem load_accounted :
    (∀ files : List RuleFile,
      Accounts (items files) (load files) ∧
      (load files).rules.length + (load files).diagnostics.length =
        Builtin.document.entries.length + (files.flatMap RuleFile.entries).length +
          files.countP RuleFile.isUnloadable ∧
      (∀ d ∈ (load files).diagnostics, d.kind = .malformedRule) ∧
      ∀ r ∈ (load files).rules, r.WellFormed) ∧
    (∀ earlier later : List RuleFile,
      (load earlier).rules <+: (load (earlier ++ later)).rules) ∧
    ∀ (earlier later : List RuleFile) (f : RuleFile) (reason : Failure),
      f.document = .error reason →
      Noted [unloadableNote f.path reason] (load (earlier ++ f :: later))
        (load (earlier ++ later)) := by
  refine ⟨fun files => ⟨accounts_load files, ?_, ?_, ?_⟩, rules_load_append, ?_⟩
  · rw [(accounts_load files).rules, (accounts_load files).diagnostics.length_eq,
      length_accepted_add_rejected, length_outcomes, length_items]
  · intro d hd
    exact kind_of_mem_rejected ((accounts_load files).diagnostics.mem_iff.1 hd)
  · intro r hr
    rw [(accounts_load files).rules] at hr
    exact wellFormed_of_mem_accepted hr
  · intro earlier later f reason h
    rw [load_append, load_append, List.foldl_cons]
    refine Noted.foldl_addFile ?_ later
    rw [addFile, h]
    exact ⟨rfl, rfl, .refl _⟩

/-! ## A missing file

It stands before one with two entries that are no rules. -/

def missingFile : RuleFile := ⟨"missing.json", .error (.fileAccess noSuchFile)⟩

def faultyFile : RuleFile :=
  ⟨"faulty.json", .ok "\x7b\"rules\": [3, \x7b\"id\": \"js.timer.interval\"\x7d]\x7d"⟩

def intervalItem : Item :=
  .entry "builtin" ⟨"js.timer.interval", .ok Builtin.jsTimerInterval⟩

theorem missing_file_noted :
    let c := load [missingFile, faultyFile]
    missingFile.document = .error (.fileAccess noSuchFile) ∧
    c.rules = (load [faultyFile]).rules ∧ c.lifecycle = (load [faultyFile]).lifecycle ∧
    c.rules.length + c.diagnostics.length = 26 ∧
    (∃ d ∈ c.diagnostics, d.path = some "missing.json" ∧ d.kind = .malformedRule) ∧
    ∃ r ∈ c.rules, r.id = "js.timer.interval" ∧ r.WellFormed := by
  intro c
  obtain ⟨hfiles, -, hunloadable⟩ := load_accounted
  obtain ⟨haccounts, hcount, hkinds, hwell⟩ := hfiles [missingFile, faultyFile]
  have hnoted := hunloadable [] [faultyFile] missingFile (.fileAccess noSuchFile) rfl
  have hmem := hnoted.diagnostics.mem_iff.2 (List.mem_append_right _ (List.mem_singleton_self _))
  have hsum : Builtin.document.entries.length +
      ([missingFile, faultyFile].flatMap RuleFile.entries).length +
      [missingFile, faultyFile].countP RuleFile.isUnloadable = 26 := by decide +kernel
  refine ⟨rfl, hnoted.rules, hnoted.lifecycle, hcount.trans hsum, ⟨_, hmem, rfl, hkinds _ hmem⟩, ?_⟩
  obtain ⟨rest, hrest⟩ : ∃ rest, items [missingFile, faultyFile] = intervalItem :: rest := ⟨_, rfl⟩
  have hid : intervalItem.rule?.map (·.id) = some "js.timer.interval" := by decide +kernel
  obtain ⟨r, hrule, hr⟩ := Option.map_eq_some_iff.1 hid
  have hfirst := haccounts.first "js.timer.interval"
  rw [hrest, List.filterMap_cons_some hrule, List.find?_cons_of_pos (by simpa using hr)] at hfirst
  have hloaded := List.mem_of_find?_eq_some hfirst
  exact ⟨r, hloaded, hr, hwell r hloaded⟩

end Catalog

end LeakScan
