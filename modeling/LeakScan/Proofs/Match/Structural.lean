import Mathlib.Data.List.Nodup
import LeakScan.Match.Structural
import LeakScan.Proofs.Text.Lines
import LeakScan.Proofs.Yaml

/-!
# LeakScan.Proofs.Match.Structural

The id under which a structural pattern is requested tells the pattern from all others, and its
matches come back under it.

* `PatternId.SpelledAs` — the texts that stand for an id; `ofText?_eq_some_iff` says that these are
  the ones that are read.
* `mem_inlineRules_iff`, `inlineRules_nodup` — one request for each structural pattern.
* `InlineRule.text_eq` — the id stands as it is on the first line of its request.
* `Carries`, `Reported` — the records of an output, and the matches that they report.
* `inline_ids_read_back` — requests and answers together.
-/

namespace LeakScan

open Text

/-! ## Ids -/

theorem Role.ofName?_eq_some_iff {s : String} {role : Role} :
    Role.ofName? s = some role ↔ s = role.name := by
  constructor
  · intro h
    have hname := List.find?_some h
    exact (beq_iff_eq.1 hname).symm
  · rintro rfl
    cases role <;> rfl

theorem Role.hash_not_mem (role : Role) : '#' ∉ role.name.toList := by
  cases role <;> decide

theorem readCount?_eq_some_iff {cs : List Char} {n : Nat} :
    readCount? cs = some n ↔
      ∃ sign ds, cs = sign ++ ds ∧ (sign = [] ∨ sign = ['+']) ∧ readNumber? ds = some n := by
  have hplus : ∀ ds, readNumber? ('+' :: ds) ≠ some n := by
    intro ds h
    obtain ⟨-, hdigits, -⟩ := readNumber?_eq_some_iff.1 h
    exact absurd (hdigits '+' List.mem_cons_self) (by decide)
  rw [readCount?.eq_def]
  split
  · rename_i ds
    constructor
    · exact fun h => ⟨['+'], ds, rfl, .inr rfl, h⟩
    · rintro ⟨sign, ds', hcs, rfl | rfl, h⟩
      · rw [List.nil_append] at hcs
        exact absurd (hcs ▸ h) (hplus ds)
      · cases hcs
        exact h
  · rename_i hsigned
    constructor
    · exact fun h => ⟨[], cs, rfl, .inl rfl, h⟩
    · rintro ⟨sign, ds, rfl, rfl | rfl, h⟩
      · exact h
      · exact absurd rfl (hsigned ds)

namespace PatternId

theorem toList_text (id : PatternId) :
    id.text.toList = id.role.name.toList ++ '#' :: Nat.toDigits 10 id.index := by
  simp [text, toString, String.toList_append]

/-- The role, a `#` and the index in decimal digits, with zeros or one plus sign before them if
need be. -/
def SpelledAs (id : PatternId) (s : String) : Prop :=
  ∃ sign digits, s.toList = id.role.name.toList ++ '#' :: (sign ++ digits) ∧
    (sign = [] ∨ sign = ['+']) ∧ digits ≠ [] ∧ (∀ d ∈ digits, d.isDigit = true) ∧
    digitsValue digits = id.index ∧ id.index < wordLimit

theorem ofText?_eq_some_iff {s : String} {id : PatternId} :
    ofText? s = some id ↔ id.SpelledAs s := by
  have hread : ofText? s = some id ↔ ∃ role index, splitFirst? '#' s.toList = some (role, index) ∧
      Role.ofName? (String.ofList role) = some id.role ∧ readCount? index = some id.index := by
    rw [ofText?]
    cases splitFirst? '#' s.toList with
    | none => simp
    | some parts =>
      obtain ⟨role, index⟩ := parts
      cases hrole : Role.ofName? (String.ofList role) <;> cases hindex : readCount? index <;>
        simp [hrole, hindex, PatternId.ext_iff]
  rw [hread]
  constructor
  · rintro ⟨role, index, hsplit, hrole, hindex⟩
    obtain ⟨sign, digits, rfl, hsign, hnumber⟩ := readCount?_eq_some_iff.1 hindex
    refine ⟨sign, digits, ?_, hsign, readNumber?_eq_some_iff.1 hnumber⟩
    rw [(splitFirst?_eq_some_iff.1 hsplit).1, ← Role.ofName?_eq_some_iff.1 hrole,
      String.toList_ofList]
  · rintro ⟨sign, digits, hs, hsign, hnumber⟩
    refine ⟨id.role.name.toList, sign ++ digits, ?_, ?_, ?_⟩
    · exact splitFirst?_eq_some_iff.2 ⟨hs, id.role.hash_not_mem⟩
    · exact Role.ofName?_eq_some_iff.2 String.ofList_toList
    · exact readCount?_eq_some_iff.2
        ⟨sign, digits, rfl, hsign, readNumber?_eq_some_iff.2 hnumber⟩

theorem ofText?_text {id : PatternId} (h : id.index < wordLimit) : ofText? id.text = some id :=
  ofText?_eq_some_iff.2 ⟨[], Nat.toDigits 10 id.index, id.toList_text, .inl rfl,
    Nat.toDigits_ne_nil, fun _ hd => isDigit_of_mem_toDigits hd, digitsValue_toDigits id.index, h⟩

theorem text_injective : Function.Injective text := by
  intro a b h
  have hsplit : ∀ id : PatternId,
      splitFirst? '#' id.text.toList = some (id.role.name.toList, Nat.toDigits 10 id.index) :=
    fun id => splitFirst?_eq_some_iff.2 ⟨id.toList_text, id.role.hash_not_mem⟩
  have hparts := (hsplit a).symm.trans ((congrArg _ (congrArg _ h)).trans (hsplit b))
  obtain ⟨hrole, hindex⟩ := Prod.mk.inj (Option.some.inj hparts)
  have hname := Role.ofName?_eq_some_iff.2 (String.toList_inj.1 hrole)
  refine PatternId.ext ?_ ?_
  · exact Option.some.inj ((Role.ofName?_eq_some_iff.2 rfl).symm.trans hname)
  · rw [← digitsValue_toDigits a.index, hindex, digitsValue_toDigits]

end PatternId

/-! ## Requests -/

section Requests

variable {rule : Rule} {language : String}

theorem mem_inlineRules_iff {d : InlineRule} :
    d ∈ inlineRules rule language ↔ d.language = language ∧
      ∃ p, (rule.patterns d.id.role)[d.id.index]? = some p ∧ p.structural = some d.pattern := by
  have hall : ∀ role : Role, role ∈ Role.all := by intro role; cases role <;> decide
  simp only [inlineRules, List.mem_flatMap, List.mem_filterMap, Prod.exists,
    List.mk_mem_zipIdx_iff_getElem?, Option.map_eq_some_iff, hall, true_and]
  constructor
  · rintro ⟨role, p, index, hp, pattern, hpattern, rfl⟩
    exact ⟨rfl, p, hp, hpattern⟩
  · rintro ⟨rfl, p, hp, hpattern⟩
    exact ⟨d.id.role, p, d.id.index, hp, d.pattern, hpattern, rfl⟩

/-- The requests for one role. -/
def roleRules (rule : Rule) (language : String) (role : Role) : List InlineRule :=
  (rule.patterns role).zipIdx.filterMap fun e =>
    e.1.structural.map fun pattern => ⟨⟨role, e.2⟩, language, pattern⟩

theorem inlineRules_eq (rule : Rule) (language : String) :
    inlineRules rule language = Role.all.flatMap (roleRules rule language) := rfl

/-- Their ids are some of the places of the patterns, in order. -/
theorem roleRules_ids (rule : Rule) (language : String) (role : Role) :
    ((roleRules rule language role).map (·.id)).Sublist
      ((List.range' 0 (rule.patterns role).length).map (PatternId.mk role)) := by
  rw [← List.zipIdx_map_snd, List.map_map, roleRules]
  induction (rule.patterns role).zipIdx with
  | nil => exact .slnil
  | cons e es ih =>
    rw [List.filterMap_cons, List.map_cons]
    split
    · exact ih.cons _
    · rename_i d hd
      obtain ⟨pattern, -, rfl⟩ := Option.map_eq_some_iff.1 hd
      exact ih.cons_cons _

theorem inlineRules_nodup (rule : Rule) (language : String) :
    ((inlineRules rule language).map (·.id)).Nodup := by
  have hrole : ∀ role, ((roleRules rule language role).map (·.id)).Nodup := by
    intro role
    refine (roleRules_ids rule language role).nodup (List.Nodup.map ?_ List.nodup_range')
    exact fun i j h => congrArg PatternId.index h
  have hapart : ∀ role, ∀ id ∈ (roleRules rule language role).map (·.id), id.role = role := by
    intro role id hid
    obtain ⟨i, -, rfl⟩ := List.mem_map.1 ((roleRules_ids rule language role).subset hid)
    rfl
  rw [inlineRules_eq, List.map_flatMap, List.nodup_flatMap]
  refine ⟨fun role _ => hrole role, ?_⟩
  refine List.Pairwise.imp (fun {a b} hne => ?_) (by decide : Role.all.Pairwise (· ≠ ·))
  exact fun id ha hb => hne ((hapart a id ha).symm.trans (hapart b id hb))

theorem Role.name_plain (role : Role) : ∃ c cs, role.name.toList = c :: cs ∧
    (c = 'a' ∨ c = 'c') ∧ ∀ d ∈ cs, Yaml.isMarkChar d = true := by
  cases role with
  | acquire => exact ⟨'a', "cquire".toList, by decide, .inl rfl, List.all_eq_true.1 (by decide)⟩
  | cleanup => exact ⟨'c', "leanup".toList, by decide, .inr rfl, List.all_eq_true.1 (by decide)⟩

/-- The id stands as it is on the first line of its request. -/
theorem InlineRule.text_eq (d : InlineRule) :
    ∃ rest, d.text = "id: " ++ d.id.text ++ "\n" ++ rest := by
  obtain ⟨c, cs, hname, hc, hcs⟩ := d.id.role.name_plain
  have htext : d.id.text.toList = c :: (cs ++ '#' :: Nat.toDigits 10 d.id.index) := by
    rw [d.id.toList_text, hname, List.cons_append]
  have hmarks : ∀ e ∈ cs ++ '#' :: Nat.toDigits 10 d.id.index, Yaml.isMarkChar e = true := by
    refine List.forall_mem_append.2 ⟨hcs, List.forall_mem_cons.2 ⟨by decide, fun e he => ?_⟩⟩
    rw [Yaml.isMarkChar, Char.isAlphanum, isDigit_of_mem_toDigits he, Bool.or_true, Bool.true_or]
  rw [InlineRule.text, Yaml.field_plain "id" htext hc hmarks]
  exact ⟨_, by simp only [String.append_assoc]; rfl⟩

end Requests

/-! ## Answers -/

/-- The lines are blank or hold one record each. -/
inductive Carries : List (List Char) → List StreamRecord → Prop where
  | nil : Carries [] []
  | blank {line : List Char} {lines : List (List Char)} {records : List StreamRecord}
    (hblank : AllBlank line) (h : Carries lines records) : Carries (line :: lines) records
  | record {line : List Char} {r : StreamRecord} {lines : List (List Char)}
    {records : List StreamRecord} (hrecord : StreamRecord.ofLine (trim line) = .ok r)
    (h : Carries lines records) : Carries (line :: lines) (r :: records)

/-- The match that a record reports under an id. -/
def StreamRecord.matchOf (r : StreamRecord) (ruleId : String) (id : PatternId) : RawMatch where
  ruleId := ruleId
  role := id.role
  pattern := id.index
  span := r.span
  bindings := Bindings.ofPairs r.captures
  text := r.text
  mode := .structural

/-- One match for each record that names a pattern, in order; other records report none. -/
inductive Reported (ruleId : String) : List StreamRecord → List RawMatch → Prop where
  | nil : Reported ruleId [] []
  | found {r : StreamRecord} {s : String} {id : PatternId} {records : List StreamRecord}
    {found : List RawMatch} (hid : r.ruleId = some s) (hspelled : id.SpelledAs s)
    (h : Reported ruleId records found) :
    Reported ruleId (r :: records) (r.matchOf ruleId id :: found)
  | passed {r : StreamRecord} {records : List StreamRecord} {found : List RawMatch}
    (hid : ∀ s id, r.ruleId = some s → ¬ PatternId.SpelledAs id s)
    (h : Reported ruleId records found) : Reported ruleId (r :: records) found

theorem Reported.cons {ruleId : String} {records : List StreamRecord} {found : List RawMatch}
    (h : Reported ruleId records found) (r : StreamRecord) :
    Reported ruleId (r :: records) ((r.toMatch? ruleId).toList ++ found) := by
  rw [StreamRecord.toMatch?]
  cases hid : r.ruleId.bind PatternId.ofText? with
  | none =>
    refine .passed (fun s id hs hspelled => ?_) h
    rw [hs, Option.bind_some, PatternId.ofText?_eq_some_iff.2 hspelled] at hid
    cases hid
  | some id =>
    obtain ⟨s, hs, hread⟩ := Option.bind_eq_some_iff.1 hid
    exact .found hs (PatternId.ofText?_eq_some_iff.1 hread) h

/-- The record on a line, without the blanks around it. -/
def recordOf (line : List Char) : Option (List Char) :=
  if (trim line).isEmpty then none else some (trim line)

theorem recordLines_lined {lines : List (List Char)} (h : ∀ line ∈ lines, '\n' ∉ line)
    (closed : Bool) : recordLines (lined lines closed) = lines.filterMap recordOf := by
  have hreturn : ∀ line, recordOf (dropReturn line) = recordOf line := by
    intro line
    rw [recordOf, recordOf, trim_dropReturn]
  have heq : ∀ all : List (List Char), (all.map trim).filter (!·.isEmpty) = all.filterMap recordOf := by
    intro all
    induction all with
    | nil => rfl
    | cons line all ih =>
      rw [List.map_cons, List.filter_cons, List.filterMap_cons, ih, recordOf]
      cases (trim line).isEmpty <;> rfl
  rw [recordLines, heq, filterMap_textLines rfl hreturn h]

theorem recordOf_blank {line : List Char} (h : AllBlank line) : recordOf line = none := by
  rw [recordOf, if_pos (List.isEmpty_iff.2 (trim_eq_nil_iff.2 h))]

theorem recordOf_visible {line : List Char} (h : ¬ AllBlank line) :
    recordOf line = some (trim line) := by
  rw [recordOf, if_neg fun hnone => h (trim_eq_nil_iff.1 (List.isEmpty_iff.1 hnone))]

/-- Line by line: a blank one adds nothing, a record adds the match that it reports. -/
theorem Carries.parseLines_eq {lines : List (List Char)} {records : List StreamRecord}
    (h : Carries lines records) (ruleId : String) :
    ∃ found, parseLines ruleId (lines.filterMap recordOf) = .ok found ∧
      Reported ruleId records found := by
  induction h with
  | nil => exact ⟨[], rfl, .nil⟩
  | blank hblank _ ih => rwa [List.filterMap_cons_none (recordOf_blank hblank)]
  | @record line r lines records hrecord _ ih =>
    obtain ⟨found, hfound, hreported⟩ := ih
    have hvisible : ¬ AllBlank line := by
      intro hblank
      have hempty : (StreamRecord.ofLine []).toOption = none := by decide +kernel
      rw [← trim_eq_nil_iff.2 hblank, hrecord] at hempty
      cases hempty
    rw [List.filterMap_cons_some (recordOf_visible hvisible), parseLines, hrecord, hfound]
    exact ⟨_, rfl, hreported.cons r⟩

theorem parseLines_error {lines : List (List Char)} {line : List Char} (hmem : line ∈ lines)
    (hbad : ∀ r, StreamRecord.ofLine line ≠ .ok r) (ruleId : String) :
    ∃ e, parseLines ruleId lines = .error e := by
  induction lines with
  | nil => cases hmem
  | cons first lines ih =>
    rw [parseLines]
    cases hfirst : StreamRecord.ofLine first with
    | error e => exact ⟨e, rfl⟩
    | ok r =>
      rcases List.mem_cons.1 hmem with rfl | hmem
      · exact absurd hfirst (hbad r)
      · obtain ⟨e, he⟩ := ih hmem
        rw [he]
        exact ⟨e, rfl⟩

/-- A rule asks for each of its structural patterns once, under an id of its own that is read back
as the role and the place of the pattern. An output of records and blank lines reports, in order,
one match for each record whose id stands for a role and a place, among them all ids of the
request; any other line makes the whole output fail. The places of patterns are counted in 64
bits. -/
theorem inline_ids_read_back (rule : Rule)
    (hfits : ∀ role, (rule.patterns role).length ≤ wordLimit) (language : String) :
    ((inlineRules rule language).map fun d => d.id.text).Nodup ∧
    (∀ d, d ∈ inlineRules rule language ↔ d.language = language ∧
      ∃ p, (rule.patterns d.id.role)[d.id.index]? = some p ∧ p.structural = some d.pattern) ∧
    (∀ d ∈ inlineRules rule language,
      (∃ rest, d.text = "id: " ++ d.id.text ++ "\n" ++ rest) ∧
      PatternId.ofText? d.id.text = some d.id ∧
      ∀ id : PatternId, id.SpelledAs d.id.text ↔ id = d.id) ∧
    ∀ (lines : List (List Char)) (closed : Bool), (∀ line ∈ lines, '\n' ∉ line) →
      (∀ records, Carries lines records → ∃ found,
        parseStream rule.id (lined lines closed) = .ok found ∧ Reported rule.id records found) ∧
      ((∃ line ∈ lines, ¬ AllBlank line ∧ ∀ r, StreamRecord.ofLine (trim line) ≠ .ok r) →
        ∃ e, parseStream rule.id (lined lines closed) = .error e) := by
  refine ⟨?_, fun d => mem_inlineRules_iff, fun d hd => ⟨d.text_eq, ?_⟩,
    fun lines closed hlines => ⟨fun records hrecords => ?_, ?_⟩⟩
  · have hids := (inlineRules_nodup rule language).map PatternId.text_injective
    rwa [List.map_map] at hids
  · obtain ⟨-, p, hp, -⟩ := mem_inlineRules_iff.1 hd
    obtain ⟨hlt, -⟩ := List.getElem?_eq_some_iff.1 hp
    have hread := PatternId.ofText?_text (Nat.lt_of_lt_of_le hlt (hfits d.id.role))
    refine ⟨hread, fun id => ?_⟩
    rw [← PatternId.ofText?_eq_some_iff, hread, Option.some.injEq, eq_comm]
  · rw [parseStream, recordLines_lined hlines]
    exact hrecords.parseLines_eq rule.id
  · rintro ⟨line, hmem, hvisible, hbad⟩
    rw [parseStream, recordLines_lined hlines]
    exact parseLines_error (List.mem_filterMap.2 ⟨line, hmem, recordOf_visible hvisible⟩) hbad
      rule.id

/-! ## A request and its answers -/

/-- Two structural patterns for an acquisition with a textual one between them, and one for a
cleanup. -/
def intervalRule : Rule where
  id := "js.timer.interval"
  language := .javascript
  kind := "timer"
  category := "timers"
  severity := .warning
  acquire := [
    ⟨some "const $T = setInterval($$$ARGS)", none⟩,
    ⟨none, some { source := "tick", expanded := "tick", regex := Regex.text "tick", calls := [] }⟩,
    ⟨some "$T = setInterval($$$ARGS)", none⟩]
  cleanup := [⟨some "clearInterval($T)", none⟩]
  anchors := ["setInterval"]
  summary := "Interval is never cleared"
  remediation := none
  contexts := [.sameScope]

/-- A record of two bytes under an id. -/
def recordLine (id : String) : List Char :=
  "\x7b\"text\": \"t\", \"range\": \x7b\"byteOffset\": \x7b\"start\": 1, \"end\": 2\x7d\x7d, \"ruleId\": \"".toList ++
    id.toList ++ "\"\x7d".toList

def recordUnder (id : String) : StreamRecord := { text := "t", span := ⟨1, 2⟩, ruleId := some id }

def intervalLines : List (List Char) :=
  [recordLine "acquire#2", [' ', '\t'], recordLine "unrelated", recordLine "cleanup#0"]

theorem intervalLines_carry : Carries intervalLines
    [recordUnder "acquire#2", recordUnder "unrelated", recordUnder "cleanup#0"] :=
  .record (by decide +kernel) (.blank (List.all_eq_true.1 (by decide)) (.record (by decide +kernel)
    (.record (by decide +kernel) .nil)))

theorem interval_ids_read_back :
    (∀ role, (intervalRule.patterns role).length ≤ wordLimit) ∧
    (inlineRules intervalRule "javascript").map (fun d => d.id.text) =
      ["acquire#0", "acquire#2", "cleanup#0"] ∧
    Carries intervalLines
      [recordUnder "acquire#2", recordUnder "unrelated", recordUnder "cleanup#0"] ∧
    ∃ found, parseStream intervalRule.id (lined intervalLines true) = .ok found ∧
      Reported intervalRule.id
        [recordUnder "acquire#2", recordUnder "unrelated", recordUnder "cleanup#0"] found := by
  have hfits : ∀ role, (intervalRule.patterns role).length ≤ wordLimit := by
    intro role
    cases role <;> decide
  have hbreaks : ∀ line ∈ intervalLines, '\n' ∉ line := by decide +kernel
  obtain ⟨-, -, -, hstream⟩ := inline_ids_read_back intervalRule hfits "javascript"
  exact ⟨hfits, by decide +kernel, intervalLines_carry,
    (hstream intervalLines true hbreaks).1 _ intervalLines_carry⟩

/-- A record under an id that is not in the request is reported like the others, at the place that
its id names, although the rule has no pattern there. -/
theorem unrequested_id_reported :
    (∀ d ∈ inlineRules intervalRule "javascript", d.id.text ≠ "acquire#7") ∧
    Carries [recordLine "acquire#7"] [recordUnder "acquire#7"] ∧
    parseStream intervalRule.id (lined [recordLine "acquire#7"] true) =
      .ok [(recordUnder "acquire#7").matchOf intervalRule.id ⟨.acquire, 7⟩] :=
  ⟨by decide +kernel, .record (by decide +kernel) .nil, by decide +kernel⟩

end LeakScan
