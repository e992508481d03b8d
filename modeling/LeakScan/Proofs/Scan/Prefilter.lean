import LeakScan.Proofs.Scan.Listing
import LeakScan.Proofs.Scan.Silent

/-!
# LeakScan.Proofs.Scan.Prefilter

The search for anchors never changes what is found.

* `ToolEnd.Answers` — a search that ended well and whose output was read whole.
* `Scanner.selectFiles_cases` — the files that such a search lists are kept, or all files are.
* `Workspace.SearchExact` — what the search program is trusted with.
* `Scanner.found_selectFiles` — the files that are left out are silent.
* `Scanner.prefilter_neutral` — a scan with the search and one without agree.
-/

namespace LeakScan

open Text

/-- The program ended by itself with a code of a search that worked, and no output was lost. -/
inductive ToolEnd.Answers : ToolEnd → List UInt8 → Prop
  | exits {code : Option Nat} {stdout stderr : List Read} (hcode : code = some 0 ∨ code = some 1)
      (hout : (capture captureLimit stdout).truncated = false)
      (herr : (capture captureLimit stderr).truncated = false) :
      Answers (.exits code stdout stderr) (delivered stdout)

theorem ToolCall.run_answers {tools : Toolbox} {cancelled : Bool} {timeout : Nat} {call : ToolCall}
    {output : ToolOutput} (h : call.run tools cancelled timeout = .ok output)
    (hcode : output.code = some 0 ∨ output.code = some 1) (hwhole : output.truncated = false) :
    cancelled = false ∧ (tools call).Answers output.stdout := by
  rw [run] at h
  split at h
  · cases h
  rename_i hrunning
  refine ⟨by simpa using hrunning, ?_⟩
  split at h
  · cases h
  · cases h
  · cases h
  · rename_i code stdout stderr hend
    cases h
    obtain ⟨hout, herr⟩ := Bool.or_eq_false_iff.1 hwhole
    simp only [capture_bytes hout, hend]
    exact .exits hcode hout herr

/-- Files are left out only on the word of a search that answers. -/
theorem prefilter_cases (tools : Toolbox) (available : Bool) (timeout : Nat) (cancelled : Bool)
    (root : String) (files anchors : List String) :
    (prefilter tools available timeout cancelled root files anchors).files = files ∨
      available = true ∧ cancelled = false ∧ anchors ≠ [] ∧
      ∃ output : ToolOutput, (tools (searchCall root anchors)).Answers output.stdout ∧
        (prefilter tools available timeout cancelled root files anchors).files =
          files.filter fun f => (hitsOf root output).contains (relativeKey root f) := by
  rw [prefilter]
  split
  · exact .inl rfl
  rename_i hneeded
  simp only [Bool.or_eq_true, Bool.not_eq_true', List.isEmpty_iff, not_or,
    Bool.not_eq_false] at hneeded
  obtain ⟨⟨havailable, hanchors⟩, -⟩ := hneeded
  split
  · exact .inl rfl
  rename_i output hrun
  split
  · rename_i hgood
    simp only [Bool.and_eq_true, Bool.or_eq_true, beq_iff_eq, Bool.not_eq_true'] at hgood
    obtain ⟨hrunning, hanswers⟩ := ToolCall.run_answers hrun hgood.1 hgood.2
    exact .inr ⟨havailable, hrunning, hanchors, output, hanswers, rfl⟩
  · exact .inl rfl

/-- The search program lists, each on a line of its own, the files below the root that hold an
anchor, and nothing else. -/
def Workspace.SearchExact (w : Workspace) (root : String) (anchors : List String) : Prop :=
  ∀ bytes, (w.tools (searchCall root anchors)).Answers bytes →
    ∃ listed : List String, bytes = listed.flatMap (fun path => encode path ++ [0x0A]) ∧
      ∀ path, path ∈ listed ↔ path ∈ pathsBelow w.files root ∧ HoldsAnchor w.files anchors path

/-! ## Reports -/

/-- Two reports on the same leaks. -/
structure Report.SameLeaks (a b : Report) : Prop where
  findings : a.findings = b.findings
  categories : a.categories = b.categories
  matcherMode : a.summary.matcherMode = b.summary.matcherMode
  exitCode : ∀ failOnWarning, a.exitCode failOnWarning = b.exitCode failOnWarning

/-- Two scans that fail for the same reason, or report the same leaks. -/
def SameOutcome : Except Failure Report → Except Failure Report → Prop
  | .ok a, .ok b => a.SameLeaks b
  | .error e, .error e' => e = e'
  | _, _ => False

namespace Scanner

variable {s : Scanner} {w : Workspace} {cancelled : Bool}

/-- A report tells of leaks what the totals do. -/
theorem report_sameLeaks (s : Scanner) {a b : Totals} (h : a.found = b.found)
    (lints lints' : List LintFinding) (before : Option Counts) (cancelled : Bool)
    (startedAt : String) (elapsed : Nat) :
    (s.report a lints before cancelled startedAt elapsed).SameLeaks
      (s.report b lints' before cancelled startedAt elapsed) := by
  simp only [Totals.found, Totals.Found.mk.injEq] at h
  obtain ⟨htallies, hcategories, hstructural, htextual⟩ := h
  have hfindings : a.findings s.catalog s.configuration.escalationThreshold =
      b.findings s.catalog s.configuration.escalationThreshold := by
    rw [Totals.findings, Totals.findings, htallies]
  constructor
  · exact hfindings
  · exact hcategories
  · simp only [report, matcherMode, hstructural, htextual]
  · intro failOnWarning
    exact congrArg (Report.exitCodeOf failOnWarning) hfindings

/-! ## Selected files -/

theorem selectFiles_cases (s : Scanner) (w : Workspace) (cancelled : Bool)
    (files : List DiscoveredFile) :
    (s.selectFiles w cancelled files).1 = files ∨
      s.searchAvailable = true ∧ cancelled = false ∧ s.catalog.anchors ≠ [] ∧
      ∃ output : ToolOutput,
        (w.tools (searchCall s.configuration.root s.catalog.anchors)).Answers output.stdout ∧
        (s.selectFiles w cancelled files).1 = files.filter fun f =>
          (hitsOf s.configuration.root output).contains
            (relativeKey s.configuration.root f.path) := by
  rw [selectFiles]
  rcases prefilter_cases w.tools s.searchAvailable s.configuration.toolTimeout cancelled
    s.configuration.root (files.map (·.path)) s.catalog.anchors with
    hall | ⟨havailable, hrunning, hanchors, output, hanswers, hkept⟩
  · left
    rw [hall]
    refine List.filter_eq_self.2 fun f hf => ?_
    exact List.contains_iff_mem.2 (List.mem_map_of_mem hf)
  · refine .inr ⟨havailable, hrunning, hanchors, output, hanswers, ?_⟩
    rw [hkept]
    refine List.filter_congr fun f hf => ?_
    rw [Bool.eq_iff_iff, List.contains_iff_mem, List.mem_filter]
    exact and_iff_right (List.mem_map_of_mem hf)

/-- A search that does not answer leaves all files in their order. -/
theorem selectFiles_of_not_answers {files : List DiscoveredFile}
    (h : s.searchAvailable = false ∨ cancelled = true ∨
      ∀ bytes, ¬ (w.tools (searchCall s.configuration.root s.catalog.anchors)).Answers bytes) :
    (s.selectFiles w cancelled files).1 = files := by
  rcases s.selectFiles_cases w cancelled files with hall | ⟨havailable, hrunning, -, output, hans, -⟩
  · exact hall
  · rcases h with h | h | h
    · rw [h] at havailable
      cases havailable
    · rw [h] at hrunning
      cases hrunning
    · exact absurd hans (h _)

/-- A file that an exact search does not list has no anchor in its text. -/
theorem absent_of_not_listed {files : List DiscoveredFile}
    (hfiles : s.discoverFiles w = .ok files) {listed : List String} {output : ToolOutput}
    (hout : output.stdout = listed.flatMap fun path => encode path ++ [0x0A])
    (hlisted : ∀ path, path ∈ listed ↔ path ∈ pathsBelow w.files s.configuration.root ∧
      HoldsAnchor w.files s.catalog.anchors path)
    (hlines : ∀ path ∈ pathsBelow w.files s.configuration.root, '\n' ∉ path.toList)
    {f : DiscoveredFile} (hf : f ∈ files)
    (hdropped : (hitsOf s.configuration.root output).contains
      (relativeKey s.configuration.root f.path) = false) {source : Source}
    (hload : s.sourceOf w f = .ok source) : Absent s.catalog.anchors source.text := by
  intro a ha
  by_contra hoccurs
  have hholds := holdsAnchor_of_load hload ha (by simpa using hoccurs)
  obtain ⟨hbelow, hkept⟩ : f.path ∈ pathsBelow w.files s.configuration.root ∧ EndsKept f.path := by
    rw [discoverFiles] at hfiles
    split at hfiles
    · cases hfiles
    · exact mem_pathsBelow_of_discover hfiles hf
  have hhit := mem_hitsOf s.configuration.root hout
    (fun path hpath => hlines path ((hlisted path).1 hpath).1) ((hlisted _).2 ⟨hbelow, hholds⟩) hkept
  rw [List.contains_iff_mem.2 hhit] at hdropped
  cases hdropped

/-- Whatever an exact search leaves out, nothing was to be found there. -/
theorem found_selectFiles
    (hexact : w.SearchExact s.configuration.root s.catalog.anchors)
    (hlines : ∀ path ∈ pathsBelow w.files s.configuration.root, '\n' ∉ path.toList)
    {files : List DiscoveredFile} (hfiles : s.discoverFiles w = .ok files) :
    (s.scanFiles w cancelled (s.selectFiles w cancelled files).1).found =
      (s.scanFiles w cancelled files).found := by
  rcases s.selectFiles_cases w cancelled files with hall | ⟨-, -, hanchors, output, hans, hkept⟩
  · rw [hall]
  · obtain ⟨listed, hout, hlisted⟩ := hexact _ hans
    rw [hkept]
    refine found_scanFiles_filter fun f hf hdropped => ?_
    refine scanFile_silent hanchors fun source hload => ?_
    exact absent_of_not_listed hfiles hout hlisted hlines hf hdropped hload

/-! ## Scans without a search -/

/-- The scanner that looks at all files. -/
def unsearched (s : Scanner) : Scanner :=
  { s with configuration := { s.configuration with useSearch := false }, searchAvailable := false }

theorem ofCatalog_configuration (w : Workspace) (c : Configuration) (catalog : Catalog) :
    (ofCatalog w c catalog).configuration = c := rfl

theorem ofCatalog_catalog (w : Workspace) (c : Configuration) (catalog : Catalog) :
    (ofCatalog w c catalog).catalog = catalog.select c.categories := rfl

theorem run_ok {before : Option Counts} {files : List DiscoveredFile} {startedAt : String}
    {elapsed : Nat} (hbaseline : s.loadBaseline w = .ok before)
    (hfiles : s.discoverFiles w = .ok files) :
    ∃ (notes : List Diagnostic) (lints : List LintFinding), s.run w cancelled startedAt elapsed =
      .ok (s.report (notes.foldl Totals.addDiagnostic
        (s.scanFiles w cancelled (s.selectFiles w cancelled files).1)) lints before cancelled
        startedAt elapsed) := by
  rw [run, hbaseline, hfiles]
  exact ⟨_, _, rfl⟩

theorem run_unsearched (s : Scanner)
    (hexact : w.SearchExact s.configuration.root s.catalog.anchors)
    (hlines : ∀ path ∈ pathsBelow w.files s.configuration.root, '\n' ∉ path.toList)
    (startedAt : String) (elapsed : Nat) :
    SameOutcome (s.run w cancelled startedAt elapsed)
      (s.unsearched.run w cancelled startedAt elapsed) := by
  have hbaseline : s.unsearched.loadBaseline w = s.loadBaseline w := rfl
  have hdiscover : s.unsearched.discoverFiles w = s.discoverFiles w := rfl
  cases hbefore : s.loadBaseline w with
  | error e => rw [run, run, hbaseline, hbefore]; rfl
  | ok before =>
    cases hfiles : s.discoverFiles w with
    | error e => rw [run, run, hbaseline, hdiscover, hbefore, hfiles]; rfl
    | ok files =>
      have hall : (s.unsearched.selectFiles w cancelled files).1 = files :=
        selectFiles_of_not_answers (.inl rfl)
      have hscan : s.unsearched.scanFiles w cancelled files = s.scanFiles w cancelled files := rfl
      obtain ⟨notes, lints, hrun⟩ := run_ok hbefore hfiles
      obtain ⟨notes', lints', hrun'⟩ :=
        run_ok (hbaseline.trans hbefore) (hdiscover.trans hfiles)
      rw [hrun, hrun', hall, hscan]
      refine s.report_sameLeaks ?_ lints lints' before cancelled startedAt elapsed
      rw [Totals.found_foldl_addDiagnostic, Totals.found_foldl_addDiagnostic]
      exact found_selectFiles hexact hlines hfiles

/-- With a search that lists exactly the files with an anchor, a scan reports the same leaks as one
that looks at all files. Two laws are behind it. On a file without any anchor no rule is tried, by
whatever means, and nothing is found in it. And a search that is missing, cancelled, fails, is killed
or loses a part of its output leaves out nothing. -/
theorem prefilter_neutral (w : Workspace) (c : Configuration) (catalog : Catalog)
    (cancelled : Bool) (startedAt : String) (elapsed : Nat) :
    (w.SearchExact c.root (catalog.select c.categories).anchors →
      (∀ path ∈ pathsBelow w.files c.root, '\n' ∉ path.toList) →
      SameOutcome
        ((ofCatalog w { c with useSearch := true } catalog).run w cancelled startedAt elapsed)
        ((ofCatalog w { c with useSearch := false } catalog).run w cancelled startedAt elapsed)) ∧
    (∀ (s : Scanner) (f : DiscoveredFile) (source : Source), s.catalog.anchors ≠ [] →
      s.sourceOf w f = .ok source → Absent s.catalog.anchors source.text →
      (∀ structural, matchFile structural source false (s.catalog.rulesFor source.language) =
        .ok {}) ∧
      (s.scanFile w cancelled f).found = .nothing) ∧
    ∀ (s : Scanner) (files : List DiscoveredFile),
      (s.searchAvailable = false ∨ cancelled = true ∨
        ∀ bytes, ¬ (w.tools (searchCall s.configuration.root s.catalog.anchors)).Answers bytes) →
      (s.selectFiles w cancelled files).1 = files := by
  refine ⟨fun hexact hlines => ?_, fun s f source hanchors hload habsent => ⟨fun structural => ?_, ?_⟩,
    fun s files h => selectFiles_of_not_answers h⟩
  · have hoff : ofCatalog w { c with useSearch := false } catalog =
        (ofCatalog w { c with useSearch := true } catalog).unsearched := rfl
    rw [hoff]
    refine run_unsearched _ ?_ ?_ startedAt elapsed
    · rw [ofCatalog_configuration, ofCatalog_catalog]
      exact hexact
    · rw [ofCatalog_configuration]
      exact hlines
  · exact matchFile_of_absent structural source fun r hr =>
      Catalog.anchorsPresent_of_absent hanchors habsent (List.mem_filter.1 hr).1
  · refine scanFile_silent hanchors fun source' hload' => ?_
    rw [hload] at hload'
    cases hload'
    exact habsent

/-! ## A file that is left out

One of two scripts starts a timer. The search lists it, and the other is not looked at. -/

def intervals : Catalog where
  rules := [{
    id := "js.timer.interval"
    language := .javascript
    kind := "timer"
    category := "timers"
    severity := .warning
    acquire := [⟨none, (TextualPattern.ofSource "setInterval\\(").toOption⟩]
    cleanup := [⟨none, (TextualPattern.ofSource "clearInterval\\(").toOption⟩]
    anchors := ["setInterval"]
    summary := "Interval is never cleared"
    remediation := none
    contexts := [.sameScope] }]

def textualOnly : Configuration := { structural := .disabled, excludes := [] }

def scripts (answer : ToolEnd) : Workspace where
  files := .directory
    [("poll.js", .file (encode "setInterval(tick);")), ("tick.js", .file (encode "tick();"))]
  programs := fun call =>
    if call.arguments = ["--version"] then .exits (some 0) [.bytes (encode "ripgrep 14")] []
    else answer

def searched : Workspace := scripts (.exits (some 0) [.bytes (encode "./poll.js\n")] [])

def killed : Workspace := scripts (.exits none [.bytes (encode "./poll.js\n")] [])

def pollFile : DiscoveredFile := ⟨"./poll.js", "poll.js", .javascript⟩

def tickFile : DiscoveredFile := ⟨"./tick.js", "tick.js", .javascript⟩

def tickSource : Source := ⟨"./tick.js", "tick.js", .javascript, "tick();".toList, {}⟩

theorem searched_exact : searched.SearchExact "." (intervals.select {}).anchors := by
  have hanchors : (intervals.select {}).anchors = ["setInterval"] := rfl
  have hpaths : pathsBelow searched.files "." = ["./poll.js", "./tick.js"] := by decide +kernel
  rw [hanchors]
  intro bytes hans
  have hend : searched.tools (searchCall "." ["setInterval"]) =
      .exits (some 0) [.bytes (encode "./poll.js\n")] [] := rfl
  rw [hend] at hans
  cases hans with
  | exits hcode hout herr =>
    refine ⟨["./poll.js"], by decide +kernel, fun path => ?_⟩
    rw [hpaths]
    constructor
    · intro hlisted
      obtain rfl := List.mem_singleton.1 hlisted
      exact ⟨List.mem_cons_self, _, rfl, _, List.mem_cons_self, by decide +kernel⟩
    · rintro ⟨hbelow, content, hread, a, ha, hinfix⟩
      obtain rfl := List.mem_singleton.1 ha
      rcases List.mem_cons.1 hbelow with rfl | htick
      · exact List.mem_cons_self
      · obtain rfl := List.mem_singleton.1 htick
        cases hread
        exact absurd hinfix (by decide +kernel)

theorem tick_left_out :
    searched.SearchExact textualOnly.root (intervals.select textualOnly.categories).anchors ∧
    (∀ path ∈ pathsBelow searched.files textualOnly.root, '\n' ∉ path.toList) ∧
    SameOutcome
      ((ofCatalog searched { textualOnly with useSearch := true } intervals).run searched false "" 0)
      ((ofCatalog searched { textualOnly with useSearch := false } intervals).run searched false ""
        0) ∧
    ((ofCatalog searched textualOnly intervals).selectFiles searched false [pollFile, tickFile]).1 =
      [pollFile] ∧
    ((ofCatalog searched textualOnly intervals).scanFile searched false pollFile).textualMatches =
      1 ∧
    ((ofCatalog searched textualOnly intervals).scanFile searched false tickFile).found = .nothing ∧
    ((ofCatalog killed textualOnly intervals).selectFiles killed false [pollFile, tickFile]).1 =
      [pollFile, tickFile] := by
  obtain ⟨hrun, hsilent, -⟩ := prefilter_neutral searched textualOnly intervals false "" 0
  have hlines : ∀ path ∈ pathsBelow searched.files textualOnly.root, '\n' ∉ path.toList := by
    decide +kernel
  refine ⟨searched_exact, hlines, hrun searched_exact hlines, by decide +kernel, by decide +kernel,
    ?_, ?_⟩
  · have hload : (ofCatalog searched textualOnly intervals).sourceOf searched tickFile =
        .ok tickSource := by
      have hbytes : encode "tick();" = [116, 105, 99, 107, 40, 41, 59] := by decide +kernel
      have hfile : searched.files.find "./tick.js" = .ok (.file (encode "tick();")) := rfl
      simp only [sourceOf, tickFile, hfile, hbytes]
      rfl
    have habsent : Absent (ofCatalog searched textualOnly intervals).catalog.anchors
        tickSource.text := by
      unfold Absent
      decide +kernel
    exact (hsilent _ tickFile tickSource (by decide +kernel) hload habsent).2
  · refine (prefilter_neutral killed textualOnly intervals false "" 0).2.2 _ _ (.inr (.inr ?_))
    intro bytes
    show ¬ (ToolEnd.exits none [.bytes (encode "./poll.js\n")] []).Answers bytes
    intro hans
    cases hans with
    | exits hcode hout herr => simp at hcode

end Scanner

end LeakScan
