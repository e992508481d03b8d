import Mathlib.Data.List.TakeDrop
import LeakScan.Match.Structural
import LeakScan.Prefilter

/-!
# LeakScan.Proofs.Tool

What is kept of an output depends on its bytes and on the limit, not on the chunks in which the
bytes arrive.

* `delivered`, `ends` — the bytes of an output, and whether its end is reached.
* `Captured.ofBytes` — what is kept of bytes that arrive at once. `ofBytes_add` is one read, and
  `captureFrom_ofBytes` a whole output.
* `capture_bytes` — an output that was not cut off was read whole.
* `Delivers` — the ways in which a stream of bytes can be read to its end.
* `ToolOutput.Lost` — the output of a program is not all there.
* `run_incomplete_iff_lost` — the output of a call is marked as incomplete, and refused by its
  readers, exactly if something is lost, or if it is still open when it is no longer waited for.
-/

namespace LeakScan

/-! ## Outputs -/

/-- The bytes of an output up to its end, or up to the deadline. -/
def delivered : List Read → List UInt8
  | [] => []
  | .bytes [] :: _ => []
  | .bytes (b :: bs) :: rest => b :: bs ++ delivered rest
  | .interrupted :: rest => delivered rest
  | .failed :: _ => []
  | .pending :: _ => []

/-- Whether the end of an output is reached before the deadline. -/
def ends : List Read → Bool
  | [] => true
  | .bytes [] :: _ => true
  | .bytes (_ :: _) :: rest => ends rest
  | .interrupted :: rest => ends rest
  | .failed :: _ => true
  | .pending :: _ => false

namespace Captured

/-- What is kept of bytes that arrive at once. -/
def ofBytes (limit : Nat) (bytes : List UInt8) : Captured where
  bytes := bytes.take limit
  truncated := decide (limit < bytes.length)

/-- One read. The limit may lie before, inside or behind the chunk; the flag stays once it is set,
because later chunks only make the stream longer. -/
theorem ofBytes_add (limit : Nat) (seen chunk : List UInt8) :
    (ofBytes limit seen).add limit chunk = ofBytes limit (seen ++ chunk) := by
  have hroom : limit - min limit seen.length = limit - seen.length := by omega
  have hkept : (seen ++ chunk).take limit =
      seen.take limit ++ chunk.take (min chunk.length (limit - seen.length)) := by
    rw [List.take_append, Nat.min_comm, ← List.take_eq_take_min]
  have hlost : (limit < seen.length ∨ min chunk.length (limit - seen.length) < chunk.length) ↔
      limit < seen.length + chunk.length := by
    omega
  simp only [add, ofBytes, List.length_take, List.length_append, hroom, hkept, ← hlost,
    Bool.decide_or]

/-- A whole output, read on from what has been seen of it. -/
theorem captureFrom_ofBytes (limit : Nat) (seen : List UInt8) (reads : List Read) :
    captureFrom limit (ofBytes limit seen) reads =
      { ofBytes limit (seen ++ delivered reads) with finished := ends reads } := by
  induction reads using delivered.induct generalizing seen with
  | case1 | case2 | case5 => rw [captureFrom, delivered, ends, List.append_nil]
  | case3 b bs rest ih => rw [captureFrom, ofBytes_add, ih, delivered, ends, List.append_assoc]
  | case4 rest ih => rw [captureFrom, ih, delivered, ends]
  | case6 =>
    rw [captureFrom, delivered, ends, List.append_nil]
    rfl

end Captured

theorem captureFrom_eq (limit : Nat) (reads : List Read) :
    captureFrom limit {} reads = {
      bytes := (delivered reads).take limit
      truncated := decide (limit < (delivered reads).length)
      finished := ends reads } := by
  have hnone : ({} : Captured) = Captured.ofBytes limit [] := by
    simp [Captured.ofBytes]
  rw [hnone, Captured.captureFrom_ofBytes, List.nil_append]
  rfl

theorem capture_eq (limit : Nat) (reads : List Read) :
    capture limit reads = {
      bytes := (delivered reads).take limit
      truncated := decide (limit < (delivered reads).length) || !ends reads
      finished := ends reads } := by
  rw [capture, captureFrom_eq]

/-- An output that was not cut off was read whole. -/
theorem capture_bytes {limit : Nat} {reads : List Read}
    (h : (capture limit reads).truncated = false) :
    (capture limit reads).bytes = delivered reads := by
  rw [capture_eq] at h ⊢
  exact List.take_of_length_le (Nat.not_lt.1 (of_decide_eq_false (Bool.or_eq_false_iff.1 h).1))

/-! ## Streams -/

/-- The size of the buffer that is filled by one read. -/
def bufferSize : Nat := 8192

/-- The reads deliver the bytes: chunks that fit the buffer and interrupted reads in any order,
and then an end or a failure. What would be read after that does not matter. -/
inductive Delivers : List UInt8 → List Read → Prop where
  | exhausted : Delivers [] []
  | ended (later : List Read) : Delivers [] (.bytes [] :: later)
  | failed (later : List Read) : Delivers [] (.failed :: later)
  | interrupted {bytes : List UInt8} {reads : List Read} (h : Delivers bytes reads) :
    Delivers bytes (.interrupted :: reads)
  | chunk {bytes : List UInt8} {reads : List Read} (chunk : List UInt8) (hpos : 0 < chunk.length)
    (hsize : chunk.length ≤ bufferSize) (h : Delivers bytes reads) :
    Delivers (chunk ++ bytes) (.bytes chunk :: reads)

theorem Delivers.delivered_eq {bytes : List UInt8} {reads : List Read} (h : Delivers bytes reads) :
    delivered reads = bytes := by
  induction h with
  | exhausted | ended | failed => rw [delivered]
  | interrupted _ ih => rw [delivered, ih]
  | chunk chunk hpos _ _ ih =>
    obtain ⟨b, bs, rfl⟩ := List.exists_cons_of_length_pos hpos
    rw [delivered, ih]

theorem Delivers.ends {bytes : List UInt8} {reads : List Read} (h : Delivers bytes reads) :
    ends reads = true := by
  induction h with
  | exhausted | ended | failed => rfl
  | interrupted _ ih => exact ih
  | chunk chunk hpos _ _ ih =>
    obtain ⟨b, bs, rfl⟩ := List.exists_cons_of_length_pos hpos
    exact ih

/-! ## Calls -/

/-- Some of the bytes that the program wrote are missing. -/
def ToolOutput.Lost (o : ToolOutput) (out err : List UInt8) : Prop := o.stdout ≠ out ∨ o.stderr ≠ err

theorem ToolOutput.lost_iff {o : ToolOutput} {out err : List UInt8}
    (hout : o.stdout = out.take captureLimit) (herr : o.stderr = err.take captureLimit) :
    o.Lost out err ↔ captureLimit < out.length ∨ captureLimit < err.length := by
  rw [Lost, hout, herr, ne_eq, ne_eq, List.take_eq_self_iff, List.take_eq_self_iff, Nat.not_le,
    Nat.not_le]

section Calls

variable {tools : Toolbox} {call : ToolCall} {code : Option Nat}

section Exits

variable {stdout stderr : List Read}

theorem run_exits (h : tools call = .exits code stdout stderr) (timeout : Nat) :
    call.run tools false timeout = .ok {
      code := code
      stdout := (delivered stdout).take captureLimit
      stderr := (delivered stderr).take captureLimit
      truncated := (decide (captureLimit < (delivered stdout).length) || !ends stdout) ||
        (decide (captureLimit < (delivered stderr).length) || !ends stderr) } := by
  rw [ToolCall.run, h]
  simp only [Bool.false_eq_true, if_false, capture_eq]

theorem run_delivered {out err : List UInt8} (hout : Delivers out stdout)
    (herr : Delivers err stderr) (h : tools call = .exits code stdout stderr) (timeout : Nat) :
    ∃ o, call.run tools false timeout = .ok o ∧ o.code = code ∧
      (o.truncated = true ↔ o.Lost out err) := by
  refine ⟨_, run_exits h timeout, rfl, ?_⟩
  rw [hout.delivered_eq, herr.delivered_eq, hout.ends, herr.ends, ToolOutput.lost_iff rfl rfl]
  simp only [Bool.not_true, Bool.or_false, Bool.or_eq_true, decide_eq_true_iff]

theorem run_open (hopen : ends stdout = false ∨ ends stderr = false)
    (h : tools call = .exits code stdout stderr) (timeout : Nat) :
    ∃ o, call.run tools false timeout = .ok o ∧ o.code = code ∧ o.truncated = true := by
  refine ⟨_, run_exits h timeout, rfl, ?_⟩
  rcases hopen with hopen | hopen <;> simp [hopen]

end Exits

/-- The readers of structural matches refuse an output for being incomplete only if it is marked
so: every other refusal has other words. -/
theorem readOutput_incomplete_iff (o : ToolOutput) (ruleId : String)
    (hcode : StructuralTool.isSuccess o.code = true) :
    StructuralTool.readOutput ruleId o =
      .error (.toolFailed StructuralTool.name "output incomplete") ↔ o.truncated = true := by
  rw [StructuralTool.readOutput, hcode]
  cases o.truncated with
  | true => simp
  | false =>
    simp only [Bool.not_true, Bool.false_eq_true, if_false, iff_false]
    split
    · simp
    · intro h
      injection h with h
      injection h with _ h
      have hfirst := congrArg (fun s => s.toList.head?) h
      simp [toString, String.toList_append] at hfirst

/-- The prefilter keeps all files, with a note, only if the hits are marked as incomplete. -/
theorem prefilter_note_iff {root : String} {files anchors : List String} {timeout : Nat}
    {o : ToolOutput} (hrun : (searchCall root anchors).run tools false timeout = .ok o)
    (hcode : StructuralTool.isSuccess o.code = true) (hfiles : files ≠ []) (hanchors : anchors ≠ []) :
    (prefilter tools true timeout false root files anchors).diagnostic.isSome = true ↔
      o.truncated = true := by
  rw [StructuralTool.isSuccess] at hcode
  rw [prefilter, hrun]
  cases htruncated : o.truncated <;> simp [hfiles, hanchors, hcode, htruncated, skipped]

/-- Each reader that needs all of the output of a call refuses this one exactly if `p`. -/
def RefusedIff (tools : Toolbox) (call : ToolCall) (timeout : Nat) (o : ToolOutput) (p : Prop) :
    Prop :=
  StructuralTool.isSuccess o.code = true →
    (∀ ruleId, StructuralTool.readOutput ruleId o =
      .error (.toolFailed StructuralTool.name "output incomplete") ↔ p) ∧
    ∀ root files anchors, call = searchCall root anchors → files ≠ [] → anchors ≠ [] →
      ((prefilter tools true timeout false root files anchors).diagnostic.isSome = true ↔ p)

theorem refusedIff_of_run {timeout : Nat} {o : ToolOutput} {p : Prop}
    (hrun : call.run tools false timeout = .ok o) (hp : o.truncated = true ↔ p) :
    RefusedIff tools call timeout o p := by
  intro hcode
  refine ⟨fun ruleId => (readOutput_incomplete_iff o ruleId hcode).trans hp, ?_⟩
  rintro root files anchors rfl hfiles hanchors
  exact (prefilter_note_iff hrun hcode hfiles hanchors).trans hp

/-- Of every stream that is read to its end, in whatever way, the first bytes up to the limit are
kept, and the rest is lost without a trace but the mark. So the output of a call is marked as
incomplete, and a reader that needs all of it refuses it, exactly if something of it is lost. What
is still open at the deadline is always incomplete. -/
theorem run_incomplete_iff_lost {out err : List UInt8} {outReads errReads : List Read}
    (hout : Delivers out outReads) (herr : Delivers err errReads) :
    (∀ limit,
      (captureFrom limit {} outReads).bytes = out.take (min limit out.length) ∧
      ((captureFrom limit {} outReads).truncated = true ↔ limit < out.length)) ∧
    (∀ (tools : Toolbox) (call : ToolCall) (code : Option Nat) (timeout : Nat),
      tools call = .exits code outReads errReads →
      ∃ o, call.run tools false timeout = .ok o ∧ o.code = code ∧
        (o.truncated = true ↔ o.Lost out err) ∧
        RefusedIff tools call timeout o (o.Lost out err)) ∧
    ∀ (tools : Toolbox) (call : ToolCall) (code : Option Nat) (timeout : Nat)
      (stdout stderr : List Read), tools call = .exits code stdout stderr →
      ends stdout = false ∨ ends stderr = false →
      ∃ o, call.run tools false timeout = .ok o ∧ o.code = code ∧ o.truncated = true ∧
        RefusedIff tools call timeout o True := by
  refine ⟨fun limit => ?_, fun tools call code timeout h => ?_,
    fun tools call code timeout stdout stderr h hopen => ?_⟩
  · rw [captureFrom_eq, hout.delivered_eq]
    exact ⟨List.take_eq_take_min, decide_eq_true_iff⟩
  · obtain ⟨o, hrun, hcode, hmarked⟩ := run_delivered hout herr h timeout
    exact ⟨o, hrun, hcode, hmarked, refusedIff_of_run hrun hmarked⟩
  · obtain ⟨o, hrun, hcode, hmarked⟩ := run_open hopen h timeout
    exact ⟨o, hrun, hcode, hmarked, refusedIff_of_run hrun (iff_true_intro hmarked)⟩

end Calls

/-- Three bytes in two chunks, between interruptions, and a failure at the end. -/
def choppedReads : List Read :=
  [.interrupted, .bytes [7, 8], .interrupted, .bytes [9], .failed, .bytes [10]]

theorem choppedReads_delivers : Delivers [7, 8, 9] choppedReads :=
  .interrupted (.chunk [7, 8] (by decide) (by decide)
    (.interrupted (.chunk [9] (by decide) (by decide) (.failed _))))

/-- The limit falls between the chunks; under the limit of a call nothing is lost. With messages
that stay open, the same output is incomplete. -/
theorem chopped_output_kept :
    Delivers [7, 8, 9] choppedReads ∧ Delivers [] [] ∧
    (captureFrom 2 {} choppedReads).bytes = [7, 8] ∧
    (captureFrom 2 {} choppedReads).truncated = true ∧
    (captureFrom 3 {} choppedReads).truncated ≠ true ∧
    (∃ o, ToolCall.run (fun _ => .exits (some 0) choppedReads []) false 100 { program := "lint" } =
      .ok o ∧ (o.truncated = true ↔ o.Lost [7, 8, 9] [])) ∧
    ∃ o, ToolCall.run (fun _ => .exits (some 0) choppedReads [.pending]) false 100
      { program := "lint" } = .ok o ∧ o.truncated = true := by
  obtain ⟨hkept, hrun, hopen⟩ := run_incomplete_iff_lost choppedReads_delivers .exhausted
  obtain ⟨o, hok, -, hlost, -⟩ := hrun (fun _ => .exits (some 0) choppedReads [])
    { program := "lint" } (some 0) 100 rfl
  obtain ⟨o', hok', -, hmarked, -⟩ := hopen (fun _ => .exits (some 0) choppedReads [.pending])
    { program := "lint" } (some 0) 100 choppedReads [.pending] rfl (.inr rfl)
  refine ⟨choppedReads_delivers, .exhausted, (hkept 2).1, (hkept 2).2.2 (by decide), ?_,
    ⟨o, hok, hlost⟩, o', hok', hmarked⟩
  rw [ne_eq, (hkept 3).2]
  decide

end LeakScan
