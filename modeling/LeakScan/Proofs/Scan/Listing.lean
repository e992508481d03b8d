import LeakScan.Discovery
import LeakScan.Proofs.Bindings
import LeakScan.Proofs.Text.Utf8
import LeakScan.Proofs.Text.Words
import LeakScan.Proofs.Tool
import LeakScan.Source
import LeakScan.Workspace

/-!
# LeakScan.Proofs.Scan.Listing

What the listing of a search program says about files.

* `textLines_listing` — a listing of paths, each on a line of its own, is read back.
* `HoldsAnchor`, `holdsAnchor_of_load` — a file with an anchor in its bytes, and in its text.
* `pathsBelow`, `mem_pathsBelow_of_discover` — the files that a scan looks at are below the root.
* `EndsKept`, `mem_hitsOf` — a listed file of a known language is among the hits.
-/

namespace LeakScan

open Text

/-! ## Listings -/

/-- The characters of some paths, each on a line of its own. -/
def listing (paths : List String) : List Char := paths.flatMap fun p => p.toList ++ ['\n']

theorem splitOn_listing {paths : List String} (h : ∀ p ∈ paths, '\n' ∉ p.toList) :
    splitOn '\n' (listing paths) = paths.map String.toList ++ [[]] := by
  induction paths with
  | nil => rfl
  | cons p rest ih =>
    have hsplit := splitOn_append_cons '\n' p.toList (listing rest)
    rw [splitOn_eq_singleton (h p List.mem_cons_self),
      ih fun q hq => h q (List.mem_cons_of_mem p hq)] at hsplit
    simpa [listing] using hsplit

theorem textLines_listing {paths : List String} (h : ∀ p ∈ paths, '\n' ∉ p.toList) :
    textLines (listing paths) = paths.map fun p => dropReturn p.toList := by
  rw [textLines, splitOn_listing h, List.reverse_append]
  simp

theorem encode_listing (paths : List String) :
    encode (String.ofList (listing paths)) = paths.flatMap fun p => encode p ++ [0x0A] := by
  rw [encode_eq, String.toList_ofList, listing, List.flatMap_assoc]
  congr 1
  funext p
  rw [List.flatMap_append, ← encode_eq]
  rfl

/-! ## Anchors in files -/

/-- The file holds one of the anchors. -/
def HoldsAnchor (here : Entry) (anchors : List String) (path : String) : Prop :=
  ∃ content, here.read path = .ok content ∧ ∃ a ∈ anchors, encode a <:+: content

/-- What occurs in the text of a file occurs in its bytes. -/
theorem holdsAnchor_of_load {here : Entry} {anchors : List String} {path display : String}
    {language : Language} {limit : Nat} {source : Source}
    (hload : Source.load path display language limit (here.find path).toOption = .ok source)
    {a : String} (ha : a ∈ anchors) (hoccurs : occursIn a.toList source.text = true) :
    HoldsAnchor here anchors path := by
  unfold Source.load at hload
  split at hload
  · cases hload
  rename_i e hfind
  split at hload
  · cases hload
  split at hload
  · cases hload
  rename_i bytes _
  split at hload
  · cases hload
  split at hload
  · rename_i text htext
    cases hload
    refine ⟨bytes, ?_, a, ha, ?_⟩
    · have hfound : here.find path = .ok (.file bytes) := by
        cases hentry : here.find path with
        | error e => rw [hentry] at hfind; cases hfind
        | ok e => rw [hentry] at hfind; cases hfind; rfl
      rw [Entry.read, hfound]
    · obtain ⟨front, back, hsplit⟩ := occursIn_iff.1 hoccurs
      have hbytes := decode?_eq_some_iff.1 htext
      rw [encode_eq, String.toList_ofList] at hbytes
      refine ⟨front.flatMap String.utf8EncodeChar, back.flatMap String.utf8EncodeChar, ?_⟩
      rw [encode_eq, hbytes, ← List.flatMap_append, ← List.flatMap_append]
      exact congrArg _ hsplit
  · cases hload

/-! ## Files below the root -/

mutual

theorem mem_walk {excludes : String → Bool} {path relative : String} :
    ∀ {e : Entry}, path ∈ walk excludes relative e → path ∈ walk (fun _ => false) relative e
  | .file _, h => by
    rw [walk] at h ⊢
    split at h
    · cases h
    · exact h
  | .directory children, h => by
    rw [walk] at h ⊢
    split at h
    · cases h
    · exact mem_walkAll h

theorem mem_walkAll {excludes : String → Bool} {path relative : String} :
    ∀ {children : List (String × Entry)}, path ∈ walkAll excludes relative children →
      path ∈ walkAll (fun _ => false) relative children
  | [], h => h
  | (name, e) :: rest, h => by
    rw [walkAll] at h ⊢
    rcases List.mem_append.1 h with h | h
    · exact List.mem_append_left _ (mem_walk h)
    · exact List.mem_append_right _ (mem_walkAll h)

end

/-- All files at and below a root, by the paths under which they are opened. -/
def pathsBelow (here : Entry) (root : String) : List String :=
  match here.find root with
  | .ok (.file _) => [root]
  | .ok (.directory children) => (walkAll (fun _ => false) "" children).map (Path.join root)
  | .error _ => []

/-! ## Ends of paths

A carriage return at the end of a line is taken for a part of its end. No file of a known language
has one there, because its extension is in the way. -/

theorem splitOn_concat {sep c : Char} (h : c ≠ sep) (cs : List Char) :
    ∃ front last, splitOn sep (cs ++ [c]) = front ++ [last ++ [c]] := by
  induction cs with
  | nil => exact ⟨[], [], by simp [splitOn, h]⟩
  | cons d cs ih =>
    obtain ⟨front, last, hsplit⟩ := ih
    rw [List.cons_append, splitOn, hsplit]
    split
    · exact ⟨[] :: front, last, rfl⟩
    · cases front with
      | nil => exact ⟨[], d :: last, rfl⟩
      | cons piece front => exact ⟨(d :: piece) :: front, last, rfl⟩

theorem getLast?_filter_concat {α : Type} {p : α → Bool} {a : α} (h : p a = true) (l : List α) :
    ((l ++ [a]).filter p).getLast? = some a := by
  rw [List.filter_append, List.filter_singleton, h]
  simp

theorem fileName?_concat {path : String} {cs : List Char} {c : Char} (hpath : path.toList = cs ++ [c])
    (hslash : c ≠ '/') (hdot : c ≠ '.') :
    ∃ name front, Path.fileName? path = some name ∧ name.toList = front ++ [c] := by
  obtain ⟨front, last, hsplit⟩ := splitOn_concat hslash cs
  obtain ⟨name, hname⟩ : ∃ name, name = String.ofList (last ++ [c]) := ⟨_, rfl⟩
  have hchars : name.toList = last ++ [c] := by rw [hname, String.toList_ofList]
  have hne : ∀ s : String, s.toList.getLast? ≠ some c → name ≠ s := by
    rintro _ hs rfl
    rw [hchars] at hs
    simp at hs
  have hone : name ≠ "." := hne "." (by simpa using hdot.symm)
  have hinner : ∀ ps : List String,
      ((ps ++ [name]).filter fun p => p != "" && p != ".").getLast? = some name :=
    getLast?_filter_concat (by simpa using ⟨hne "" (by simp), hone⟩)
  have hlast : (Path.parts path).getLast? = some name := by
    rw [Path.parts, hpath, hsplit, List.map_append, List.map_singleton, ← hname]
    split
    · rename_i rest hrest
      cases front with
      | nil => exact absurd (List.cons.inj hrest).1 hone
      | cons piece front =>
        obtain ⟨-, rfl⟩ := List.cons.inj hrest
        rw [List.getLast?_cons]
        exact congrArg (fun o => some (o.getD ".")) (hinner _)
    · exact hinner _
  refine ⟨name, last, ?_, hchars⟩
  rw [Path.fileName?, hlast]
  split
  · rename_i heq
    exact absurd (Option.some.inj heq) hone
  · rename_i heq
    exact absurd (Option.some.inj heq) (hne ".." (by simpa using hdot.symm))
  · rfl

theorem splitLast?_concat {sep c : Char} (h : c ≠ sep) {cs front back : List Char}
    (hsplit : splitLast? sep (cs ++ [c]) = some (front, back)) : ∃ more, back = more ++ [c] := by
  rw [splitLast?, List.reverse_append, List.reverse_singleton, List.singleton_append,
    List.takeWhile_cons_of_pos (by simpa using h)] at hsplit
  split at hsplit
  · cases hsplit
  · cases hsplit
    exact ⟨_, List.reverse_cons⟩

theorem extension?_concat {path ext : String} {cs : List Char} {c : Char}
    (hpath : path.toList = cs ++ [c]) (hslash : c ≠ '/') (hdot : c ≠ '.')
    (h : Path.extension? path = some ext) : ∃ front, ext.toList = front ++ [c] := by
  obtain ⟨name, front, hname, hchars⟩ := fileName?_concat hpath hslash hdot
  rw [Path.extension?, hname] at h
  simp only [hchars] at h
  split at h
  · cases h
  · rename_i back hsplit
    cases h
    rw [String.toList_ofList]
    exact splitLast?_concat hdot hsplit
  · cases h

/-- The path ends in a character that does not get lost at the end of a line. -/
def EndsKept (path : String) : Prop := ∃ front c, path.toList = front ++ [c] ∧ c ≠ '\r'

theorem EndsKept.dropReturn_eq {path : String} (h : EndsKept path) :
    dropReturn path.toList = path.toList := by
  obtain ⟨front, c, hpath, hc⟩ := h
  rw [hpath, dropReturn, List.reverse_append]
  split
  · rename_i heq
    exact absurd (List.cons.inj heq).1 hc
  · rfl

theorem EndsKept.join {path : String} (h : EndsKept path) (root : String) :
    EndsKept (Path.join root path) := by
  obtain ⟨front, c, hpath, hc⟩ := h
  rw [Path.join]
  split
  · exact ⟨front, c, hpath, hc⟩
  split
  · exact ⟨root.toList ++ front, c, by simp [hpath], hc⟩
  · exact ⟨(root ++ "/").toList ++ front, c, by simp [hpath], hc⟩

theorem endsKept_of_ofPath? {path : String} {language : Language}
    (h : Language.ofPath? path = some language) : EndsKept path := by
  have hknown : ∀ l ∈ Language.all, ∀ e ∈ l.extensions, e.toList.getLast? ≠ some '\r' := by decide
  rcases List.eq_nil_or_concat path.toList with hnil | ⟨front, c, hpath⟩
  · rw [String.toList_eq_nil_iff.1 hnil] at h
    cases h
  rw [List.concat_eq_append] at hpath
  refine ⟨front, c, hpath, ?_⟩
  rintro rfl
  rw [Language.ofPath?] at h
  split at h
  · cases h
  rename_i ext hext
  obtain ⟨before, hbefore⟩ := extension?_concat hpath (by decide) (by decide) hext
  have hfound := List.find?_some h
  refine hknown language (List.mem_of_find?_eq_some h) _ (List.contains_iff_mem.1 hfound) ?_
  rw [lowerAscii, String.toList_ofList, hbefore, List.map_append]
  exact List.getLast?_concat

/-- A scan looks only at files below its root, and none is lost at the end of a line. -/
theorem mem_pathsBelow_of_discover {filter : FileFilter} {here : Entry} {root : String}
    {files : List DiscoveredFile} (h : discover filter here root = .ok files) {f : DiscoveredFile}
    (hf : f ∈ files) : f.path ∈ pathsBelow here root ∧ EndsKept f.path := by
  rw [discover] at h
  split at h
  · rename_i hroot
    cases h
    obtain ⟨language, hlanguage, rfl⟩ := List.mem_map.1 hf
    rw [pathsBelow, hroot]
    exact ⟨List.mem_singleton_self root, endsKept_of_ofPath? (Option.mem_toList.1 hlanguage)⟩
  · rename_i children hroot
    cases h
    rw [filesBelow, List.mem_mergeSort, List.mem_filterMap] at hf
    obtain ⟨relative, hrelative, hfile⟩ := hf
    obtain ⟨language, hlanguage, rfl⟩ := Option.map_eq_some_iff.1 hfile
    rw [pathsBelow, hroot]
    exact ⟨List.mem_map_of_mem (mem_walkAll (List.mem_filter.1 hrelative).1),
      (endsKept_of_ofPath? hlanguage).join root⟩
  · cases h

/-- A listed path is among the hits. -/
theorem mem_hitsOf (root : String) {path : String} {output : ToolOutput} {paths : List String}
    (hout : output.stdout = paths.flatMap fun p => encode p ++ [0x0A])
    (hlines : ∀ p ∈ paths, '\n' ∉ p.toList) (hmem : path ∈ paths) (hkept : EndsKept path) :
    relativeKey root path ∈ hitsOf root output := by
  rw [hitsOf, ToolOutput.stdoutText, hout, ← encode_listing, decodeLossy_encode,
    String.toList_ofList, textLines_listing hlines]
  refine List.mem_map.2 ⟨path.toList, List.mem_filter.2 ⟨?_, ?_⟩, by rw [String.ofList_toList]⟩
  · exact List.mem_map.2 ⟨path, hmem, hkept.dropReturn_eq⟩
  · obtain ⟨front, c, hpath, -⟩ := hkept
    simp [hpath]

end LeakScan
