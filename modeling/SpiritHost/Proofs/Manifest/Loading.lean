import SpiritHost.Proofs.Manifest.Table
import SpiritHost.Proofs.Text.Utf8

/-!
# Which manifests are accepted

A file is accepted as the manifest of definitions exactly if it is the text of a configuration file
whose entries are their tables (`IsFile`). Several files are accepted exactly if each of them is and
no name occurs twice in all; otherwise the first file at fault decides the error, and a name that
occurs again does so only if there is none (`load_eq_ok_iff`, `load_eq_error_iff`).
-/

namespace SpiritHost

namespace Manifest

/-! ## Files -/

variable {files : FileSystem} {path : String} {group : List Definition}
  {entries : List (String × Toml.Value)} {fault : ManifestFault}

/-- A file is a text with the given entries. -/
def Holds (files : FileSystem) (path : String) (entries : List (String × Toml.Value)) : Prop :=
  ∃ text, files path = .ok (Utf8.encode text) ∧ Toml.parse? text = some entries

/-- A file is the manifest of the given definitions. -/
def IsFile (files : FileSystem) (path : String) (group : List Definition) : Prop :=
  ∃ entries, Holds files path entries ∧
    List.Forall₂ (Definition.IsEntry (Path.parent? path)) entries group

/-- What is wrong with a file: it cannot be read, is no text or no configuration file, or what is
wrong with the first of its entries that is at fault. -/
inductive FileFault (files : FileSystem) (path : String) : ManifestFault → Prop
  | unreadable {fault : ReadFault} (h : files path = .error fault) :
      FileFault files path (.unreadable path fault)
  | notText {bytes : Bytes} (hread : files path = .ok bytes)
      (h : ∀ text, bytes ≠ Utf8.encode text) : FileFault files path (.notText path)
  | malformed {text : String} (hread : files path = .ok (Utf8.encode text))
      (h : Toml.parse? text = none) : FileFault files path .malformed
  | entry {before after : List (String × Toml.Value)} {p : String × Toml.Value}
      {fault : ManifestFault} (hholds : Holds files path (before ++ p :: after))
      (hbefore : ∀ q ∈ before, ∃ d, Definition.IsEntry (Path.parent? path) q d)
      (h : Definition.EntryFault p fault) : FileFault files path fault

theorem Holds.ordered (h : Holds files path entries) : Toml.OrderedEntries entries := by
  obtain ⟨text, -, hparse⟩ := h
  exact Toml.ordered_parse? hparse

theorem parseFile_of_error {fault : ReadFault} (h : files path = .error fault) :
    parseFile files path = .error (.unreadable path fault) := by
  rw [parseFile, h]

theorem parseFile_of_notText {bytes : Bytes} (hread : files path = .ok bytes)
    (h : ∀ text, bytes ≠ Utf8.encode text) : parseFile files path = .error (.notText path) := by
  have hnone : Utf8.decode? bytes = none := by
    cases hdecode : Utf8.decode? bytes with
    | none => rfl
    | some text => exact absurd (Utf8.decode?_eq_some_iff.1 hdecode) (h text)
  rw [parseFile, hread]
  dsimp only
  rw [hnone]

theorem parseFile_of_text {text : String} (h : files path = .ok (Utf8.encode text)) :
    parseFile files path = parse text (Path.parent? path) := by
  rw [parseFile, h]
  dsimp only
  rw [Utf8.decode?_eq_some_iff.2 rfl]

theorem parseFile_of_malformed {text : String} (hread : files path = .ok (Utf8.encode text))
    (h : Toml.parse? text = none) : parseFile files path = .error .malformed := by
  rw [parseFile_of_text hread, parse, h]

/-- A configuration file is read entry by entry. -/
theorem parseFile_of_holds (h : Holds files path entries) :
    parseFile files path =
      entries.mapM fun (name, value) => Definition.ofEntry (Path.parent? path) name value := by
  obtain ⟨text, hread, hparse⟩ := h
  rw [parseFile_of_text hread, parse, hparse]

/-- A file is a configuration file, or else it is at fault as a whole. -/
theorem holds_or_fault (files : FileSystem) (path : String) :
    (∃ entries, Holds files path entries) ∨
      ∃ fault, parseFile files path = .error fault ∧ FileFault files path fault := by
  cases hread : files path with
  | error fault => exact .inr ⟨_, parseFile_of_error hread, .unreadable hread⟩
  | ok bytes =>
    by_cases htext : ∃ text, bytes = Utf8.encode text
    · obtain ⟨text, rfl⟩ := htext
      cases hparse : Toml.parse? text with
      | some entries => exact .inl ⟨entries, text, hread, hparse⟩
      | none => exact .inr ⟨_, parseFile_of_malformed hread hparse, .malformed hread hparse⟩
    · have hnot : ∀ text, bytes ≠ Utf8.encode text := fun text h => htext ⟨text, h⟩
      exact .inr ⟨_, parseFile_of_notText hread hnot, .notText hread hnot⟩

theorem forall₂_of_mem {α β : Type} {R S : α → β → Prop} {as : List α} {bs : List β}
    (h : List.Forall₂ R as bs) (himp : ∀ a ∈ as, ∀ b, R a b → S a b) : List.Forall₂ S as bs := by
  induction h with
  | nil => exact .nil
  | cons h _ ih =>
    obtain ⟨hfirst, hrest⟩ := List.forall_mem_cons.1 himp
    exact .cons (hfirst _ h) (ih hrest)

/-- **Files.** A file is read as definitions exactly if it is the manifest of these. -/
theorem parseFile_eq_ok_iff : parseFile files path = .ok group ↔ IsFile files path group := by
  constructor
  · intro h
    obtain ⟨entries, hholds⟩ | ⟨fault, hfault, -⟩ := holds_or_fault files path
    · rw [parseFile_of_holds hholds] at h
      refine ⟨entries, hholds, forall₂_of_mem (Except.mapM_eq_ok_iff.1 h) fun p hp d hd => ?_⟩
      exact (Definition.ofEntry_eq_ok_iff (hholds.ordered.values p hp)).1 hd
    · rw [hfault] at h
      cases h
  · rintro ⟨entries, hholds, hentries⟩
    rw [parseFile_of_holds hholds]
    refine Except.mapM_eq_ok_iff.2 (forall₂_of_mem hentries fun p hp d hd => ?_)
    exact (Definition.ofEntry_eq_ok_iff (hholds.ordered.values p hp)).2 hd

/-- Any other is refused for what is wrong with it. -/
theorem parseFile_eq_error_iff :
    parseFile files path = .error fault ↔ FileFault files path fault := by
  constructor
  · intro h
    obtain ⟨entries, hholds⟩ | ⟨other, hother, hfault⟩ := holds_or_fault files path
    · rw [parseFile_of_holds hholds] at h
      obtain ⟨before, p, after, rfl, hbefore, hp⟩ := Except.mapM_eq_error_iff.1 h
      have hvalues := hholds.ordered.values
      refine .entry hholds (fun q hq => ?_) ?_
      · obtain ⟨d, hd⟩ := hbefore q hq
        exact ⟨d, (Definition.ofEntry_eq_ok_iff (hvalues q (List.mem_append_left _ hq))).1 hd⟩
      · have hmem : p ∈ before ++ p :: after := List.mem_append_right _ List.mem_cons_self
        exact (Definition.ofEntry_eq_error_iff (hvalues p hmem)).1 hp
    · rw [hother] at h
      cases h
      exact hfault
  · intro h
    cases h with
    | unreadable h => exact parseFile_of_error h
    | notText hread h => exact parseFile_of_notText hread h
    | malformed hread h => exact parseFile_of_malformed hread h
    | @entry before after p _ hholds hbefore h =>
      rw [parseFile_of_holds hholds]
      have hvalues := hholds.ordered.values
      refine Except.mapM_eq_error_iff.2 ⟨before, p, after, rfl, fun q hq => ?_, ?_⟩
      · obtain ⟨d, hd⟩ := hbefore q hq
        exact ⟨d, (Definition.ofEntry_eq_ok_iff (hvalues q (List.mem_append_left _ hq))).2 hd⟩
      · have hmem : p ∈ before ++ p :: after := List.mem_append_right _ List.mem_cons_self
        exact (Definition.ofEntry_eq_error_iff (hvalues p hmem)).2 h

theorem root_of_isEntry {root : Option String}
    (h : List.Forall₂ (Definition.IsEntry root) entries group) : ∀ d ∈ group, d.root = root := by
  induction h with
  | nil =>
    intro d hd
    cases hd
  | cons h _ ih => exact List.forall_mem_cons.2 ⟨h.2.1, ih⟩

/-- The names of a file's definitions are strictly in order, and its directory is their root. -/
theorem IsFile.strict (h : IsFile files path group) :
    (names group).Pairwise (· < ·) ∧ ∀ d ∈ group, d.root = Path.parent? path := by
  have hstrict := strict_parseFile (parseFile_eq_ok_iff.2 h)
  obtain ⟨entries, -, hentries⟩ := h
  exact ⟨hstrict, root_of_isEntry hentries⟩

/-! ## Several files -/

variable {paths : List String} {definitions : List Definition} {e : Error}

theorem mapM_parseFile_eq_ok_iff {groups : List (List Definition)} :
    (paths.mapM (parseFile files)).mapError Error.manifest = .ok groups ↔
      List.Forall₂ (IsFile files) paths groups := by
  have hfiles : List.Forall₂ (fun path group => parseFile files path = .ok group) paths groups ↔
      List.Forall₂ (IsFile files) paths groups := by
    simp only [parseFile_eq_ok_iff]
  rw [← hfiles, ← Except.mapM_eq_ok_iff]
  cases paths.mapM (parseFile files) with
  | error fault => exact ⟨nofun, nofun⟩
  | ok found => exact ⟨fun h => by cases h; rfl, fun h => by cases h; rfl⟩

theorem mapM_parseFile_eq_error_iff :
    (paths.mapM (parseFile files)).mapError Error.manifest = .error e ↔
      ∃ before path after fault, paths = before ++ path :: after ∧
        (∀ earlier ∈ before, ∃ group, IsFile files earlier group) ∧
        FileFault files path fault ∧ e = .manifest fault := by
  simp only [← parseFile_eq_ok_iff, ← parseFile_eq_error_iff]
  constructor
  · intro h
    obtain ⟨fault, hfiles, rfl⟩ := Except.mapError_eq_error_iff.1 h
    obtain ⟨before, path, after, hpaths, hbefore, hpath⟩ := Except.mapM_eq_error_iff.1 hfiles
    exact ⟨before, path, after, fault, hpaths, hbefore, hpath, rfl⟩
  · rintro ⟨before, path, after, fault, hpaths, hbefore, hpath, rfl⟩
    have hfiles := Except.mapM_eq_error_iff.2 ⟨before, path, after, hpaths, hbefore, hpath⟩
    exact Except.mapError_eq_error_iff.2 ⟨fault, hfiles, rfl⟩

theorem load_eq_ok_iff : load files paths = .ok definitions ↔
    (names definitions).Nodup ∧
    ∃ groups, definitions = groups.flatten ∧ List.Forall₂ (IsFile files) paths groups := by
  refine Except.bind_eq_ok_iff.trans ?_
  simp only [mapM_parseFile_eq_ok_iff]
  constructor
  · rintro ⟨groups, hfiles, h⟩
    split at h
    · cases h
    · rename_i hfresh
      cases h
      exact ⟨(repeated?_eq_none_iff.1 hfresh).1, groups, rfl, hfiles⟩
  · rintro ⟨hnodup, groups, rfl, hfiles⟩
    have hfresh := repeated?_eq_none_iff.2 ⟨hnodup, fun name _ => List.not_mem_nil⟩
    refine ⟨groups, hfiles, ?_⟩
    rw [names] at hfresh
    rw [hfresh]

theorem load_eq_error_iff : load files paths = .error e ↔
    (∃ before path after fault, paths = before ++ path :: after ∧
      (∀ earlier ∈ before, ∃ group, IsFile files earlier group) ∧
      FileFault files path fault ∧ e = .manifest fault) ∨
    ∃ groups before name after, List.Forall₂ (IsFile files) paths groups ∧
      names groups.flatten = before ++ name :: after ∧ before.Nodup ∧ name ∈ before ∧
      e = .manifest (.duplicate name) := by
  refine Except.bind_eq_error_iff.trans ?_
  rw [mapM_parseFile_eq_error_iff]
  simp only [mapM_parseFile_eq_ok_iff]
  refine or_congr_right ?_
  constructor
  · rintro ⟨groups, hfiles, h⟩
    split at h
    · rename_i name hname
      cases h
      obtain ⟨before, after, hnames, hnodup, -, hagain⟩ := exists_of_repeated? hname
      have hbefore : name ∈ before := hagain.resolve_right List.not_mem_nil
      exact ⟨groups, before, name, after, hfiles, hnames, hnodup, hbefore, rfl⟩
    · cases h
  · rintro ⟨groups, before, name, after, hfiles, hnames, hnodup, hbefore, rfl⟩
    have hfound : repeated? [] (names groups.flatten) = some name := by
      rw [hnames]
      exact repeated?_of_again hnodup (fun _ _ => List.not_mem_nil) (.inl hbefore)
    refine ⟨groups, hfiles, ?_⟩
    rw [names] at hfound
    rw [hfound]

/-- **Manifests.** Files are accepted exactly if each is a manifest and no name occurs twice over all
of them; what is loaded are their definitions, file by file, in each file strictly in the order of
the names and rooted at its directory. Otherwise the error is that of the first file at fault, and if
there is none that of the first name that occurs again. -/
theorem load_exact (files : FileSystem) (paths : List String) :
    (∀ definitions, load files paths = .ok definitions ↔
      (names definitions).Nodup ∧
      ∃ groups, definitions = groups.flatten ∧ List.Forall₂ (IsFile files) paths groups) ∧
    (∀ e, load files paths = .error e ↔
      (∃ before path after fault, paths = before ++ path :: after ∧
        (∀ earlier ∈ before, ∃ group, IsFile files earlier group) ∧
        FileFault files path fault ∧ e = .manifest fault) ∨
      ∃ groups before name after, List.Forall₂ (IsFile files) paths groups ∧
        names groups.flatten = before ++ name :: after ∧ before.Nodup ∧ name ∈ before ∧
        e = .manifest (.duplicate name)) ∧
    (∀ path group, IsFile files path group →
      (names group).Pairwise (· < ·) ∧ ∀ d ∈ group, d.root = Path.parent? path) ∧
    ∀ name, (ManifestFault.duplicate name).message = s!"Duplicate spirit name: '{name}'" :=
  ⟨fun _ => load_eq_ok_iff, fun _ => load_eq_error_iff, fun _ _ => IsFile.strict, fun _ => rfl⟩

/-- A manifest whose only location is a date. -/
def dated : String := "[a]\nuri = 1979-05-27\n"

/-- The location of a Spirit `a`, if that is all there is and the location is a point in time. -/
def dateOf? : List (String × Toml.Value) → Option String
  | [("a", .table [("uri", .time text)])] => some text
  | _ => none

/-- A location that is no string is taken all the same if it is a point in time. -/
theorem load_dated :
    Holds (.ofList [("m.toml", .ok (Utf8.encode dated))]) "m.toml"
      [("a", .table [("uri", .time "1979-05-27")])] ∧
    ∃ d, load (.ofList [("m.toml", .ok (Utf8.encode dated))]) ["m.toml"] = .ok [d] ∧
      d.uri = "1979-05-27" := by
  have hparse : (Toml.parse? dated).bind dateOf? = some "1979-05-27" := by decide +kernel
  have hload : ((load (.ofList [("m.toml", .ok (Utf8.encode dated))]) ["m.toml"]).toOption.map
      fun definitions => definitions.map (·.uri)) = some ["1979-05-27"] := by decide +kernel
  constructor
  · obtain ⟨entries, hentries, hshape⟩ := Option.bind_eq_some_iff.1 hparse
    unfold dateOf? at hshape
    split at hshape
    · cases hshape
      exact ⟨dated, rfl, hentries⟩
    · cases hshape
  · cases hloaded : load (.ofList [("m.toml", .ok (Utf8.encode dated))]) ["m.toml"] with
    | error e =>
      rw [hloaded] at hload
      cases hload
    | ok definitions =>
      rw [hloaded] at hload
      obtain ⟨d, rfl, huri⟩ := List.map_eq_singleton_iff.1 (Option.some.inj hload)
      exact ⟨d, rfl, huri⟩

end Manifest

end SpiritHost
