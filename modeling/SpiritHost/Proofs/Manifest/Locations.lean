import SpiritHost.Manifest

/-!
# Where a definition's module lies

A manifest may write the location of a module as a path or as a reference to a file. Both spellings
lead to the same place: a relative path is taken from the manifest's directory, an absolute one
stays, and the file there is all that reading depends on. References with any other scheme are not
looked into.
-/

namespace SpiritHost

namespace Path

variable {directory path : String}

theorem join_of_absolute (h : isAbsolute path = true) : join directory path = path := by
  rw [join, h, Bool.true_or, if_pos rfl]

/-- A relative path is joined with at most a slash between. -/
theorem join_of_relative (h : isAbsolute path = false) :
    ∃ between, (between = "" ∨ between = "/") ∧
      join directory path = directory ++ between ++ path := by
  unfold join
  rw [h, Bool.false_or]
  split
  · rename_i hempty
    rw [String.isEmpty_iff.1 hempty]
    exact ⟨"", .inl rfl, by simp⟩
  · split
    · exact ⟨"", .inl rfl, by simp⟩
    · exact ⟨"/", .inr rfl, rfl⟩

end Path

namespace Source

variable {beginning text rest location path : String}

/-- A location with a scheme has a colon and two slashes somewhere. -/
theorem hasScheme_iff : ∀ {cs : List Char}, hasScheme cs = true ↔ [':', '/', '/'] <:+: cs := by
  intro cs
  fun_induction hasScheme cs with
  | case1 rest => exact iff_of_true rfl ⟨[], rest, rfl⟩
  | case2 c rest hother ih =>
    rw [ih, List.infix_cons_iff]
    constructor
    · exact .inr
    · rintro (⟨after, hafter⟩ | h)
      · exact absurd (List.cons.inj hafter.symm) fun ⟨hc, hrest⟩ => hother after hc hrest
      · exact h
  | case3 => simp

theorem after?_append : after? beginning (beginning ++ rest) = some rest := by
  simp [after?]

theorem after?_eq_none_iff :
    after? beginning text = none ↔ ¬ beginning.toList <+: text.toList := by
  unfold after?
  split
  · rename_i h
    exact iff_of_false nofun fun hnot => hnot (List.isPrefixOf_iff_prefix.1 h)
  · rename_i h
    exact iff_of_true rfl fun hprefix => h (List.isPrefixOf_iff_prefix.2 hprefix)

theorem parse_of_plain (h : ¬ "://".toList <:+: location.toList) :
    parse location = .path location :=
  if_neg fun hscheme => h (hasScheme_iff.1 hscheme)

theorem parse_of_scheme (h : "://".toList <:+: location.toList) : parse location = .uri location :=
  if_pos (hasScheme_iff.2 h)

/-- A source whose bytes are those of the file at a place, whatever files there are and whatever a
network gives. If the file cannot be read, the source cannot be fetched. -/
structure IsFileAt (source : Source) (place : String) : Prop where
  /-- Nothing else is looked at. -/
  looks : source.place? = some place
  found : ∀ {world : World} {bytes : Bytes}, world.files place = .ok bytes →
    source.read world = .ok bytes
  lost : ∀ {world : World} {fault : ReadFault}, world.files place = .error fault →
    ∃ why, source.read world = .error (.fetch source.text why)

theorem isFileAt_path : IsFileAt (.path path) path where
  looks := rfl
  found h := by rw [read, h]; rfl
  lost h := ⟨_, by rw [read, h]; rfl⟩

theorem readReference_file (world : World) :
    readReference world ("file://" ++ path) = (world.files path).mapError .reference := by
  have hoci : after? "oci://" ("file://" ++ path) = none := after?_eq_none_iff.2 (by simp)
  have hhttp : after? "http://" ("file://" ++ path) = none := after?_eq_none_iff.2 (by simp)
  have hhttps : after? "https://" ("file://" ++ path) = none := after?_eq_none_iff.2 (by simp)
  rw [readReference, hoci, hhttp, hhttps, pathOf, after?_append]
  rfl

theorem isFileAt_reference : IsFileAt (.uri ("file://" ++ path)) path where
  looks := by rw [place?, pathOf, after?_append]; rfl
  found h := by rw [read, readReference_file, h]; rfl
  lost h := ⟨_, by rw [read, readReference_file, h]; rfl⟩

end Source

namespace Definition

variable {d e : Definition} {path : String}

/-- The place that a path means in a definition: it is taken from the manifest's directory, if there
is one. -/
def placeOf (d : Definition) (path : String) : String :=
  match d.root with
  | some root => Path.join root path
  | none => path

theorem placeOf_of_absolute (h : Path.isAbsolute path = true) : d.placeOf path = path := by
  unfold placeOf
  split
  · exact Path.join_of_absolute h
  · rfl

theorem source_of_path (hplain : ¬ "://".toList <:+: path.toList) (h : d.uri = path) :
    d.source = .path (d.placeOf path) := by
  rw [source, h, Source.parse_of_plain hplain]
  change (if Path.isAbsolute path then Source.path path else .path (d.placeOf path)) = _
  by_cases habsolute : Path.isAbsolute path = true
  · rw [if_pos habsolute, placeOf_of_absolute habsolute]
  · rw [if_neg habsolute]

/-- A reference to a file with an absolute path is kept as it is, with a relative one it is the path
without its scheme. -/
theorem source_of_reference (h : d.uri = "file://" ++ path) :
    d.source = if Path.isAbsolute path then .uri ("file://" ++ path)
      else .path (d.placeOf path) := by
  have hscheme : "://".toList <:+: ("file://" ++ path).toList :=
    ⟨"file".toList, path.toList, by simp⟩
  rw [source, h, Source.parse_of_scheme hscheme]
  dsimp only
  rw [Source.after?_append]
  rfl

theorem source_of_scheme (hscheme : "://".toList <:+: d.uri.toList)
    (hother : ¬ "file://".toList <+: d.uri.toList) : d.source = .uri d.uri := by
  rw [source, Source.parse_of_scheme hscheme]
  dsimp only
  rw [Source.after?_eq_none_iff.2 hother]

/-- Two definitions that lead to the file at one path of a manifest. -/
structure SameFile (d e : Definition) (path : String) : Prop where
  /-- Both sources are the file at the place that the path means, in every world. -/
  places : d.source.IsFileAt (d.placeOf path) ∧ e.source.IsFileAt (d.placeOf path)
  /-- So they give the same bytes, or neither can be fetched. -/
  fetches : ∀ world,
    (∃ bytes, d.source.read world = .ok bytes ∧ e.source.read world = .ok bytes) ∨
    (∃ why other, d.source.read world = .error (.fetch d.source.text why) ∧
      e.source.read world = .error (.fetch e.source.text other))
  /-- A relative path lies under the manifest's directory. -/
  relative : Path.isAbsolute path = false → ∀ {root}, d.root = some root →
    ∃ between, (between = "" ∨ between = "/") ∧ d.placeOf path = root ++ between ++ path
  /-- Without a directory it is used as it is. -/
  rootless : d.root = none → d.placeOf path = path
  /-- An absolute path is used as it is, whatever the directory. -/
  absolute : Path.isAbsolute path = true → d.placeOf path = path

/-- **Locations.** A path and its spelling as a reference to a file lead to the same file, with any
directory of the manifest and in any world. A reference with another scheme is passed on
unchanged. -/
theorem locations_agree :
    (∀ (d e : Definition) (path : String), ¬ "://".toList <:+: path.toList → d.uri = path →
      e.uri = "file://" ++ path → d.root = e.root → d.SameFile e path) ∧
    ∀ d : Definition, "://".toList <:+: d.uri.toList → ¬ "file://".toList <+: d.uri.toList →
      d.source = .uri d.uri := by
  refine ⟨fun d e path hplain hd he hroot => ?_, fun _ => source_of_scheme⟩
  have hplace : d.source.IsFileAt (d.placeOf path) :=
    source_of_path hplain hd ▸ Source.isFileAt_path
  have hreference : e.source.IsFileAt (d.placeOf path) := by
    have hsame : e.placeOf path = d.placeOf path := by rw [placeOf, placeOf, hroot]
    rw [source_of_reference he]
    split
    · rename_i habsolute
      rw [placeOf_of_absolute habsolute]
      exact Source.isFileAt_reference
    · exact hsame ▸ Source.isFileAt_path
  refine ⟨⟨hplace, hreference⟩, fun world => ?_, fun hrelative root hsome => ?_, fun hnone => ?_,
    placeOf_of_absolute⟩
  · cases hfile : world.files (d.placeOf path) with
    | ok bytes => exact .inl ⟨bytes, hplace.found hfile, hreference.found hfile⟩
    | error fault =>
      obtain ⟨why, hwhy⟩ := hplace.lost hfile
      obtain ⟨other, hother⟩ := hreference.lost hfile
      exact .inr ⟨why, other, hwhy, hother⟩
  · rw [placeOf, hsome]
    exact Path.join_of_relative hrelative
  · rw [placeOf, hnone]

/-- The same file spelled twice, in a manifest with a directory, and a reference to a network. -/
theorem locations_agree_rooted :
    SameFile { name := "a", uri := "modules/a.wasm", root := some "/srv" }
        { name := "b", uri := "file://modules/a.wasm", root := some "/srv" } "modules/a.wasm" ∧
      source { name := "c", uri := "http://host/a.wasm", root := some "/srv" } =
        .uri "http://host/a.wasm" :=
  ⟨locations_agree.1 _ _ _ (by decide +kernel) rfl rfl rfl,
    locations_agree.2 _ (by decide +kernel) (by decide +kernel)⟩

end Definition

end SpiritHost
