import Phrasebook.Proofs.DiskFiles
import Phrasebook.Proofs.Extensions

/-!
What can be read once something was written. A path leads to a file if all directories on the way are
there. Writing a file changes what is read at its place and nowhere else, and making directories
changes no file.
-/
namespace Phrasebook.Disk

/-! ### The way to a place -/

/-- All directories that lead to an absolute path are there. -/
def Reaches (d : Disk) (target : String) : Prop :=
  ∀ p ∈ ancestors target, d.entry? p = some .directory

theorem entry_of_isAbove {d : Disk} {p : String} (h : d.isAbove p = true) :
    d.entry? p = some .directory :=
  if_pos h

/-- What is above the working directory has no longer path. -/
theorem length_of_isAbove {d : Disk} {p : String} (hcwd : Path.isAbsolute d.cwd = true)
    (h : d.isAbove p = true) : p.toList.length ≤ d.cwd.toList.length := by
  have hpos : 0 < d.cwd.toList.length := by
    refine List.length_pos_iff.mpr fun hnil => ?_
    rw [Path.isAbsolute, hnil] at hcwd
    cases hcwd
  simp only [isAbove, Bool.or_eq_true, beq_iff_eq, String.isPrefixOf,
    String.startsWith_string_iff] at h
  rcases h with (rfl | rfl) | hprefix
  · exact hpos
  · exact le_rfl
  · have hle := hprefix.length_le
    rw [String.toList_append, List.length_append] at hle
    exact (Nat.le_add_right _ _).trans hle

/-- What a path leads to, once the way to its place is there. -/
theorem lookup_of_reaches {d : Disk} {path : String} (hne : path ≠ "")
    (h : d.Reaches (Path.absolute d.cwd path)) : d.lookup path =
      match d.entry? (Path.absolute d.cwd path) with
      | none => .error .missing
      | some (.file content) =>
        if path.endsWith "/" then .error .notDirectory else .ok (.file content)
      | some .directory => .ok .directory := by
  rw [lookup, if_neg hne]
  simp only
  split
  · rename_i hblocked
    obtain ⟨p, hp, hfault⟩ := List.exists_of_findSome?_eq_some hblocked
    rw [h p hp] at hfault
    cases hfault
  · rfl

theorem ne_empty_of_lookup {d : Disk} {path : String} {e : DiskEntry}
    (h : d.lookup path = .ok e) : path ≠ "" := by
  rintro rfl
  cases h

theorem reaches_of_lookup {d : Disk} {path : String} {e : DiskEntry}
    (h : d.lookup path = .ok e) : d.Reaches (Path.absolute d.cwd path) := by
  have hne := ne_empty_of_lookup h
  rw [lookup, if_neg hne] at h
  simp only at h
  split at h
  · cases h
  · rename_i hclear
    intro p hp
    have hp := List.findSome?_eq_none_iff.mp hclear p hp
    split at hp
    · cases hp
    · cases hp
    · assumption

theorem lookup_eq_ok_iff {d : Disk} {path : String} {e : DiskEntry} : d.lookup path = .ok e ↔
    path ≠ "" ∧ d.Reaches (Path.absolute d.cwd path) ∧
      d.entry? (Path.absolute d.cwd path) = some e ∧
      (e.isDirectory = true ∨ path.endsWith "/" = false) := by
  constructor
  · intro h
    have hne := ne_empty_of_lookup h
    have hreaches := reaches_of_lookup h
    rw [lookup_of_reaches hne hreaches] at h
    split at h
    · cases h
    · split at h
      · cases h
      · rename_i hentry hslash
        cases h
        exact ⟨hne, hreaches, hentry, .inr (Bool.eq_false_iff.mpr hslash)⟩
    · rename_i hentry
      cases h
      exact ⟨hne, hreaches, hentry, .inl rfl⟩
  · rintro ⟨hne, hreaches, hentry, hslash⟩
    rw [lookup_of_reaches hne hreaches, hentry]
    cases e with
    | directory => rfl
    | file content =>
      rcases hslash with hdirectory | hslash
      · cases hdirectory
      · simp only [hslash, Bool.false_eq_true, if_false]

theorem lookup_eq_directory {d : Disk} {path : String}
    (h : (d.lookup path).toOption.any (·.isDirectory) = true) : d.lookup path = .ok .directory := by
  cases hlookup : d.lookup path with
  | error f =>
    rw [hlookup] at h
    cases h
  | ok e =>
    rw [hlookup] at h
    cases e with
    | file content => cases h
    | directory => rfl

theorem read_eq_ok_iff {d : Disk} {path : String} {bs : Bytes} : d.read path = .ok bs ↔
    path ≠ "" ∧ d.Reaches (Path.absolute d.cwd path) ∧
      d.entry? (Path.absolute d.cwd path) = some (.file bs) ∧ path.endsWith "/" = false := by
  have hlookup : d.read path = .ok bs ↔ d.lookup path = .ok (.file bs) := by
    unfold read
    split <;> rename_i h <;> simp [h]
  rw [hlookup, lookup_eq_ok_iff]
  simp [DiskEntry.isDirectory]

/-! ### The directory of a place -/

theorem ancestors_eq (path : String) : ancestors path =
    (List.range (Path.names path).length).map fun n => Path.rooted ((Path.names path).take n) := by
  have hofNames (ns : List String) : Path.ofNames true ns = Path.rooted ns := by
    rw [Path.ofNames, if_pos rfl, Path.rooted, String.empty_append]
  simp only [ancestors, hofNames]

/-- With one more name, one more directory is on the way. -/
theorem ancestors_of_names {path path' n : String}
    (h : Path.names path = Path.names path' ++ [n]) :
    ancestors path = ancestors path' ++ [Path.rooted (Path.names path')] := by
  have htake : ∀ k ∈ List.range (Path.names path').length,
      Path.rooted ((Path.names path' ++ [n]).take k) = Path.rooted ((Path.names path').take k) := by
    intro k hk
    rw [List.take_append_of_le_length (List.mem_range.mp hk).le]
  rw [ancestors_eq, ancestors_eq, h, List.length_append, List.length_singleton, List.range_succ,
    List.map_append, List.map_congr_left htake, List.map_singleton, List.take_left]

section Directory

variable {d : Disk} {path : String} (hcwd : Path.isAbsolute d.cwd = true)

include hcwd

/-- All that leads to a place is there if what leads to its directory is, and the directory itself. -/
theorem reaches_iff (hname : Path.IsProper (Path.lastName path)) :
    d.Reaches (Path.absolute d.cwd path) ↔
      d.Reaches (Path.absolute d.cwd (Path.dir path)) ∧
        d.entry? (Path.absolute d.cwd (Path.dir path)) = some .directory := by
  have hstep := Path.names_absolute_eq_step hcwd path
  rw [Path.step_of_isName _ hname.toIsName hname.ne_up, List.reverse_cons,
    List.reverse_reverse] at hstep
  rw [Reaches, ancestors_of_names hstep, ← Path.absolute_eq_rooted hcwd, List.forall_mem_append]
  exact and_congr_right' List.forall_mem_singleton

theorem absolute_absolute (path : String) :
    Path.absolute d.cwd (Path.absolute d.cwd path) = Path.absolute d.cwd path := by
  have hplace := Path.isAbsolute_absolute hcwd path
  rw [Path.absolute, hplace, if_pos rfl,
    Path.clean_absolute _ _ (Path.ne_empty_of_isAbsolute hplace)]

theorem isProper_lastName_absolute (hne : Path.names (Path.absolute d.cwd path) ≠ []) :
    Path.IsProper (Path.lastName (Path.absolute d.cwd path)) := by
  have hproper : ∀ n ∈ Path.names (Path.absolute d.cwd path), Path.IsProper n :=
    fun _ => Path.isProper_of_mem_names (Path.isAbsolute_absolute hcwd path)
  have hparts := Path.parts_rooted fun n hn => (hproper n hn).plain
  rw [← Path.absolute_eq_rooted hcwd, if_neg hne] at hparts
  have hlast := Path.getLast?_parts (Path.absolute d.cwd path)
  rw [hparts, List.getLast?_cons_of_ne_nil hne] at hlast
  exact hproper _ (List.mem_of_getLast? hlast)

/-- Where a file can be written is where its directory is found. -/
theorem lookup_dir_iff : d.lookup (Path.dir (Path.absolute d.cwd path)) = .ok .directory ↔
    d.Reaches (Path.absolute d.cwd path) := by
  have hlookup (p : String) : d.lookup (Path.dir p) = .ok .directory ↔
      d.Reaches (Path.absolute d.cwd (Path.dir p)) ∧
        d.entry? (Path.absolute d.cwd (Path.dir p)) = some .directory := by
    rw [lookup_eq_ok_iff]
    exact ⟨fun h => ⟨h.2.1, h.2.2.1⟩, fun h => ⟨Path.clean_ne_empty _, h.1, h.2, .inl rfl⟩⟩
  rw [hlookup]
  by_cases hne : Path.names (Path.absolute d.cwd path) = []
  · -- the root has no directory above it
    have hroot := Path.absolute_eq_rooted hcwd path
    rw [hne] at hroot
    have hdir : Path.absolute d.cwd (Path.dir (Path.rooted [])) = "/" := rfl
    have hreaches : d.Reaches "/" := fun _ hp => nomatch hp
    rw [hroot, hdir]
    exact iff_of_true ⟨hreaches, if_pos rfl⟩ hreaches
  · rw [← reaches_iff hcwd (isProper_lastName_absolute hcwd hne), absolute_absolute hcwd]

end Directory

theorem plain_of_getLast? {path : String} (h : path.toList.getLast? ≠ some '/') :
    path.endsWith "/" = false := by
  rw [String.endsWith_eq_endsWith_toSlice, String.Slice.endsWith_string_eq_false_iff,
    String.copy_toSlice]
  intro hsuffix
  obtain ⟨before, hbefore⟩ := hsuffix
  refine h ?_
  rw [← hbefore]
  exact List.getLast?_concat

/-! ### Writing -/

/-- A file can be written: its directory is there, and it is no directory itself. -/
structure Writable (d : Disk) (path : String) : Prop where
  ne_empty : path ≠ ""
  plain : path.endsWith "/" = false
  reaches : d.Reaches (Path.absolute d.cwd path)
  free : d.entry? (Path.absolute d.cwd path) ≠ some .directory

section Write

variable {d d' : Disk} {path : String} {bs : Bytes} (hcwd : Path.isAbsolute d.cwd = true)

include hcwd

theorem Writable.write (h : d.Writable path) (bs : Bytes) :
    d.write path bs = .ok (d.put (Path.absolute d.cwd path) (.file bs)) := by
  unfold Disk.write
  split
  · rename_i hlookup
    exact absurd (lookup_eq_ok_iff.mp hlookup).2.2.1 h.free
  · rfl
  · rw [if_neg h.ne_empty, if_neg (Bool.eq_false_iff.mp h.plain),
      (lookup_dir_iff hcwd).mpr h.reaches]

theorem writable_of_write (h : d.write path bs = .ok d') : d.Writable path := by
  unfold Disk.write at h
  split at h
  · cases h
  · rename_i content hlookup
    obtain ⟨hne, hreaches, hentry, hslash⟩ := lookup_eq_ok_iff.mp hlookup
    refine ⟨hne, hslash.resolve_left Bool.false_ne_true, hreaches, fun hdirectory => ?_⟩
    cases hentry.symm.trans hdirectory
  · rename_i f hlookup
    split at h
    · cases h
    · rename_i hne
      split at h
      · cases h
      · rename_i hslash
        split at h
        · rename_i hdir
          have hreaches := (lookup_dir_iff hcwd).mp hdir
          refine ⟨hne, Bool.eq_false_iff.mpr hslash, hreaches, fun hdirectory => ?_⟩
          cases hlookup.symm.trans (lookup_eq_ok_iff.mpr ⟨hne, hreaches, hdirectory, .inl rfl⟩)
        · cases h

/-- What ends in a name can be written into a directory that is there. -/
theorem writable_of_lookup_dir {n : String} (hname : Path.EndsIn path n)
    (hdir : d.lookup (Path.dir path) = .ok .directory)
    (hfree : d.entry? (Path.absolute d.cwd path) ≠ some .directory) : d.Writable path := by
  have hlast := hname.lastName_eq
  have hreaches : d.Reaches (Path.absolute d.cwd path) := by
    obtain ⟨-, hreaches, hentry, -⟩ := lookup_eq_ok_iff.mp hdir
    exact (reaches_iff hcwd (hlast ▸ hname.proper)).mpr ⟨hreaches, hentry⟩
  have hplain : path.endsWith "/" = false := by
    refine plain_of_getLast? fun hslash => hname.proper.plain ?_
    rw [← Path.folder_append_lastName path, hlast, String.toList_append, List.getLast?_append] at hslash
    cases hn : n.toList.getLast? with
    | none =>
      have hempty := String.toList_eq_nil_iff.mp (List.getLast?_eq_none_iff.mp hn)
      exact absurd hempty hname.proper.ne_empty
    | some c =>
      rw [hn] at hslash
      exact List.mem_of_getLast? (hn.trans hslash)
  exact ⟨hname.ne_empty, hplain, hreaches, hfree⟩

theorem eq_put_of_write (h : d.write path bs = .ok d') :
    d' = d.put (Path.absolute d.cwd path) (.file bs) :=
  Except.ok.inj (h.symm.trans ((writable_of_write hcwd h).write hcwd bs))

end Write

/-- A beginning of a path ends in a name. -/
theorem plain_of_mem_stems {path : String} :
    ∀ stem ∈ stems path, stem ≠ "" ∧ stem.endsWith "/" = false := by
  intro stem hstem
  obtain ⟨n, hn, rfl⟩ := List.mem_map.mp hstem
  obtain ⟨hrange, hends⟩ := List.mem_filter.mp hn
  simp only [Bool.and_eq_true, decide_eq_true_eq, bne_iff_ne, ne_eq] at hends
  obtain ⟨⟨hpos, -⟩, hslash⟩ := hends
  have hlength : n - 1 < path.toList.length := by
    have hle := List.mem_range.mp hrange
    omega
  have hlast : (path.toList.take n).getLast? = some path.toList[n - 1] := by
    rw [List.getLast?_take, if_neg hpos.ne', List.getElem?_eq_getElem hlength, Option.some_or]
  rw [List.getElem?_eq_getElem hlength, Option.some.injEq] at hslash
  constructor
  · intro hempty
    rw [String.ofList_eq_empty_iff.mp hempty] at hlast
    cases hlast
  · refine plain_of_getLast? fun hlast' => hslash ?_
    rw [String.toList_ofList, hlast] at hlast'
    exact Option.some.inj hlast'

/-! ### What stays -/

theorem entry_put (d : Disk) (path path' : String) (e : DiskEntry) : entry? (d.put path e) path' =
    if path = path' ∧ d.isAbove path' = false then some e else d.entry? path' := by
  have habove : (d.put path e).isAbove path' = d.isAbove path' := by
    rw [isAbove, isAbove, put_cwd]
  unfold entry?
  rw [habove, find?_put]
  cases d.isAbove path' <;> simp

/-- Every file is read on `d'` as on `d`, unless it may have been written. -/
structure Keeps (written : String → Prop) (d d' : Disk) : Prop where
  cwd : d'.cwd = d.cwd
  read : ∀ {path : String} {bs : Bytes}, ¬ written (Path.absolute d.cwd path) →
    d.read path = .ok bs → d'.read path = .ok bs

namespace Keeps

variable {written : String → Prop} {d d' d'' : Disk}

theorem refl (d : Disk) : Keeps written d d :=
  ⟨rfl, fun _ h => h⟩

theorem trans (h : Keeps written d d') (h' : Keeps written d' d'') : Keeps written d d'' :=
  ⟨h'.cwd.trans h.cwd, fun hpath hread => h'.read (h.cwd ▸ hpath) (h.read hpath hread)⟩

theorem mono {written' : String → Prop} (h : Keeps written d d')
    (hsub : ∀ path, written path → written' path) : Keeps written' d d' :=
  ⟨h.cwd, fun hpath hread => h.read (fun hwritten => hpath (hsub _ hwritten)) hread⟩

/-- Directories stay directories, and no file is put over but at its own place. -/
theorem put {path : String} {e : DiskEntry} (hdir : d.entry? path = some .directory → e = .directory)
    (hfile : ∀ {path' : String} {bs : Bytes}, ¬ written (Path.absolute d.cwd path') →
      d.read path' = .ok bs → path ≠ Path.absolute d.cwd path') :
    Keeps written d (d.put path e) := by
  refine ⟨put_cwd d path e, fun {path' bs} hpath hread => ?_⟩
  obtain ⟨hne, hreaches, hentry, hslash⟩ := read_eq_ok_iff.mp hread
  rw [read_eq_ok_iff, put_cwd]
  refine ⟨hne, fun p hp => ?_, ?_, hslash⟩
  · rw [entry_put]
    split
    · rename_i hsame
      rw [hdir (hsame.1 ▸ hreaches p hp)]
    · exact hreaches p hp
  · rw [entry_put, if_neg fun hsame => hfile hpath hread hsame.1]
    exact hentry

theorem write {path : String} {bs : Bytes} (hcwd : Path.isAbsolute d.cwd = true)
    (h : d.write path bs = .ok d') (hpath : written (Path.absolute d.cwd path)) :
    Keeps written d d' := by
  rw [eq_put_of_write hcwd h]
  refine put (fun hdirectory => absurd hdirectory (writable_of_write hcwd h).free) ?_
  intro path' bs' hpath' _ hsame
  exact hpath' (hsame ▸ hpath)

theorem makeDirectories {path : String} (h : d.makeDirectories path = .ok d') :
    Keeps written d d' := by
  unfold Disk.makeDirectories at h
  split at h
  · cases h
  · have hstems := @plain_of_mem_stems path
    generalize stems path = stems at h hstems
    induction stems generalizing d with
    | nil =>
      rw [← Except.ok.inj h]
      exact refl d
    | cons stem stems ih =>
      obtain ⟨⟨hne, hslash⟩, hrest⟩ := List.forall_mem_cons.mp hstems
      rw [List.foldlM_cons] at h
      split at h
      · exact ih h hrest
      · cases h
      · rename_i f hlookup
        refine (put (fun _ => rfl) fun {path' bs} _ hread hsame => ?_).trans (ih h hrest)
        -- a file under the path of the directory would have been found
        obtain ⟨-, hreaches, hentry, -⟩ := read_eq_ok_iff.mp hread
        rw [← hsame] at hreaches hentry
        cases hlookup.symm.trans (lookup_eq_ok_iff.mpr ⟨hne, hreaches, hentry, .inr hslash⟩)

end Keeps

/-- What was written is read. -/
theorem read_of_write {d d' : Disk} {path : String} {bs : Bytes}
    (hcwd : Path.isAbsolute d.cwd = true) (h : d.write path bs = .ok d') :
    d'.read path = .ok bs := by
  obtain ⟨hne, hslash, hreaches, hfree⟩ := writable_of_write hcwd h
  have hbelow : d.isAbove (Path.absolute d.cwd path) = false :=
    Bool.eq_false_iff.mpr fun habove => hfree (entry_of_isAbove habove)
  rw [eq_put_of_write hcwd h, read_eq_ok_iff, put_cwd]
  refine ⟨hne, fun p hp => ?_, ?_, hslash⟩
  · have hother : Path.absolute d.cwd path ≠ p := fun hsame => hfree (hsame ▸ hreaches p hp)
    rw [entry_put, if_neg fun hsame => hother hsame.1]
    exact hreaches p hp
  · rw [entry_put, if_pos ⟨rfl, hbelow⟩]

end Phrasebook.Disk
