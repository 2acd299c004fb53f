import Mathlib.Data.List.Basic
import Phrasebook.Disk.Basic

/-!
Which files there are on a disk. What is read is a file that the disk has, and writing adds no file
but the one that is written.
-/
namespace Phrasebook

/-- A result is the one that it was computed to be. -/
theorem eq_ok_of_toOption {ε α : Type} {result : Except ε α} {a : α}
    (h : result.toOption = some a) : result = .ok a := by
  cases result with
  | error e => cases h
  | ok b => exact congrArg Except.ok (Option.some.inj h)

namespace Disk

/-! ### Looking up -/

theorem find?_put (d : Disk) (path path' : String) (e : DiskEntry) :
    (d.put path e).find? path' = if path = path' then some e else d.find? path' := by
  unfold put
  split
  · rename_i hany
    -- the entry of the path is replaced where it stands
    have hreplaced (entries : List (String × DiskEntry)) :
        ((entries.map fun p => if p.1 == path then (p.1, e) else (p.1, p.2)).find?
            (·.1 == path')).map (·.2) =
          if path = path' then (entries.find? (·.1 == path')).map fun _ => e
          else (entries.find? (·.1 == path')).map (·.2) := by
      induction entries with
      | nil => simp
      | cons p r ih =>
        obtain ⟨q, old⟩ := p
        rw [List.map_cons]
        by_cases hq : q = path'
        · subst hq
          by_cases hpath : q = path
          · simp [hpath]
          · simp [hpath, Ne.symm hpath]
        · by_cases hpath : q = path
          · simpa [hpath, hq, hpath ▸ hq] using ih
          · simpa [hpath, hq] using ih
    rw [find?, hreplaced, find?]
    split
    · rename_i hsame
      subst hsame
      obtain ⟨p, hp, hpath⟩ := List.any_eq_true.mp hany
      have hfound : (d.entries.find? (·.1 == path)).isSome := List.find?_isSome.mpr ⟨p, hp, hpath⟩
      obtain ⟨q, hq⟩ := Option.isSome_iff_exists.mp hfound
      rw [hq]
      rfl
    · rfl
  · rename_i hany
    have hnone : d.entries.find? (·.1 == path) = none := by
      refine List.find?_eq_none.mpr fun p hp hpath => hany ?_
      exact List.any_eq_true.mpr ⟨p, hp, hpath⟩
    rw [find?, find?, List.find?_append]
    by_cases hsame : path = path'
    · subst hsame
      rw [hnone, if_pos rfl]
      simp
    · simp [hsame]

/-- What is read from a path is the file under its absolute path. -/
theorem find?_of_read {d : Disk} {path : String} {bs : Bytes} (h : d.read path = .ok bs) :
    d.find? (Path.absolute d.cwd path) = some (.file bs) := by
  have hlookup : d.lookup path = .ok (.file bs) := by
    unfold read at h
    split at h
    · rename_i content hlookup
      rw [hlookup, Except.ok.inj h]
    · cases h
    · cases h
  have hentry : d.entry? (Path.absolute d.cwd path) = some (.file bs) := by
    unfold lookup at hlookup
    split at hlookup
    · cases hlookup
    · simp only at hlookup
      split at hlookup
      · cases hlookup
      · split at hlookup
        · cases hlookup
        · rename_i content hentry
          split at hlookup
          · cases hlookup
          · cases hlookup
            exact hentry
        · cases hlookup
  unfold entry? at hentry
  split at hentry
  · cases hentry
  · exact hentry

/-! ### The working directory -/

theorem put_cwd (d : Disk) (path : String) (e : DiskEntry) : (d.put path e).cwd = d.cwd := by
  unfold put
  split <;> rfl

theorem write_cwd {d d' : Disk} {path : String} {content : Bytes}
    (h : d.write path content = .ok d') : d'.cwd = d.cwd := by
  have hput (target : String) (h : Except.ok (d.put target (.file content)) =
      (.ok d' : Except DiskError Disk)) : d'.cwd = d.cwd := by
    rw [← Except.ok.inj h]
    exact put_cwd d _ _
  unfold write at h
  split at h
  · exact nomatch h
  · exact hput _ h
  · split at h
    · exact nomatch h
    · split at h
      · exact nomatch h
      · split at h
        · exact hput _ h
        · exact nomatch h

theorem makeDirectories_cwd {d d' : Disk} {path : String} (h : d.makeDirectories path = .ok d') :
    d'.cwd = d.cwd := by
  unfold makeDirectories at h
  split at h
  · exact nomatch h
  -- The induction is on the folders still to make, whatever path they come from.
  · generalize Disk.stems path = stems at h
    induction stems generalizing d with
    | nil => exact congrArg Disk.cwd (Except.ok.inj h).symm
    | cons stem stems ih =>
      rw [List.foldlM_cons] at h
      split at h
      · exact ih h
      · exact nomatch h
      · exact (ih h).trans (put_cwd d _ _)

/-! ### Writing -/

/-- Every file of `d'` was there on `d` already, or may have been written. -/
def Adds (written : String → Bytes → Prop) (d d' : Disk) : Prop :=
  ∀ path bs, d'.find? path = some (.file bs) → d.find? path = some (.file bs) ∨ written path bs

namespace Adds

variable {written : String → Bytes → Prop} {d d' d'' : Disk}

theorem refl (d : Disk) : Adds written d d :=
  fun _ _ h => .inl h

theorem trans (h : Adds written d d') (h' : Adds written d' d'') : Adds written d d'' := by
  intro path bs hfind
  rcases h' path bs hfind with hfind | hwritten
  · exact h path bs hfind
  · exact .inr hwritten

theorem mono {written' : String → Bytes → Prop} (h : Adds written d d')
    (hsub : ∀ path bs, written path bs → written' path bs) : Adds written' d d' :=
  fun path bs hfind => (h path bs hfind).imp_right (hsub path bs)

theorem putFile {path : String} {bs : Bytes} (h : written path bs) :
    Adds written d (d.put path (.file bs)) := by
  intro path' bs' hfind
  rw [find?_put] at hfind
  split at hfind
  · rename_i hsame
    subst hsame
    cases hfind
    exact .inr h
  · exact .inl hfind

theorem putDirectory (path : String) : Adds written d (d.put path .directory) := by
  intro path' bs' hfind
  rw [find?_put] at hfind
  split at hfind
  · cases hfind
  · exact .inl hfind

theorem write {path : String} {bs : Bytes} (h : d.write path bs = .ok d')
    (hpath : written (Path.absolute d.cwd path) bs) : Adds written d d' := by
  have hput (h : Except.ok (d.put (Path.absolute d.cwd path) (.file bs)) =
      (.ok d' : Except DiskError Disk)) : Adds written d d' := by
    rw [← Except.ok.inj h]
    exact putFile hpath
  unfold Disk.write at h
  split at h
  · cases h
  · exact hput h
  · split at h
    · cases h
    · split at h
      · cases h
      · split at h
        · exact hput h
        · cases h

theorem makeDirectories {path : String} (h : d.makeDirectories path = .ok d') :
    Adds written d d' := by
  unfold Disk.makeDirectories at h
  split at h
  · cases h
  · generalize stems path = stems at h
    induction stems generalizing d with
    | nil =>
      rw [← Except.ok.inj h]
      exact refl d
    | cons stem stems ih =>
      rw [List.foldlM_cons] at h
      split at h
      · exact ih h
      · cases h
      · exact (putDirectory _).trans (ih h)

end Adds

end Disk

end Phrasebook
