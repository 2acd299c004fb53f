import Phrasebook.Progress.Names
import Phrasebook.Proofs.Paths

/-!
The names that progress is reported under tell files apart: two paths with one name lead to one
place.
-/
namespace Phrasebook.Progress

open Phrasebook.Path

section Names

variable {cwd base file : String} (hcwd : isAbsolute cwd = true) (hfile : file ≠ "")

include hcwd hfile

/-- A file is named by where it is, or by how it is reached from the directory below which it is. -/
theorem nameFrom_cases (hbase : base ≠ "") :
    nameFrom cwd base file = absolute cwd file ∨
      (relative? base (absolute cwd file) = some (nameFrom cwd base file) ∧
        nameFrom cwd base file ≠ "." ∧ "..".isPrefixOf (nameFrom cwd base file) = false) := by
  unfold nameFrom
  simp only [if_neg hbase, absolute_clean hcwd hfile]
  split
  · rename_i r hr
    split
    · exact .inl rfl
    · rename_i hdown
      simp only [Bool.or_eq_true, decide_eq_true_eq, not_or, Bool.not_eq_true] at hdown
      exact .inr ⟨hr, hdown.1, hdown.2⟩
  · exact .inl rfl

theorem name_ne_empty : name cwd base file ≠ "" := by
  rw [name, if_neg hfile]
  generalize baseOf cwd base = b
  by_cases hb : b = ""
  · subst hb
    exact clean_ne_empty file
  · rcases nameFrom_cases hcwd hfile hb with h | ⟨h, -, -⟩
    · rw [h]
      exact ne_empty_of_isAbsolute (isAbsolute_absolute hcwd file)
    · exact (relative?_spec h).1

/-- Files of one name are one file. -/
theorem absolute_eq_of_name_eq {other : String} (hother : other ≠ "")
    (h : name cwd base file = name cwd base other) : absolute cwd file = absolute cwd other := by
  rw [name, name, if_neg hfile, if_neg hother] at h
  generalize baseOf cwd base = b at h
  have hplace (p : String) : isAbsolute (absolute cwd p) = true := isAbsolute_absolute hcwd p
  by_cases hb : b = ""
  · subst hb
    have hclean : clean file = clean other := h
    rw [← absolute_clean hcwd hfile, hclean, absolute_clean hcwd hother]
  · rcases nameFrom_cases hcwd hfile hb with hf | ⟨hf, hself, hdown⟩ <;>
      rcases nameFrom_cases hcwd hother hb with ho | ⟨ho, -, -⟩
    · rw [← hf, h, ho]
    · -- a relative name is not an absolute path
      rw [← h, hf] at ho
      have hrelative := (relative?_spec ho).2
      rw [hplace] at hrelative
      exact nomatch hrelative
    · rw [h, ho] at hf
      have hrelative := (relative?_spec hf).2
      rw [hplace] at hrelative
      exact nomatch hrelative
    · rw [← h] at ho
      have hclean := eq_of_relative? hf ho hself hdown
      rw [clean_absolute _ _ (ne_empty_of_isAbsolute (hplace file)),
        clean_absolute _ _ (ne_empty_of_isAbsolute (hplace other))] at hclean
      exact hclean

end Names

end Phrasebook.Progress
