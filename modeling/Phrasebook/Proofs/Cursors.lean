import Mathlib.Logic.Basic
import Phrasebook.Message.Cursor
import Phrasebook.Proofs.Encoding

/-!
What stands between two cursors. Every step of a cursor passes a run of characters; which run and
where it ends is told by what the characters are.
-/
namespace Phrasebook.Message

namespace Cursor

/-- The cursor `c'` stands behind a run of characters that stands at `c`. -/
structure Passes (c : Cursor) (run : List Char) (c' : Cursor) : Prop where
  rest : c.rest = run ++ c'.rest
  offset : c'.offset = c.offset + Skeleton.byteLength run

/-- What follows a cursor does not go on with a character of a class. -/
def Stops (p : Char → Bool) (c : Cursor) : Prop :=
  ∀ x ∈ c.rest.head?, p x = false

/-- The longest run of a class that stands at `c` ends at `c'`. -/
structure Longest (p : Char → Bool) (c : Cursor) (run : List Char) (c' : Cursor) : Prop where
  passes : c.Passes run c'
  all : ∀ x ∈ run, p x = true
  stops : c'.Stops p

/-- The cursor `c'` does not stand before `c`. -/
def Leads (c c' : Cursor) : Prop :=
  ∃ run, c.Passes run c'

namespace Passes

variable {c c' c'' : Cursor} {run run' : List Char}

theorem refl (c : Cursor) : c.Passes [] c :=
  ⟨rfl, rfl⟩

theorem trans (h : c.Passes run c') (h' : c'.Passes run' c'') : c.Passes (run ++ run') c'' := by
  constructor
  · rw [h.rest, h'.rest, List.append_assoc]
  · rw [h'.offset, h.offset, Skeleton.byteLength_append, Nat.add_assoc]

theorem eq_of_same (h : c.Passes run c') (h' : c.Passes run c'') : c' = c'' := by
  have hrest : c'.rest = c''.rest := List.append_cancel_left (h.rest.symm.trans h'.rest)
  have hoffset : c'.offset = c''.offset := h.offset.trans h'.offset.symm
  obtain ⟨offset, rest⟩ := c'
  obtain ⟨offset', rest'⟩ := c''
  exact Cursor.mk.injEq .. ▸ ⟨hoffset, hrest⟩

theorem length_rest (h : c.Passes run c') : c.rest.length = run.length + c'.rest.length := by
  rw [h.rest, List.length_append]

theorem head? {x : Char} (h : c.Passes (x :: run) c') : c.rest.head? = some x := by
  rw [h.rest]
  rfl

theorem leads (h : c.Passes run c') : c.Leads c' :=
  ⟨run, h⟩

end Passes

namespace Leads

variable {c c' c'' : Cursor} {run : List Char}

theorem refl (c : Cursor) : c.Leads c :=
  ⟨[], .refl c⟩

theorem trans (h : c.Leads c') (h' : c'.Leads c'') : c.Leads c'' := by
  obtain ⟨run, h⟩ := h
  obtain ⟨run', h'⟩ := h'
  exact ⟨run ++ run', h.trans h'⟩

theorem offset_le (h : c.Leads c') : c.offset ≤ c'.offset := by
  obtain ⟨run, h⟩ := h
  rw [h.offset]
  exact Nat.le_add_right _ _

theorem length_le (h : c.Leads c') : c'.rest.length ≤ c.rest.length := by
  obtain ⟨run, h⟩ := h
  rw [h.length_rest]
  exact Nat.le_add_left _ _

/-- Where characters are left over, there are bytes between the cursors. -/
theorem offset_lt (h : c.Leads c') (hless : c'.rest.length < c.rest.length) :
    c.offset < c'.offset := by
  obtain ⟨run, h⟩ := h
  have hlength := Skeleton.length_le_byteLength run
  have hrest := h.length_rest
  rw [h.offset]
  omega

/-- A place is told by how many bytes are left. -/
theorem eq_of_length (h : c.Leads c') (hless : c.rest.length ≤ c'.rest.length) : c' = c := by
  obtain ⟨run, h⟩ := h
  have hrest := h.length_rest
  obtain rfl : run = [] := List.eq_nil_of_length_eq_zero (by omega)
  exact h.eq_of_same (.refl c)

end Leads

theorem passes_skip {c : Cursor} {run rest : List Char} (h : c.rest = run ++ rest) :
    c.Passes run (c.skip run rest) :=
  ⟨h, rfl⟩

theorem takeWhile_eq_iff {p : Char → Bool} {c c' : Cursor} {run : List Char} :
    c.takeWhile p = (run, c') ↔ Longest p c run c' := by
  constructor
  · intro h
    obtain ⟨rfl, rfl⟩ := Prod.mk.inj h
    refine ⟨passes_skip List.takeWhile_append_dropWhile.symm, fun x hx => ?_, fun x hx => ?_⟩
    · exact List.all_eq_true.mp List.all_takeWhile x hx
    · have hhead := List.head?_dropWhile_not p c.rest
      rw [show (c.rest.dropWhile p).head? = some x from hx] at hhead
      simpa using hhead
  · rintro ⟨hpasses, hall, hstops⟩
    have hdrop : c'.rest.dropWhile p = c'.rest := by
      cases hrest : c'.rest with
      | nil => rfl
      | cons x r =>
        have hx : p x = false := hstops x (by rw [hrest]; rfl)
        rw [List.dropWhile_cons, if_neg (by rw [hx]; exact Bool.false_ne_true)]
    have htake : c'.rest.takeWhile p = [] := by
      have hsplit := List.takeWhile_append_dropWhile (p := p) (l := c'.rest)
      rw [hdrop] at hsplit
      exact List.append_left_eq_self.mp hsplit
    have hrun : c.rest.takeWhile p = run := by
      rw [hpasses.rest, List.takeWhile_append_of_pos hall, htake, List.append_nil]
    have hleft : c.rest.dropWhile p = c'.rest := by
      rw [hpasses.rest, List.dropWhile_append_of_pos hall, hdrop]
    rw [takeWhile, hrun, hleft]
    have hskip : c.Passes run (c.skip run c'.rest) := passes_skip hpasses.rest
    rw [hskip.eq_of_same hpasses]

theorem eat?_eq_some_iff {c c' : Cursor} {ch : Char} : c.eat? ch = some c' ↔ c.Passes [ch] c' := by
  rw [eat?]
  split
  · rename_i x r hrest
    split
    · rename_i hx
      subst hx
      have hskip : c.Passes [x] (c.skip [x] r) := passes_skip hrest
      rw [Option.some.injEq]
      exact ⟨fun h => h ▸ hskip, fun h => hskip.eq_of_same h⟩
    · rename_i hx
      constructor
      · exact fun h => nomatch h
      · intro h
        rw [h.rest] at hrest
        exact absurd (List.cons.inj hrest).1.symm hx
  · rename_i hrest
    constructor
    · exact fun h => nomatch h
    · intro h
      rw [h.rest] at hrest
      exact nomatch hrest

theorem eat?_eq_none_iff {c : Cursor} {ch : Char} :
    c.eat? ch = none ↔ c.rest.head? ≠ some ch := by
  rw [eat?]
  cases c.rest with
  | nil => simp
  | cons x r => simp

theorem eatWord?_eq_some_iff {c c' : Cursor} {word : List Char} :
    c.eatWord? word = some c' ↔ c.Passes word c' := by
  rw [eatWord?]
  constructor
  · intro h
    split at h
    · rename_i hword
      obtain ⟨rest, hrest⟩ := List.isPrefixOf_iff_prefix.mp hword
      rw [← Option.some.inj h, ← hrest, List.drop_left]
      exact passes_skip hrest.symm
    · exact nomatch h
  · intro h
    have hword : word.isPrefixOf c.rest = true :=
      List.isPrefixOf_iff_prefix.mpr ⟨c'.rest, h.rest.symm⟩
    rw [if_pos hword, h.rest, List.drop_left]
    exact congrArg some ((passes_skip h.rest).eq_of_same h)

/-- The run that a cursor skips is blank, and none follows it. -/
theorem skipBlank_eq_iff {c c' : Cursor} :
    c.skipBlank = c' ↔ ∃ run, Longest Text.isPatternBlank c run c' := by
  constructor
  · rintro rfl
    exact ⟨_, takeWhile_eq_iff.mp rfl⟩
  · rintro ⟨run, h⟩
    rw [skipBlank, takeWhile_eq_iff.mpr h]

theorem leads_skipBlank (c : Cursor) : c.Leads c.skipBlank := by
  obtain ⟨run, hrun⟩ := skipBlank_eq_iff.mp (rfl : c.skipBlank = c.skipBlank)
  exact hrun.passes.leads

theorem skipBlank_of_stops {c : Cursor} (h : c.Stops Text.isPatternBlank) : c.skipBlank = c :=
  skipBlank_eq_iff.mpr ⟨[], .refl c, fun _ hx => absurd hx List.not_mem_nil, h⟩

theorem isDone_eq_false {c c' : Cursor} {run : List Char} (h : c.Passes run c') (hrun : run ≠ []) :
    c.isDone = false := by
  rw [isDone, h.rest]
  exact List.isEmpty_eq_false_iff.mpr (List.append_ne_nil_of_left_ne_nil hrun _)

end Cursor

open Cursor

theorem scanName_eq_iff {c c' : Cursor} {name : String} :
    scanName c = (name, c') ↔ Longest isNameChar c name.toList c' := by
  rw [← takeWhile_eq_iff, scanName]
  constructor
  · intro h
    obtain ⟨rfl, rfl⟩ := Prod.mk.inj h
    rw [String.toList_ofList]
    rfl
  · intro h
    simp only [h, String.ofList_toList]

/-- A tag name starts with a letter of the alphabet. -/
theorem scanTagName_eq_iff {c c' : Cursor} {name : String} (hname : name ≠ "") :
    scanTagName c = (name, c') ↔
      name.toList.head?.any isTagStart = true ∧ Longest isTagChar c name.toList c' := by
  have hhead (hpasses : c.Passes name.toList c') : c.rest.head? = name.toList.head? := by
    rw [hpasses.rest]
    cases hlist : name.toList with
    | nil => exact absurd (String.toList_eq_nil_iff.mp hlist) hname
    | cons x r => rfl
  constructor
  · intro h
    rw [scanTagName] at h
    split at h
    · rename_i hstart
      obtain ⟨hrun, hstop⟩ := Prod.mk.inj h
      have hlist : name.toList = c.rest.takeWhile isTagChar := by
        rw [← hrun, String.toList_ofList]
      have htaken : c.takeWhile isTagChar = (name.toList, c') := by
        rw [hlist, ← hstop]
        rfl
      have hrun := takeWhile_eq_iff.mp htaken
      rw [hhead hrun.passes] at hstart
      exact ⟨hstart, hrun⟩
    · exact absurd (Prod.mk.inj h).1.symm hname
  · rintro ⟨hstart, hrun⟩
    rw [scanTagName, hhead hrun.passes, if_pos hstart, takeWhile_eq_iff.mpr hrun]
    simp only [String.ofList_toList]

end Phrasebook.Message
