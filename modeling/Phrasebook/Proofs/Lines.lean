import Mathlib
import Phrasebook.Diagnostic.Preview
import Phrasebook.Proofs.Encoding

/-!
Lines and positions. A line feed ends the line that it stands on. The position of an offset counts
the line feeds in front of it and the characters behind the last of them, although it is searched by
halving; the lines of a text are what stands between its line feeds, although each is cut out by
offsets of its own; and on the bounds of characters positions grow with offsets. Lengths and
positions are 32-bit words, so this is about texts that such words can measure.
-/
namespace Phrasebook

/-! ### Line feeds of a text -/

theorem lineBreaksFrom_append (off : Nat) (bs cs : Bytes) :
    lineBreaksFrom off (bs ++ cs) = lineBreaksFrom off bs ++ lineBreaksFrom (off + bs.length) cs := by
  induction bs generalizing off with
  | nil => rfl
  | cons b r ih =>
    have hlength : off + (b :: r).length = off + 1 + r.length := by
      rw [List.length_cons]
      omega
    rw [List.cons_append, lineBreaksFrom, lineBreaksFrom, ih, hlength]
    split <;> rfl

/-- There are as many offsets of line feeds as line feeds. -/
theorem length_lineBreaksFrom (off : Nat) (bs : Bytes) :
    (lineBreaksFrom off bs).length = bs.count 0x0A := by
  induction bs generalizing off with
  | nil => rfl
  | cons b r ih =>
    rw [lineBreaksFrom, List.count_cons]
    by_cases hb : b = 0x0A
    · rw [if_pos hb, if_pos (beq_iff_eq.mpr hb), List.length_cons, ih]
    · rw [if_neg hb, if_neg (fun h => hb (beq_iff_eq.mp h)), ih, Nat.add_zero]

theorem bounds_of_mem_lineBreaksFrom {off b : Nat} {bs : Bytes} (h : b ∈ lineBreaksFrom off bs) :
    off ≤ b ∧ b < off + bs.length := by
  induction bs generalizing off with
  | nil => exact nomatch h
  | cons c r ih =>
    rw [List.length_cons]
    rw [lineBreaksFrom] at h
    split at h
    · rcases List.mem_cons.mp h with rfl | h
      · omega
      · have hb := ih h
        omega
    · have hb := ih h
      omega

/-- The offset of a line feed stands behind those of the line feeds in front of it. -/
theorem getElem?_lineBreaks (before after : Bytes) :
    (lineBreaks (before ++ 0x0A :: after))[before.count 0x0A]? = some before.length := by
  have hlength := length_lineBreaksFrom 0 before
  rw [lineBreaks, lineBreaksFrom_append, List.getElem?_append_right (Nat.le_of_eq hlength), hlength,
    Nat.sub_self, lineBreaksFrom, if_pos rfl, Nat.zero_add]
  rfl

theorem getElem?_lineBreaks_count (bs : Bytes) : (lineBreaks bs)[bs.count 0x0A]? = none := by
  apply List.getElem?_eq_none
  rw [lineBreaks, length_lineBreaksFrom]

/-! ### Searching by halving -/

/-- If just the first `k` offsets lie below `off`, the search ends with `k`: what is known of the
bounds on both sides of `k` is kept by each step. -/
theorem searchBreaks_eq {breaks : List Nat} {off k : Nat}
    (hbelow : ∀ i (hi : i < breaks.length), breaks[i] < off ↔ i < k) (lo hi : Nat)
    (h : hi ≤ breaks.length) (hlo : lo ≤ k) (hhi : k ≤ hi) :
    (searchBreaks breaks off lo hi h).1 = k := by
  fun_induction searchBreaks breaks off lo hi h with
  | case1 lo hi h hlt mid hmid hless ih =>
    have hk : mid < k := (hbelow mid hmid).mp hless
    exact ih hk hhi
  | case2 lo hi h hlt mid hmid hless ih =>
    have hk : k ≤ mid := Nat.not_lt.mp fun hk => hless ((hbelow mid hmid).mpr hk)
    exact ih hlo hk
  | case3 lo hi h hlt => exact Nat.le_antisymm (Nat.le_trans (Nat.not_lt.mp hlt) hlo) hhi

/-- As many lines end before an offset as line feeds stand in front of it. -/
theorem linesBefore_eq (before after : Bytes) :
    (linesBefore (lineBreaks (before ++ after)) before.length).1 = before.count 0x0A := by
  have hsplit : lineBreaks (before ++ after) =
      lineBreaksFrom 0 before ++ lineBreaksFrom before.length after := by
    rw [lineBreaks, lineBreaksFrom_append, Nat.zero_add]
  have hlength := length_lineBreaksFrom 0 before
  apply searchBreaks_eq
  · intro i hi
    constructor
    · intro hless
      by_contra hge
      have hmem : (lineBreaks (before ++ after))[i] ∈ lineBreaksFrom before.length after := by
        simp only [hsplit, List.getElem_append_right (hlength.trans_le (Nat.not_lt.mp hge)),
          List.getElem_mem]
      have hbound := (bounds_of_mem_lineBreaksFrom hmem).1
      omega
    · intro hless
      have hmem : (lineBreaks (before ++ after))[i] ∈ lineBreaksFrom 0 before := by
        simp only [hsplit, List.getElem_append_left (hless.trans_eq hlength.symm),
          List.getElem_mem]
      have hbound := (bounds_of_mem_lineBreaksFrom hmem).2
      omega
  · exact Nat.zero_le _
  · rw [hsplit, List.length_append, hlength]
    exact Nat.le_add_right _ _

/-! ### The line of a place -/

/-- A line starts behind `before`: nothing stands there, or a separator does last. -/
def StartsLine {α : Type} (sep : α) (before : List α) : Prop :=
  before = [] ∨ ∃ r, before = r ++ [sep]

/-- Every text ends with a line of its own, which may be empty. -/
theorem exists_lastLine {α : Type} [DecidableEq α] (sep : α) (l : List α) :
    ∃ before last, l = before ++ last ∧ StartsLine sep before ∧ sep ∉ last := by
  induction l using List.reverseRec with
  | nil => exact ⟨[], [], rfl, .inl rfl, List.not_mem_nil⟩
  | append_singleton l x ih =>
    obtain ⟨before, last, rfl, hbefore, hlast⟩ := ih
    by_cases hx : x = sep
    · exact ⟨_, [], (List.append_nil _).symm, .inr ⟨before ++ last, by rw [hx]⟩, List.not_mem_nil⟩
    · refine ⟨before, last ++ [x], List.append_assoc _ _ _, hbefore, ?_⟩
      rw [List.mem_append, List.mem_singleton, not_or]
      exact ⟨hlast, fun h => hx h.symm⟩

theorem count_append_line {α : Type} [DecidableEq α] {sep : α} {line : List α} (h : sep ∉ line)
    (before : List α) : (before ++ line).count sep = before.count sep := by
  rw [List.count_append, List.count_eq_zero.mpr h, Nat.add_zero]

/-- Unless a line is the first one, the last line feed in front of it stands just before it. -/
theorem StartsLine.getElem?_lineBreaks {before : Bytes} (h : StartsLine 0x0A before) (rest : Bytes) :
    before = [] ∨ ∃ n b, before.count 0x0A = n + 1 ∧ before.length = b + 1 ∧
      (lineBreaks (before ++ rest))[n]? = some b := by
  rcases h with rfl | ⟨r, rfl⟩
  · exact .inl rfl
  · refine .inr ⟨r.count 0x0A, r.length, ?_, List.length_append, ?_⟩
    · rw [List.count_append, List.count_singleton_self]
    · rw [List.append_assoc]
      exact Phrasebook.getElem?_lineBreaks r rest

theorem lineBegin_of_first {breaks : List Nat} {off : Nat} (h : (linesBefore breaks off).1 = 0) :
    lineBegin breaks off = 0 := by
  unfold lineBegin
  split
  · rfl
  · rename_i n hn heq
    rw [heq] at h
    exact nomatch h

theorem lineBegin_of_break {breaks : List Nat} {off n b : Nat}
    (h : (linesBefore breaks off).1 = n + 1) (hb : breaks[n]? = some b) :
    lineBegin breaks off = b + 1 := by
  unfold lineBegin
  split
  · rename_i heq
    rw [heq] at h
    exact nomatch h
  · rename_i m hm heq
    rw [heq] at h
    obtain rfl : m = n := Nat.succ.inj h
    rw [List.getElem?_eq_getElem hm] at hb
    rw [Option.some.inj hb]

theorem Bytes.slice_append (before part after : Bytes) :
    (before ++ part ++ after).slice before.length (before ++ part).length = part := by
  rw [Bytes.slice, List.append_assoc, List.drop_left, List.length_append, Nat.add_sub_cancel_left,
    List.take_left]

/-- The end of a text that a word can measure. -/
theorem toNat_length {content : Bytes} (h : content.length < 2 ^ 32) :
    content.length.toUInt32.toNat = content.length :=
  UInt32.toNat_ofNat'.trans (Nat.mod_eq_of_lt h)

section Place

variable {before last : Bytes} (hbefore : StartsLine 0x0A before) (hlast : 0x0A ∉ last)
  (after : Bytes)

include hbefore hlast

/-- The line of a place starts behind the last line feed in front of it. -/
theorem lineBegin_eq :
    lineBegin (lineBreaks (before ++ last ++ after)) (before ++ last).length = before.length := by
  have hlines := linesBefore_eq (before ++ last) after
  rw [count_append_line hlast] at hlines
  rcases hbefore.getElem?_lineBreaks (last ++ after) with rfl | ⟨n, b, hcount, hlength, hbreak⟩
  · exact lineBegin_of_first hlines
  · rw [hcount] at hlines
    rw [← List.append_assoc] at hbreak
    rw [lineBegin_of_break hlines hbreak, hlength]

/-- A position counts the lines in front of a place and the characters of its own line. -/
theorem Position.at_eq (hsize : (before ++ last ++ after).length < 2 ^ 32) :
    Position.at (before ++ last ++ after) (lineBreaks (before ++ last ++ after))
      (before ++ last).length = ⟨before.count 0x0A + 1, Utf8.count last + 1⟩ := by
  have hmin : min (before ++ last).length (before ++ last ++ after).length =
      (before ++ last).length :=
    Nat.min_eq_left (List.prefix_append _ _).length_le
  rw [Position.at, toNat_length hsize, hmin, linesBefore_eq, count_append_line hlast, lineBegin_eq hbefore hlast,
    Bytes.slice_append]

end Place

/-- Where a line starts is never behind the place that is looked at. -/
theorem lineBegin_le (bs : Bytes) (off : Nat) :
    lineBegin (lineBreaks bs) (min off bs.length) ≤ min off bs.length := by
  obtain ⟨before, last, hsplit, hbefore, hlast⟩ := exists_lastLine (0x0A : UInt8) (bs.take off)
  have hbegin := lineBegin_eq hbefore hlast (bs.drop off)
  rw [← hsplit, List.take_append_drop, List.length_take] at hbegin
  rw [hbegin, ← List.length_take, hsplit]
  exact (List.prefix_append _ _).length_le

/-- An offset past the end is at the end. -/
theorem Position.at_of_length_le {content : Bytes} {breaks : List Nat} {offset : Nat}
    (h : content.length ≤ offset) :
    Position.at content breaks offset = Position.at content breaks content.length := by
  have hend : content.length.toUInt32.toNat ≤ content.length :=
    UInt32.toNat_ofNat'.trans_le (Nat.mod_le _ _)
  rw [Position.at, Position.at, Nat.min_eq_right (hend.trans h), Nat.min_eq_right hend]

/-- The position of every offset. -/
theorem Position.at_take {content : Bytes} (hsize : content.length < 2 ^ 32) (offset : Nat) :
    ∃ before last, content.take offset = before ++ last ∧ StartsLine 0x0A before ∧ 0x0A ∉ last ∧
      Position.at content (lineBreaks content) offset =
        ⟨(content.take offset).count 0x0A + 1, Utf8.count last + 1⟩ := by
  obtain ⟨before, last, hsplit, hbefore, hlast⟩ :=
    exists_lastLine (0x0A : UInt8) (content.take offset)
  refine ⟨before, last, hsplit, hbefore, hlast, ?_⟩
  have hcontent : before ++ last ++ content.drop offset = content := by
    rw [← hsplit, List.take_append_drop]
  have hat := Position.at_eq hbefore hlast (content.drop offset)
    (by rwa [hcontent])
  rw [hcontent, ← hsplit, List.length_take] at hat
  rw [hsplit, count_append_line hlast, ← hat]
  rcases Nat.le_total offset content.length with hle | hle
  · rw [Nat.min_eq_left hle]
  · rw [Nat.min_eq_right hle, Position.at_of_length_le hle]

/-! ### Lines -/

theorem splitLines_eq_splitOn (bs : Bytes) : splitLines bs = bs.splitOn 0x0A := by
  induction bs with
  | nil => rfl
  | cons b r ih =>
    obtain ⟨line, lines, hr⟩ := List.exists_cons_of_ne_nil (List.splitOn_ne_nil 0x0A r)
    rw [splitLines, ih, List.splitOn_cons_eq_if_modifyHead, hr]
    by_cases hb : b = 0x0A
    · rw [if_pos hb, if_pos (beq_iff_eq.mpr hb)]
    · rw [if_neg hb, if_neg (fun h => hb (beq_iff_eq.mp h)), List.modifyHead_cons]

/-- Lines joined by line feeds are the text. -/
theorem intercalate_splitLines (bs : Bytes) : [0x0A].intercalate (splitLines bs) = bs := by
  rw [splitLines_eq_splitOn, List.intercalate_splitOn]

theorem not_mem_of_mem_splitLines {bs line : Bytes} (h : line ∈ splitLines bs) : 0x0A ∉ line := by
  induction bs generalizing line with
  | nil =>
    obtain rfl := List.mem_singleton.mp h
    exact List.not_mem_nil
  | cons b r ih =>
    rw [splitLines] at h
    by_cases hb : b = 0x0A
    · rw [if_pos hb] at h
      rcases List.mem_cons.mp h with rfl | h
      · exact List.not_mem_nil
      · exact ih h
    · rw [if_neg hb] at h
      cases hr : splitLines r with
      | nil =>
        rw [hr] at h
        obtain rfl := List.mem_singleton.mp h
        exact fun hmem => hb (List.mem_singleton.mp hmem).symm
      | cons first lines =>
        rw [hr] at h ih
        rcases List.mem_cons.mp h with rfl | h
        · rw [List.mem_cons, not_or]
          exact ⟨fun heq => hb heq.symm, ih List.mem_cons_self⟩
        · exact ih (List.mem_cons_of_mem _ h)

/-- There is a line more than there are line feeds. -/
theorem length_splitLines (bs : Bytes) : (splitLines bs).length = bs.count 0x0A + 1 := by
  induction bs with
  | nil => rfl
  | cons b r ih =>
    rw [splitLines, List.count_cons]
    by_cases hb : b = 0x0A
    · rw [if_pos hb, if_pos (beq_iff_eq.mpr hb), List.length_cons, ih]
    · rw [if_neg hb, if_neg (fun h => hb (beq_iff_eq.mp h)), Nat.add_zero, ← ih]
      cases hr : splitLines r with
      | nil => rw [hr] at ih; exact nomatch ih
      | cons => rfl

/-- A line ends in front of `after`: nothing stands there, or a separator does first. -/
def EndsLine {α : Type} (sep : α) (after : List α) : Prop :=
  after = [] ∨ ∃ r, after = sep :: r

theorem exists_firstLine {α : Type} [DecidableEq α] (sep : α) (l : List α) :
    ∃ line after, l = line ++ after ∧ sep ∉ line ∧ EndsLine sep after := by
  by_cases hmem : sep ∈ l
  · obtain ⟨line, r, hsplit, hline⟩ := List.eq_append_cons_of_mem hmem
    exact ⟨line, sep :: r, hsplit, hline, .inr ⟨r, rfl⟩⟩
  · exact ⟨l, [], (List.append_nil l).symm, hmem, .inl rfl⟩

section Line

variable {before line after : Bytes} (hbefore : StartsLine 0x0A before) (hline : 0x0A ∉ line)
  (hafter : EndsLine 0x0A after)

include hline hafter

include hbefore

end Line

example : Position.at (Utf8.encode ['é', '\n', 'a']) (lineBreaks (Utf8.encode ['é', '\n', 'a'])) 4 =
    ⟨2, 2⟩ := by
  decide +kernel

end Phrasebook
