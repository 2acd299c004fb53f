import Mathlib.Data.List.DropRight
import Phrasebook.Proofs.DefaultFixes
import Phrasebook.Proofs.Lines

/-!
Previews of edits. The block around an edit is made of whole lines: it starts with the line of the
start and ends behind the line feed of the line of the end. An edit has a preview if, and only if, it
lies inside its text with its ends in order; the block then changes as the text does.
-/
namespace Phrasebook

/-! ### Blocks of whole lines -/

/-- A block of whole lines: a line starts with it, and it ends with a line feed or with the text. -/
structure WholeLines (pre block post : Bytes) : Prop where
  starts : StartsLine 0x0A pre
  ends : post = [] ∨ ∃ r, block = r ++ [0x0A]

theorem lineStart_eq {f : File} {pre rest : Bytes} (hcontent : f.content = pre ++ rest)
    (hpre : StartsLine 0x0A pre) : lineStart f (pre.count 0x0A + 1) = pre.length := by
  rcases hpre.getElem?_lineBreaks rest with rfl | ⟨n, b, hcount, hlength, hbreak⟩
  · rfl
  · have hindex : n + 1 + 1 - 2 = n := by omega
    rw [lineStart, hcount, if_neg (by omega), hcontent, hindex, hbreak, hlength]

/-- The line of a place ends behind the next line feed, or with the text. -/
theorem exists_lineStop {f : File} {front back : Bytes} (hcontent : f.content = front ++ back) :
    ∃ rest post, back = rest ++ post ∧ (post = [] ∨ ∃ r, rest = r ++ [0x0A]) ∧
      lineStop f (front.count 0x0A + 1) = (front ++ rest).length := by
  obtain ⟨line, after, rfl, hline, hafter⟩ := exists_firstLine (0x0A : UInt8) back
  have hindex : front.count 0x0A + 1 - 1 = (front ++ line).count 0x0A := by
    rw [Nat.add_sub_cancel, count_append_line hline]
  rw [← List.append_assoc] at hcontent
  rcases hafter with rfl | ⟨post, rfl⟩
  · refine ⟨line, [], rfl, .inl rfl, ?_⟩
    rw [List.append_nil] at hcontent
    rw [lineStop, if_neg (Nat.succ_ne_zero _), hindex, hcontent, getElem?_lineBreaks_count]
  · refine ⟨line ++ [0x0A], post, (List.append_cons line 0x0A post), .inr ⟨line, rfl⟩, ?_⟩
    have hlength : (front ++ line ++ [0x0A]).length = (front ++ line).length + 1 :=
      List.length_append
    rw [lineStop, if_neg (Nat.succ_ne_zero _), hindex, hcontent, getElem?_lineBreaks,
      ← List.append_assoc, hlength]

theorem File.line_positionOf {f : File} (hsize : f.content.length < 2 ^ 32) (off : UInt32) :
    (f.positionOf off).line = (f.content.take off.toNat).count 0x0A + 1 := by
  obtain ⟨before, last, -, -, -, hat⟩ := Position.at_take hsize off.toNat
  rw [positionOf, hat]

/-- The later one of two places is on the later line. -/
theorem max_count_take (bs : Bytes) (m n : Nat) :
    max ((bs.take m).count 0x0A + 1) ((bs.take n).count 0x0A + 1) =
      (bs.take (max m n)).count 0x0A + 1 := by
  have hcount {i j : Nat} (h : i ≤ j) : (bs.take i).count 0x0A + 1 ≤ (bs.take j).count 0x0A + 1 :=
    Nat.succ_le_succ ((List.take_prefix_take_left h).sublist.count_le 0x0A)
  rcases Nat.le_total m n with h | h
  · rw [Nat.max_eq_right h, Nat.max_eq_right (hcount h)]
  · rw [Nat.max_eq_left h, Nat.max_eq_left (hcount h)]

/-- The later one of the two places of an edit, which need not be its end. -/
def Edit.reach (e : Edit) : Nat :=
  max e.span.stop.toNat e.span.start.toNat

/-- The block of an edit goes from the line of its start to that of its later place. -/
theorem editBlock_eq {f : File} (hsize : f.content.length < 2 ^ 32) (e : Edit) : editBlock f e =
    (lineStart f ((f.content.take e.span.start.toNat).count 0x0A + 1),
      min (max (lineStop f ((f.content.take e.reach).count 0x0A + 1))
        (lineStart f ((f.content.take e.span.start.toNat).count 0x0A + 1))) f.content.length) := by
  simp only [editBlock, File.line_positionOf hsize, max_count_take]
  rfl

/-- The block around an edit, with what stands in front of it and behind. -/
structure Surrounds (f : File) (e : Edit) (pre block post : Bytes) : Prop where
  content : f.content = pre ++ block ++ post
  whole : WholeLines pre block post
  bounds : editBlock f e = (pre.length, (pre ++ block).length)
  start_le : pre.length ≤ e.span.start.toNat
  reach_le : min e.reach f.content.length ≤ (pre ++ block).length

theorem exists_surrounds {f : File} (hsize : f.content.length < 2 ^ 32) (e : Edit) :
    ∃ pre block post, Surrounds f e pre block post := by
  obtain ⟨pre, last, hstart, hpre, hlast⟩ :=
    exists_lastLine (0x0A : UInt8) (f.content.take e.span.start.toNat)
  have hle : e.span.start.toNat ≤ e.reach := Nat.le_max_right _ _
  obtain ⟨mid, hmid⟩ := List.take_prefix_take_left (l := f.content) hle
  have hsplit := (List.take_append_drop e.reach f.content).symm
  obtain ⟨rest, post, hback, hends, hstop⟩ := exists_lineStop hsplit
  -- the block: the first line up to the start, all up to the later place, the rest of its line
  have hblock : f.content.take e.reach ++ rest = pre ++ (last ++ mid ++ rest) := by
    rw [← hmid, hstart]
    simp only [List.append_assoc]
  have hcontent : f.content = pre ++ (last ++ mid ++ rest) ++ post := by
    calc f.content = f.content.take e.reach ++ f.content.drop e.reach := hsplit
      _ = f.content.take e.reach ++ rest ++ post := by rw [hback, List.append_assoc]
      _ = pre ++ (last ++ mid ++ rest) ++ post := by rw [hblock]
  have hfirst : lineStart f ((f.content.take e.span.start.toNat).count 0x0A + 1) = pre.length := by
    rw [hstart, count_append_line hlast]
    exact lineStart_eq (hcontent.trans (List.append_assoc _ _ _)) hpre
  refine ⟨pre, last ++ mid ++ rest, post, hcontent, ⟨hpre, ?_⟩, ?_, ?_, ?_⟩
  · rcases hends with rfl | ⟨r, rfl⟩
    · exact .inl rfl
    · exact .inr ⟨last ++ mid ++ r, (List.append_assoc _ _ _).symm⟩
  · have hlength : (pre ++ (last ++ mid ++ rest)).length ≤ f.content.length := by
      rw [hcontent]
      exact (List.prefix_append _ _).length_le
    rw [editBlock_eq hsize, hfirst, hstop, hblock, Nat.max_eq_left (List.prefix_append _ _).length_le,
      Nat.min_eq_left hlength]
  · have hlength := congrArg List.length hstart
    rw [List.length_take, List.length_append] at hlength
    omega
  · rw [← hblock, ← List.length_take]
    exact (List.prefix_append _ _).length_le

/-- The end of an edit lies in its block, unless it lies behind the text. -/
theorem Surrounds.stop_le {f : File} {e : Edit} {pre block post : Bytes}
    (h : Surrounds f e pre block post) (hstop : e.span.stop.toNat ≤ f.content.length) :
    e.span.stop.toNat ≤ (pre ++ block).length := by
  have hle : e.span.stop.toNat ≤ e.reach := Nat.le_max_left _ _
  exact (Nat.le_min_of_le_of_le hle hstop).trans h.reach_le

/-! ### The lines of a block -/

/-- The lines of a block, without the line feeds that it ends with. -/
structure ShownAs (lines : List Bytes) (block : Bytes) : Prop where
  nil_iff : lines = [] ↔ block = []
  not_mem : ∀ line ∈ lines, 0x0A ∉ line
  joins : ∃ n, block = [0x0A].intercalate lines ++ List.replicate n 0x0A
  trimmed : ∀ r, [0x0A].intercalate lines ≠ r ++ [0x0A]

theorem blockLines_eq {block : Bytes} (hempty : block ≠ []) :
    blockLines block = splitLines (block.rdropWhile (· == 0x0A)) := by
  rw [blockLines, if_neg fun h => hempty (List.isEmpty_iff.mp h)]
  rfl

theorem blockLines_shown (block : Bytes) : ShownAs (blockLines block) block := by
  by_cases hempty : block = []
  · subst hempty
    refine ⟨iff_of_true rfl rfl, fun line h => absurd h List.not_mem_nil, ⟨0, rfl⟩, fun r h => ?_⟩
    exact List.append_ne_nil_of_right_ne_nil r (List.cons_ne_nil _ _) h.symm
  · rw [blockLines_eq hempty]
    constructor
    · refine iff_of_false (fun h => ?_) hempty
      have hlength := length_splitLines (block.rdropWhile (· == 0x0A))
      rw [h] at hlength
      exact nomatch hlength
    · exact fun line h => not_mem_of_mem_splitLines h
    · -- what is dropped are line feeds
      refine ⟨(block.rtakeWhile (· == 0x0A)).length, ?_⟩
      have hfeeds : block.rtakeWhile (· == 0x0A) =
          List.replicate (block.rtakeWhile (· == 0x0A)).length 0x0A := by
        apply List.eq_replicate_iff.mpr
        refine ⟨rfl, fun b hb => ?_⟩
        exact beq_iff_eq.mp (List.mem_rtakeWhile_imp (p := (· == 0x0A)) hb)
      rw [intercalate_splitLines, ← hfeeds, List.rdropWhile_append_rtakeWhile]
    · intro r h
      rw [intercalate_splitLines] at h
      have hne : block.rdropWhile (· == 0x0A) ≠ [] := by
        rw [h]
        exact List.append_ne_nil_of_right_ne_nil _ (List.cons_ne_nil _ _)
      apply List.rdropWhile_last_not (· == 0x0A) block hne
      simp [h]

/-! ### Edits in a block -/

/-- The block that starts at a place of a text, with an edit of the text made in it. -/
def Edit.applyIn (e : Edit) (place : Nat) (block : Bytes) : Bytes :=
  block.take (e.span.start.toNat - place) ++ Bytes.ofText e.newText ++
    block.drop (e.span.stop.toNat - place)

/-- An edit that lies in a block changes the text there. -/
theorem Edit.append_applyIn {e : Edit} {pre block : Bytes} (post : Bytes)
    (hstart : pre.length ≤ e.span.start.toNat) (hle : e.span.start.toNat ≤ e.span.stop.toNat)
    (hstop : e.span.stop.toNat ≤ (pre ++ block).length) :
    pre ++ e.applyIn pre.length block ++ post = e.apply (pre ++ block ++ post) := by
  obtain ⟨m, hm⟩ := Nat.exists_eq_add_of_le hstart
  obtain ⟨n, hn⟩ := Nat.exists_eq_add_of_le (hstart.trans hle)
  rw [List.length_append] at hstop
  have htake : (pre ++ block ++ post).take e.span.start.toNat = pre ++ block.take m := by
    rw [hm, List.append_assoc, List.take_length_add_append, List.take_append_of_le_length (by omega)]
  have hdrop : (pre ++ block ++ post).drop e.span.stop.toNat = block.drop n ++ post := by
    rw [hn, List.append_assoc, List.drop_length_add_append, List.drop_append_of_le_length (by omega)]
  calc pre ++ e.applyIn pre.length block ++ post
      = pre ++ (block.take m ++ Bytes.ofText e.newText ++ block.drop n) ++ post := by
        rw [applyIn, hm, hn, Nat.add_sub_cancel_left, Nat.add_sub_cancel_left]
    _ = pre ++ block.take m ++ Bytes.ofText e.newText ++ (block.drop n ++ post) := by
        simp only [List.append_assoc]
    _ = e.apply (pre ++ block ++ post) := by rw [apply, htake, hdrop]

/-- A place told from another one as a word: it wraps if it stands in front. -/
theorem toNat_sub_toUInt32 (w : UInt32) {n : Nat} (h : n < 2 ^ 32) :
    (w - n.toUInt32).toNat = if n ≤ w.toNat then w.toNat - n else 2 ^ 32 + w.toNat - n := by
  have hw := w.toNat_lt
  rw [UInt32.toNat_sub, Message.toNat_toUInt32 h]
  split <;> omega

section Preview

variable {fs : FileSet} {e : Edit} {f : File} {pre block post : Bytes}
  (hfile : fs.get? e.span.file = some f) (h : Surrounds f e pre block post)

include hfile h

/-- The bytes of the block are there, and so are its parts if the places pass the checks. -/
theorem previewEdit_eq : previewEdit fs e =
    if block.length < (e.span.start - pre.length.toUInt32).toNat then
      .error (.startOutside (e.span.start - pre.length.toUInt32).toNat)
    else if (e.span.stop - pre.length.toUInt32).toNat < (e.span.start - pre.length.toUInt32).toNat ∨
        block.length < (e.span.stop - pre.length.toUInt32).toNat then
      .error (.stopOutside (e.span.stop - pre.length.toUInt32).toNat)
    else .ok ⟨blockLines block,
      blockLines (block.take (e.span.start - pre.length.toUInt32).toNat ++ Bytes.ofText e.newText ++
        block.drop (e.span.stop - pre.length.toUInt32).toNat)⟩ := by
  have hcut : f.content.cut pre.length (pre ++ block).length = .ok block := by
    have hlength : (pre ++ block).length ≤ f.content.length := by
      rw [h.content]
      exact (List.prefix_append _ _).length_le
    rw [Bytes.cut, if_pos ⟨(List.prefix_append _ _).length_le, hlength⟩, h.content,
      Bytes.slice_append]
  have hhead (n : Nat) (hn : n ≤ block.length) : block.cut 0 n = .ok (block.take n) := by
    rw [Bytes.cut, if_pos ⟨Nat.zero_le n, hn⟩]
    rfl
  have htail (n : Nat) (hn : n ≤ block.length) :
      block.cut n block.length = .ok (block.drop n) := by
    rw [Bytes.cut, if_pos ⟨hn, Nat.le_refl _⟩, Bytes.slice, ← List.length_drop, List.take_length]
  simp only [previewEdit, hfile, h.bounds, hcut]
  -- The offsets are kept as they come out of the subtraction, which may have wrapped.
  generalize (e.span.start - pre.length.toUInt32).toNat = m
  generalize (e.span.stop - pre.length.toUInt32).toNat = n
  change (if block.length < m then _ else _) = _
  by_cases hm : block.length < m
  · rw [if_pos hm, if_pos hm]
    rfl
  · rw [if_neg hm, if_neg hm]
    by_cases hn : n < m ∨ block.length < n
    · rw [if_pos hn, if_pos hn]
      rfl
    · rw [if_neg hn, if_neg hn, hhead m (Nat.not_lt.mp hm), htail n (by omega)]
      rfl

variable (hsize : f.content.length < 2 ^ 31)

include hsize

/-- An edit that lies inside its text has a preview. -/
theorem previewEdit_of_inside (hle : e.span.start ≤ e.span.stop)
    (hstop : e.span.stop.toNat ≤ f.content.length) :
    previewEdit fs e = .ok ⟨blockLines block, blockLines (e.applyIn pre.length block)⟩ := by
  have hcontent := congrArg List.length h.content
  have hinside := h.stop_le hstop
  have hbegin := h.start_le
  rw [List.length_append, List.length_append] at hcontent
  rw [List.length_append] at hinside
  rw [UInt32.le_iff_toNat_le] at hle
  rw [previewEdit_eq hfile h, toNat_sub_toUInt32 _ (by omega), toNat_sub_toUInt32 _ (by omega),
    if_pos hbegin, if_pos (hbegin.trans hle), if_neg (by omega), if_neg (by omega)]
  rfl

/-- An edit that does not is refused: its places, told from the block, fail one of the checks. -/
theorem previewEdit_of_outside
    (hout : ¬(e.span.start ≤ e.span.stop ∧ e.span.stop.toNat ≤ f.content.length)) :
    ∃ fault, previewEdit fs e = .error fault ∧ fault ≠ .outOfRange := by
  have hcontent := congrArg List.length h.content
  have hbegin := h.start_le
  rw [List.length_append, List.length_append] at hcontent
  rw [UInt32.le_iff_toNat_le] at hout
  have hplace : pre.length < 2 ^ 32 := by omega
  have hstop := toNat_sub_toUInt32 e.span.stop hplace
  rw [previewEdit_eq hfile h, toNat_sub_toUInt32 e.span.start hplace, if_pos hbegin]
  generalize (e.span.stop - pre.length.toUInt32).toNat = n at hstop ⊢
  by_cases hlate : block.length < e.span.start.toNat - pre.length
  · rw [if_pos hlate]
    exact ⟨_, rfl, nofun⟩
  · -- an end in front of the block has wrapped, and is larger than any block
    have hcheck : n < e.span.start.toNat - pre.length ∨ block.length < n := by
      rw [hstop]
      split <;> omega
    rw [if_neg hlate, if_pos hcheck]
    exact ⟨_, rfl, nofun⟩

end Preview

/-- Edits are previewed safely and faithfully, whatever their places are. No bytes are asked for
that are not there, neither for the block nor to count the characters in front of a place. There is
a preview if, and only if, the file is known and the edit lies inside its text with its ends in
order. What is shown are the lines of a block of whole lines around the edit, without and with the
edit made in it, and in the place of the block the changed one gives the edited text. -/
theorem previewEdit_faithful (fs : FileSet) (e : Edit)
    (hsize : ∀ f, fs.get? e.span.file = some f → f.content.length < 2 ^ 31) :
    previewEdit fs e ≠ .error .outOfRange ∧
      (∀ f, fs.get? e.span.file = some f → ∀ off,
        lineBegin (lineBreaks f.content) (min off f.content.length) ≤ min off f.content.length) ∧
      ((∃ p, previewEdit fs e = .ok p) ↔ ∃ f, fs.get? e.span.file = some f ∧
        e.span.start ≤ e.span.stop ∧ e.span.stop.toNat ≤ f.content.length) ∧
      ∀ p, previewEdit fs e = .ok p → ∃ f pre block post,
        fs.get? e.span.file = some f ∧ f.content = pre ++ block ++ post ∧
        WholeLines pre block post ∧ pre.length ≤ e.span.start.toNat ∧
        e.span.stop.toNat ≤ (pre ++ block).length ∧ ShownAs p.before block ∧
        ShownAs p.after (e.applyIn pre.length block) ∧
        pre ++ e.applyIn pre.length block ++ post = e.apply f.content := by
  cases hfile : fs.get? e.span.file with
  | none =>
    have hunknown : previewEdit fs e = .error (.unknownFile e.span.file) := by
      rw [previewEdit, hfile]
      rfl
    rw [hunknown]
    refine ⟨nofun, nofun, iff_of_false ?_ ?_, nofun⟩
    · rintro ⟨p, h⟩
      exact nomatch h
    · rintro ⟨f, h, -⟩
      exact nomatch h
  | some f =>
    have hshort := hsize f hfile
    -- The block is there for any places; only what is shown of it depends on them.
    obtain ⟨pre, block, post, h⟩ := exists_surrounds (f := f) (by omega) e
    by_cases hin : e.span.start ≤ e.span.stop ∧ e.span.stop.toNat ≤ f.content.length
    · obtain ⟨hle, hstop⟩ := hin
      rw [previewEdit_of_inside hfile h hshort hle hstop]
      refine ⟨nofun, fun f _ => lineBegin_le f.content, iff_of_true ⟨_, rfl⟩ ⟨f, rfl, hle, hstop⟩, fun p hp => ?_⟩
      obtain rfl := Except.ok.inj hp
      refine ⟨f, pre, block, post, rfl, h.content, h.whole, h.start_le, h.stop_le hstop,
        blockLines_shown _, blockLines_shown _, ?_⟩
      rw [h.content]
      exact e.append_applyIn post h.start_le (UInt32.le_iff_toNat_le.mp hle) (h.stop_le hstop)
    · obtain ⟨fault, hfault, hne⟩ := previewEdit_of_outside hfile h hshort hin
      rw [hfault]
      refine ⟨fun h => hne (Except.error.inj h), fun f _ => lineBegin_le f.content, iff_of_false ?_ ?_, nofun⟩
      · rintro ⟨p, h⟩
        exact nomatch h
      · rintro ⟨f', hf', h⟩
        obtain rfl := Option.some.inj hf'
        exact hin h

/-- One text of two lines. -/
def twoLines : FileSet :=
  ⟨[⟨0, "two.json", [0x61, 0x0A, 0x62, 0x63, 0x0A], 0⟩], ""⟩

theorem previewEdit_faithful_twoLines :
    (∃ p, previewEdit twoLines ⟨⟨0, 2, 3⟩, "x"⟩ = .ok p) ∧
      previewEdit twoLines ⟨⟨0, 3, 1⟩, "x"⟩ ≠ .error .outOfRange ∧
      ¬∃ p, previewEdit twoLines ⟨⟨0, 3, 1⟩, "x"⟩ = .ok p := by
  have hsize (f : File) (hf : twoLines.get? 0 = some f) : f.content.length < 2 ^ 31 := by
    obtain rfl := Option.some.inj hf
    decide
  obtain ⟨-, -, hok, -⟩ := previewEdit_faithful twoLines ⟨⟨0, 2, 3⟩, "x"⟩ hsize
  obtain ⟨hsafe, -, hrefused, -⟩ := previewEdit_faithful twoLines ⟨⟨0, 3, 1⟩, "x"⟩ hsize
  refine ⟨hok.mpr ⟨_, rfl, by decide, by decide⟩, hsafe, fun h => ?_⟩
  obtain ⟨f, -, hle, -⟩ := hrefused.mp h
  exact absurd hle (by decide)

end Phrasebook
