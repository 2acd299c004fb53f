import Mathlib.Data.List.TakeWhile
import Phrasebook.Proofs.SkeletonFaults
import Phrasebook.Proofs.Tiling

/-!
Where the faults of skeletons are reported. A number skeleton is read as it stands, and a fault in it
is reported at its token. A date or time skeleton is read without the white space around it. When a
fault in one is located only the plain blanks in front are counted, so that any other white space
there puts the span before the token.
-/
namespace Phrasebook.Message

open Cursor

/-! ### White space in front -/

theorem isBlank_of_isPlainBlank {ch : Char} (h : isPlainBlank ch = true) :
    Text.isBlank ch = true := by
  simp only [isPlainBlank, Bool.or_eq_true, beq_iff_eq] at h
  rcases h with ((rfl | rfl) | rfl) | rfl <;> decide

/-- The white space in front of a text begins with its plain blanks. -/
theorem takeWhile_isBlank_eq (raw : List Char) :
    raw.takeWhile Text.isBlank =
      raw.takeWhile isPlainBlank ++ (raw.dropWhile isPlainBlank).takeWhile Text.isBlank := by
  have hplain : ∀ x ∈ raw.takeWhile isPlainBlank, Text.isBlank x = true := by
    intro x hx
    exact isBlank_of_isPlainBlank (List.all_eq_true.mp List.all_takeWhile x hx)
  calc
    raw.takeWhile Text.isBlank =
        (raw.takeWhile isPlainBlank ++ raw.dropWhile isPlainBlank).takeWhile Text.isBlank := by
      rw [List.takeWhile_append_dropWhile]
    _ = raw.takeWhile isPlainBlank ++ (raw.dropWhile isPlainBlank).takeWhile Text.isBlank :=
      List.takeWhile_append_of_pos hplain

/-- A text is its white space in front, what is left of it without white space, and its white space
at the end. -/
theorem exists_trimBlank (raw : List Char) :
    ∃ tail, raw = raw.takeWhile Text.isBlank ++ Text.trimBlank raw ++ tail := by
  obtain ⟨tail, htail⟩ : Text.trimBlank raw <+: raw.dropWhile Text.isBlank := by
    rw [Text.trimBlank, Text.trim, Text.trimRight, Text.trimLeft, ← List.reverse_suffix,
      List.reverse_reverse]
    exact List.dropWhile_suffix _
  refine ⟨tail, ?_⟩
  rw [List.append_assoc, htail, List.takeWhile_append_dropWhile]

/-- How many bytes before its token a fault in a skeleton is reported. -/
def shift : FormatKind → List Char → Nat
  | .number, _ => 0
  | .date, raw | .time, raw =>
    Skeleton.byteLength ((raw.dropWhile isPlainBlank).takeWhile Text.isBlank)

/-- A fault is reported at its token in number skeletons, and behind plain blanks. -/
theorem shift_eq_zero_iff {kind : FormatKind} {raw : List Char} :
    shift kind raw = 0 ↔
      kind = .number ∨ ∀ x ∈ raw.takeWhile Text.isBlank, isPlainBlank x = true := by
  have hlength : Skeleton.byteLength ((raw.dropWhile isPlainBlank).takeWhile Text.isBlank) = 0 ↔
      ∀ x ∈ raw.takeWhile Text.isBlank, isPlainBlank x = true := by
    rw [takeWhile_isBlank_eq raw]
    constructor
    · intro hzero
      have hnil : (raw.dropWhile isPlainBlank).takeWhile Text.isBlank = [] := by
        apply List.eq_nil_of_length_eq_zero
        have hle := Skeleton.length_le_byteLength
          ((raw.dropWhile isPlainBlank).takeWhile Text.isBlank)
        omega
      rw [hnil, List.append_nil]
      exact fun x hx => List.all_eq_true.mp List.all_takeWhile x hx
    · intro hplain
      -- what follows the plain blanks does not begin with one
      cases hrest : raw.dropWhile isPlainBlank with
      | nil => rfl
      | cons y rest =>
        have hy : isPlainBlank y = false := by
          have hnot := List.head?_dropWhile_not isPlainBlank raw
          rw [hrest] at hnot
          simpa using hnot
        have hblank : Text.isBlank y = false := by
          rw [← Bool.not_eq_true]
          intro hblank
          have hmem : y ∈ (y :: rest).takeWhile Text.isBlank := by
            rw [List.takeWhile_cons, if_pos hblank]
            exact List.mem_cons_self
          have := hplain y (List.mem_append_right _ (hrest ▸ hmem))
          rw [hy] at this
          exact Bool.false_ne_true this
        rw [List.takeWhile_cons, if_neg (by rw [hblank]; exact Bool.false_ne_true)]
        rfl
  cases kind with
  | number => simp only [shift, true_or]
  | date | time => simp only [shift, hlength, reduceCtorEq, false_or]

/-! ### Skeletons in a text -/

/-- The head of a formatted argument, from its opening brace to its type, ends at the cursor. -/
def FormatHead (file : UInt32) (text : List Char) (kind : FormatKind) (c : Cursor) : Prop :=
  ∃ start name nameSpan c₁, start.In text ∧ NamedAt file start name nameSpan c₁ ∧
    TypeAt c₁ kind.name c

/-- The text of a skeleton stands between the cursors: behind the head of a formatted argument, a
comma and two colons, and before the closing brace. -/
structure SkeletonAt (file : UInt32) (text : List Char) (kind : FormatKind) (c : Cursor)
    (raw : List Char) (c' : Cursor) : Prop where
  opens : ∃ c₁ c₂, FormatHead file text kind c₁ ∧ c₁.skipBlank.Passes [','] c₂ ∧
    c₂.skipBlank.Passes [':', ':'] c
  run : c.Longest (fun ch => ch != '}' && ch != '{') raw c'
  closes : c'.rest.head? = some '}'

section

variable {file : UInt32} {text raw : List Char} {kind : FormatKind} {c c' : Cursor}

theorem NamedAt.leads {name : String} {nameSpan : Span} (h : NamedAt file c name nameSpan c') :
    c.Leads c' := by
  obtain ⟨inside, hopen, hname, -⟩ := h
  exact (hopen.leads.trans inside.leads_skipBlank).trans hname.run.passes.leads

theorem FormatHead.isIn (h : FormatHead file text kind c) : c.In text := by
  obtain ⟨start, name, nameSpan, c₁, hstart, hnamed, htype⟩ := h
  exact hstart.leads (hnamed.leads.trans htype.leads)

theorem SkeletonAt.isIn (h : SkeletonAt file text kind c raw c') : c.In text := by
  obtain ⟨c₁, c₂, hhead, hcomma, hcolons⟩ := h.opens
  have hsecond := (c₁.leads_skipBlank.trans hcomma.leads).trans c₂.leads_skipBlank
  exact hhead.isIn.leads (hsecond.trans hcolons.leads)

/-- The bytes where a run of the skeleton stands are those of the run. -/
theorem SkeletonAt.slice (h : SkeletonAt file text kind c raw c') {run : List Char} {place : Nat}
    (hrun : Skeleton.StandsAt raw place run) :
    (Utf8.encode text).slice (c.offset + place) (c.offset + place + Skeleton.byteLength run) =
      Utf8.encode run := by
  obtain ⟨before, after, hraw, rfl⟩ := hrun
  have hbefore : c.Passes before (c.skip before (run ++ (after ++ c'.rest))) := by
    apply passes_skip
    rw [h.run.passes.rest, hraw]
    simp only [List.append_assoc]
  exact (h.isIn.leads hbefore.leads).slice (passes_skip rfl)

/-- A fault in a skeleton is reported before its token, by the white space in front that is not
counted. -/
structure Reported (file : UInt32) (text : List Char) (span : Span) (token : String) : Prop where
  exists_place : ∃ kind raw c c' place, SkeletonAt file text kind c raw c' ∧
    Skeleton.StandsAt raw place token.toList ∧
    c.offset + place + Skeleton.byteLength token.toList ≤ (Utf8.encode text).length ∧
    span.start.toNat + shift kind raw = c.offset + place
  file_eq : span.file = file
  stop_eq : span.stop.toNat = span.start.toNat + Skeleton.byteLength token.toList

end

/-- The token of a fault in a skeleton stands at the fault's offset behind what is skipped. -/
theorem skeletonOptions_reported {ctx : Context} {text raw : List Char} {kind : FormatKind}
    {c c' : Cursor} {f : Fault} (hsize : (Utf8.encode text).length < 2 ^ 32)
    (hraw : SkeletonAt ctx.file text kind c raw c')
    (h : skeletonOptions ctx kind raw c.offset = .error f) :
    ∃ token reason, f.cause = .invalidSkeleton token reason ∧
      Reported ctx.file text f.span token := by
  have hstop : c'.offset ≤ (Utf8.encode text).length :=
    (hraw.isIn.leads hraw.run.passes.leads).offset_le
  have hoffset := hraw.run.passes.offset
  -- a token that stands in the skeleton, and a span that starts before it by the shift
  have hreported {place start : Nat} {token : String}
      (hplace : Skeleton.StandsAt raw place token.toList)
      (hstart : start + shift kind raw = c.offset + place) :
      Reported ctx.file text (Span.between ctx.file start (start + token.utf8ByteSize)) token := by
    have hle := hplace.le
    rw [Skeleton.utf8ByteSize_eq]
    have hstartNat : (Span.between ctx.file start
        (start + Skeleton.byteLength token.toList)).start.toNat = start :=
      toNat_toUInt32 (by omega)
    have hstopNat : (Span.between ctx.file start
        (start + Skeleton.byteLength token.toList)).stop.toNat =
          start + Skeleton.byteLength token.toList := toNat_toUInt32 (by omega)
    refine ⟨⟨kind, raw, c, c', place, hraw, hplace, by omega, ?_⟩, rfl, ?_⟩
    · rw [hstartNat]
      exact hstart
    · rw [hstartNat, hstopNat]
  have hnumber (hkind : kind = .number) {f : Skeleton.Fault}
      (hf : Skeleton.parseNumber raw = .error f) :
      Reported ctx.file text (Span.between ctx.file (c.offset + f.offset)
        (c.offset + f.offset + f.token.utf8ByteSize)) f.token := by
    apply hreported (Skeleton.parseNumber_error hf)
    rw [hkind]
    rfl
  have hdate (hkind : shift kind raw =
      Skeleton.byteLength ((raw.dropWhile isPlainBlank).takeWhile Text.isBlank))
      {f : Skeleton.Fault} (hf : Skeleton.parseDate (Text.trimBlank raw) = .error f) :
      Reported ctx.file text
        (Span.between ctx.file
          (c.offset + Skeleton.byteLength (raw.takeWhile isPlainBlank) + f.offset)
          (c.offset + Skeleton.byteLength (raw.takeWhile isPlainBlank) + f.offset +
            f.token.utf8ByteSize)) f.token := by
    obtain ⟨before, after, htrim, hbefore⟩ := Skeleton.parseDate_error hf
    obtain ⟨tail, htail⟩ := exists_trimBlank raw
    have hplace : Skeleton.StandsAt raw
        (Skeleton.byteLength (raw.takeWhile Text.isBlank) + f.offset) f.token.toList := by
      refine ⟨raw.takeWhile Text.isBlank ++ before, after ++ tail, ?_, ?_⟩
      · rw [htrim] at htail
        simpa only [List.append_assoc] using htail
      · rw [Skeleton.byteLength_append, hbefore]
    apply hreported hplace
    rw [hkind, takeWhile_isBlank_eq raw, Skeleton.byteLength_append]
    omega
  unfold skeletonOptions at h
  cases kind with
  | number =>
    simp only at h
    split at h
    · exact nomatch h
    · rename_i f' hf
      obtain rfl := Except.error.inj h
      exact ⟨f'.token, f'.reason, rfl, hnumber rfl hf⟩
  | date | time =>
    simp only at h
    split at h
    · exact nomatch h
    · rename_i f' hf
      obtain rfl := Except.error.inj h
      exact ⟨f'.token, f'.reason, rfl, hdate rfl hf⟩

end Phrasebook.Message
