import Mathlib
import Phrasebook.Proofs.Choices

/-!
The grammar of messages, from that of arguments, tags and literal text to that of whole texts.
Bodies of tags and cases are what the readers one level down accept, so one level tells what every
level accepts.
-/
namespace Phrasebook.Message

open Cursor

/-! ### Arguments -/

/-- The opening brace of an argument and its name stand between the cursors. -/
def NamedAt (file : UInt32) (c : Cursor) (name : String) (nameSpan : Span) (c' : Cursor) : Prop :=
  ∃ inside, c.Passes ['{'] inside ∧ NameAt inside.skipBlank name c' ∧
    nameSpan = inside.skipBlank.spanTo file c'

/-- A comma and the type of an argument stand between the cursors. -/
def TypeAt (c : Cursor) (type : String) (c' : Cursor) : Prop :=
  ∃ c₁, c.skipBlank.Passes [','] c₁ ∧ NameAt c₁.skipBlank type c'

/-- What follows the name of an argument stands between the cursors; the argument starts at
`start`. -/
inductive ArgumentAt (file : UInt32) (inner : Inner) (inPlural : Bool) (start : Cursor)
    (name : String) (nameSpan : Span) (c : Cursor) : Node → Cursor → Prop where
  | plain {c' : Cursor} : c.skipBlank.Passes ['}'] c' →
      ArgumentAt file inner inPlural start name nameSpan c
        (.argument (start.spanTo file c') name nameSpan) c'
  | format {kind : FormatKind} {c₁ c' : Cursor} {style : Style} : TypeAt c kind.name c₁ →
      FormatAt file kind c₁ style c' →
      ArgumentAt file inner inPlural start name nameSpan c
        (.format (start.spanTo file c') kind name nameSpan style) c'
  | select {c₁ c' : Cursor} {cs : Cases} : TypeAt c "select" c₁ →
      ChoiceAt file false (inner.bodyReader inPlural) c₁ cs c' →
      ArgumentAt file inner inPlural start name nameSpan c
        (.select (start.spanTo file c') name nameSpan cs.cases) c'
  | plural {kind : PluralKind} {c₁ c' : Cursor} {cs : Cases} : TypeAt c kind.keyword c₁ →
      ChoiceAt file true (inner.bodyReader true) c₁ cs c' →
      ArgumentAt file inner inPlural start name nameSpan c
        (.plural (start.spanTo file c') name nameSpan cs.offset kind cs.cases) c'

section Arguments

variable {ctx : Context} {inner : Inner} {inPlural : Bool} {start c c' : Cursor} {name : String}
  {nameSpan : Span} {n : Node}

theorem argumentAt_of_readTyped (hinner : inner.Forward) {type : String} {typeSpan : Span}
    {c₁ : Cursor} (htype : TypeAt c type c₁)
    (h : readTyped ctx inner inPlural start name nameSpan type typeSpan c₁ = .ok (n, c')) :
    ArgumentAt ctx.file inner inPlural start name nameSpan c n c' := by
  unfold readTyped at h
  split at h
  · obtain ⟨style, hformat, rfl⟩ := readFormat_eq_ok_iff.mp h
    exact .format htype hformat
  · obtain ⟨style, hformat, rfl⟩ := readFormat_eq_ok_iff.mp h
    exact .format htype hformat
  · obtain ⟨style, hformat, rfl⟩ := readFormat_eq_ok_iff.mp h
    exact .format htype hformat
  · obtain ⟨⟨cs, stop⟩, hchoice, h⟩ := bind_eq_ok_iff.mp h
    obtain ⟨rfl, rfl⟩ := Prod.mk.inj (Except.ok.inj h)
    have hcases := (readChoice_eq_ok_iff hinner).mp hchoice
    rw [Bool.or_false] at hcases
    exact .select htype hcases
  · obtain ⟨⟨cs, stop⟩, hchoice, h⟩ := bind_eq_ok_iff.mp h
    obtain ⟨rfl, rfl⟩ := Prod.mk.inj (Except.ok.inj h)
    have hcases := (readChoice_eq_ok_iff hinner).mp hchoice
    have htype' : TypeAt c PluralKind.cardinal.keyword c₁ := htype
    rw [Bool.or_true] at hcases
    exact .plural htype' hcases
  · obtain ⟨⟨cs, stop⟩, hchoice, h⟩ := bind_eq_ok_iff.mp h
    obtain ⟨rfl, rfl⟩ := Prod.mk.inj (Except.ok.inj h)
    have hcases := (readChoice_eq_ok_iff hinner).mp hchoice
    have htype' : TypeAt c PluralKind.ordinal.keyword c₁ := htype
    rw [Bool.or_true] at hcases
    exact .plural htype' hcases
  · exact absurd h fail_ne_ok

/-- What follows a comma behind the name is read by the type. -/
theorem readNamed_of_typeAt {type : String} {c₁ : Cursor} (htype : TypeAt c type c₁) : ∃ typeSpan,
    readNamed ctx inner inPlural start name nameSpan c =
      readTyped ctx inner inPlural start name nameSpan type typeSpan c₁ := by
  obtain ⟨c₀, hcomma, hname⟩ := htype
  have hnone : c.skipBlank.eat? '}' = none := by
    rw [eat?_eq_none_iff, hcomma.head?]
    decide
  rw [readNamed]
  simp only [isDone_eq_false hcomma (List.cons_ne_nil _ _), hnone, eat?_eq_some_iff.mpr hcomma,
    scanName_eq_iff.mpr hname.run, if_neg hname.ne]
  exact ⟨_, rfl⟩

theorem readNamed_eq_ok_iff (hinner : inner.Forward) :
    readNamed ctx inner inPlural start name nameSpan c = .ok (n, c') ↔
      ArgumentAt ctx.file inner inPlural start name nameSpan c n c' := by
  constructor
  · intro h
    unfold readNamed at h
    simp only at h
    split at h
    · exact absurd h fail_ne_ok
    · split at h
      · rename_i hclosed
        obtain ⟨rfl, rfl⟩ := Prod.mk.inj (Except.ok.inj h)
        exact .plain (eat?_eq_some_iff.mp hclosed)
      · split at h
        · exact absurd h fail_ne_ok
        · rename_i c₁ hcomma
          obtain ⟨type, stop, hscan⟩ : ∃ type stop, scanName c₁.skipBlank = (type, stop) :=
            ⟨_, _, rfl⟩
          simp only [hscan] at h
          split at h
          · split at h <;> exact absurd h fail_ne_ok
          · rename_i hne
            have htype : TypeAt c type stop :=
              ⟨c₁, eat?_eq_some_iff.mp hcomma, hne, scanName_eq_iff.mp hscan⟩
            exact argumentAt_of_readTyped hinner htype h
  · rintro (hclosed | ⟨htype, hformat⟩ | ⟨htype, hcases⟩ | ⟨htype, hcases⟩)
    · rw [readNamed]
      simp only [isDone_eq_false hclosed (List.cons_ne_nil _ _), eat?_eq_some_iff.mpr hclosed]
      rfl
    · rename_i kind c₁ style
      obtain ⟨typeSpan, hread⟩ := readNamed_of_typeAt htype
      rw [hread]
      have hnode : readFormat ctx start kind name nameSpan c₁ =
          .ok (.format (start.spanTo ctx.file c') kind name nameSpan style, c') :=
        readFormat_eq_ok_iff.mpr ⟨style, hformat, rfl⟩
      cases kind <;> exact hnode
    · rename_i c₁ cs
      obtain ⟨typeSpan, hread⟩ := readNamed_of_typeAt htype
      have hchoice : readChoice ctx inner inPlural false start c₁ = .ok (cs, c') := by
        rw [readChoice_eq_ok_iff hinner, Bool.or_false]
        exact hcases
      rw [hread, readTyped, hchoice]
      rfl
    · rename_i kind c₁ cs
      obtain ⟨typeSpan, hread⟩ := readNamed_of_typeAt htype
      have hchoice : readChoice ctx inner inPlural true start c₁ = .ok (cs, c') := by
        rw [readChoice_eq_ok_iff hinner, Bool.or_true]
        exact hcases
      rw [hread]
      cases kind with
      | cardinal => rw [PluralKind.keyword, readTyped, hchoice]; rfl
      | ordinal => rw [PluralKind.keyword, readTyped, hchoice]; rfl

theorem readArgument_of_namedAt (hdeep : inner.tagBody.isSome = true) {inside : Cursor}
    (hopen : start.Passes ['{'] inside) (hname : NamedAt ctx.file start name nameSpan c) :
    readArgument ctx inner inPlural start inside =
      readNamed ctx inner inPlural start name nameSpan c := by
  obtain ⟨inside', hopen', hname, rfl⟩ := hname
  obtain rfl := hopen.eq_of_same hopen'
  have hnone : inner.tagBody.isNone = false := by
    rw [← Option.not_isSome, hdeep]
    rfl
  have hclosed : inside.skipBlank.eat? '}' = none := hname.eat?_eq_none (by decide)
  rw [readArgument]
  simp only [hnone, hname.isDone, hclosed, scanName_eq_iff.mpr hname.run, if_neg hname.ne]
  rfl

theorem readArgument_eq_ok_iff (hinner : inner.Forward) {inside : Cursor}
    (hopen : start.Passes ['{'] inside) :
    readArgument ctx inner inPlural start inside = .ok (n, c') ↔
      inner.tagBody.isSome = true ∧ ∃ name nameSpan c, NamedAt ctx.file start name nameSpan c ∧
        ArgumentAt ctx.file inner inPlural start name nameSpan c n c' := by
  constructor
  · intro h
    unfold readArgument at h
    simp only at h
    split at h
    · exact absurd h fail_ne_ok
    · rename_i hdeep
      split at h
      · exact absurd h fail_ne_ok
      · split at h
        · exact absurd h fail_ne_ok
        · obtain ⟨name, stop, hscan⟩ : ∃ name stop, scanName inside.skipBlank = (name, stop) :=
            ⟨_, _, rfl⟩
          simp only [hscan] at h
          split at h
          · exact absurd h fail_ne_ok
          · rename_i hne
            have hsome : inner.tagBody.isSome = true := by
              rw [Option.isSome_iff_ne_none]
              exact fun hnone => hdeep (Option.isNone_iff_eq_none.mpr hnone)
            exact ⟨hsome, name, _, stop, ⟨inside, hopen, ⟨hne, scanName_eq_iff.mp hscan⟩, rfl⟩,
              (readNamed_eq_ok_iff hinner).mp h⟩
  · rintro ⟨hdeep, name, nameSpan, c, hname, hargument⟩
    rw [readArgument_of_namedAt hdeep hopen hname]
    exact (readNamed_eq_ok_iff hinner).mpr hargument

end Arguments

/-! ### Tags -/

theorem isTagChar_of_isTagStart {c : Char} (h : isTagStart c = true) : isTagChar c = true := by
  have halpha : c.isAlpha = true := h
  have hlow : c.toNat < 128 := by
    rw [Char.isAlpha, Bool.or_eq_true, Char.isUpper, Char.isLower] at halpha
    simp only [ge_iff_le, Bool.and_eq_true, decide_eq_true_eq, UInt32.le_iff_toNat_le] at halpha
    have hvalue : c.val.toNat = c.toNat := rfl
    rcases halpha with ⟨-, hle⟩ | ⟨-, hle⟩
    · have hZ : 'Z'.val.toNat = 90 := rfl
      omega
    · have hz : 'z'.val.toNat = 122 := rfl
      omega
  rw [isTagChar, Text.isLetter, if_pos hlow, halpha, Bool.or_true]

theorem tagNameAt_of_scan {c c' : Cursor} {name : String}
    (hletter : c.rest.head?.any isTagStart = true) (h : scanTagName c = (name, c')) :
    TagNameAt c name c' := by
  have hne : name ≠ "" := by
    rintro rfl
    rw [scanTagName, if_pos hletter] at h
    have htake : c.rest.takeWhile isTagChar = [] :=
      String.ofList_eq_empty_iff.mp (Prod.mk.inj h).1
    cases hrest : c.rest with
    | nil =>
      rw [hrest] at hletter
      exact Bool.noConfusion hletter
    | cons x r =>
      rw [hrest] at hletter htake
      rw [List.takeWhile_cons, if_pos (isTagChar_of_isTagStart hletter)] at htake
      cases htake
  obtain ⟨hstart, hrun⟩ := (scanTagName_eq_iff hne).mp h
  exact ⟨hstart, hrun⟩

/-- A tag stands between the cursors. -/
inductive TagAt (file : UInt32) (inner : Inner) (inPlural : Bool) (c : Cursor) :
    Node → Cursor → Prop where
  | single {name : String} {inside c₁ c' : Cursor} : inner.tagBody.isSome = true →
      c.Passes ['<'] inside → TagNameAt inside name c₁ → c₁.skipBlank.Passes ['/', '>'] c' →
      TagAt file inner inPlural c
        (.tag (c.spanTo file c') name (inside.spanTo file c₁) true []) c'
  | paired {name : String} {read : Bool → Reader (List Node)} {inside c₁ c₂ closing c₃ c₄ c' : Cursor}
      {children : List Node} : inner.tagBody = some read → c.Passes ['<'] inside →
      TagNameAt inside name c₁ → c₁.skipBlank.Passes ['>'] c₂ →
      read inPlural c₂ = .ok (children, closing) → closing.Passes ['<', '/'] c₃ →
      TagNameAt c₃ name c₄ → c₄.skipBlank.Passes ['>'] c' →
      TagAt file inner inPlural c
        (.tag (c.spanTo file c') name (inside.spanTo file c₁) false children) c'

theorem TagNameAt.head {c c' : Cursor} {name : String} (h : TagNameAt c name c') :
    c.rest.head?.any isTagStart = true := by
  have hstart := h.start
  rw [h.run.passes.rest]
  cases hlist : name.toList with
  | nil =>
    rw [hlist] at hstart
    exact Bool.noConfusion hstart
  | cons x r =>
    rw [hlist] at hstart
    exact hstart

theorem TagAt.opens {file : UInt32} {inner : Inner} {inPlural : Bool} {c c' : Cursor} {n : Node}
    (h : TagAt file inner inPlural c n c') :
    ∃ inside, c.Passes ['<'] inside ∧ inside.rest.head?.any isTagStart = true := by
  cases h with
  | single _ hopen hname => exact ⟨_, hopen, hname.head⟩
  | paired _ hopen hname => exact ⟨_, hopen, hname.head⟩

section Tags

variable {ctx : Context} {inner : Inner} {inPlural : Bool} {start c c' : Cursor} {name : String}
  {nameSpan : Span} {n : Node}

theorem readTagBody_eq_ok_iff {body : Reader (List Node)} (hname : name ≠ "") :
    readTagBody ctx body start name nameSpan c = .ok (n, c') ↔
      ∃ children closing c₁ c₂, body c = .ok (children, closing) ∧
        closing.Passes ['<', '/'] c₁ ∧ TagNameAt c₁ name c₂ ∧ c₂.skipBlank.Passes ['>'] c' ∧
        n = .tag (start.spanTo ctx.file c') name nameSpan false children := by
  constructor
  · intro h
    unfold readTagBody at h
    obtain ⟨⟨children, closing⟩, hbody, h⟩ := bind_eq_ok_iff.mp h
    simp only at h
    split at h
    · exact absurd h fail_ne_ok
    · rename_i hhead
      obtain ⟨closeName, stop, hscan⟩ : ∃ closeName stop,
        scanTagName ((closing.eatWord? ['<', '/']).getD closing) = (closeName, stop) :=
        ⟨_, _, rfl⟩
      simp only [hscan] at h
      split at h
      · exact absurd h fail_ne_ok
      · rename_i hclosed
        split at h
        · exact absurd h fail_ne_ok
        · rename_i hsame
          obtain rfl := Decidable.not_not.mp hsame
          obtain ⟨rfl, rfl⟩ := Prod.mk.inj (Except.ok.inj h)
          obtain ⟨hstart, hrun⟩ := (scanTagName_eq_iff hname).mp hscan
          cases hword : closing.eatWord? ['<', '/'] with
          | some c₁ =>
            rw [hword, Option.getD_some] at hrun
            exact ⟨children, closing, c₁, stop, hbody, eatWord?_eq_some_iff.mp hword,
              ⟨hstart, hrun⟩, eat?_eq_some_iff.mp hclosed, rfl⟩
          | none =>
            -- the name would start with the sign that starts a closing tag
            rw [hword, Option.getD_none] at hrun
            cases hlist : closeName.toList with
            | nil => exact absurd (String.toList_eq_nil_iff.mp hlist) hname
            | cons x r =>
              rw [hlist] at hrun hstart
              rw [hrun.passes.head?] at hhead
              have hx : x = '<' := Option.some.inj (Decidable.not_not.mp hhead)
              rw [hx] at hstart
              exact Bool.noConfusion hstart
  · rintro ⟨children, closing, c₁, c₂, hbody, hword, hclose, hclosed, rfl⟩
    have hhead : ¬closing.rest.head? ≠ some '<' := not_not.mpr hword.head?
    rw [readTagBody, hbody]
    simp only [bind, Except.bind, if_neg hhead, eatWord?_eq_some_iff.mpr hword, Option.getD_some,
      scanTagName_eq_of_at hclose, eat?_eq_some_iff.mpr hclosed, ne_eq, not_true_eq_false, if_false]
    rfl

/-- Behind an opening tag its body is read. -/
theorem readTag_of_opening {read : Bool → Reader (List Node)} (hread : inner.tagBody = some read)
    {inside c₁ c₂ : Cursor} (hname : TagNameAt inside name c₁)
    (hend : c₁.skipBlank.Passes ['>'] c₂) : readTag ctx inner inPlural start inside =
      readTagBody ctx (read inPlural) start name (inside.spanTo ctx.file c₁) c₂ := by
  have hnone : c₁.skipBlank.eatWord? ['/', '>'] = none := by
    rw [Option.eq_none_iff_forall_ne_some]
    intro stop hstop
    have hhead := (eatWord?_eq_some_iff.mp hstop).head?
    rw [hend.head?] at hhead
    exact absurd (Option.some.inj hhead) (by decide)
  rw [readTag, scanTagName_eq_of_at hname]
  simp only [hread, hnone, eat?_eq_some_iff.mpr hend]

theorem readTag_eq_ok_iff {inside : Cursor} (hopen : start.Passes ['<'] inside)
    (hletter : inside.rest.head?.any isTagStart = true) :
    readTag ctx inner inPlural start inside = .ok (n, c') ↔
      TagAt ctx.file inner inPlural start n c' := by
  constructor
  · intro h
    unfold readTag at h
    obtain ⟨name, c₁, hscan⟩ : ∃ name c₁, scanTagName inside = (name, c₁) := ⟨_, _, rfl⟩
    have hname := tagNameAt_of_scan hletter hscan
    simp only [hscan] at h
    split at h
    · exact absurd h fail_ne_ok
    · rename_i read hread
      split at h
      · rename_i hclosed
        obtain ⟨rfl, rfl⟩ := Prod.mk.inj (Except.ok.inj h)
        exact .single (by rw [hread]; rfl) hopen hname (eatWord?_eq_some_iff.mp hclosed)
      · split at h
        · rename_i hend
          obtain ⟨children, closing, c₃, c₄, hbody, hword, hclose, hclosed, rfl⟩ :=
            (readTagBody_eq_ok_iff hname.ne).mp h
          exact .paired hread hopen hname (eat?_eq_some_iff.mp hend) hbody hword hclose hclosed
        · split at h <;> exact absurd h fail_ne_ok
  · rintro (⟨hdeep, hopen', hname, hclosed⟩ |
      ⟨hread, hopen', hname, hend, hbody, hword, hclose, hclosed⟩)
    -- both cursors stand behind the bracket that opens the tag
    · obtain rfl := hopen.eq_of_same hopen'
      obtain ⟨read, hread⟩ := Option.isSome_iff_exists.mp hdeep
      rw [readTag, scanTagName_eq_of_at hname]
      simp only [hread, eatWord?_eq_some_iff.mpr hclosed]
      rfl
    · rename_i name read inside' c₁ c₂ closing c₃ c₄ children
      obtain rfl := hopen.eq_of_same hopen'
      rw [readTag_of_opening hread hname hend]
      exact (readTagBody_eq_ok_iff hname.ne).mpr
        ⟨children, closing, c₃, c₄, hbody, hword, hclose, hclosed, rfl⟩

end Tags

/-! ### Literal text -/

/-- A text goes on with a character that neither opens nor closes an element. -/
def IsPlain (inPlural : Bool) (cs : List Char) : Prop :=
  ∃ x r, cs = x :: r ∧ isSyntax inPlural x r = false

/-- Literal text stands between the cursors. -/
structure LiteralAt (inPlural : Bool) (c : Cursor) (text : String) (c' : Cursor) : Prop where
  plain : IsPlain inPlural c.rest
  leads : c.Leads c'
  text : readText inPlural .plain c.rest = (text.toList, c'.rest)

/-- What reading text leaves is the end of what it was given, and nothing or an element. -/
theorem readText_left (inPlural : Bool) (mode : TextMode) (cs : List Char) :
    (readText inPlural mode cs).2 <:+ cs ∧ ¬IsPlain inPlural (readText inPlural mode cs).2 := by
  fun_induction readText inPlural mode cs with
  | case1 =>
    refine ⟨List.suffix_refl _, ?_⟩
    rintro ⟨x, r, heq, -⟩
    exact nomatch heq
  | case8 c r _ hmark =>
    refine ⟨List.suffix_refl _, ?_⟩
    rintro ⟨x, r', heq, hplain⟩
    obtain ⟨rfl, rfl⟩ := List.cons.inj heq
    rw [hmark] at hplain
    exact Bool.noConfusion hplain
  | case2 x r ih | case3 x r ih | case5 r _ _ _ _ ih | case11 r _ ih =>
    exact ⟨ih.1.trans (List.suffix_cons _ _), ih.2⟩
  | case4 r _ t left hread ih | case6 r _ _ _ _ t left hread ih | case7 r _ t left hread ih
  | case9 x r _ _ t left hread ih | case10 r _ t left hread ih | case12 x r _ t left hread ih =>
    rw [hread] at ih
    exact ⟨ih.1.trans (List.suffix_cons _ _), ih.2⟩

/-- Plain text is not empty, and reading it takes a character. -/
theorem readText_of_isPlain {inPlural : Bool} {cs : List Char} (h : IsPlain inPlural cs) :
    (readText inPlural .plain cs).1 ≠ [] ∧
      (readText inPlural .plain cs).2.length < cs.length := by
  obtain ⟨x, r, rfl, hmark⟩ := h
  have hshort (mode : TextMode) : (readText inPlural mode r).2.length < (x :: r).length :=
    Nat.lt_succ_of_le (readText_left inPlural mode r).1.length_le
  rw [readText]
  split
  · split
    · exact ⟨List.cons_ne_nil _ _, hshort _⟩
    · rename_i n hapostrophe hhead
      split
      · refine ⟨?_, hshort _⟩
        -- the quoted text starts with the character behind the apostrophe
        cases r with
        | nil => exact nomatch hhead
        | cons y r' =>
          have hy : y ≠ '\'' := fun heq => hapostrophe (heq ▸ (Option.some.inj hhead).symm)
          rw [readText, if_neg hy]
          exact List.cons_ne_nil _ _
      · exact ⟨List.cons_ne_nil _ _, hshort _⟩
    · exact ⟨List.cons_ne_nil _ _, hshort _⟩
  · rw [if_neg (by rw [hmark]; exact Bool.false_ne_true)]
    exact ⟨List.cons_ne_nil _ _, hshort _⟩

theorem readLiteral_eq_ok_iff {ctx : Context} {inPlural : Bool} {c c' : Cursor} {n : Node}
    (hplain : IsPlain inPlural c.rest) :
    readLiteral ctx inPlural c = .ok (n, c') ↔
      ∃ text, LiteralAt inPlural c text c' ∧ n = .literal (c.spanTo ctx.file c') text := by
  obtain ⟨run, hrun⟩ := (readText_left inPlural .plain c.rest).1
  obtain ⟨text, left, htext⟩ : ∃ text left, readText inPlural .plain c.rest = (text, left) :=
    ⟨_, _, rfl⟩
  rw [htext] at hrun
  have hpasses : c.Passes run (c.skip (c.rest.take (c.rest.length - left.length)) left) := by
    have htaken : c.rest.take (c.rest.length - left.length) = run := by
      rw [← hrun, List.length_append, Nat.add_sub_cancel, List.take_left]
    rw [htaken]
    exact passes_skip hrun.symm
  rw [readLiteral, htext]
  constructor
  · intro h
    obtain ⟨rfl, rfl⟩ := Prod.mk.inj (Except.ok.inj h)
    exact ⟨_, ⟨hplain, hpasses.leads, by rw [htext, String.toList_ofList]; rfl⟩, rfl⟩
  · rintro ⟨text', hliteral, rfl⟩
    obtain ⟨run', hrun'⟩ := hliteral.leads
    obtain ⟨rfl, hleft⟩ := Prod.mk.inj (htext.symm.trans hliteral.text)
    have hsame : run' = run := by
      have hrest := hrun'.rest
      rw [← hrun, hleft] at hrest
      exact (List.append_cancel_right hrest).symm
    rw [hsame] at hrun'
    simp only [hpasses.eq_of_same hrun', String.ofList_toList]

/-! ### Messages -/

/-- An element stands between the cursors. -/
inductive ElementAt (file : UInt32) (inner : Inner) (inPlural : Bool) (c : Cursor) :
    Node → Cursor → Prop where
  | literal {text : String} {c' : Cursor} : LiteralAt inPlural c text c' →
      ElementAt file inner inPlural c (.literal (c.spanTo file c') text) c'
  | pound {c' : Cursor} : inPlural = true → c.Passes ['#'] c' →
      ElementAt file inner inPlural c (.pound (c.spanTo file c')) c'
  | argument {name : String} {nameSpan : Span} {c₁ c' : Cursor} {n : Node} :
      inner.tagBody.isSome = true → NamedAt file c name nameSpan c₁ →
      ArgumentAt file inner inPlural c name nameSpan c₁ n c' →
      ElementAt file inner inPlural c n c'
  | tag {n : Node} {c' : Cursor} : TagAt file inner inPlural c n c' →
      ElementAt file inner inPlural c n c'

/-- The text, or what encloses the elements before a cursor, ends there. -/
def AtEnd (c : Cursor) : Prop :=
  c.rest = [] ∨ c.rest.head? = some '}' ∨ ∃ r, c.rest = '<' :: '/' :: r

theorem not_atEnd_of_isPlain {inPlural : Bool} {c : Cursor} (h : IsPlain inPlural c.rest) :
    ¬AtEnd c := by
  obtain ⟨x, r, hrest, hmark⟩ := h
  rintro (hnil | hbrace | ⟨r', hclose⟩)
  · exact nomatch hrest.symm.trans hnil
  · rw [hrest] at hbrace
    obtain rfl := Option.some.inj hbrace
    exact Bool.noConfusion hmark
  · obtain ⟨rfl, rfl⟩ := List.cons.inj (hrest.symm.trans hclose)
    simp [isSyntax] at hmark

/-- Where no element starts and nothing ends, the text is plain. -/
theorem isPlain_of_not_atEnd {inPlural : Bool} {c : Cursor} (hend : ¬AtEnd c)
    (hbrace : c.rest.head? ≠ some '{') (hpound : ¬(inPlural = true ∧ c.rest.head? = some '#'))
    (htag : ∀ r, c.rest = '<' :: r → r.head?.any isTagStart = false) :
    IsPlain inPlural c.rest := by
  cases hrest : c.rest with
  | nil => exact absurd (.inl hrest) hend
  | cons x r =>
    refine ⟨x, r, rfl, Bool.eq_false_iff.mpr fun hmark => ?_⟩
    rw [isSyntax] at hmark
    simp only [Bool.or_eq_true, Bool.and_eq_true, beq_iff_eq] at hmark
    rcases hmark with ((rfl | rfl) | ⟨hplural, rfl⟩) | ⟨rfl, hnext⟩
    · exact hbrace (by rw [hrest]; rfl)
    · exact hend (.inr (.inl (by rw [hrest]; rfl)))
    · exact hpound ⟨hplural, by rw [hrest]; rfl⟩
    · cases r with
      | nil => exact Bool.noConfusion hnext
      | cons y r' =>
        have hletter : isTagStart y = false := htag (y :: r') hrest
        simp only [List.head?_cons, Option.any_some, Bool.or_eq_true, beq_iff_eq, hletter,
          Bool.false_eq_true, or_false] at hnext
        exact hend (.inr (.inr ⟨r', by rw [hrest, hnext]⟩))

section Elements

variable {ctx : Context} {inner : Inner} {inPlural : Bool} {c c' : Cursor} {n : Node}

theorem readElement_of_brace {inside : Cursor} (hopen : c.Passes ['{'] inside) :
    readElement ctx inner inPlural c = readArgument ctx inner inPlural c inside := by
  have hrest : c.rest = '{' :: inside.rest := hopen.rest
  have hskip : c.Passes ['{'] (c.skip ['{'] inside.rest) := passes_skip hrest
  unfold readElement
  simp only [hrest]
  rw [hskip.eq_of_same hopen]

theorem readElement_of_tagStart {inside : Cursor} (hopen : c.Passes ['<'] inside)
    (hletter : inside.rest.head?.any isTagStart = true) :
    readElement ctx inner inPlural c = readTag ctx inner inPlural c inside := by
  have hrest : c.rest = '<' :: inside.rest := hopen.rest
  have hskip : c.Passes ['<'] (c.skip ['<'] inside.rest) := passes_skip hrest
  unfold readElement
  simp only [hrest, if_pos hletter]
  rw [hskip.eq_of_same hopen]

theorem elementAt_of_readElement (hinner : inner.Forward) (hend : ¬AtEnd c)
    (h : readElement ctx inner inPlural c = .ok (n, c')) :
    ElementAt ctx.file inner inPlural c n c' := by
  -- a sign that opens nothing here is text, like any other character
  have hliteral (hplain : IsPlain inPlural c.rest)
      (h : readLiteral ctx inPlural c = .ok (n, c')) : ElementAt ctx.file inner inPlural c n c' := by
    obtain ⟨text, hliteral, rfl⟩ := (readLiteral_eq_ok_iff hplain).mp h
    exact .literal hliteral
  unfold readElement at h
  split at h
  · rename_i r hrest
    obtain ⟨hdeep, name, nameSpan, c₁, hname, hargument⟩ :=
      (readArgument_eq_ok_iff hinner (passes_skip hrest)).mp h
    exact .argument hdeep hname hargument
  · rename_i r hrest
    split at h
    · rename_i hletter
      exact .tag ((readTag_eq_ok_iff (passes_skip hrest) hletter).mp h)
    · rename_i hletter
      refine hliteral (isPlain_of_not_atEnd hend ?_ ?_ ?_) h
      · rw [hrest]
        simp
      · rw [hrest]
        simp
      · intro r' hrest'
        obtain rfl := (List.cons.inj (hrest.symm.trans hrest')).2
        exact Bool.eq_false_iff.mpr hletter
  · rename_i r hrest
    split at h
    · rename_i hplural
      obtain ⟨rfl, rfl⟩ := Prod.mk.inj (Except.ok.inj h)
      exact .pound hplural (passes_skip hrest)
    · rename_i hplural
      refine hliteral (isPlain_of_not_atEnd hend ?_ (fun hpound => hplural hpound.1) ?_) h
      · rw [hrest]
        simp
      · intro r' hrest'
        exact absurd (List.cons.inj (hrest.symm.trans hrest')).1 (by decide)
  · rename_i hbrace hless hpound
    have hhead {x : Char} (hne : ∀ r, c.rest = x :: r → False) : c.rest.head? ≠ some x := by
      intro hx
      cases hrest : c.rest with
      | nil => exact absurd (.inl hrest) hend
      | cons y r =>
        rw [hrest] at hx
        exact hne r (by rw [hrest, Option.some.inj hx])
    exact hliteral (isPlain_of_not_atEnd hend (hhead hbrace) (fun h => hhead hpound h.2)
      fun r hrest => absurd hrest (hless r)) h

theorem readElement_of_elementAt (hinner : inner.Forward)
    (h : ElementAt ctx.file inner inPlural c n c') :
    readElement ctx inner inPlural c = .ok (n, c') := by
  cases h with
  | @literal text _ hliteral =>
    have hread : readLiteral ctx inPlural c = .ok (.literal (c.spanTo ctx.file c') text, c') :=
      (readLiteral_eq_ok_iff hliteral.plain).mpr ⟨text, hliteral, rfl⟩
    obtain ⟨x, r, hrest, hmark⟩ := hliteral.plain
    simp only [isSyntax, Bool.or_eq_false_iff, beq_eq_false_iff_ne] at hmark
    -- plain text starts with none of the signs that open something
    obtain ⟨⟨⟨hopen, -⟩, hpound⟩, hless⟩ := hmark
    have hsame (x' : Char) (r' : List Char) (hrest' : c.rest = x' :: r') : x' = x ∧ r' = r := by
      exact List.cons.inj (hrest'.symm.trans hrest)
    unfold readElement
    split
    · rename_i r' hrest'
      exact absurd (hsame _ _ hrest').1.symm hopen
    · rename_i r' hrest'
      obtain ⟨rfl, rfl⟩ := hsame _ _ hrest'
      split
      · rename_i hletter
        cases r' with
        | nil => exact Bool.noConfusion hletter
        | cons y r'' =>
          have hy : isTagStart y = true := hletter
          simp [hy] at hless
      · exact hread
    · rename_i r' hrest'
      obtain ⟨rfl, rfl⟩ := hsame _ _ hrest'
      split
      · rename_i hplural
        simp [hplural] at hpound
      · exact hread
    · exact hread
  | pound hplural hsign =>
    have hrest : c.rest = '#' :: c'.rest := hsign.rest
    have hskip : c.Passes ['#'] (c.skip ['#'] c'.rest) := passes_skip hrest
    unfold readElement
    simp only [hrest, if_pos hplural]
    rw [hskip.eq_of_same hsign]
  | argument hdeep hname hargument =>
    obtain ⟨inside, hopen, -⟩ := id hname
    rw [readElement_of_brace hopen]
    exact (readArgument_eq_ok_iff hinner hopen).mpr ⟨hdeep, _, _, _, hname, hargument⟩
  | tag htag =>
    obtain ⟨inside, hopen, hletter⟩ := htag.opens
    rw [readElement_of_tagStart hopen hletter]
    exact (readTag_eq_ok_iff hopen hletter).mpr htag

theorem StyleAt.leads {file : UInt32} {kind : FormatKind} {style : Style}
    (h : StyleAt file kind c style c') : c.Leads c' := by
  cases h with
  | named _ hraw _ hbrace => exact (c.leads_skipBlank.trans hraw.passes.leads).trans hbrace.leads
  | skeleton hmark hraw _ hbrace =>
    exact ((c.leads_skipBlank.trans hmark.leads).trans hraw.passes.leads).trans hbrace.leads

theorem FormatAt.leads {file : UInt32} {kind : FormatKind} {style : Style}
    (h : FormatAt file kind c style c') : c.Leads c' := by
  cases h with
  | default hbrace => exact c.leads_skipBlank.trans hbrace.leads
  | styled hcomma hstyle => exact (c.leads_skipBlank.trans hcomma.leads).trans hstyle.leads

theorem TypeAt.leads {type : String} (h : TypeAt c type c') : c.Leads c' := by
  obtain ⟨c₁, hcomma, hname⟩ := h
  have htype := c₁.leads_skipBlank.trans hname.run.passes.leads
  exact (c.leads_skipBlank.trans hcomma.leads).trans htype

theorem ArgumentAt.leads {file : UInt32} {start : Cursor} {name : String} {nameSpan : Span}
    (hinner : inner.Forward) (h : ArgumentAt file inner inPlural start name nameSpan c n c') :
    c.Leads c' := by
  cases h with
  | plain hbrace => exact c.leads_skipBlank.trans hbrace.leads
  | format htype hformat => exact htype.leads.trans hformat.leads
  | select htype hcases => exact htype.leads.trans (hcases.leads (hinner.bodyReader _))
  | plural htype hcases => exact htype.leads.trans (hcases.leads (hinner.bodyReader _))

/-- What follows the first character of a run. -/
theorem advances_of_passes {x : Char} {c₁ : Cursor} (h : c.Passes [x] c₁) (h' : c₁.Leads c') :
    c.Leads c' ∧ c'.rest.length < c.rest.length := by
  have hlength := h.length_rest
  have hle := h'.length_le
  rw [List.length_singleton] at hlength
  exact ⟨h.leads.trans h', by omega⟩

/-- An element takes at least one character. -/
theorem ElementAt.leads {file : UInt32} (hinner : inner.Forward)
    (h : ElementAt file inner inPlural c n c') : c.Leads c' ∧ c'.rest.length < c.rest.length := by
  cases h with
  | literal hliteral =>
    have hless := (readText_of_isPlain hliteral.plain).2
    rw [hliteral.text] at hless
    exact ⟨hliteral.leads, hless⟩
  | pound _ hsign => exact advances_of_passes hsign (.refl _)
  | argument _ hname hargument =>
    obtain ⟨inside, hopen, hname, -⟩ := hname
    exact advances_of_passes hopen ((inside.leads_skipBlank.trans hname.run.passes.leads).trans
      (hargument.leads hinner))
  | tag htag =>
    cases htag with
    | @single _ _ c₁ _ _ hopen hname hclosed =>
      exact advances_of_passes hopen
        ((hname.run.passes.leads.trans c₁.leads_skipBlank).trans hclosed.leads)
    | @paired _ _ _ c₁ _ _ _ c₄ _ _ hread hopen hname hend hbody hword hclose hclosed =>
      have hopening := (hname.run.passes.leads.trans c₁.leads_skipBlank).trans hend.leads
      have hchildren := hopening.trans (hinner.tagBody _ hread _ _ _ _ hbody)
      have hclosing := (hword.leads.trans hclose.run.passes.leads).trans c₄.leads_skipBlank
      exact advances_of_passes hopen ((hchildren.trans hclosing).trans hclosed.leads)

end Elements

/-- Elements stand one behind the other between the cursors, and no more of them follow. -/
inductive SiblingsAt (element : Cursor → Node → Cursor → Prop) :
    Cursor → List Node → Cursor → Prop where
  | nil {c : Cursor} : AtEnd c → SiblingsAt element c [] c
  | cons {c c₁ c' : Cursor} {n : Node} {ns : List Node} : ¬AtEnd c → element c n c₁ →
      SiblingsAt element c₁ ns c' → SiblingsAt element c (n :: ns) c'

theorem readSiblings_of_atEnd {element : Reader Node} {fuel : Nat} {c : Cursor} (h : AtEnd c) :
    readSiblings element fuel c = .ok ([], c) := by
  cases fuel with
  | zero => rfl
  | succ fuel =>
    rw [readSiblings]
    rcases h with hnil | hbrace | ⟨r, hclose⟩
    · rw [hnil]
    · cases hrest : c.rest with
      | nil => rfl
      | cons x r =>
        rw [hrest] at hbrace
        rw [Option.some.inj hbrace]
        rfl
    · rw [hclose]
      rfl

theorem readSiblings_of_not_atEnd {element : Reader Node} {fuel : Nat} {c : Cursor}
    (h : ¬AtEnd c) : readSiblings element (fuel + 1) c = (do
      let (n, c) ← element c
      let (ns, c) ← readSiblings element fuel c
      return (n :: ns, c)) := by
  rw [readSiblings]
  split
  · rename_i hnil
    exact absurd (.inl hnil) h
  · rename_i r hrest
    exact absurd (.inr (.inl (by rw [hrest]; rfl))) h
  · rename_i r hrest
    exact absurd (.inr (.inr ⟨r, hrest⟩)) h
  · rfl

section Siblings

variable {ctx : Context} {inner : Inner} {inPlural : Bool}

/-- The loop that reads siblings runs long enough. -/
theorem readSiblings_eq_ok_iff (hinner : inner.Forward) {fuel : Nat} {c c' : Cursor}
    {ns : List Node} (hfuel : c.rest.length ≤ fuel) :
    readSiblings (readElement ctx inner inPlural) fuel c = .ok (ns, c') ↔
      SiblingsAt (ElementAt ctx.file inner inPlural) c ns c' := by
  induction fuel generalizing c ns with
  | zero =>
    have hnil : AtEnd c := .inl (List.eq_nil_of_length_eq_zero (Nat.le_zero.mp hfuel))
    rw [readSiblings_of_atEnd hnil]
    constructor
    · intro h
      obtain ⟨rfl, rfl⟩ := Prod.mk.inj (Except.ok.inj h)
      exact .nil hnil
    · rintro (_ | ⟨hend, -, -⟩)
      · rfl
      · exact absurd hnil hend
  | succ fuel ih =>
    by_cases hend : AtEnd c
    · rw [readSiblings_of_atEnd hend]
      constructor
      · intro h
        obtain ⟨rfl, rfl⟩ := Prod.mk.inj (Except.ok.inj h)
        exact .nil hend
      · rintro (_ | ⟨hnot, -, -⟩)
        · rfl
        · exact absurd hend hnot
    · rw [readSiblings_of_not_atEnd hend]
      constructor
      · intro h
        obtain ⟨⟨n, c₁⟩, hread, h⟩ := bind_eq_ok_iff.mp h
        obtain ⟨⟨ns', stop⟩, hrest, h⟩ := bind_eq_ok_iff.mp h
        obtain ⟨rfl, rfl⟩ := Prod.mk.inj (Except.ok.inj h)
        have helement := elementAt_of_readElement hinner hend hread
        -- each element takes a character, so the fuel that is left is enough for the rest
        have hless := (helement.leads hinner).2
        exact .cons hend helement ((ih (by omega)).mp hrest)
      · rintro (hnil | ⟨-, helement, hrest⟩)
        · exact absurd hnil hend
        · have hless := (helement.leads hinner).2
          rw [readElement_of_elementAt hinner helement]
          simp only [bind, Except.bind, (ih (by omega)).mpr hrest]
          rfl

theorem SiblingsAt.leads {file : UInt32} (hinner : inner.Forward) {c c' : Cursor} {ns : List Node}
    (h : SiblingsAt (ElementAt file inner inPlural) c ns c') : c.Leads c' := by
  induction h with
  | nil => exact .refl _
  | cons _ helement _ ih => exact (helement.leads hinner).1.trans ih

end Siblings

/-- How the bodies below a level are read with a budget. -/
def innerAt (ctx : Context) : Nat → Inner
  | 0 => ⟨none, none⟩
  | 1 => ⟨some (readNodes ctx 0), none⟩
  | budget + 2 => ⟨some (readNodes ctx (budget + 1)), some (readNodes ctx budget)⟩

theorem readNodes_eq_readSiblings (ctx : Context) (budget : Nat) (inPlural : Bool) (c : Cursor) :
    readNodes ctx budget inPlural c =
      readSiblings (readElement ctx (innerAt ctx budget) inPlural) c.rest.length c := by
  match budget with
  | 0 => rfl
  | 1 => rfl
  | _ + 2 => rfl

theorem innerAt_all {ctx : Context} {P : Bool → Reader (List Node) → Prop} {budget : Nat}
    (h : ∀ lower < budget, ∀ inPlural, P inPlural (readNodes ctx lower inPlural)) :
    (innerAt ctx budget).All P := by
  constructor
  · intro read hread
    match budget with
    | 0 => exact nomatch hread
    | 1 => exact Option.some.inj hread ▸ h 0 (by omega)
    | budget + 2 => exact Option.some.inj hread ▸ h (budget + 1) (by omega)
  · intro read hread
    match budget with
    | 0 => exact nomatch hread
    | 1 => exact nomatch hread
    | budget + 2 => exact Option.some.inj hread ▸ h budget (by omega)

/-- A property passes from the readers of the lower levels to those of every level. -/
theorem readNodes_induction {ctx : Context} {P : Bool → Reader (List Node) → Prop}
    (step : ∀ budget, (innerAt ctx budget).All P →
      ∀ inPlural, P inPlural (readNodes ctx budget inPlural)) (budget : Nat) :
    ∀ inPlural, P inPlural (readNodes ctx budget inPlural) := by
  induction budget using Nat.strongRecOn with
  | _ budget ih => exact step budget (innerAt_all ih)

theorem forward_readNodes (ctx : Context) (budget : Nat) :
    ∀ inPlural, Forward (readNodes ctx budget inPlural) := by
  refine readNodes_induction (P := fun _ => Forward) ?_ budget
  intro budget hinner inPlural c ns c' h
  rw [readNodes_eq_readSiblings, readSiblings_eq_ok_iff hinner (Nat.le_refl _)] at h
  exact h.leads hinner

theorem forward_innerAt (ctx : Context) (budget : Nat) : (innerAt ctx budget).Forward :=
  innerAt_all fun lower _ => forward_readNodes ctx lower

/-- What is read with a budget. -/
theorem readNodes_eq_ok_iff {ctx : Context} {budget : Nat} {inPlural : Bool} {c c' : Cursor}
    {ns : List Node} : readNodes ctx budget inPlural c = .ok (ns, c') ↔
      SiblingsAt (ElementAt ctx.file (innerAt ctx budget) inPlural) c ns c' := by
  rw [readNodes_eq_readSiblings]
  exact readSiblings_eq_ok_iff (forward_innerAt ctx budget) (Nat.le_refl _)

/-- A text that is read is read to its end. -/
theorem parseChars_eq_ok_iff {file : UInt32} {limit : Nat} {cs : List Char} {ns : List Node} :
    parseChars file limit cs = .ok ns ↔
      ∃ c', c'.rest = [] ∧ readNodes ⟨file, limit⟩ limit false ⟨0, cs⟩ = .ok (ns, c') := by
  rw [parseChars, bind_eq_ok_iff]
  constructor
  · rintro ⟨⟨ns', c'⟩, hread, h⟩
    simp only at h
    split at h
    · rename_i hdone
      obtain rfl := Except.ok.inj h
      exact ⟨c', List.isEmpty_iff.mp hdone, hread⟩
    · exact nomatch h
  · rintro ⟨c', hrest, hread⟩
    have hdone : c'.isDone = true := List.isEmpty_iff.mpr hrest
    exact ⟨(ns, c'), hread, by simp only [hdone, if_true]; rfl⟩

/-- A text of less than 2^32 bytes is only decoded before its characters are read. -/
theorem parse_of_length_lt {file : UInt32} {limit : Nat} {content : Bytes}
    (hsize : content.length < 2 ^ 32) :
    parse file limit content =
      match Utf8.decode? content with
      | some cs => (parseChars file limit cs).mapError .fault
      | none => .error (.fault ⟨.invalidEncoding, Span.between file 0 content.length⟩) := by
  have hshort : ¬UInt32.size ≤ content.length := Nat.not_le.mpr hsize
  exact if_neg hshort

theorem parse_encode {file : UInt32} {limit : Nat} {cs : List Char}
    (hsize : (Utf8.encode cs).length < 2 ^ 32) :
    parse file limit (Utf8.encode cs) = (parseChars file limit cs).mapError .fault := by
  rw [parse_of_length_lt hsize, Utf8.decode?_encode]

/-- Only a text that is too long overflows. -/
theorem parse_eq_overflow_iff {file : UInt32} {limit : Nat} {content : Bytes} :
    parse file limit content = .error .overflow ↔ 2 ^ 32 ≤ content.length := by
  rw [parse]
  split
  · rename_i hsize
    exact ⟨fun _ => hsize, fun _ => rfl⟩
  · rename_i hsize
    refine ⟨fun h => ?_, fun h => absurd h hsize⟩
    split at h
    · rename_i cs _
      cases hchars : parseChars file limit cs <;> rw [hchars] at h <;> cases h
    · cases h

theorem length_lt_of_fault {file : UInt32} {limit : Nat} {content : Bytes} {f : Fault}
    (h : parse file limit content = .error (.fault f)) : content.length < 2 ^ 32 := by
  refine Nat.lt_of_not_le fun hsize => ?_
  rw [parse_eq_overflow_iff.mpr hsize] at h
  cases h

theorem parse_eq_ok_iff {file : UInt32} {limit : Nat} {content : Bytes} {ns : List Node} :
    parse file limit content = .ok ns ↔ content.length < 2 ^ 32 ∧
      ∃ cs, Utf8.encode cs = content ∧ parseChars file limit cs = .ok ns := by
  constructor
  · intro h
    rw [parse] at h
    split at h
    · exact nomatch h
    · rename_i hsize
      split at h
      · rename_i cs hdecode
        refine ⟨Nat.not_le.mp hsize, cs, Utf8.encode_of_decode? hdecode, ?_⟩
        cases hchars : parseChars file limit cs with
        | ok ns' =>
          rw [hchars] at h
          exact congrArg Except.ok (Except.ok.inj h)
        | error f =>
          rw [hchars] at h
          exact nomatch h
      · exact nomatch h
  · rintro ⟨hsize, cs, rfl, h⟩
    rw [parse_encode hsize, h]
    rfl

end Phrasebook.Message
