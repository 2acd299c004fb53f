import Phrasebook.Message.Parse
import Phrasebook.Proofs.Cursors

/-!
The grammar of what stands in an argument: names, selectors, offsets, styles, and the cases of a
choice. For every reader a relation says what it accepts: what was read, and which characters stand
between the cursors before and behind it.
-/
namespace Phrasebook.Message

open Cursor

theorem bind_eq_ok_iff {α β : Type} {x : Except Fault α} {f : α → Except Fault β} {b : β} :
    x >>= f = .ok b ↔ ∃ a, x = .ok a ∧ f a = .ok b := by
  cases x with
  | error e =>
    constructor
    · exact fun h => nomatch h
    · rintro ⟨a, ha, -⟩
      exact nomatch ha
  | ok a =>
    constructor
    · exact fun h => ⟨a, rfl, h⟩
    · rintro ⟨a', ha, h⟩
      obtain rfl := Except.ok.inj ha
      exact h

theorem fail_ne_ok {α : Type} {cause : Cause} {span : Span} {a : α} :
    fail cause span ≠ .ok a :=
  fun h => nomatch h

/-! ### Names -/

/-- A name stands between the cursors. -/
structure NameAt (c : Cursor) (name : String) (c' : Cursor) : Prop where
  ne : name ≠ ""
  run : Longest isNameChar c name.toList c'

/-- A tag name stands between the cursors. -/
structure TagNameAt (c : Cursor) (name : String) (c' : Cursor) : Prop where
  start : name.toList.head?.any isTagStart = true
  run : Longest isTagChar c name.toList c'

theorem NameAt.head {c c' : Cursor} {name : String} (h : NameAt c name c') :
    ∃ x, c.rest.head? = some x ∧ isNameChar x = true := by
  have hrest := h.run.passes.rest
  cases hlist : name.toList with
  | nil => exact absurd (String.toList_eq_nil_iff.mp hlist) h.ne
  | cons x r =>
    rw [hlist] at hrest
    exact ⟨x, by rw [hrest]; rfl, h.run.all x (by rw [hlist]; exact List.mem_cons_self)⟩

/-- A name does not start with a character that is no name character. -/
theorem NameAt.eat?_eq_none {c c' : Cursor} {name : String} {ch : Char} (h : NameAt c name c')
    (hch : isNameChar ch = false) : c.eat? ch = none := by
  obtain ⟨x, hx, hname⟩ := h.head
  rw [eat?_eq_none_iff, hx]
  rintro heq
  rw [Option.some.inj heq, hch] at hname
  exact Bool.noConfusion hname

theorem NameAt.isDone {c c' : Cursor} {name : String} (h : NameAt c name c') :
    c.isDone = false := by
  obtain ⟨x, hx, -⟩ := h.head
  rw [Cursor.isDone, List.isEmpty_eq_false_iff]
  intro hnil
  rw [hnil] at hx
  cases hx

theorem TagNameAt.ne {c c' : Cursor} {name : String} (h : TagNameAt c name c') : name ≠ "" := by
  rintro rfl
  exact Bool.noConfusion h.start

theorem scanTagName_eq_of_at {c c' : Cursor} {name : String} (h : TagNameAt c name c') :
    scanTagName c = (name, c') :=
  (scanTagName_eq_iff h.ne).mpr ⟨h.start, h.run⟩

/-! ### Selectors and offsets -/

/-- A selector stands between the cursors. -/
inductive KeyAt (plural : Bool) (c : Cursor) : String → Cursor → Prop where
  | exact {start c' : Cursor} {digits : List Char} : plural = true → c.Passes ['='] start →
      Longest isNumberChar start digits c' → (Decimal.read? digits).isSome = true →
      KeyAt plural c (String.ofList ('=' :: digits)) c'
  | name {key : String} {c' : Cursor} : NameAt c key c' →
      (plural = true → key ∈ pluralCategories) → KeyAt plural c key c'

theorem readKey_eq_ok_iff {ctx : Context} {plural : Bool} {c c' : Cursor} {key : String} :
    readKey ctx plural c = .ok (key, c') ↔ KeyAt plural c key c' := by
  constructor
  · intro h
    unfold readKey at h
    split at h
    -- only in plurals a key may be one number
    · rename_i start heat
      split at heat
      · rename_i hplural
        have hsign := eat?_eq_some_iff.mp heat
        obtain ⟨digits, stop, hdigits⟩ : ∃ digits stop, start.takeWhile isNumberChar =
          (digits, stop) := ⟨_, _, rfl⟩
        simp only [hdigits] at h
        split at h
        · exact absurd h fail_ne_ok
        · rename_i hsome
          obtain ⟨rfl, rfl⟩ := Prod.mk.inj (Except.ok.inj h)
          refine .exact hplural hsign (takeWhile_eq_iff.mp hdigits) ?_
          rwa [Option.isNone_iff_eq_none, ← ne_eq, ← Option.isSome_iff_ne_none] at hsome
      · exact nomatch heat
    · obtain ⟨name, stop, hscan⟩ : ∃ name stop, scanName c = (name, stop) := ⟨_, _, rfl⟩
      simp only [hscan] at h
      split at h
      · exact absurd h fail_ne_ok
      · rename_i hne
        split at h
        · exact absurd h fail_ne_ok
        · rename_i hcategory
          obtain ⟨rfl, rfl⟩ := Prod.mk.inj (Except.ok.inj h)
          refine .name ⟨hne, scanName_eq_iff.mp hscan⟩ fun hplural => ?_
          simpa [hplural] using hcategory
  · rintro (⟨hplural, hsign, hdigits, hsome⟩ | ⟨hname, hcategory⟩)
    · rw [readKey, if_pos hplural, eat?_eq_some_iff.mpr hsign]
      simp only [takeWhile_eq_iff.mpr hdigits]
      rw [if_neg]
      rw [Option.isNone_iff_eq_none, ← ne_eq, ← Option.isSome_iff_ne_none]
      exact hsome
    -- a name starts with a letter, so no sign is taken from it
    · have hnone : (if plural = true then c.eat? '=' else none) = none := by
        rw [hname.eat?_eq_none (by decide), ite_self]
      have hkind : (plural && !pluralCategories.contains key) = false := by
        cases plural with
        | false => rfl
        | true =>
          rw [Bool.true_and, Bool.not_eq_false', List.contains_iff_mem]
          exact hcategory rfl
      rw [readKey, hnone]
      simp only [scanName_eq_iff.mpr hname.run, if_neg hname.ne, hkind]
      rfl

/-- A selector's first character. -/
theorem KeyAt.eat?_eq_none {plural : Bool} {c c' : Cursor} {key : String} {ch : Char}
    (h : KeyAt plural c key c') (hname : isNameChar ch = false) (hsign : ch ≠ '=') :
    c.eat? ch = none := by
  cases h with
  | exact _ hsign' =>
    rw [eat?_eq_none_iff, hsign'.head?]
    exact fun heq => hsign (Option.some.inj heq).symm
  | name hkey => exact hkey.eat?_eq_none hname

theorem KeyAt.isDone {plural : Bool} {c c' : Cursor} {key : String} (h : KeyAt plural c key c') :
    c.isDone = false := by
  cases h with
  | exact _ hsign => exact isDone_eq_false hsign (List.cons_ne_nil _ _)
  | name hkey => exact hkey.isDone

/-- No selector of a plural can be taken for the word that an offset starts with. -/
theorem KeyAt.eatWord?_offset {c c' : Cursor} {key : String} (h : KeyAt true c key c') :
    c.eatWord? "offset:".toList = none := by
  rw [Option.eq_none_iff_forall_ne_some]
  intro stop hword
  have hrest := (eatWord?_eq_some_iff.mp hword).rest
  cases h with
  | exact _ hsign =>
    have hhead := hsign.head?
    rw [hrest] at hhead
    exact nomatch hhead
  | name hkey hcategory =>
    have hrun := (Prod.mk.inj (takeWhile_eq_iff.mpr hkey.run)).1
    have hoffset : c.rest.takeWhile isNameChar = "offset".toList := by
      rw [hrest]
      rfl
    rw [hoffset] at hrun
    have hkey' : key = "offset" := String.toList_inj.mp hrun.symm
    rw [hkey'] at hcategory
    exact absurd (hcategory rfl) (by decide)

/-- The number of an offset stands between the cursors, blanks before it included. -/
def OffsetAt (c : Cursor) (x : Float) (c' : Cursor) : Prop :=
  ∃ digits, digits ≠ [] ∧ Longest Char.isDigit c.skipBlank digits c' ∧
    Decimal.read? digits = some x

theorem readOffset_eq_ok_iff {ctx : Context} {c c' : Cursor} {x : Float} :
    readOffset ctx c = .ok (x, c') ↔ OffsetAt c x c' := by
  rw [readOffset]
  obtain ⟨digits, stop, htake⟩ : ∃ digits stop, c.skipBlank.takeWhile Char.isDigit =
    (digits, stop) := ⟨_, _, rfl⟩
  simp only [htake]
  constructor
  · intro h
    split at h
    · exact absurd h fail_ne_ok
    · rename_i hne
      split at h
      · rename_i hread
        obtain ⟨rfl, rfl⟩ := Prod.mk.inj (Except.ok.inj h)
        exact ⟨digits, fun hnil => hne (List.isEmpty_iff.mpr hnil), takeWhile_eq_iff.mp htake,
          hread⟩
      · exact absurd h fail_ne_ok
  · rintro ⟨digits', hne, hrun, hread⟩
    have heq := htake.symm.trans (takeWhile_eq_iff.mpr hrun)
    obtain ⟨rfl, rfl⟩ := Prod.mk.inj heq
    rw [if_neg fun hnil => hne (List.isEmpty_iff.mp hnil), hread]

/-! ### Formatted arguments -/

/-- A character of a style's text. -/
def isStyleChar (ch : Char) : Bool :=
  ch != '}' && ch != '{'

/-- The options that a skeleton's raw text is read as. -/
def skeletonRead (kind : FormatKind) (raw : List Char) : Except Skeleton.Fault FormatOptions :=
  match kind with
  | .number => Skeleton.parseNumber raw
  | _ => Skeleton.parseDate (Text.trimBlank raw)

theorem skeletonOptions_eq_ok_iff {ctx : Context} {kind : FormatKind} {raw : List Char}
    {offset : Nat} {o : FormatOptions} :
    skeletonOptions ctx kind raw offset = .ok o ↔ skeletonRead kind raw = .ok o := by
  unfold skeletonOptions skeletonRead
  cases kind <;> simp only <;> split
  all_goals
    rename_i hread
    rw [hread]
  all_goals first
    | rw [Except.ok.injEq, Except.ok.injEq]
    | exact iff_of_false fail_ne_ok (by simp)

/-- The style of a formatted argument stands between the cursors, the brace behind it included. -/
inductive StyleAt (file : UInt32) (kind : FormatKind) (c : Cursor) : Style → Cursor → Prop where
  | named {raw : List Char} {stop c' : Cursor} : c.skipBlank.eatWord? [':', ':'] = none →
      Longest isStyleChar c.skipBlank raw stop → String.ofList (Text.trimBlank raw) ≠ "" →
      stop.Passes ['}'] c' →
      StyleAt file kind c
        (.named (String.ofList (Text.trimBlank raw)) (c.skipBlank.spanTo file stop)) c'
  | skeleton {raw : List Char} {start stop c' : Cursor} {o : FormatOptions} :
      c.skipBlank.Passes [':', ':'] start → Longest isStyleChar start raw stop →
      skeletonRead kind raw = .ok o → stop.Passes ['}'] c' →
      StyleAt file kind c (.skeleton (String.ofList (Text.trimBlank raw)) o
        (c.skipBlank.spanTo file stop)) c'

theorem readStyle_eq_ok_iff {ctx : Context} {start c c' : Cursor} {kind : FormatKind}
    {style : Style} :
    readStyle ctx start kind c = .ok (style, c') ↔ StyleAt ctx.file kind c style c' := by
  constructor
  · intro h
    unfold readStyle at h
    obtain ⟨raw, stop, htake⟩ : ∃ raw stop,
      ((c.skipBlank.eatWord? [':', ':']).getD c.skipBlank).takeWhile isStyleChar = (raw, stop) :=
      ⟨_, _, rfl⟩
    have htake' := htake
    unfold isStyleChar at htake'
    simp only [htake'] at h
    split at h
    · exact absurd h fail_ne_ok
    · split at h
      · exact absurd h fail_ne_ok
      · rename_i closed hclosed
        have hbrace := eat?_eq_some_iff.mp hclosed
        split at h
        · rename_i hmarked
          rw [hmarked, Option.getD_none] at htake
          split at h
          · exact absurd h fail_ne_ok
          · rename_i hne
            obtain ⟨rfl, rfl⟩ := Prod.mk.inj (Except.ok.inj h)
            exact .named hmarked (takeWhile_eq_iff.mp htake) hne hbrace
        · rename_i start' hmarked
          rw [hmarked, Option.getD_some] at htake
          obtain ⟨o, ho, h⟩ := bind_eq_ok_iff.mp h
          obtain ⟨rfl, rfl⟩ := Prod.mk.inj (Except.ok.inj h)
          exact .skeleton (eatWord?_eq_some_iff.mp hmarked) (takeWhile_eq_iff.mp htake)
            (skeletonOptions_eq_ok_iff.mp ho) hbrace
  -- a style ends with a closing brace, which is no opening one
  · have hend {stop c' : Cursor} (h : stop.Passes ['}'] c') : stop.rest.head? ≠ some '{' := by
      rw [h.head?]
      decide
    rintro (⟨hmarked, htake, hne, hbrace⟩ | ⟨hmarked, htake, ho, hbrace⟩)
    · have htake' := takeWhile_eq_iff.mpr htake
      unfold isStyleChar at htake'
      rw [readStyle]
      simp only [hmarked, Option.getD_none, htake', if_neg (hend hbrace),
        eat?_eq_some_iff.mpr hbrace, if_neg hne]
      rfl
    · have htake' := takeWhile_eq_iff.mpr htake
      unfold isStyleChar at htake'
      rw [readStyle]
      simp only [eatWord?_eq_some_iff.mpr hmarked, Option.getD_some, htake', if_neg (hend hbrace),
        eat?_eq_some_iff.mpr hbrace, skeletonOptions_eq_ok_iff.mpr ho]
      rfl

/-- What follows the type of a formatted argument stands between the cursors. -/
inductive FormatAt (file : UInt32) (kind : FormatKind) (c : Cursor) : Style → Cursor → Prop where
  | default {c' : Cursor} : c.skipBlank.Passes ['}'] c' → FormatAt file kind c .default c'
  | styled {c₁ c' : Cursor} {style : Style} : c.skipBlank.Passes [','] c₁ →
      StyleAt file kind c₁ style c' → FormatAt file kind c style c'

theorem readFormat_eq_ok_iff {ctx : Context} {start c c' : Cursor} {kind : FormatKind}
    {name : String} {nameSpan : Span} {n : Node} :
    readFormat ctx start kind name nameSpan c = .ok (n, c') ↔
      ∃ style, FormatAt ctx.file kind c style c' ∧
        n = .format (start.spanTo ctx.file c') kind name nameSpan style := by
  constructor
  · intro h
    unfold readFormat at h
    simp only at h
    split at h
    · exact absurd h fail_ne_ok
    · split at h
      · rename_i hclosed
        obtain ⟨rfl, rfl⟩ := Prod.mk.inj (Except.ok.inj h)
        exact ⟨_, .default (eat?_eq_some_iff.mp hclosed), rfl⟩
      · split at h
        · exact absurd h fail_ne_ok
        · rename_i hcomma
          obtain ⟨⟨style, stop⟩, hstyle, h⟩ := bind_eq_ok_iff.mp h
          obtain ⟨rfl, rfl⟩ := Prod.mk.inj (Except.ok.inj h)
          exact ⟨style, .styled (eat?_eq_some_iff.mp hcomma) (readStyle_eq_ok_iff.mp hstyle), rfl⟩
  · rintro ⟨style, hformat, rfl⟩
    rw [readFormat]
    cases hformat with
    | default hclosed =>
      simp only [isDone_eq_false hclosed (List.cons_ne_nil _ _), eat?_eq_some_iff.mpr hclosed]
      rfl
    | styled hcomma hstyle =>
      have hnone : c.skipBlank.eat? '}' = none := by
        rw [eat?_eq_none_iff, hcomma.head?]
        decide
      simp only [isDone_eq_false hcomma (List.cons_ne_nil _ _), eat?_eq_some_iff.mpr hcomma, hnone,
        readStyle_eq_ok_iff.mpr hstyle]
      rfl

/-! ### Choices -/

/-- The body of a case stands between the cursors, its braces included. -/
def BodyAt (body : Option (Reader (List Node))) (c : Cursor) (nodes : List Node) (c' : Cursor) :
    Prop :=
  ∃ read inside stop, body = some read ∧ c.skipBlank.Passes ['{'] inside ∧
    read inside = .ok (nodes, stop) ∧ stop.Passes ['}'] c'

theorem readBody_eq_ok_iff {ctx : Context} {body : Option (Reader (List Node))} {start c c' : Cursor}
    {key : String} {nodes : List Node} :
    readBody ctx body start key c = .ok (nodes, c') ↔ BodyAt body c nodes c' := by
  constructor
  · intro h
    unfold readBody at h
    simp only at h
    split at h
    · split at h <;> exact absurd h fail_ne_ok
    · rename_i inside hopen
      split at h
      · exact absurd h fail_ne_ok
      · rename_i read
        obtain ⟨⟨ns, stop⟩, hread, h⟩ := bind_eq_ok_iff.mp h
        simp only at h
        split at h
        · exact absurd h fail_ne_ok
        · split at h
          · rename_i hclosed
            obtain ⟨rfl, rfl⟩ := Prod.mk.inj (Except.ok.inj h)
            exact ⟨read, inside, stop, rfl, eat?_eq_some_iff.mp hopen, hread,
              eat?_eq_some_iff.mp hclosed⟩
          · exact nomatch h
  · rintro ⟨read, inside, stop, rfl, hopen, hread, hclosed⟩
    rw [readBody]
    simp only [eat?_eq_some_iff.mpr hopen, hread, bind, Except.bind,
      isDone_eq_false hclosed (List.cons_ne_nil _ _), eat?_eq_some_iff.mpr hclosed]
    rfl

/-- A case stands between the cursors; `earlier` are the cases before it. -/
inductive CaseAt (file : UInt32) (plural : Bool) (body : Option (Reader (List Node)))
    (earlier : List (Branch Node)) (c : Cursor) : Branch Node → Cursor → Prop where
  | intro {key : String} {k c' : Cursor} {nodes : List Node} : KeyAt plural c key k →
      (∀ b ∈ earlier, b.key ≠ key) → BodyAt body k nodes c' →
      CaseAt file plural body earlier c ⟨key, c.spanTo file k, c.spanTo file c', nodes⟩ c'

theorem find?_key_eq_none_iff {earlier : List (Branch Node)} {key : String} :
    earlier.find? (·.key == key) = none ↔ ∀ b ∈ earlier, b.key ≠ key := by
  simp only [List.find?_eq_none, beq_iff_eq, ne_eq]

theorem readCase_eq_ok_iff {ctx : Context} {plural : Bool} {body : Option (Reader (List Node))}
    {start c c' : Cursor} {earlier : List (Branch Node)} {b : Branch Node} :
    readCase ctx plural body start earlier c = .ok (b, c') ↔
      CaseAt ctx.file plural body earlier c b c' := by
  constructor
  · intro h
    unfold readCase at h
    obtain ⟨⟨key, k⟩, hkey, h⟩ := bind_eq_ok_iff.mp h
    simp only at h
    split at h
    · exact absurd h fail_ne_ok
    · rename_i hfresh
      obtain ⟨⟨nodes, stop⟩, hbody, h⟩ := bind_eq_ok_iff.mp h
      obtain ⟨rfl, rfl⟩ := Prod.mk.inj (Except.ok.inj h)
      exact .intro (readKey_eq_ok_iff.mp hkey) (find?_key_eq_none_iff.mp hfresh)
        (readBody_eq_ok_iff.mp hbody)
  · rintro ⟨hkey, hfresh, hbody⟩
    rw [readCase]
    simp only [readKey_eq_ok_iff.mpr hkey, bind, Except.bind, find?_key_eq_none_iff.mpr hfresh,
      readBody_eq_ok_iff.mpr hbody]
    rfl

/-- The cases that are left stand between the cursors, the closing brace included; `done` is what
came before them. -/
inductive CasesAt (file : UInt32) (plural : Bool) (body : Option (Reader (List Node))) :
    Cases → Cursor → Cases → Cursor → Prop where
  | close {done : Cases} {c c' : Cursor} : c.skipBlank.Passes ['}'] c' → done.cases ≠ [] →
      CasesAt file plural body done c done c'
  | offset {done cs : Cases} {c c₁ c₂ c' : Cursor} {x : Float} : plural = true →
      done.cases = [] → c.skipBlank.Passes "offset:".toList c₁ → OffsetAt c₁ x c₂ →
      CasesAt file plural body { done with offset := x } c₂ cs c' →
      CasesAt file plural body done c cs c'
  | case {done cs : Cases} {c c₁ c' : Cursor} {b : Branch Node} :
      CaseAt file plural body done.cases c.skipBlank b c₁ →
      CasesAt file plural body { done with cases := done.cases ++ [b] } c₁ cs c' →
      CasesAt file plural body done c cs c'

theorem CaseAt.key {file : UInt32} {plural : Bool} {body : Option (Reader (List Node))}
    {earlier : List (Branch Node)} {c c' : Cursor} {b : Branch Node}
    (h : CaseAt file plural body earlier c b c') : ∃ k, KeyAt plural c b.key k := by
  cases h with
  | intro hkey => exact ⟨_, hkey⟩

theorem casesAt_of_readCases {ctx : Context} {plural : Bool} {body : Option (Reader (List Node))}
    {start : Cursor} {fuel : Nat} {done cs : Cases} {c c' : Cursor}
    (h : readCases ctx plural body start fuel done c = .ok (cs, c')) :
    CasesAt ctx.file plural body done c cs c' := by
  -- each round of the loop is one constructor of the relation
  induction fuel generalizing done c with
  | zero => exact absurd h fail_ne_ok
  | succ fuel ih =>
    unfold readCases at h
    simp only at h
    split at h
    · exact absurd h fail_ne_ok
    · split at h
      · rename_i hclosed
        split at h
        · exact absurd h fail_ne_ok
        · rename_i hne
          obtain ⟨rfl, rfl⟩ := Prod.mk.inj (Except.ok.inj h)
          exact .close (eat?_eq_some_iff.mp hclosed) fun hnil => hne (List.isEmpty_iff.mpr hnil)
      · split at h
        · rename_i hword
          split at hword
          · rename_i hfirst
            obtain ⟨hplural, hnil⟩ := Bool.and_eq_true_iff.mp hfirst
            obtain ⟨⟨x, c₂⟩, hoffset, h⟩ := bind_eq_ok_iff.mp h
            exact .offset hplural (List.isEmpty_iff.mp hnil) (eatWord?_eq_some_iff.mp hword)
              (readOffset_eq_ok_iff.mp hoffset) (ih h)
          · exact nomatch hword
        · obtain ⟨⟨b, c₁⟩, hcase, h⟩ := bind_eq_ok_iff.mp h
          exact .case (readCase_eq_ok_iff.mp hcase) (ih h)

/-- What a reader accepts stands where its cursor does. -/
def Forward {α : Type} (read : Reader α) : Prop :=
  ∀ c x c', read c = .ok (x, c') → c.Leads c'

theorem KeyAt.leads {plural : Bool} {c c' : Cursor} {key : String} (h : KeyAt plural c key c') :
    c.Leads c' ∧ c'.rest.length < c.rest.length := by
  cases h with
  | exact _ hsign hdigits =>
    have hlength := hsign.length_rest
    have hle := hdigits.passes.leads.length_le
    refine ⟨hsign.leads.trans hdigits.passes.leads, ?_⟩
    rw [List.length_singleton] at hlength
    omega
  | name hname =>
    have hlength := hname.run.passes.length_rest
    have hpos : 0 < key.toList.length :=
      List.length_pos_iff.mpr fun hnil => hname.ne (String.toList_eq_nil_iff.mp hnil)
    exact ⟨hname.run.passes.leads, by omega⟩

theorem BodyAt.leads {body : Option (Reader (List Node))} {c c' : Cursor} {nodes : List Node}
    (hbody : ∀ read ∈ body, Forward read) (h : BodyAt body c nodes c') : c.Leads c' := by
  obtain ⟨read, inside, stop, hread, hopen, hnodes, hclosed⟩ := h
  have hinside := c.leads_skipBlank.trans hopen.leads
  exact (hinside.trans (hbody read hread _ _ _ hnodes)).trans hclosed.leads

theorem CaseAt.leads {file : UInt32} {plural : Bool} {body : Option (Reader (List Node))}
    {earlier : List (Branch Node)} {c c' : Cursor} {b : Branch Node}
    (hbody : ∀ read ∈ body, Forward read) (h : CaseAt file plural body earlier c b c') :
    c.Leads c' ∧ c'.rest.length < c.rest.length := by
  cases h with
  | intro hkey _ hnodes =>
    have hle := (hnodes.leads hbody).length_le
    have hlt := hkey.leads.2
    exact ⟨hkey.leads.1.trans (hnodes.leads hbody), by omega⟩

theorem OffsetAt.leads {c c' : Cursor} {x : Float} (h : OffsetAt c x c') : c.Leads c' := by
  obtain ⟨digits, -, hdigits, -⟩ := h
  exact c.leads_skipBlank.trans hdigits.passes.leads

theorem CasesAt.leads {file : UInt32} {plural : Bool} {body : Option (Reader (List Node))}
    {done cs : Cases} {c c' : Cursor} (hbody : ∀ read ∈ body, Forward read)
    (h : CasesAt file plural body done c cs c') : c.Leads c' := by
  induction h with
  | close hclosed => exact (leads_skipBlank _).trans hclosed.leads
  | offset _ _ hword hoffset _ ih =>
    exact (((leads_skipBlank _).trans hword.leads).trans hoffset.leads).trans ih
  | case hcase _ ih => exact ((leads_skipBlank _).trans (hcase.leads hbody).1).trans ih

section Steps

variable {ctx : Context} {plural : Bool} {body : Option (Reader (List Node))} {start c c' : Cursor}
  {done : Cases} {fuel : Nat}

theorem readCases_of_close (hclosed : c.skipBlank.Passes ['}'] c') (hne : done.cases ≠ []) :
    readCases ctx plural body start (fuel + 1) done c = .ok (done, c') := by
  rw [readCases]
  simp only [isDone_eq_false hclosed (List.cons_ne_nil _ _), eat?_eq_some_iff.mpr hclosed,
    List.isEmpty_eq_false_iff.mpr hne]
  rfl

theorem readCases_of_offset {c₁ c₂ : Cursor} {x : Float} (hplural : plural = true)
    (hnil : done.cases = []) (hword : c.skipBlank.Passes "offset:".toList c₁)
    (hoffset : OffsetAt c₁ x c₂) : readCases ctx plural body start (fuel + 1) done c =
      readCases ctx plural body start fuel { done with offset := x } c₂ := by
  have hclose : c.skipBlank.eat? '}' = none := by
    rw [eat?_eq_none_iff, hword.rest]
    simp
  have hfirst : (plural && done.cases.isEmpty) = true := by
    rw [hplural, hnil]
    rfl
  rw [readCases]
  simp only [isDone_eq_false hword (by decide), hclose, hfirst, if_true,
    eatWord?_eq_some_iff.mpr hword, readOffset_eq_ok_iff.mpr hoffset]
  rfl

theorem readCases_of_key {key : String} {k : Cursor} (hkey : KeyAt plural c.skipBlank key k) :
    readCases ctx plural body start (fuel + 1) done c = (do
      let (case, c) ← readCase ctx plural body start done.cases c.skipBlank
      readCases ctx plural body start fuel { done with cases := done.cases ++ [case] } c) := by
  have hword : (if (plural && done.cases.isEmpty) = true then
      c.skipBlank.eatWord? "offset:".toList else none) = none := by
    split
    · rename_i hfirst
      obtain rfl := (Bool.and_eq_true_iff.mp hfirst).1
      exact hkey.eatWord?_offset
    · rfl
  rw [readCases]
  simp only [hkey.isDone, hkey.eat?_eq_none (by decide : isNameChar '}' = false) (by decide), hword]
  rfl

end Steps

/-- Less text stands behind a case than before it. -/
theorem CaseAt.length_lt {file : UInt32} {plural : Bool} {body : Option (Reader (List Node))}
    {earlier : List (Branch Node)} {c c' : Cursor} {b : Branch Node}
    (hbody : ∀ read ∈ body, Forward read) (h : CaseAt file plural body earlier c.skipBlank b c') :
    c'.rest.length < c.rest.length :=
  Nat.lt_of_lt_of_le (h.leads hbody).2 c.leads_skipBlank.length_le

/-- Less text stands behind an offset than before it. -/
theorem OffsetAt.length_lt {c c₁ c₂ : Cursor} {x : Float}
    (hword : c.skipBlank.Passes "offset:".toList c₁) (h : OffsetAt c₁ x c₂) :
    c₂.rest.length < c.rest.length := by
  have hlength := hword.length_rest
  have hblank := c.leads_skipBlank.length_le
  have hleft := h.leads.length_le
  have hseven : "offset:".toList.length = 7 := rfl
  omega

/-- The loop that reads cases runs long enough. -/
theorem readCases_of_casesAt {ctx : Context} {plural : Bool} {body : Option (Reader (List Node))}
    {start : Cursor} {fuel : Nat} {done cs : Cases} {c c' : Cursor}
    (hbody : ∀ read ∈ body, Forward read) (hfuel : c.rest.length < fuel)
    (h : CasesAt ctx.file plural body done c cs c') :
    readCases ctx plural body start fuel done c = .ok (cs, c') := by
  induction h generalizing fuel with
  | @close done c c' hclosed hne =>
    obtain ⟨fuel, rfl⟩ : ∃ n, fuel = n + 1 := ⟨fuel - 1, by omega⟩
    exact readCases_of_close hclosed hne
  | @offset done cs c c₁ c₂ c' x hplural hnil hword hoffset _ ih =>
    obtain ⟨fuel, rfl⟩ : ∃ n, fuel = n + 1 := ⟨fuel - 1, by omega⟩
    -- what was read is missing in the rest, so there is fuel left for it
    have hless := hoffset.length_lt hword
    rw [readCases_of_offset hplural hnil hword hoffset]
    exact ih (by omega)
  | @case done cs c c₁ c' b hcase _ ih =>
    obtain ⟨fuel, rfl⟩ : ∃ n, fuel = n + 1 := ⟨fuel - 1, by omega⟩
    obtain ⟨k, hkey⟩ := hcase.key
    have hless := hcase.length_lt hbody
    rw [readCases_of_key hkey, readCase_eq_ok_iff.mpr hcase]
    exact ih (by omega)

/-- The cases of a choice stand between the cursors, the comma before them included. -/
def ChoiceAt (file : UInt32) (plural : Bool) (body : Option (Reader (List Node))) (c : Cursor)
    (cs : Cases) (c' : Cursor) : Prop :=
  ∃ c₁, c.skipBlank.Passes [','] c₁ ∧ CasesAt file plural body ⟨[], 0⟩ c₁ cs c'

/-- A property of all readers one level down, each with whether its body stands in a plural. -/
structure Inner.All (P : Bool → Reader (List Node) → Prop) (inner : Inner) : Prop where
  tagBody : ∀ read ∈ inner.tagBody, ∀ inPlural, P inPlural (read inPlural)
  caseBody : ∀ read ∈ inner.caseBody, ∀ inPlural, P inPlural (read inPlural)

/-- How the bodies of cases are read. -/
def Inner.bodyReader (inner : Inner) (inPlural : Bool) : Option (Reader (List Node)) :=
  inner.caseBody.map fun read => read inPlural

theorem Inner.All.bodyReader {P : Bool → Reader (List Node) → Prop} {inner : Inner}
    (h : inner.All P) (inPlural : Bool) : ∀ read ∈ inner.bodyReader inPlural, P inPlural read := by
  intro read hread
  obtain ⟨read', hread', rfl⟩ := Option.map_eq_some_iff.mp hread
  exact h.caseBody read' hread' inPlural

/-- What is read one level down stands where the readers' cursors do. -/
def Inner.Forward (inner : Inner) : Prop :=
  inner.All fun _ => Message.Forward

theorem readChoice_eq_ok_iff {ctx : Context} {inner : Inner} (hinner : inner.Forward)
    {inPlural plural : Bool} {start c c' : Cursor} {cs : Cases} :
    readChoice ctx inner inPlural plural start c = .ok (cs, c') ↔
      ChoiceAt ctx.file plural (inner.bodyReader (inPlural || plural)) c cs c' := by
  constructor
  · intro h
    unfold readChoice at h
    simp only at h
    split at h
    · exact absurd h fail_ne_ok
    · split at h
      · exact absurd h fail_ne_ok
      · rename_i c₁ hcomma
        exact ⟨c₁, eat?_eq_some_iff.mp hcomma, casesAt_of_readCases h⟩
  · rintro ⟨c₁, hcomma, hcases⟩
    rw [readChoice]
    simp only [isDone_eq_false hcomma (List.cons_ne_nil _ _), eat?_eq_some_iff.mpr hcomma]
    exact readCases_of_casesAt (hinner.bodyReader _) (Nat.lt_succ_self _) hcases

theorem ChoiceAt.leads {file : UInt32} {plural : Bool} {body : Option (Reader (List Node))}
    {c c' : Cursor} {cs : Cases} (hbody : ∀ read ∈ body, Message.Forward read)
    (h : ChoiceAt file plural body c cs c') : c.Leads c' := by
  obtain ⟨c₁, hcomma, hcases⟩ := h
  exact (c.leads_skipBlank.trans hcomma.leads).trans (hcases.leads hbody)

end Phrasebook.Message
