import Mathlib.Data.List.Chain
import Phrasebook.Proofs.Grammar
import Phrasebook.Proofs.Numbers

/-!
Well-formed trees. What a text is read as is well formed at every depth: literals are neither empty
nor split, choices have cases with distinct and valid keys, and number signs stand in plurals.
-/
namespace Phrasebook

open Message

def Node.isLiteral : Node → Bool
  | .literal .. => true
  | _ => false

/-- No two literals stand next to each other. -/
def Separate (ns : List Node) : Prop :=
  ns.IsChain fun m n => ¬(m.isLiteral = true ∧ n.isLiteral = true)

/-- A name of an argument, or a selector of a select. -/
def IsName (name : String) : Prop :=
  name ≠ "" ∧ ∀ x ∈ name.toList, isNameChar x = true

def IsTagName (name : String) : Prop :=
  name.toList.head?.any isTagStart = true ∧ ∀ x ∈ name.toList, isTagChar x = true

/-- A selector of a plural: a category, or an equals sign with a finite number behind it. -/
def IsPluralKey (key : String) : Prop :=
  key ∈ pluralCategories ∨ ∃ digits x, key = String.ofList ('=' :: digits) ∧
    (∀ d ∈ digits, isNumberChar d = true) ∧ exactValue? key = some x ∧ x.isFinite = true

/-- A selector of a choice. -/
def IsKey (plural : Bool) : String → Prop :=
  if plural then IsPluralKey else IsName

/-- The branches of a choice, but for the elements in them. -/
structure IsCases (plural : Bool) (cases : List (Branch Node)) : Prop where
  ne : cases ≠ []
  distinct : (cases.map (·.key)).Nodup
  key : ∀ b ∈ cases, IsKey plural b.key
  body : ∀ b ∈ cases, Separate b.body

/-- A well-formed element that stands in a plural or not. -/
inductive Node.WellFormed : Bool → Node → Prop where
  | literal {inPlural span text} : text ≠ "" → WellFormed inPlural (.literal span text)
  | argument {inPlural span name nameSpan} : IsName name →
      WellFormed inPlural (.argument span name nameSpan)
  | select {inPlural span name nameSpan cases} : IsName name → IsCases false cases →
      (∀ b ∈ cases, ∀ n ∈ b.body, WellFormed inPlural n) →
      WellFormed inPlural (.select span name nameSpan cases)
  | plural {inPlural span name nameSpan offset kind cases} : IsName name →
      offset.isFinite = true → 0 ≤ offset → IsCases true cases →
      (∀ b ∈ cases, ∀ n ∈ b.body, WellFormed true n) →
      WellFormed inPlural (.plural span name nameSpan offset kind cases)
  | format {inPlural span kind name nameSpan style} : IsName name →
      WellFormed inPlural (.format span kind name nameSpan style)
  | pound {span} : WellFormed true (.pound span)
  | tag {inPlural span name nameSpan selfClosing children} : IsTagName name →
      (selfClosing = true → children = []) → Separate children →
      (∀ n ∈ children, WellFormed inPlural n) →
      WellFormed inPlural (.tag span name nameSpan selfClosing children)

namespace Message

/-! ### Names and keys -/

theorem NameAt.isName {c c' : Cursor} {name : String} (h : NameAt c name c') : IsName name :=
  ⟨h.ne, h.run.all⟩

theorem TagNameAt.isTagName {c c' : Cursor} {name : String} (h : TagNameAt c name c') :
    IsTagName name :=
  ⟨h.start, h.run.all⟩

theorem exactValue?_ofList (digits : List Char) :
    exactValue? (String.ofList ('=' :: digits)) = Decimal.read? digits := by
  rw [exactValue?, String.toList_ofList]
  rfl

theorem KeyAt.isKey {plural : Bool} {c c' : Cursor} {key : String} (h : KeyAt plural c key c') :
    IsKey plural key := by
  cases h with
  | @exact start _ digits hplural hsign hdigits hsome =>
    obtain ⟨x, hx⟩ := Option.isSome_iff_exists.mp hsome
    have hfinite : x.isFinite = true := Decimal.isFinite_read? hdigits.all hx
    rw [IsKey, if_pos hplural]
    exact .inr ⟨digits, x, rfl, hdigits.all, (exactValue?_ofList digits).trans hx, hfinite⟩
  | name hname hcategory =>
    rw [IsKey]
    split
    · rename_i hplural
      exact .inl (hcategory hplural)
    · exact hname.isName

/-! ### Cases -/

/-- What a reader of bodies gives is well formed. -/
def Formed (inPlural : Bool) (read : Reader (List Node)) : Prop :=
  ∀ c ns c', read c = .ok (ns, c') → Separate ns ∧ ∀ n ∈ ns, n.WellFormed inPlural

/-- What holds of the cases and the offset that were read so far. -/
structure Gathered (plural inPlural : Bool) (cs : Cases) : Prop where
  distinct : (cs.cases.map (·.key)).Nodup
  key : ∀ b ∈ cs.cases, IsKey plural b.key
  body : ∀ b ∈ cs.cases, Separate b.body
  element : ∀ b ∈ cs.cases, ∀ n ∈ b.body, n.WellFormed inPlural
  finite : cs.offset.isFinite = true
  nonneg : 0 ≤ cs.offset

theorem gathered_nil (plural inPlural : Bool) : Gathered plural inPlural ⟨[], 0⟩ where
  distinct := List.nodup_nil
  key := fun _ hb => nomatch hb
  body := fun _ hb => nomatch hb
  element := fun _ hb => nomatch hb
  finite := rfl
  nonneg := by decide

section Cases

variable {file : UInt32} {plural inPlural : Bool} {body : Option (Reader (List Node))}
  {cs done : Cases} {c c' : Cursor}

/-- One more case. -/
theorem Gathered.append {b : Branch Node} (hbody : ∀ read ∈ body, Formed inPlural read)
    (h : Gathered plural inPlural done) (hcase : CaseAt file plural body done.cases c b c') :
    Gathered plural inPlural { done with cases := done.cases ++ [b] } := by
  cases hcase with
  | @intro key k _ nodes hkey hfresh hnodes =>
    obtain ⟨read, inside, stop, hread, -, hnodes, -⟩ := hnodes
    obtain ⟨hseparate, helements⟩ := hbody read hread _ _ _ hnodes
    -- the new key is not among the earlier ones
    have hnew : ∀ k ∈ done.cases.map (·.key), k ≠ key := by
      intro k hk
      obtain ⟨b, hb, rfl⟩ := List.mem_map.mp hk
      exact hfresh b hb
    constructor
    · rw [List.map_append, List.map_singleton]
      refine List.nodup_append.mpr ⟨h.distinct, List.nodup_singleton _, ?_⟩
      intro k hk k' hk'
      rw [List.mem_singleton.mp hk']
      exact hnew k hk
    · intro b hb
      rcases List.mem_append.mp hb with hb | hb
      · exact h.key b hb
      · rw [List.mem_singleton.mp hb]
        exact hkey.isKey
    · intro b hb
      rcases List.mem_append.mp hb with hb | hb
      · exact h.body b hb
      · rw [List.mem_singleton.mp hb]
        exact hseparate
    · intro b hb
      rcases List.mem_append.mp hb with hb | hb
      · exact h.element b hb
      · rw [List.mem_singleton.mp hb]
        exact helements
    · exact h.finite
    · exact h.nonneg

theorem CasesAt.gathered (hbody : ∀ read ∈ body, Formed inPlural read)
    (h : CasesAt file plural body done c cs c') (hdone : Gathered plural inPlural done) :
    Gathered plural inPlural cs ∧ cs.cases ≠ [] := by
  induction h with
  | close _ hne => exact ⟨hdone, hne⟩
  | offset _ _ _ hoffset _ ih =>
    obtain ⟨digits, hne, hdigits, hread⟩ := hoffset
    have hnumber : ∀ d ∈ digits, isNumberChar d = true :=
      fun d hd => Decimal.isNumberChar_of_isDigit (hdigits.all d hd)
    apply ih
    exact { hdone with
      finite := Decimal.isFinite_read? hnumber hread
      nonneg := Decimal.zero_le_read? hne hdigits.all hread }
  | case hcase _ ih => exact ih (hdone.append hbody hcase)

theorem ChoiceAt.gathered (hbody : ∀ read ∈ body, Formed inPlural read)
    (h : ChoiceAt file plural body c cs c') :
    Gathered plural inPlural cs ∧ IsCases plural cs.cases := by
  obtain ⟨c₁, -, hcases⟩ := h
  obtain ⟨hall, hne⟩ := hcases.gathered hbody (gathered_nil plural inPlural)
  exact ⟨hall, hne, hall.distinct, hall.key, hall.body⟩

end Cases

/-! ### Elements -/

section Elements

variable {file : UInt32} {inner : Inner} {inPlural : Bool} {c c' : Cursor} {n : Node}

theorem LiteralAt.ne {text : String} (h : LiteralAt inPlural c text c') : text ≠ "" := by
  rintro rfl
  have hne := (readText_of_isPlain h.plain).1
  rw [h.text] at hne
  exact hne rfl

theorem ArgumentAt.wellFormed {start : Cursor} {name : String} {nameSpan : Span}
    (hinner : inner.All Formed) (hname : IsName name)
    (h : ArgumentAt file inner inPlural start name nameSpan c n c') : n.WellFormed inPlural := by
  cases h with
  | plain => exact .argument hname
  | format => exact .format hname
  | select _ hcases =>
    obtain ⟨hall, hcases⟩ := hcases.gathered (hinner.bodyReader inPlural)
    exact .select hname hcases hall.element
  | plural _ hcases =>
    obtain ⟨hall, hcases⟩ := hcases.gathered (hinner.bodyReader true)
    exact .plural hname hall.finite hall.nonneg hcases hall.element

theorem ElementAt.wellFormed (hinner : inner.All Formed) (h : ElementAt file inner inPlural c n c') :
    n.WellFormed inPlural := by
  cases h with
  | literal hliteral => exact .literal hliteral.ne
  | pound hplural _ =>
    subst hplural
    exact .pound
  | argument _ hname hargument =>
    obtain ⟨inside, -, hname, -⟩ := hname
    exact hargument.wellFormed hinner hname.isName
  | tag htag =>
    cases htag with
    | single _ _ hname _ =>
      exact .tag hname.isTagName (fun _ => rfl) List.isChain_nil
        fun _ hn => absurd hn List.not_mem_nil
    | paired hread _ hname _ hbody _ _ _ =>
      obtain ⟨hseparate, hchildren⟩ := hinner.tagBody _ hread inPlural _ _ _ hbody
      exact .tag hname.isTagName (fun hclosing => Bool.noConfusion hclosing) hseparate hchildren

/-- Only plain text is read as a literal. -/
theorem ElementAt.isPlain (h : ElementAt file inner inPlural c n c') (hn : n.isLiteral = true) :
    IsPlain inPlural c.rest ∧ ¬IsPlain inPlural c'.rest := by
  cases h with
  | literal hliteral =>
    have hleft := (readText_left inPlural .plain c.rest).2
    rw [hliteral.text] at hleft
    exact ⟨hliteral.plain, hleft⟩
  | pound => exact Bool.noConfusion hn
  | argument _ _ hargument => cases hargument <;> exact Bool.noConfusion hn
  | tag htag => cases htag <;> exact Bool.noConfusion hn

/-- Text goes on in its literal, so two literals never meet. -/
theorem SiblingsAt.separate {ns : List Node}
    (h : SiblingsAt (ElementAt file inner inPlural) c ns c') : Separate ns := by
  induction h with
  | nil => exact List.isChain_nil
  | @cons c c₁ c' n ns _ helement hrest ih =>
    cases hrest with
    | nil => exact List.isChain_singleton _
    | cons _ hnext _ =>
      refine List.isChain_cons_cons.mpr ⟨?_, ih⟩
      rintro ⟨hn, hm⟩
      exact (helement.isPlain hn).2 (hnext.isPlain hm).1

theorem SiblingsAt.wellFormed {ns : List Node} (hinner : inner.All Formed)
    (h : SiblingsAt (ElementAt file inner inPlural) c ns c') :
    ∀ n ∈ ns, n.WellFormed inPlural := by
  induction h with
  | nil => exact fun _ hn => absurd hn List.not_mem_nil
  | cons _ helement _ ih =>
    exact List.forall_mem_cons.mpr ⟨helement.wellFormed hinner, ih⟩

end Elements

theorem formed_readNodes (ctx : Context) (budget : Nat) :
    ∀ inPlural, Formed inPlural (readNodes ctx budget inPlural) := by
  refine readNodes_induction ?_ budget
  intro budget hinner inPlural c ns c' h
  have hsiblings := readNodes_eq_ok_iff.mp h
  exact ⟨hsiblings.separate, hsiblings.wellFormed hinner⟩

/-- A text that is read is read to a well-formed tree. -/
theorem wellFormed_of_parse {file : UInt32} {limit : Nat} {content : Bytes} {ns : List Node}
    (h : parse file limit content = .ok ns) : Separate ns ∧ ∀ n ∈ ns, n.WellFormed false := by
  obtain ⟨-, cs, -, hchars⟩ := parse_eq_ok_iff.mp h
  obtain ⟨c', -, hread⟩ := parseChars_eq_ok_iff.mp hchars
  exact formed_readNodes _ _ _ _ _ _ hread

/-- A plural with an offset, an exact selector, quoted text, a tag and a number sign. -/
def pluralText : List Char :=
  "\x7bn, plural, offset:1 =1 \x7b'\x7b'\x7d other \x7b<b>#</b> it''s\x7d\x7d".toList

theorem wellFormed_pluralText : ∃ ns, parse 3 4 (Utf8.encode pluralText) = .ok ns ∧
    Separate ns ∧ ∀ n ∈ ns, n.WellFormed false := by
  have hread : ∃ ns, parse 3 4 (Utf8.encode pluralText) = .ok ns := ⟨_, rfl⟩
  obtain ⟨ns, hns⟩ := hread
  exact ⟨ns, hns, wellFormed_of_parse hns⟩

end Message

end Phrasebook
