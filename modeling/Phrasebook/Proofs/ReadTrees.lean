import Mathlib
import Phrasebook.Message.Parse
import Phrasebook.Proofs.Floats
import Phrasebook.Proofs.Skeletons
import Phrasebook.Proofs.Trees

/-!
What reading a text can give. Trees that were read have no holes, their skeletons set ordinary
options only and no key twice, and an offset of zero has no sign.
-/
namespace Phrasebook

/-- What holds of every element that was read. -/
def Node.Readable : Node → Prop
  | .plural _ _ _ offset _ _ => (offset == 0) = true → offset = 0
  | .format _ _ _ _ (.skeleton _ o _) => o.Regular
  | .unknown _ | .hole => False
  | _ => True

/-! ### Offsets -/

namespace Decimal

open Message

theorem toLower_of_isDigit {c : Char} (h : c.isDigit = true) : c.toLower = c := by
  have hc := Char.isDigit_iff_toNat.mp h
  rw [Char.toLower, dif_neg]
  rintro ⟨hlow, -⟩
  have hlow' : 'A'.toNat ≤ c.toNat := hlow
  have h9 : '9'.toNat = 57 := rfl
  have hA : 'A'.toNat = 65 := rfl
  omega

theorem ne_of_isDigit {c d : Char} (hc : c.isDigit = true) (hd : d.isDigit = false) : c ≠ d := by
  rintro rfl
  rw [hc] at hd
  exact Bool.noConfusion hd

theorem isNumberChar_of_isDigit {c : Char} (h : c.isDigit = true) : isNumberChar c = true := by
  rw [isNumberChar, h]
  rfl

/-- The letters of the words for numbers, and of the mark of hexadecimal notation, are no characters
of written numbers. -/
theorem toLower_ne_of_isNumberChar {c : Char} (hc : isNumberChar c = true) :
    c.toLower ≠ 'i' ∧ c.toLower ≠ 'n' ∧ c.toLower ≠ 'x' := by
  simp only [isNumberChar, Bool.or_eq_true, beq_iff_eq] at hc
  rcases hc with ((((hdigit | rfl) | rfl) | rfl) | rfl) | rfl
  · rw [toLower_of_isDigit hdigit]
    exact ⟨ne_of_isDigit hdigit rfl, ne_of_isDigit hdigit rfl, ne_of_isDigit hdigit rfl⟩
  all_goals decide

theorem named?_eq_none {cs : List Char} (h : ∀ c ∈ cs, isNumberChar c = true) :
    named? cs = none := by
  have hword (d : Char) (ds : List Char) (hd : d = 'i' ∨ d = 'n') (r : List Char)
      (hr : ∀ c ∈ r, isNumberChar c = true) : (lowerAscii r == d :: ds) = false := by
    rw [beq_eq_false_iff_ne]
    intro heq
    cases r with
    | nil => exact nomatch heq
    | cons x r =>
      obtain ⟨hi, hn, -⟩ := toLower_ne_of_isNumberChar (hr x List.mem_cons_self)
      have hhead : x.toLower = d := (List.cons.inj heq).1
      rcases hd with rfl | rfl
      · exact hi hhead
      · exact hn hhead
  have hinf (r : List Char) (hr : ∀ c ∈ r, isNumberChar c = true) :
      (lowerAscii r == "inf".toList || lowerAscii r == "infinity".toList) = false := by
    have hshort : (lowerAscii r == "inf".toList) = false := hword 'i' _ (.inl rfl) r hr
    have hlong : (lowerAscii r == "infinity".toList) = false := hword 'i' _ (.inl rfl) r hr
    rw [hshort, hlong]
    rfl
  have hnan : (lowerAscii cs == "nan".toList) = false := hword 'n' _ (.inr rfl) cs h
  unfold named?
  simp only
  split
  · exact if_neg (Bool.eq_false_iff.mp (hinf _ fun c hc => h c (List.mem_cons_of_mem _ hc)))
  · exact if_neg (Bool.eq_false_iff.mp (hinf _ fun c hc => h c (List.mem_cons_of_mem _ hc)))
  · exact (if_neg (Bool.eq_false_iff.mp (hinf cs h))).trans (if_neg (Bool.eq_false_iff.mp hnan))

theorem readUnsigned?_eq {cs : List Char} (h : ∀ c ∈ cs, isNumberChar c = true) :
    readUnsigned? cs = readDecimal? cs := by
  unfold readUnsigned?
  split
  · rename_i x r
    have hx := (toLower_ne_of_isNumberChar (h x (by simp))).2.2
    rw [beq_eq_false_iff_ne.mpr hx, Bool.false_and, if_neg Bool.false_ne_true]
  · rfl

theorem readDecimal?_digits {cs : List Char} (hne : cs ≠ []) (h : ∀ c ∈ cs, c.isDigit = true) :
    readDecimal? cs = some (nearestDecimal (natOfDigits 10 hexValue cs) 0) := by
  have hspan : spanDigits Char.isDigit cs = (cs, []) := by
    have hp : ∀ c ∈ cs, (c.isDigit || c == '_') = true := fun c hc => by rw [h c hc]; rfl
    simp only [spanDigits, List.takeWhile_eq_self_iff.mpr hp, List.dropWhile_eq_nil_iff.mpr hp,
      List.filter_eq_self.mpr h]
  have hlines : cs.contains '_' = false := by
    rw [List.contains_eq_mem, decide_eq_false_iff_not]
    exact fun hmem => absurd (h '_' hmem) (by decide)
  have hmantissa : mantissa? Char.isDigit cs = some ⟨cs, [], []⟩ := by
    rw [mantissa?, hspan]
    simp only [List.isEmpty_eq_false_iff.mpr hne, Bool.false_and, Bool.false_eq_true, if_false]
  have hexponent : exponent? 'e' false [] = some 0 := rfl
  rw [readDecimal?, hmantissa]
  simp only [Option.bind_eq_bind, Option.bind_some, hexponent, hlines, List.append_nil]
  rfl

/-- A number that is written with digits only has no sign. -/
theorem unsigned_read? {cs : List Char} {x : Float} (hne : cs ≠ [])
    (h : ∀ c ∈ cs, c.isDigit = true) (hx : read? cs = some x) : Floats.Unsigned x := by
  obtain ⟨c, r, rfl⟩ := List.exists_cons_of_ne_nil hne
  have hc := h c List.mem_cons_self
  have hnumber : ∀ d ∈ c :: r, isNumberChar d = true := fun d hd => isNumberChar_of_isDigit (h d hd)
  unfold read? at hx
  rw [named?_eq_none hnumber] at hx
  simp only at hx
  split at hx
  · rename_i heq
    exact absurd (List.cons.inj heq).1 (ne_of_isDigit hc rfl)
  · rename_i heq
    exact absurd (List.cons.inj heq).1 (ne_of_isDigit hc rfl)
  · rw [readUnsigned?_eq hnumber, readDecimal?_digits hne h] at hx
    obtain ⟨heq, _⟩ := Option.filter_eq_some_iff.mp hx
    obtain rfl := Option.some.inj heq
    rw [nearestDecimal]
    split
    · exact Floats.unsigned_ofScientific 0
    · simp only
      split
      · -- too large a number reads as infinity, which has no sign either
        rw [Floats.Unsigned]
        decide
      · split
        · exact Floats.unsigned_ofScientific 0
        · exact Floats.unsigned_ofScientific _
end Decimal

namespace Message

/-! ### Readers -/

/-- Whatever is read has a property. -/
def Yields {α : Type} (P : α → Prop) (x : Except Fault (Read α)) : Prop :=
  ∀ a c, x = .ok (a, c) → P a

namespace Yields

variable {α β : Type} {P : α → Prop} {Q : β → Prop}

theorem error (f : Fault) : Yields P (.error f) :=
  fun _ _ h => nomatch h

theorem fail (cause : Cause) (span : Span) : Yields P (Message.fail cause span) :=
  error _

theorem ok {a : α} (h : P a) (c : Cursor) : Yields P (.ok (a, c)) := by
  intro b d hb
  rw [← (Prod.mk.inj (Except.ok.inj hb)).1]
  exact h

theorem bind {x : Except Fault (Read α)} {f : Read α → Except Fault (Read β)} (hx : Yields P x)
    (hf : ∀ a c, P a → Yields Q (f (a, c))) : Yields Q (x >>= f) := by
  match x with
  | .ok (a, c) => exact hf a c (hx a c rfl)
  | .error e => exact error e

end Yields

/-- All elements are readable, at any depth. -/
abbrev AllReadable (ns : List Node) : Prop :=
  ∀ n ∈ ns, n.All Node.Readable

theorem allReadable_nil : AllReadable [] :=
  fun _ hn => absurd hn List.not_mem_nil

theorem readSiblings_readable {element : Reader Node}
    (h : ∀ c, Yields (·.All Node.Readable) (element c)) (fuel : Nat) (c : Cursor) :
    Yields AllReadable (readSiblings element fuel c) := by
  induction fuel generalizing c with
  | zero => exact .ok allReadable_nil c
  | succ fuel ih =>
    unfold readSiblings
    split
    · exact .ok allReadable_nil c
    · exact .ok allReadable_nil c
    · exact .ok allReadable_nil c
    · refine .bind (h c) fun n c hn => .bind (ih c) fun ns c hns => .ok ?_ c
      exact List.forall_mem_cons.mpr ⟨hn, hns⟩

/-- The readers of bodies that are at hand give readable elements. -/
structure Inner.Sound (inner : Inner) : Prop where
  tagBody : ∀ body ∈ inner.tagBody, ∀ inPlural c, Yields AllReadable (body inPlural c)
  caseBody : ∀ body ∈ inner.caseBody, ∀ inPlural c, Yields AllReadable (body inPlural c)

/-! ### Tags and formatted arguments -/

theorem readTagBody_readable (ctx : Context) {body : Reader (List Node)}
    (h : ∀ c, Yields AllReadable (body c)) (start : Cursor) (name : String) (nameSpan : Span)
    (c : Cursor) : Yields (·.All Node.Readable) (readTagBody ctx body start name nameSpan c) := by
  unfold readTagBody
  refine .bind (h c) fun children closing hchildren => ?_
  simp only
  split
  · exact .fail _ _
  · split
    · exact .fail _ _
    · split
      · exact .fail _ _
      · exact .ok (.tag trivial hchildren) _

theorem readTag_readable (ctx : Context) {inner : Inner} (h : inner.Sound) (inPlural : Bool)
    (start inside : Cursor) :
    Yields (·.All Node.Readable) (readTag ctx inner inPlural start inside) := by
  unfold readTag
  simp only
  split
  · exact .fail _ _
  · rename_i body hbody
    split
    · exact .ok (.tag trivial allReadable_nil) _
    · split
      · exact readTagBody_readable ctx (h.tagBody body hbody inPlural) start _ _ _
      · split
        · exact .fail _ _
        · exact .fail _ _

theorem skeletonOptions_regular {ctx : Context} {kind : FormatKind} {raw : List Char}
    {offset : Nat} {o : FormatOptions} (h : skeletonOptions ctx kind raw offset = .ok o) :
    o.Regular := by
  unfold skeletonOptions at h
  cases kind with
  | number =>
    simp only at h
    split at h
    · rename_i o' ho
      obtain rfl := Except.ok.inj h
      exact Skeleton.parseNumber_regular ho
    · exact nomatch h
  | date | time =>
    simp only at h
    split at h
    · rename_i o' ho
      obtain rfl := Except.ok.inj h
      exact Skeleton.parseDate_regular ho
    · exact nomatch h

theorem readStyle_readable (ctx : Context) (start : Cursor) (kind : FormatKind) (c : Cursor) :
    Yields (fun style => ∀ span kind name nameSpan,
      (Node.format span kind name nameSpan style).Readable) (readStyle ctx start kind c) := by
  unfold readStyle
  simp only
  split
  · exact .fail _ _
  · split
    · exact .fail _ _
    · split
      · split
        · exact .fail _ _
        · exact .ok (fun _ _ _ _ => trivial) _
      · cases ho : skeletonOptions ctx kind _ _ with
        | error f => exact .error f
        | ok o => exact .ok (fun _ _ _ _ => skeletonOptions_regular ho) _

theorem readFormat_readable (ctx : Context) (start : Cursor) (kind : FormatKind) (name : String)
    (nameSpan : Span) (c : Cursor) :
    Yields (·.All Node.Readable) (readFormat ctx start kind name nameSpan c) := by
  have hleaf (style : Style) (span : Span) (h : ∀ span kind name nameSpan,
      (Node.format span kind name nameSpan style).Readable) :
      (Node.format span kind name nameSpan style).All Node.Readable := by
    refine Node.All.leaf (h _ _ _ _) ?_
    intro m hm
    cases hm
    rfl
  unfold readFormat
  simp only
  split
  · exact .fail _ _
  · split
    · exact .ok (hleaf .default _ fun _ _ _ _ => trivial) _
    · split
      · exact .fail _ _
      · refine .bind (readStyle_readable ctx start kind _) fun style c hstyle => ?_
        exact .ok (hleaf style _ hstyle) c

/-! ### Choices -/

theorem readOffset_readable (ctx : Context) (c : Cursor) :
    Yields (fun x => (x == 0) = true → x = 0) (readOffset ctx c) := by
  unfold readOffset
  simp only
  split
  · exact .fail _ _
  · rename_i hne
    split
    · rename_i x hx
      refine .ok (fun hzero => Floats.eq_zero_of_unsigned ?_ hzero) _
      refine Decimal.unsigned_read? (by simpa using hne) ?_ hx
      exact fun d hd => List.mem_takeWhile_imp hd
    · exact .fail _ _

theorem readBody_readable (ctx : Context) {body : Option (Reader (List Node))}
    (h : ∀ read ∈ body, ∀ c, Yields AllReadable (read c)) (start : Cursor) (key : String)
    (c : Cursor) : Yields AllReadable (readBody ctx body start key c) := by
  unfold readBody
  simp only
  split
  · split
    · exact .fail _ _
    · exact .fail _ _
  · split
    · exact .fail _ _
    · rename_i read
      refine .bind (h read rfl _) fun nodes stop hnodes => ?_
      simp only
      split
      · exact .fail _ _
      · split
        · exact .ok hnodes _
        · exact .error _

theorem readCase_readable (ctx : Context) (plural : Bool) {body : Option (Reader (List Node))}
    (h : ∀ read ∈ body, ∀ c, Yields AllReadable (read c)) (start : Cursor)
    (earlier : List (Branch Node)) (c : Cursor) :
    Yields (fun b => AllReadable b.body) (readCase ctx plural body start earlier c) := by
  unfold readCase
  refine .bind (P := fun _ => True) (fun _ _ _ => trivial) fun key afterKey _ => ?_
  simp only
  split
  · exact .fail _ _
  · refine .bind (readBody_readable ctx h start key afterKey) fun nodes stop hnodes => ?_
    refine .ok ?_ _
    exact hnodes

/-- The offset that was read last, and the elements in the cases. -/
structure Cases.Readable (done : Cases) : Prop where
  offset : (done.offset == 0) = true → done.offset = 0
  cases : ∀ b ∈ done.cases, AllReadable b.body

theorem readCases_readable (ctx : Context) (plural : Bool) {body : Option (Reader (List Node))}
    (h : ∀ read ∈ body, ∀ c, Yields AllReadable (read c)) (start : Cursor) (fuel : Nat)
    (done : Cases) (hdone : done.Readable) (c : Cursor) :
    Yields Cases.Readable (readCases ctx plural body start fuel done c) := by
  induction fuel generalizing done c with
  | zero => exact .fail _ _
  | succ fuel ih =>
    unfold readCases
    simp only
    generalize c.skipBlank = c
    split
    · exact .fail _ _
    · split
      · split
        · exact .fail _ _
        · exact .ok hdone _
      · split
        · refine .bind (readOffset_readable ctx _) fun x c hx => ?_
          exact ih { done with offset := x } ⟨hx, hdone.cases⟩ c
        · refine .bind (readCase_readable ctx plural h start done.cases _) fun b c hb => ?_
          refine ih { done with cases := done.cases ++ [b] } ⟨hdone.offset, ?_⟩ c
          exact List.forall_mem_append.mpr ⟨hdone.cases, List.forall_mem_singleton.mpr hb⟩

theorem readChoice_readable (ctx : Context) {inner : Inner} (h : inner.Sound)
    (inPlural plural : Bool) (start c : Cursor) :
    Yields Cases.Readable (readChoice ctx inner inPlural plural start c) := by
  unfold readChoice
  simp only
  split
  · exact .fail _ _
  · split
    · exact .fail _ _
    · refine readCases_readable ctx plural ?_ start _ ⟨[], 0⟩ ⟨fun _ => rfl, ?_⟩ _
      · intro read hread
        obtain ⟨body, hbody, rfl⟩ := Option.map_eq_some_iff.mp hread
        exact h.caseBody body hbody _
      · exact fun b hb => absurd hb List.not_mem_nil

/-! ### Elements -/

theorem readTyped_readable (ctx : Context) {inner : Inner} (h : inner.Sound) (inPlural : Bool)
    (start : Cursor) (name : String) (nameSpan : Span) (type : String) (typeSpan : Span)
    (c : Cursor) :
    Yields (·.All Node.Readable)
      (readTyped ctx inner inPlural start name nameSpan type typeSpan c) := by
  unfold readTyped
  split
  · exact readFormat_readable ctx start .number name nameSpan c
  · exact readFormat_readable ctx start .date name nameSpan c
  · exact readFormat_readable ctx start .time name nameSpan c
  · exact .bind (readChoice_readable ctx h inPlural false start c) fun cs c hcs =>
      .ok (.select trivial hcs.cases) c
  · exact .bind (readChoice_readable ctx h inPlural true start c) fun cs c hcs =>
      .ok (.plural hcs.offset hcs.cases) c
  · exact .bind (readChoice_readable ctx h inPlural true start c) fun cs c hcs =>
      .ok (.plural hcs.offset hcs.cases) c
  · exact .fail _ _

theorem readNamed_readable (ctx : Context) {inner : Inner} (h : inner.Sound) (inPlural : Bool)
    (start : Cursor) (name : String) (nameSpan : Span) (c : Cursor) :
    Yields (·.All Node.Readable) (readNamed ctx inner inPlural start name nameSpan c) := by
  unfold readNamed
  simp only
  split
  · exact .fail _ _
  · split
    · refine .ok (Node.All.leaf ?_ ?_) _
      · trivial
      · intro m hm
        cases hm
        rfl
    · split
      · exact .fail _ _
      · split
        · split
          · exact .fail _ _
          · exact .fail _ _
        · exact readTyped_readable ctx h inPlural start name nameSpan _ _ _

theorem readArgument_readable (ctx : Context) {inner : Inner} (h : inner.Sound) (inPlural : Bool)
    (start inside : Cursor) :
    Yields (·.All Node.Readable) (readArgument ctx inner inPlural start inside) := by
  unfold readArgument
  simp only
  split
  · exact .fail _ _
  · split
    · exact .fail _ _
    · split
      · exact .fail _ _
      · split
        · exact .fail _ _
        · exact readNamed_readable ctx h inPlural start _ _ _

theorem readElement_readable (ctx : Context) {inner : Inner} (h : inner.Sound) (inPlural : Bool)
    (c : Cursor) : Yields (·.All Node.Readable) (readElement ctx inner inPlural c) := by
  have hliteral : Yields (·.All Node.Readable) (readLiteral ctx inPlural c) := by
    unfold readLiteral
    refine .ok (Node.All.leaf ?_ ?_) _
    · trivial
    · intro m hm
      cases hm
      rfl
  unfold readElement
  split
  · exact readArgument_readable ctx h inPlural c _
  · split
    · exact readTag_readable ctx h inPlural c _
    · exact hliteral
  · split
    · refine .ok (Node.All.leaf ?_ ?_) _
      · trivial
      · intro m hm
        cases hm
        rfl
    · exact hliteral
  · exact hliteral

/-- The readers for smaller budgets are those of the bodies. -/
theorem readNodes_readable (ctx : Context) (budget : Nat) (inPlural : Bool) (c : Cursor) :
    Yields AllReadable (readNodes ctx budget inPlural c) := by
  induction budget using Nat.strong_induction_on generalizing inPlural c with
  | _ budget ih =>
    match budget, ih with
    | 0, _ =>
      have h : Inner.Sound ⟨none, none⟩ := ⟨nofun, nofun⟩
      exact readSiblings_readable (readElement_readable ctx h inPlural) _ c
    | 1, ih =>
      have h : Inner.Sound ⟨some (readNodes ctx 0), none⟩ := by
        refine ⟨?_, nofun⟩
        rintro body ⟨⟩
        exact ih 0 (by omega)
      exact readSiblings_readable (readElement_readable ctx h inPlural) _ c
    | budget + 2, ih =>
      have h : Inner.Sound ⟨some (readNodes ctx (budget + 1)), some (readNodes ctx budget)⟩ := by
        constructor
        · rintro body ⟨⟩
          exact ih (budget + 1) (by omega)
        · rintro body ⟨⟩
          exact ih budget (by omega)
      exact readSiblings_readable (readElement_readable ctx h inPlural) _ c

/-- Whatever text is read, all elements are readable. -/
theorem parse_readable {file : UInt32} {limit : Nat} {content : Bytes} {ns : List Node}
    (h : parse file limit content = .ok ns) : AllReadable ns := by
  unfold parse at h
  split at h
  · exact nomatch h
  · split at h
    · rename_i cs _
      unfold parseChars at h
      simp only at h
      cases hread : readNodes ⟨file, limit⟩ limit false ⟨0, cs⟩ with
      | error f =>
        rw [hread] at h
        exact nomatch h
      | ok r =>
        obtain ⟨nodes, c⟩ := r
        rw [hread] at h
        simp only [bind, Except.bind] at h
        split at h
        · obtain rfl := Except.ok.inj h
          exact readNodes_readable ⟨file, limit⟩ limit false ⟨0, cs⟩ nodes c hread
        · exact nomatch h
    · exact nomatch h

end Message

end Phrasebook
