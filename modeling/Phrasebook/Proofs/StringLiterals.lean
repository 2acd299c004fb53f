import Phrasebook.Proofs.Lexemes

/-!
String literals mean their texts. Literals are read here with all the escapes that scripts know, also
those that are never written, and stand for what scripts compute with: a list of code units. What is
written for a text is one literal, and the units of no other text are its value.
-/
namespace Phrasebook.Script

open Decimal Program

/-! ### Code units -/

/-- The code units of a code point: one, or the two halves of a surrogate pair. -/
def codeUnits (n : ℕ) : List ℕ :=
  if n < 0x10000 then [n]
  else [0xD800 + (n - 0x10000) / 0x400, 0xDC00 + (n - 0x10000) % 0x400]

/-- The code units of a text. -/
def unitsOf (cs : List Char) : List ℕ :=
  cs.flatMap fun c => codeUnits c.toNat

/-- No character is a surrogate, so its code units end where they say so. -/
theorem codeUnits_append_inj {c d : Char} {r l : List ℕ}
    (h : codeUnits c.toNat ++ r = codeUnits d.toNat ++ l) : c = d ∧ r = l := by
  have hc : c.toNat < 0xD800 ∨ 0xDFFF < c.toNat ∧ c.toNat < 0x110000 := c.valid
  have hd : d.toNat < 0xD800 ∨ 0xDFFF < d.toNat ∧ d.toNat < 0x110000 := d.valid
  rw [codeUnits, codeUnits] at h
  suffices hsame : c.toNat = d.toNat ∧ r = l from ⟨Char.toNat_inj.mp hsame.1, hsame.2⟩
  split at h
  · split at h
    · exact ⟨(List.cons.inj h).1, (List.cons.inj h).2⟩
    · -- the second text would start with half of a pair
      have hhead : c.toNat = 0xD800 + (d.toNat - 0x10000) / 0x400 := (List.cons.inj h).1
      omega
  · split at h
    · have hhead : 0xD800 + (c.toNat - 0x10000) / 0x400 = d.toNat := (List.cons.inj h).1
      omega
    · obtain ⟨hhigh, htail⟩ := List.cons.inj h
      obtain ⟨hlow, hrest⟩ := List.cons.inj htail
      exact ⟨by omega, hrest⟩

/-- A text is told by its code units. -/
theorem unitsOf_injective {cs ds : List Char} (h : unitsOf cs = unitsOf ds) : cs = ds := by
  have hne (c : Char) (r : List Char) : unitsOf (c :: r) ≠ [] := by
    rw [unitsOf, List.flatMap_cons, codeUnits]
    split <;> exact List.cons_ne_nil _ _
  -- The first character can be told from the units, then the rest.
  induction cs generalizing ds with
  | nil =>
    cases ds with
    | nil => rfl
    | cons d ds => exact absurd h.symm (hne d ds)
  | cons c cs ih =>
    cases ds with
    | nil => exact absurd h (hne c cs)
    | cons d ds =>
      obtain ⟨rfl, hrest⟩ := codeUnits_append_inj h
      rw [ih hrest]

/-! ### Reading literals -/

/-- The characters that end a line of a script. -/
def endsLine (c : Char) : Bool :=
  c == '\n' || c == '\r' || c == '\u2028' || c == '\u2029'

/-- A code point in hexadecimal digits. -/
def codePoint? (ds rest : List Char) : Option (List ℕ × List Char) :=
  let n := natOfDigits 16 hexValue ds
  if ds.all isHexDigit && decide (n ≤ 0x10FFFF) then some (codeUnits n, rest) else none

/-- Reads what stands behind a backslash: the code units it stands for, and what is left. A line end
stands for nothing. Digits are no escapes, but for a zero without another digit behind it. -/
def readEscape : List Char → Option (List ℕ × List Char)
  | 'x' :: a :: b :: r => codePoint? [a, b] r
  | 'u' :: '\x7b' :: r =>
    match r.takeWhile isHexDigit, r.dropWhile isHexDigit with
    | d :: ds, '\x7d' :: rest => codePoint? (d :: ds) rest
    | _, _ => none
  | 'u' :: a :: b :: c :: d :: r => codePoint? [a, b, c, d] r
  | '0' :: r => if r.head?.any Char.isDigit then none else some ([0], r)
  | '\r' :: '\n' :: r => some ([], r)
  | c :: r => if endsLine c then some ([], r) else (escaped? c).map fun e => (codeUnits e.toNat, r)
  | [] => none

/-- A text goes on with the end of a string literal, its closing quote included: the code units which
that stands for, and what is left behind it. -/
inductive LiteralEnd : List Char → List ℕ → List Char → Prop where
  | close {rest : List Char} : LiteralEnd ('"' :: rest) [] rest
  | plain {c : Char} {r rest : List Char} {us : List ℕ} : c ≠ '"' → c ≠ '\\' → c ≠ '\n' →
      c ≠ '\r' → LiteralEnd r us rest → LiteralEnd (c :: r) (codeUnits c.toNat ++ us) rest
  | escape {r r' rest : List Char} {us us' : List ℕ} : readEscape r = some (us, r') →
      LiteralEnd r' us' rest → LiteralEnd ('\\' :: r) (us ++ us') rest

/-- A text starts with a string literal that stands for code units. -/
def ReadsLiteral (cs : List Char) (us : List ℕ) (rest : List Char) : Prop :=
  ∃ r, cs = '"' :: r ∧ LiteralEnd r us rest

/-- A literal has one end and one value. -/
theorem LiteralEnd.eq {cs rest rest' : List Char} {us us' : List ℕ} (h : LiteralEnd cs us rest)
    (h' : LiteralEnd cs us' rest') : us = us' ∧ rest = rest' := by
  induction h generalizing us' with
  | close =>
    cases h' with
    | close => exact ⟨rfl, rfl⟩
    | plain hquote => exact absurd rfl hquote
  | plain hquote hslash _ _ _ ih =>
    cases h' with
    | close => exact absurd rfl hquote
    | plain _ _ _ _ h' =>
      obtain ⟨rfl, rfl⟩ := ih h'
      exact ⟨rfl, rfl⟩
    | escape => exact absurd rfl hslash
  | escape hread _ ih =>
    cases h' with
    | plain _ hslash => exact absurd rfl hslash
    | escape hread' h' =>
      obtain ⟨rfl, rfl⟩ := Prod.mk.inj (Option.some.inj (hread.symm.trans hread'))
      obtain ⟨rfl, rfl⟩ := ih h'
      exact ⟨rfl, rfl⟩

/-- An escape of one letter. -/
theorem readEscape_of_escaped {e c : Char} (h : escaped? e = some c) (r : List Char) :
    readEscape (e :: r) = some (codeUnits c.toNat, r) := by
  -- codes, digits and line ends are not among these letters
  have hne {d : Char} (hd : escaped? d = none) : e ≠ d := by
    rintro rfl
    exact nomatch h.symm.trans hd
  have hline : endsLine e = false := by
    simp only [endsLine, Bool.or_eq_false_iff, beq_eq_false_iff_ne]
    exact ⟨⟨⟨hne rfl, hne rfl⟩, hne rfl⟩, hne rfl⟩
  rw [readEscape.eq_def]
  split
  · rename_i heq
    exact absurd (List.cons.inj heq).1 (hne rfl)
  · rename_i heq
    exact absurd (List.cons.inj heq).1 (hne rfl)
  · rename_i heq
    exact absurd (List.cons.inj heq).1 (hne rfl)
  · rename_i heq
    exact absurd (List.cons.inj heq).1 (hne rfl)
  · rename_i heq
    exact absurd (List.cons.inj heq).1 (hne rfl)
  · rename_i heq
    obtain ⟨rfl, rfl⟩ := List.cons.inj heq
    rw [hline, if_neg Bool.false_ne_true, h]
    rfl
  · rename_i heq
    exact nomatch heq

/-- An escape by a code of four digits. -/
theorem readEscape_of_coded {w x y z c : Char} (h : coded? [w, x, y, z] = some c) (r : List Char) :
    readEscape ('u' :: w :: x :: y :: z :: r) = some (codeUnits c.toNat, r) := by
  rw [coded?] at h
  split at h
  · rename_i hdigits
    obtain ⟨hhex, hvalid⟩ := Bool.and_eq_true_iff.mp hdigits
    have hchar : Nat.isValidChar (natOfDigits 16 hexValue [w, x, y, z]) := of_decide_eq_true hvalid
    have hbrace : w ≠ '\x7b' := by
      rintro rfl
      exact absurd (List.all_eq_true.mp hhex _ List.mem_cons_self) (by decide)
    have hvalue : natOfDigits 16 hexValue [w, x, y, z] = c.toNat := by
      rw [← Option.some.inj h, Char.toNat_ofNat, if_pos hchar]
    have hcode : codePoint? [w, x, y, z] r = some (codeUnits c.toNat, r) := by
      have hscalar : c.toNat < 0xD800 ∨ 0xDFFF < c.toNat ∧ c.toNat < 0x110000 := c.valid
      have hle : c.toNat ≤ 0x10FFFF := by omega
      rw [codePoint?, hvalue, hhex, decide_eq_true hle]
      rfl
    rw [readEscape]
    · exact hcode
    · exact hbrace
  · cases h

/-- What the reader of texts accepts is a literal with the value it tells. -/
theorem literalEnd_of_readText {cs t rest : List Char} (h : readText cs = some (t, rest)) :
    LiteralEnd cs (unitsOf t) rest := by
  have hcons (c : Char) (t : List Char) : unitsOf (c :: t) = codeUnits c.toNat ++ unitsOf t := rfl
  -- The cases are the branches of the reader: the end, two kinds of escapes, a plain character.
  fun_induction readText cs generalizing t with
  | case1 => exact nomatch h
  | case2 r =>
    obtain ⟨rfl, rfl⟩ := Prod.mk.inj (Option.some.inj h)
    exact .close
  | case3 w x y z r ih =>
    obtain ⟨c, hcode, h⟩ := Option.bind_eq_some_iff.mp h
    obtain ⟨⟨t', rest'⟩, hread, h⟩ := Option.map_eq_some_iff.mp h
    obtain ⟨rfl, rfl⟩ := Prod.mk.inj h
    rw [hcons]
    exact .escape (readEscape_of_coded hcode r) (ih hread)
  | case4 e r _ ih =>
    obtain ⟨c, hescape, h⟩ := Option.bind_eq_some_iff.mp h
    obtain ⟨⟨t', rest'⟩, hread, h⟩ := Option.map_eq_some_iff.mp h
    obtain ⟨rfl, rfl⟩ := Prod.mk.inj h
    rw [hcons]
    exact .escape (readEscape_of_escaped hescape r) (ih hread)
  | case5 => exact nomatch h
  | case6 c r hquote _ _ hplain ih =>
    obtain ⟨⟨t', rest'⟩, hread, h⟩ := Option.map_eq_some_iff.mp h
    obtain ⟨rfl, rfl⟩ := Prod.mk.inj h
    simp only [Bool.or_eq_true, decide_eq_true_eq, not_or] at hplain
    obtain ⟨⟨hslash, hfeed⟩, hreturn⟩ := hplain
    rw [hcons]
    exact .plain hquote hslash hfeed hreturn (ih hread)

/-! ### Written literals -/

/-- Every backslash has a character behind it, and no quote stands without a backslash. -/
def isEnclosed : List Char → Bool
  | [] => true
  | ['\\'] => false
  | '\\' :: _ :: r => isEnclosed r
  | c :: r => c != '"' && isEnclosed r

theorem isEnclosed_cons {c : Char} (hquote : c ≠ '"') (hslash : c ≠ '\\') (r : List Char) :
    isEnclosed (c :: r) = isEnclosed r := by
  rw [isEnclosed.eq_def]
  split
  · rename_i heq
    exact nomatch heq
  · rename_i heq
    exact absurd (List.cons.inj heq).1 hslash
  · rename_i heq
    exact absurd (List.cons.inj heq).1 hslash
  · rename_i heq
    obtain ⟨rfl, rfl⟩ := List.cons.inj heq
    rw [bne_iff_ne.mpr hquote, Bool.true_and]

theorem isEnclosed_hexDigits (width n : ℕ) (r : List Char) :
    isEnclosed (Text.hexDigits width n ++ r) = isEnclosed r := by
  have hdigits : ∀ ds : List Char, (∀ d ∈ ds, isHexDigit d = true) →
      isEnclosed (ds ++ r) = isEnclosed r := by
    intro ds
    induction ds with
    | nil => exact fun _ => rfl
    | cons d ds ih =>
      intro hall
      have hd := hall d List.mem_cons_self
      have hquote : d ≠ '"' := by
        rintro rfl
        exact nomatch hd
      have hslash : d ≠ '\\' := by
        rintro rfl
        exact nomatch hd
      rw [List.cons_append, isEnclosed_cons hquote hslash]
      exact ih fun x hx => hall x (List.mem_cons_of_mem d hx)
  exact hdigits _ isHexDigit_of_mem_hexDigits

theorem isEnclosed_literalChar (c : Char) (r : List Char) :
    isEnclosed (literalChar c ++ r) = isEnclosed r := by
  fun_cases literalChar c
  case case9 hcoded _ _ _ _ _ _ _ _ =>
    rw [if_pos hcoded]
    exact isEnclosed_hexDigits 4 c.toNat r
  case case10 hcoded hquote hslash _ _ _ _ _ _ =>
    rw [if_neg hcoded]
    exact isEnclosed_cons hquote hslash r
  all_goals rfl

/-- A written character shows neither a line end nor a control character. -/
theorem literalChar_shown (c : Char) :
    ∀ d ∈ literalChar c, endsLine d = false ∧ 0x20 ≤ d.toNat := by
  have hhex {d : Char} (hd : isHexDigit d = true) : endsLine d = false ∧ 0x20 ≤ d.toNat := by
    have hlow : ∀ n < 0x20, isHexDigit (Char.ofNat n) = false := by decide
    constructor
    · rw [← Bool.not_eq_true, endsLine]
      intro hline
      simp only [Bool.or_eq_true, beq_iff_eq] at hline
      rcases hline with ((rfl | rfl) | rfl) | rfl <;> exact nomatch hd
    · by_contra hcontrol
      have hnone := hlow d.toNat (not_le.mp hcontrol)
      rw [Char.ofNat_toNat, hd] at hnone
      exact nomatch hnone
  -- Only the coded characters and those written as they are need an argument.
  fun_cases literalChar c
  case case9 hcoded _ _ _ _ _ _ _ _ =>
    rw [if_pos hcoded]
    intro d hd
    rcases List.mem_cons.mp hd with rfl | hd
    · decide
    · rcases List.mem_cons.mp hd with rfl | hd
      · decide
      · exact hhex (isHexDigit_of_mem_hexDigits d hd)
  case case10 hcoded _ _ hfeed hreturn _ _ _ _ =>
    rw [if_neg hcoded]
    intro d hd
    obtain rfl := List.mem_singleton.mp hd
    simp only [Bool.or_eq_true, decide_eq_true_eq, not_or, not_lt] at hcoded
    obtain ⟨⟨⟨hline, hparagraph⟩, hcontrol⟩, -⟩ := hcoded
    refine ⟨?_, hcontrol⟩
    simp only [endsLine, Bool.or_eq_false_iff, beq_eq_false_iff_ne]
    exact ⟨⟨⟨hfeed, hreturn⟩, hline⟩, hparagraph⟩
  all_goals simp [endsLine]

/-- A string literal is one literal, and its value is the text that it was written for. -/
theorem stringLiteral_readBack (s : String) :
    (∃ body, (stringLiteral s).toList = '"' :: (body ++ ['"']) ∧ isEnclosed body = true ∧
      ∀ c ∈ body, endsLine c = false ∧ 0x20 ≤ c.toNat) ∧
    (∀ us rest left, ReadsLiteral ((stringLiteral s).toList ++ rest) us left ↔
      us = unitsOf s.toList ∧ left = rest) ∧
    ∀ t : String, unitsOf t.toList = unitsOf s.toList → t = s := by
  refine ⟨⟨s.toList.flatMap literalChar, ?_, ?_, ?_⟩, ?_, ?_⟩
  · rw [stringLiteral, String.toList_ofList]
    rfl
  · -- each character in turn leaves the rest enclosed
    induction s.toList with
    | nil => rfl
    | cons c cs ih => rw [List.flatMap_cons, isEnclosed_literalChar, ih]
  · intro d hd
    obtain ⟨c, -, hc⟩ := List.mem_flatMap.mp hd
    exact literalChar_shown c d hc
  · intro us rest left
    obtain ⟨l, hopen, hread⟩ := readText_stringLiteral s rest
    have hend := literalEnd_of_readText hread
    constructor
    · rintro ⟨r, heq, h⟩
      obtain rfl := (List.cons.inj (hopen.symm.trans heq)).2
      exact h.eq hend
    · rintro ⟨rfl, rfl⟩
      exact ⟨l, hopen, hend⟩
  · intro t h
    exact String.toList_inj.mp (unitsOf_injective h)

end Phrasebook.Script
