import Phrasebook.Program.Quote
import Phrasebook.Proofs.Canonical
import Phrasebook.Proofs.Identifiers

/-!
The literals of scripts. String literals and numerals are read the way scripts read them: a string
literal that was written stands for its text, and the numeral of a number that is finite and not
negative stands for that number and for no other.
-/
namespace Phrasebook.Script

open Decimal Program

/-! ### String literals -/

/-- What a character behind a backslash stands for. A letter without a meaning of its own stands for
itself; codes, digits and line ends are not among these escapes. -/
def escaped? (c : Char) : Option Char :=
  match c with
  | 'n' => some '\n'
  | 'r' => some '\r'
  | 't' => some '\t'
  | 'b' => some '\x08'
  | 'f' => some '\x0c'
  | 'v' => some '\x0b'
  | _ =>
    if c.isDigit || ['x', 'u', '\n', '\r', '\u2028', '\u2029'].contains c then none else some c

/-- The character of a hexadecimal code. Halves of surrogate pairs are none. -/
def coded? (cs : List Char) : Option Char :=
  let n := natOfDigits 16 hexValue cs
  if cs.all isHexDigit && decide n.isValidChar then some (Char.ofNat n) else none

/-- Puts a character in front of what was read. -/
def consChar (c : Char) (read : List Char × List Char) : List Char × List Char :=
  (c :: read.1, read.2)

/-- Reads a string literal behind its opening quote: the text it stands for, and what is left behind
its closing quote. -/
def readText : List Char → Option (List Char × List Char)
  | [] => none
  | '"' :: r => some ([], r)
  | '\\' :: 'u' :: w :: x :: y :: z :: r =>
    (coded? [w, x, y, z]).bind fun c => (readText r).map (consChar c)
  | '\\' :: e :: r => (escaped? e).bind fun c => (readText r).map (consChar c)
  | c :: r => if c = '\\' || c = '\n' || c = '\r' then none else (readText r).map (consChar c)

theorem readText_escaped {e c : Char} (h : escaped? e = some c) (r : List Char) :
    readText ('\\' :: e :: r) = (readText r).map (consChar c) := by
  have hcode : e ≠ 'u' := by
    rintro rfl
    exact nomatch h
  rw [readText.eq_def]
  split
  · rename_i heq
    cases heq
  · rename_i heq
    cases heq
  · rename_i heq
    exact absurd (List.cons.inj (List.cons.inj heq).2).1 hcode
  · rename_i heq
    obtain ⟨-, heq⟩ := List.cons.inj heq
    obtain ⟨rfl, rfl⟩ := List.cons.inj heq
    rw [h, Option.bind_some]
  · rename_i hnot heq
    obtain ⟨rfl, rfl⟩ := List.cons.inj heq
    exact absurd rfl (hnot e r rfl)

theorem readText_plain {c : Char} (hquote : c ≠ '"') (hslash : c ≠ '\\') (hfeed : c ≠ '\n')
    (hreturn : c ≠ '\r') (r : List Char) :
    readText (c :: r) = (readText r).map (consChar c) := by
  rw [readText.eq_def]
  split
  · rename_i heq
    cases heq
  · rename_i heq
    exact absurd (List.cons.inj heq).1 hquote
  · rename_i heq
    exact absurd (List.cons.inj heq).1 hslash
  · rename_i heq
    exact absurd (List.cons.inj heq).1 hslash
  · rename_i heq
    obtain ⟨rfl, rfl⟩ := List.cons.inj heq
    rw [if_neg (by simp [hslash, hfeed, hreturn])]

theorem isHexDigit_of_mem_hexDigits {width n : Nat} :
    ∀ c ∈ Text.hexDigits width n, isHexDigit c = true := by
  have hdigit : ∀ d < 16, isHexDigit (Nat.digitChar d) = true := by decide
  induction width generalizing n with
  | zero => exact fun c hc => nomatch hc
  | succ width ih =>
    intro c hc
    rcases List.mem_append.mp hc with hc | hc
    · exact ih c hc
    · rw [List.mem_singleton.mp hc]
      exact hdigit _ (Nat.mod_lt _ (by decide))

theorem readText_code {c : Char} (h : c.toNat < 16 ^ 4) (r : List Char) :
    readText ('\\' :: 'u' :: (Text.hexDigits 4 c.toNat ++ r)) = (readText r).map (consChar c) := by
  have hvalue := Text.natOfDigits_hexDigits 4 c.toNat
  rw [Nat.mod_eq_of_lt h] at hvalue
  have hcode : coded? (Text.hexDigits 4 c.toNat) = some c := by
    have hall : (Text.hexDigits 4 c.toNat).all isHexDigit = true :=
      List.all_eq_true.mpr isHexDigit_of_mem_hexDigits
    have hvalid : c.toNat.isValidChar := c.valid
    rw [coded?, hvalue, hall, Bool.true_and, if_pos (decide_eq_true hvalid), Char.ofNat_toNat]
  -- there are four digits
  obtain ⟨w, x, y, z, hfour⟩ := List.length_eq_four.mp (Text.length_hexDigits 4 c.toNat)
  rw [hfour] at hcode ⊢
  change readText ('\\' :: 'u' :: w :: x :: y :: z :: r) = _
  rw [readText, hcode, Option.bind_some]

/-- A written character is read back. -/
theorem readText_literalChar (c : Char) (r : List Char) :
    readText (literalChar c ++ r) = (readText r).map (consChar c) := by
  fun_cases literalChar c
  case case9 hcoded _ _ _ _ _ _ _ _ =>
    rw [if_pos hcoded]
    have hsmall : c.toNat < 16 ^ 4 := by
      simp only [Bool.or_eq_true, decide_eq_true_eq] at hcoded
      rcases hcoded with ((rfl | rfl) | hlow) | hdelete
      · decide
      · decide
      · omega
      · omega
    exact readText_code hsmall r
  case case10 hcoded hquote hslash hfeed hreturn _ _ _ _ =>
    rw [if_neg hcoded]
    exact readText_plain hquote hslash hfeed hreturn r
  all_goals exact readText_escaped (by decide) r

theorem readText_flatMap (cs r : List Char) :
    readText (cs.flatMap literalChar ++ '"' :: r) = some (cs, r) := by
  induction cs with
  | nil => rw [List.flatMap_nil, List.nil_append, readText]
  | cons c cs ih =>
    rw [List.flatMap_cons, List.append_assoc, readText_literalChar, ih]
    rfl

/-- A string literal stands for the text it was written for. -/
theorem readText_stringLiteral (s : String) (r : List Char) :
    ∃ l, (stringLiteral s).toList ++ r = '"' :: l ∧ readText l = some (s.toList, r) := by
  refine ⟨s.toList.flatMap literalChar ++ '"' :: r, ?_, readText_flatMap _ _⟩
  rw [stringLiteral, String.toList_ofList]
  simp

/-! ### Numerals -/

/-- Splits off a point and the digits behind it. -/
def fraction : List Char → List Char × List Char
  | '.' :: r => ('.' :: r.takeWhile Char.isDigit, r.dropWhile Char.isDigit)
  | r => ([], r)

def exponentSign : List Char → List Char × List Char
  | '-' :: r => (['-'], r)
  | '+' :: r => (['+'], r)
  | r => ([], r)

/-- Splits off an exponent. Its mark asks for digits. -/
def exponent? : List Char → Option (List Char × List Char)
  | 'e' :: r =>
    let (sign, r) := exponentSign r
    if r.takeWhile Char.isDigit = [] then none
    else some ('e' :: sign ++ r.takeWhile Char.isDigit, r.dropWhile Char.isDigit)
  | r => some ([], r)

/-- Whether a numeral may end in front of a text: neither a digit nor a name follows it. -/
def endsNumeral : List Char → Bool
  | [] => true
  | c :: _ => !c.isDigit && !startsName c

/-- Reads the decimal numeral that a text starts with. No other digit follows a zero in front. -/
def readNumeral (cs : List Char) : Option (List Char × List Char) :=
  let whole := cs.takeWhile Char.isDigit
  let (frac, r) := fraction (cs.dropWhile Char.isDigit)
  (exponent? r).bind fun (exponent, r) =>
    if whole = [] || (whole.head? = some '0' && whole.length != 1) || !endsNumeral r then none
    else some (whole ++ frac ++ exponent, r)

/-- The finite number, not negative, that is nearest to what a numeral stands for. -/
structure Denotes (cs : List Char) (x : Float) : Prop where
  finite : IsFinite x
  unsigned : isNegative x = false
  nearest : (Magnitude.ofFloat x).Nearest (textValue cs)

section Denoting

variable {x y : Float}

/-- What rounds to zero rounds to no other magnitude: the smallest one is odd, so that the middle
between them counts for zero. -/
theorem not_nearest_zero {m : Magnitude} {q : ℚ} (hm : m.Proper) (hq : m.Nearest q) :
    ¬Magnitude.Nearest ⟨0, -1074, false⟩ q := by
  intro hzero
  have hhigh : q ≤ 2 * (2 : ℚ) ^ (-1076 : ℤ) := by
    have hle := hzero.le_high
    norm_num [Magnitude.high, Magnitude.quarter] at hle ⊢
    exact hle
  have hquarter : (2 : ℚ) ^ (-1076 : ℤ) ≤ m.quarter := by
    have hleast := hm.canonical.least
    exact zpow_le_zpow_right₀ (by norm_num) (by omega)
  have hpositive : (0 : ℚ) < 2 ^ (-1076 : ℤ) := by positivity
  have hlow := hq.low_le
  rw [Magnitude.low] at hlow
  by_cases hone : m.significand = 1
  · have hexponent : m.exponent = -1074 := hm.canonical.full.resolve_right (by omega)
    have hboundary : m.atBoundary ≠ true := fun h => by
      have hpower := (hm.boundary.mp h).1
      omega
    have hreach : m.reach = 2 := if_neg hboundary
    have hlast : m.low = 2 * (2 : ℚ) ^ (-1076 : ℤ) := by
      rw [Magnitude.low, hone, hreach, Magnitude.quarter, hexponent]
      norm_num
    exact (hq.inside (by omega)).1 (le_antisymm hq.low_le (hlast ▸ hhigh))
  · have hpos := hm.canonical.pos
    have htwo : (2 : ℚ) ≤ m.significand := by exact_mod_cast (by omega : 2 ≤ m.significand)
    have hreach : (m.reach : ℚ) ≤ 2 := by exact_mod_cast m.reach_le
    nlinarith [m.quarter_pos]

/-- A numeral denotes one number. -/
theorem Denotes.eq {cs : List Char} (hx : Denotes cs x) (hy : Denotes cs y) : x = y := by
  obtain ⟨s, hzero | ⟨m, e, hm, hpart⟩⟩ := hx.finite.exists_unpack
  all_goals obtain ⟨t, hzero' | ⟨m', e', hm', hpart'⟩⟩ := hy.finite.exists_unpack
  · refine hx.finite.eq hy.finite (hx.unsigned.trans hy.unsigned.symm) ?_
    rw [value_shortest_of_zero hzero, value_shortest_of_zero hzero']
  · have hnear := hx.nearest
    rw [ofFloat_of_zero hzero] at hnear
    exact absurd hnear (not_nearest_zero (ofFloat_of_finite hpart').2.2 hy.nearest)
  · have hnear := hy.nearest
    rw [ofFloat_of_zero hzero'] at hnear
    exact absurd hnear (not_nearest_zero (ofFloat_of_finite hpart).2.2 hx.nearest)
  · refine hx.finite.eq hy.finite (hx.unsigned.trans hy.unsigned.symm) ?_
    have hsame := hx.nearest.eq hy.nearest (ofFloat_of_finite hpart).2.2 (ofFloat_of_finite hpart').2.2
    rw [hsame]

/-- The decimal of a number rounds to it. -/
theorem nearest_shortest (h : IsFinite x) :
    (Magnitude.ofFloat x).Nearest (shortest (Magnitude.ofFloat x)).value := by
  obtain ⟨s, hzero | ⟨m, e, hm, hpart⟩⟩ := h.exists_unpack
  · rw [value_shortest_of_zero hzero, ofFloat_of_zero hzero]
    refine ⟨?_, ?_, fun hodd => absurd hodd (by decide)⟩
    · norm_num [Magnitude.low, Magnitude.quarter, Magnitude.reach]
    · norm_num [Magnitude.high, Magnitude.quarter]
  · exact shortest_nearest (ofFloat_of_finite hpart).2.2

theorem denotes_unsignedText (h : IsFinite x) (hsign : isNegative x = false) :
    Denotes (unsignedText x).toList x := by
  refine ⟨h, hsign, ?_⟩
  rw [(writes_unsignedText h.1 h.2).value]
  exact nearest_shortest h

end Denoting

/-! ### Negative numbers -/

section Negative

open Float.Model UnpackedFloat

variable {x : Float}

/-- Bits with the other sign unpack to the opposite. -/
theorem unpack_flipped (b : BitVec Format.binary64.numBits) :
    UnpackedFloat.unpack Format.binary64 (packComponents Format.binary64
      (-(Sign.ofBitVec (unpackSign b))) (unpackExponent b) (unpackMantissa b)) =
      (UnpackedFloat.unpack Format.binary64 b).neg := by
  have hsign (s : Sign) : Sign.ofBitVec (-s).toBitVec = -s := by cases s <;> rfl
  rw [UnpackedFloat.unpack, UnpackedFloat.unpack]
  simp only [unpackExponent_packComponents, unpackMantissa_packComponents,
    unpackSign_packComponents, hsign]
  split
  · split <;> rfl
  · split
    · split <;> rfl
    · rfl

/-- The bits of infinite and undefined numbers have an exponent of ones. -/
theorem unpackExponent_of_finite (h : IsFinite x) :
    @unpackExponent Format.binary64 x.toModel.toBits.toBitVec ≠ -1#11 := by
  intro hfull
  obtain ⟨s, hx⟩ := h.exists_unpack
  rw [Float.Model.unpack, UnpackedFloat.unpack] at hx
  simp only [hfull, if_true] at hx
  split at hx
  · rcases hx with hx | ⟨_, _, _, hx⟩ <;> cases hx
  · rcases hx with hx | ⟨_, _, _, hx⟩ <;> cases hx

/-- The opposite of a finite number differs from it in the sign alone. -/
theorem neg_parts (h : IsFinite x) :
    (-x).toModel.unpack = x.toModel.unpack.neg ∧ Magnitude.ofFloat (-x) = Magnitude.ofFloat x := by
  have hexponent := unpackExponent_of_finite h
  have hunpack := unpack_flipped x.toModel.toBits.toBitVec
  generalize hbits : packComponents Format.binary64 _ _ _ = bits at hunpack
  have hvalid : Format.binary64.Valid bits := by
    refine ⟨fun hfull => absurd hfull ?_⟩
    rw [← hbits, unpackExponent_packComponents]
    exact hexponent
  -- the opposite is packed from what these bits unpack to
  have hneg : -x = Float.ofModel ⟨UInt64.ofBitVec bits, hvalid⟩ := by
    have hpack := Floats.ofModel_pack_unpack (Float.ofModel ⟨UInt64.ofBitVec bits, hvalid⟩)
    have hflip : (Float.ofModel ⟨UInt64.ofBitVec bits, hvalid⟩).toModel.unpack =
      x.toModel.unpack.neg := hunpack
    rw [hflip] at hpack
    exact hpack
  rw [hneg]
  refine ⟨hunpack, ?_⟩
  rw [ofFloat_eq, ofFloat_eq]
  change ofParts (@unpackExponent Format.binary64 bits).toNat
    (@unpackMantissa Format.binary64 bits).toNat = _
  rw [← hbits, unpackExponent_packComponents, unpackMantissa_packComponents]

theorem isFinite_neg (h : IsFinite x) : IsFinite (-x) := by
  have hunpack := (neg_parts h).1
  obtain ⟨s, hx | ⟨m, e, hm, hx⟩⟩ := h.exists_unpack
  all_goals
    rw [hx] at hunpack
    constructor
    · change (-x).toModel.unpack.isNaN = false
      rw [hunpack]
      rfl
    · change (-x).toModel.unpack.isInf = false
      rw [hunpack]
      rfl

theorem isNegative_neg (h : IsFinite x) (hsign : isNegative x = true) : isNegative (-x) = false := by
  have hunpack := (neg_parts h).1
  have hopposite {s : Sign} (hs : sign? x.toModel.unpack = some s)
      (hneg : sign? x.toModel.unpack.neg = some (-s)) : isNegative (-x) = false := by
    obtain rfl := (isNegative_of_sign? hs).mp hsign
    rw [← hunpack] at hneg
    rw [← Bool.not_eq_true, isNegative_of_sign? hneg]
    exact Sign.noConfusion
  obtain ⟨s, hx | ⟨m, e, hm, hx⟩⟩ := h.exists_unpack
  all_goals exact hopposite (s := s) (by rw [hx]; rfl) (by rw [hx]; rfl)

/-- The literal of a negative number without its sign denotes the opposite number. -/
theorem denotes_neg (h : IsFinite x) (hsign : isNegative x = true) :
    Denotes (unsignedText x).toList (-x) := by
  refine ⟨isFinite_neg h, isNegative_neg h hsign, ?_⟩
  rw [(neg_parts h).2, (writes_unsignedText h.1 h.2).value]
  exact nearest_shortest h

end Negative

/-! ### Written numerals -/

/-- The parts of a numeral as it is written: digits without a zero in front of others, digits behind
a point, and an exponent with its sign. -/
structure Spelled (whole frac exponent : List Char) : Prop where
  nonempty : whole ≠ []
  digits : ∀ c ∈ whole, c.isDigit = true
  lead : whole.head? = some '0' → whole.length = 1
  frac : frac = [] ∨ ∃ ds, frac = '.' :: ds ∧ ∀ c ∈ ds, c.isDigit = true
  exponent : exponent = [] ∨ ∃ sign ds, exponent = 'e' :: sign :: ds ∧ (sign = '-' ∨ sign = '+') ∧
    ds ≠ [] ∧ ∀ c ∈ ds, c.isDigit = true

/-- What a run of characters is cut at. -/
theorem cut_run {p : Char → Bool} {run rest : List Char} (hrun : ∀ c ∈ run, p c = true)
    (hrest : ∀ c ∈ rest.head?, p c = false) :
    (run ++ rest).takeWhile p = run ∧ (run ++ rest).dropWhile p = rest := by
  rw [List.takeWhile_append_of_pos hrun, List.dropWhile_append_of_pos hrun]
  cases rest with
  | nil => exact ⟨List.append_nil run, rfl⟩
  | cons c r =>
    have hc := hrest c rfl
    rw [List.takeWhile_cons_of_neg (by rw [hc]; exact Bool.false_ne_true),
      List.dropWhile_cons_of_neg (by rw [hc]; exact Bool.false_ne_true)]
    exact ⟨List.append_nil run, rfl⟩

/-- A text behind a numeral that is no part of it. -/
structure Apart (rest : List Char) : Prop where
  digit : ∀ c ∈ rest.head?, c.isDigit = false
  name : ∀ c ∈ rest.head?, startsName c = false
  point : rest.head? ≠ some '.'

theorem Apart.endsNumeral {rest : List Char} (h : Apart rest) : endsNumeral rest = true := by
  cases rest with
  | nil => rfl
  | cons c r => rw [Script.endsNumeral, h.digit c rfl, h.name c rfl]; rfl

section Reading

variable {whole frac exponent rest : List Char}

theorem exponent?_append (h : Spelled whole frac exponent) (hrest : Apart rest) :
    exponent? (exponent ++ rest) = some (exponent, rest) := by
  rcases h.exponent with rfl | ⟨sign, ds, rfl, hsign, hne, hds⟩
  · cases rest with
    | nil => rfl
    | cons c r =>
      have hmark : c ≠ 'e' := by
        rintro rfl
        exact absurd (hrest.name 'e' rfl) (by decide)
      rw [List.nil_append, exponent?.eq_def]
      split
      · rename_i heq
        exact absurd (List.cons.inj heq).1 hmark
      · rfl
  · obtain ⟨htake, hdrop⟩ := cut_run hds hrest.digit
    have hsplit : exponentSign (sign :: ds ++ rest) = ([sign], ds ++ rest) := by
      rcases hsign with rfl | rfl <;> rfl
    rw [List.cons_append, exponent?, hsplit]
    simp only [htake, hdrop, if_neg hne]
    rfl

theorem fraction_append (h : Spelled whole frac exponent) (hrest : Apart rest) :
    fraction (frac ++ (exponent ++ rest)) = (frac, exponent ++ rest) := by
  have hhead : ∀ c ∈ (exponent ++ rest).head?, c.isDigit = false ∧ c ≠ '.' := by
    intro c hc
    rcases h.exponent with rfl | ⟨sign, ds, rfl, -⟩
    · refine ⟨hrest.digit c hc, ?_⟩
      rintro rfl
      exact hrest.point hc
    · obtain rfl := Option.some.inj hc
      decide
  rcases h.frac with rfl | ⟨ds, rfl, hds⟩
  · rw [List.nil_append, fraction.eq_def]
    split
    · rename_i heq
      exact absurd rfl (hhead '.' (by rw [heq]; rfl)).2
    · rfl
  · obtain ⟨htake, hdrop⟩ := cut_run hds fun c hc => (hhead c hc).1
    rw [List.cons_append, fraction, htake, hdrop]

/-- A numeral is read up to its end. -/
theorem readNumeral_append (h : Spelled whole frac exponent) (hrest : Apart rest) :
    readNumeral (whole ++ frac ++ exponent ++ rest) = some (whole ++ frac ++ exponent, rest) := by
  have hhead : ∀ c ∈ (frac ++ (exponent ++ rest)).head?, c.isDigit = false := by
    intro c hc
    rcases h.frac with rfl | ⟨ds, rfl, -⟩
    · rcases h.exponent with rfl | ⟨sign, ds, rfl, -⟩
      · exact hrest.digit c hc
      · obtain rfl := Option.some.inj hc
        decide
    · obtain rfl := Option.some.inj hc
      decide
  obtain ⟨htake, hdrop⟩ := cut_run h.digits hhead
  have hlead : (decide (whole = []) || (decide (whole.head? = some '0') && whole.length != 1) ||
      !endsNumeral rest) = false := by
    rw [hrest.endsNumeral, decide_eq_false h.nonempty]
    by_cases hzero : whole.head? = some '0'
    · rw [h.lead hzero]
      simp
    · simp [hzero]
  rw [List.append_assoc, List.append_assoc, readNumeral, htake, hdrop, fraction_append h hrest]
  simp only [exponent?_append h hrest, Option.bind_some, hlead, Bool.false_eq_true, if_false]

end Reading

theorem head_toDigits {n : ℕ} (h : 0 < n) : (Nat.toDigits 10 n).head? ≠ some '0' := by
  induction n using Nat.strong_induction_on with
  | _ n ih =>
    by_cases hsmall : n < 10
    · have hdigit : ∀ d < 10, 0 < d → Nat.digitChar d ≠ '0' := by decide
      rw [Nat.toDigits_of_lt_base hsmall]
      exact fun heq => hdigit n hsmall h (Option.some.inj heq)
    -- the first digit of a number is that of its tenth
    · obtain ⟨c, r, hlist⟩ := List.exists_cons_of_ne_nil
        (Nat.toDigits_ne_nil (n := n / 10) (b := 10))
      have hrec := ih (n / 10) (by omega) (by omega)
      rw [Nat.toDigits_of_base_le (by decide) (by omega)]
      rw [hlist] at hrec ⊢
      exact hrec

theorem found_ne_zero {value low high den : ℕ} {closed : Bool} {top step : ℤ} {fuel count n : ℕ}
    (h : searchGrids value low high den closed top fuel count = some (n, step)) : n ≠ 0 := by
  induction fuel generalizing count with
  | zero => exact nomatch h
  | succ fuel ih =>
    simp only [searchGrids] at h
    split at h
    · split at h
      · exact ih h
      · rename_i hne
        obtain ⟨rfl, -⟩ := Prod.mk.inj (Option.some.inj h)
        exact hne
    · exact ih h

/-- The first digit of a shortest decimal counts. -/
theorem head_shortest (m : Magnitude) : (shortest m).digits.head? ≠ some 0 := by
  rw [shortest]
  split
  · intro hhead
    cases hhead
  · simp only
    split
    · rename_i n step hfound
      intro hhead
      -- the digits start with those that are left of them
      have hstart : (digitsOf n).head? = some 0 := by
        obtain ⟨k, hk⟩ := exists_stripZeros (digitsOf n)
        rw [hk, List.head?_append, hhead]
        rfl
      rw [digitsOf, List.head?_map] at hstart
      obtain ⟨c, hc, hzero⟩ := Option.map_eq_some_iff.mp hstart
      have hdigit := Nat.isDigit_of_mem_toDigits (b := 10) (n := n) (by decide) (by decide)
        (List.mem_of_mem_head? hc)
      have hchar : c = '0' := by
        simp only [Char.isDigit, Bool.and_eq_true, decide_eq_true_eq] at hdigit
        have hle : 48 ≤ c.toNat := hdigit.1
        exact Char.toNat_inj.mp (by change c.toNat = 48; omega)
      rw [hchar] at hc
      exact head_toDigits (Nat.pos_of_ne_zero (found_ne_zero hfound)) hc
    · intro hhead
      cases hhead

section Notations

variable {d : Digits} (hproper : d.Proper) (hhead : d.digits.head? ≠ some 0)

include hproper hhead

/-- Digits whose first one counts do not start with a zero. -/
theorem head_digitChars : (digitChars d.digits).head? ≠ some '0' := by
  have hdigit : ∀ x < 10, Nat.digitChar x = '0' → x = 0 := by decide
  intro hzero
  rw [digitChars, List.head?_map] at hzero
  obtain ⟨x, hx, hchar⟩ := Option.map_eq_some_iff.mp hzero
  rw [hdigit x (hproper x (List.mem_of_mem_head? hx)) hchar] at hx
  exact hhead hx

theorem exists_spelled_positional :
    ∃ whole frac, Spelled whole frac [] ∧ d.positional.toList = whole ++ frac ++ [] := by
  have hlead := head_digitChars hproper hhead
  have hzero : ∀ c ∈ ['0'], c.isDigit = true := List.forall_mem_singleton.mpr rfl
  obtain ⟨ds, point⟩ := d
  have hdigits := isDigit_of_mem_digitChars hproper
  have hzeros (k : ℕ) := isDigit_of_mem_digitChars (lt_ten_of_mem_replicate (k := k))
  rw [Digits.positional]
  simp only
  split
  · exact ⟨['0'], [], ⟨by decide, hzero, fun _ => List.length_singleton, .inl rfl, .inl rfl⟩, rfl⟩
  · rename_i hempty
    rw [List.isEmpty_iff] at hempty
    have hne : digitChars ds ≠ [] := by
      rw [digitChars, ne_eq, List.map_eq_nil_iff]
      exact hempty
    split
    · -- zeros stand between the point and the digits
      refine ⟨['0'], '.' :: (digitChars (List.replicate (-point).toNat 0) ++ digitChars ds),
        ⟨by decide, hzero, fun _ => List.length_singleton, .inr ⟨_, rfl, fun c hc => ?_⟩, .inl rfl⟩, ?_⟩
      · exact (List.mem_append.mp hc).elim (hzeros _ c) (hdigits c)
      · rw [String.toList_append, String.toList_append, toList_zeros, toList_digitText]
        simp
    · split
      · -- zeros stand behind the digits
        refine ⟨digitChars ds ++ digitChars (List.replicate (point.toNat - ds.length) 0), [],
          ⟨by simp [hne], fun c hc => ?_, fun h => ?_, .inl rfl, .inl rfl⟩, ?_⟩
        · exact (List.mem_append.mp hc).elim (hdigits c) (hzeros _ c)
        · rw [List.head?_append_of_ne_nil _ hne] at h
          exact absurd h hlead
        · rw [String.toList_append, toList_zeros, toList_digitText]
          simp
      · -- the point stands among the digits
        rename_i hpoint hlength
        have htake : ∀ c ∈ digitChars (ds.take point.toNat), c.isDigit = true :=
          isDigit_of_mem_digitChars fun x hx => hproper x (List.mem_of_mem_take hx)
        have hdrop : ∀ c ∈ digitChars (ds.drop point.toNat), c.isDigit = true :=
          isDigit_of_mem_digitChars fun x hx => hproper x (List.mem_of_mem_drop hx)
        refine ⟨digitChars (ds.take point.toNat), '.' :: digitChars (ds.drop point.toNat),
          ⟨?_, htake, fun h => ?_, .inr ⟨_, rfl, hdrop⟩, .inl rfl⟩, ?_⟩
        · rw [digitChars, ne_eq, List.map_eq_nil_iff, List.take_eq_nil_iff, not_or]
          exact ⟨by omega, hempty⟩
        · rw [digitChars, List.map_take, List.head?_take, if_neg (by omega)] at h
          exact absurd h hlead
        · rw [String.toList_append, String.toList_append, toList_digitText, toList_digitText]
          simp

omit hhead in
theorem exists_spelled_scientific : ∃ whole frac exponent, Spelled whole frac exponent ∧
    d.scientific.toList = whole ++ frac ++ exponent := by
  have hzero : ∀ c ∈ ['0'], c.isDigit = true := List.forall_mem_singleton.mpr rfl
  obtain ⟨ds, point⟩ := d
  cases ds with
  | nil =>
    obtain ⟨sign, ds, htext, hsign, hne, hdigits, -⟩ := Digits.exists_exponentParts 0
    refine ⟨['0'], [], 'e' :: sign :: ds,
      ⟨by decide, hzero, fun _ => List.length_singleton, .inl rfl,
        .inr ⟨sign, ds, rfl, hsign, hne, hdigits⟩⟩, ?_⟩
    rw [Digits.scientific_nil, String.toList_append, htext]
    rfl
  | cons x l =>
    obtain ⟨sign, ds, htext, hsign, hne, hdigits, -⟩ := Digits.exists_exponentParts (point - 1)
    have hlead : ∀ c ∈ digitChars [x], c.isDigit = true :=
      isDigit_of_mem_digitChars fun y hy => by
        rw [List.mem_singleton.mp hy]
        exact hproper x List.mem_cons_self
    have hrest : ∀ c ∈ digitChars l, c.isDigit = true :=
      isDigit_of_mem_digitChars fun y hy => hproper y (List.mem_cons_of_mem _ hy)
    refine ⟨digitChars [x], if l.isEmpty then [] else '.' :: digitChars l, 'e' :: sign :: ds,
      ⟨List.cons_ne_nil _ _, hlead, fun _ => List.length_singleton, ?_,
        .inr ⟨sign, ds, rfl, hsign, hne, hdigits⟩⟩, ?_⟩
    · split
      · exact .inl rfl
      · exact .inr ⟨_, rfl, hrest⟩
    · rw [Digits.scientific_cons, String.toList_append, htext, String.toList_append]
      split
      · rw [toList_digitText]
        rfl
      · rw [String.toList_append, toList_digitText, toList_digitText]
        rfl

end Notations

/-- The literal of a finite number is read up to its end, but for its sign. -/
theorem readNumeral_unsignedText {x : Float} (h : IsFinite x) {rest : List Char} (hrest : Apart rest) :
    readNumeral ((unsignedText x).toList ++ rest) = some ((unsignedText x).toList, rest) := by
  have hproper := proper_shortest (Magnitude.ofFloat x)
  have hhead := head_shortest (Magnitude.ofFloat x)
  obtain ⟨whole, frac, exponent, hspelled, htext⟩ : ∃ whole frac exponent,
      Spelled whole frac exponent ∧ (unsignedText x).toList = whole ++ frac ++ exponent := by
    obtain ⟨whole, frac, hspelled, htext⟩ := exists_spelled_positional hproper hhead
    rw [unsignedText, h.1, h.2]
    simp only [Bool.false_eq_true, if_false]
    split
    · exact ⟨whole, frac, [], hspelled, htext⟩
    · rw [Digits.general]
      split
      · exact exists_spelled_scientific hproper
      · exact ⟨whole, frac, [], hspelled, htext⟩
  rw [htext]
  exact readNumeral_append hspelled hrest

end Phrasebook.Script
