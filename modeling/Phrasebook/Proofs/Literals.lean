import Phrasebook.Proofs.Shortest

/-!
Number literals tell numbers apart. Every notation of a decimal stands for its value, and a
number has no literal in common with another one.
-/
namespace Phrasebook.Decimal

open Floats Float.Model

/-! ### What a text stands for -/

/-- What stands behind the first of a mark. -/
def behind (mark : Char) (cs : List Char) : List Char :=
  (cs.dropWhile (· != mark)).drop 1

/-- Digits with a point among them. -/
def mantissaValue (cs : List Char) : ℚ :=
  natOfDigits 10 hexValue (cs.takeWhile (· != '.') ++ behind '.' cs) / 10 ^ (behind '.' cs).length

/-- Digits behind a sign. -/
def signedValue : List Char → ℤ
  | '-' :: r => -natOfDigits 10 hexValue r
  | '+' :: r => natOfDigits 10 hexValue r
  | r => natOfDigits 10 hexValue r

/-- The number that a mantissa and an exponent stand for. -/
def textValue (cs : List Char) : ℚ :=
  mantissaValue (cs.takeWhile (· != 'e')) * 10 ^ signedValue (behind 'e' cs)

section Marks

variable {mark : Char} {cs : List Char}

theorem takeWhile_of_not_mem (h : mark ∉ cs) : cs.takeWhile (· != mark) = cs := by
  rw [List.takeWhile_eq_self_iff]
  intro c hc
  rw [bne_iff_ne]
  rintro rfl
  exact h hc

theorem behind_of_not_mem (h : mark ∉ cs) : behind mark cs = [] := by
  rw [behind, List.dropWhile_eq_nil_iff.mpr, List.drop_nil]
  intro c hc
  rw [bne_iff_ne]
  rintro rfl
  exact h hc

theorem takeWhile_append_mark (h : mark ∉ cs) (r : List Char) :
    (cs ++ mark :: r).takeWhile (· != mark) = cs := by
  induction cs with
  | nil => simp
  | cons c l ih =>
    rw [List.mem_cons, not_or] at h
    rw [List.cons_append, List.takeWhile_cons_of_pos (by simpa using Ne.symm h.1), ih h.2]

theorem behind_append_mark (h : mark ∉ cs) (r : List Char) : behind mark (cs ++ mark :: r) = r := by
  induction cs with
  | nil => simp [behind]
  | cons c l ih =>
    rw [List.mem_cons, not_or] at h
    rw [behind, List.cons_append, List.dropWhile_cons_of_pos (by simpa using Ne.symm h.1)]
    exact ih h.2

end Marks

/-! ### Digits as text -/

def digitChars (ds : List ℕ) : List Char :=
  ds.map Nat.digitChar

theorem toList_digitText (ds : List ℕ) : (digitText ds).toList = digitChars ds := by
  rw [digitText, String.toList_ofList, digitChars]

theorem toList_zeros (n : ℕ) : (zeros n).toList = digitChars (List.replicate n 0) := by
  rw [zeros, String.toList_ofList, digitChars, List.map_replicate]
  rfl

theorem isDigit_of_mem_digitChars {ds : List ℕ} (h : ∀ x ∈ ds, x < 10) :
    ∀ c ∈ digitChars ds, c.isDigit = true := by
  have hdigit : ∀ x < 10, (Nat.digitChar x).isDigit = true := by decide
  intro c hc
  obtain ⟨x, hx, rfl⟩ := List.mem_map.mp hc
  exact hdigit x (h x hx)

theorem not_mem_of_isDigit {mark : Char} {cs : List Char} (h : ∀ c ∈ cs, c.isDigit = true)
    (hmark : mark.isDigit = false) : mark ∉ cs := by
  intro hmem
  rw [h mark hmem] at hmark
  exact Bool.noConfusion hmark

section Mantissas

variable {ws fs : List ℕ} (hws : ∀ x ∈ ws, x < 10) (hfs : ∀ x ∈ fs, x < 10)

include hws

theorem mantissaValue_digits : mantissaValue (digitChars ws) = wholeOf ws := by
  have hpoint : '.' ∉ digitChars ws :=
    not_mem_of_isDigit (isDigit_of_mem_digitChars hws) (by decide)
  rw [mantissaValue, takeWhile_of_not_mem hpoint, behind_of_not_mem hpoint, List.append_nil,
    digitChars, natOfDigits_digitChars hws]
  simp

include hfs

theorem mantissaValue_point :
    mantissaValue (digitChars ws ++ '.' :: digitChars fs) = wholeOf (ws ++ fs) / 10 ^ fs.length := by
  have hpoint : '.' ∉ digitChars ws :=
    not_mem_of_isDigit (isDigit_of_mem_digitChars hws) (by decide)
  have hall : ∀ x ∈ ws ++ fs, x < 10 := fun x hx =>
    (List.mem_append.mp hx).elim (hws x) (hfs x)
  rw [mantissaValue, takeWhile_append_mark hpoint, behind_append_mark hpoint, digitChars, digitChars,
    ← List.map_append, natOfDigits_digitChars hall, List.length_map]

end Mantissas

/-! ### Notations -/

/-- A text of digits, some of which may stand behind a point, and its value. -/
inductive IsMantissa : List Char → ℚ → Prop where
  | digits {ws : List ℕ} (hws : ∀ x ∈ ws, x < 10) (hne : ws ≠ []) :
      IsMantissa (digitChars ws) (wholeOf ws)
  | point {ws fs : List ℕ} (hws : ∀ x ∈ ws, x < 10) (hne : ws ≠ []) (hfs : ∀ x ∈ fs, x < 10) :
      IsMantissa (digitChars ws ++ '.' :: digitChars fs) (wholeOf (ws ++ fs) / 10 ^ fs.length)

namespace IsMantissa

variable {cs : List Char} {q : ℚ}

theorem mantissaValue_eq (h : IsMantissa cs q) : mantissaValue cs = q := by
  cases h with
  | digits hws => exact mantissaValue_digits hws
  | point hws _ hfs => exact mantissaValue_point hws hfs

theorem chars (h : IsMantissa cs q) : ∀ c ∈ cs, c.isDigit = true ∨ c = '.' := by
  intro c hc
  cases h with
  | digits hws => exact .inl (isDigit_of_mem_digitChars hws c hc)
  | point hws _ hfs =>
    rcases List.mem_append.mp hc with hc | hc
    · exact .inl (isDigit_of_mem_digitChars hws c hc)
    · rcases List.mem_cons.mp hc with rfl | hc
      · exact .inr rfl
      · exact .inl (isDigit_of_mem_digitChars hfs c hc)

theorem of_eq (h : IsMantissa cs q) {cs' : List Char} {q' : ℚ} (hcs : cs' = cs) (hq : q' = q) :
    IsMantissa cs' q' := by
  rw [hcs, hq]
  exact h

/-- A mantissa starts with a digit. -/
theorem exists_head (h : IsMantissa cs q) : ∃ c r, cs = c :: r ∧ c.isDigit = true := by
  have hdigits {ws : List ℕ} (hws : ∀ x ∈ ws, x < 10) (hne : ws ≠ []) :
      ∃ c r, digitChars ws = c :: r ∧ c.isDigit = true := by
    obtain ⟨x, r, rfl⟩ := List.exists_cons_of_ne_nil hne
    exact ⟨_, _, rfl, isDigit_of_mem_digitChars hws _ List.mem_cons_self⟩
  cases h with
  | digits hws hne => exact hdigits hws hne
  | point hws hne hfs =>
    obtain ⟨c, r, heq, hc⟩ := hdigits hws hne
    exact ⟨c, _, by rw [heq, List.cons_append], hc⟩

theorem not_mem_mark (h : IsMantissa cs q) : 'e' ∉ cs := by
  intro hmem
  rcases h.chars 'e' hmem with hdigit | hpoint
  · exact absurd hdigit (by decide)
  · exact absurd hpoint (by decide)

/-- Without an exponent a text stands for its mantissa. -/
theorem textValue_eq (h : IsMantissa cs q) : textValue cs = q := by
  rw [textValue, takeWhile_of_not_mem h.not_mem_mark, behind_of_not_mem h.not_mem_mark,
    h.mantissaValue_eq]
  simp [signedValue, natOfDigits]

theorem textValue_exponent (h : IsMantissa cs q) (r : List Char) :
    textValue (cs ++ 'e' :: r) = q * 10 ^ signedValue r := by
  rw [textValue, takeWhile_append_mark h.not_mem_mark, behind_append_mark h.not_mem_mark,
    h.mantissaValue_eq]

end IsMantissa

theorem wholeOf_zeros_append (k : ℕ) (ds : List ℕ) :
    wholeOf (List.replicate k 0 ++ ds) = wholeOf ds := by
  rw [wholeOf_append, wholeOf_zeros, Nat.zero_mul, Nat.zero_add]

theorem lt_ten_of_mem_replicate {k : ℕ} : ∀ x ∈ List.replicate k 0, x < 10 := by
  intro x hx
  rw [List.eq_of_mem_replicate hx]
  decide

/-- The digits behind a point move it. -/
theorem div_pow_eq (n k : ℕ) : (n : ℚ) / 10 ^ k = n * 10 ^ (-k : ℤ) := by
  rw [zpow_neg, zpow_natCast, div_eq_mul_inv]

namespace Digits

variable {d : Digits}

theorem isMantissa_positional (h : d.Proper) : IsMantissa d.positional.toList d.value := by
  obtain ⟨ds, point⟩ := d
  have hds : ∀ x ∈ ds, x < 10 := h
  have hzero : ∀ x ∈ [0], x < 10 := by decide
  rw [positional, value]
  simp only
  split
  · rename_i hempty
    obtain rfl := List.isEmpty_iff.mp hempty
    refine (IsMantissa.digits hzero (by decide)).of_eq rfl ?_
    simp [wholeOf]
  · rename_i hempty
    rw [List.isEmpty_iff] at hempty
    split
    · -- zeros stand between the point and the digits
      rename_i hpoint
      have hfs : ∀ x ∈ List.replicate (-point).toNat 0 ++ ds, x < 10 := fun x hx =>
        (List.mem_append.mp hx).elim (lt_ten_of_mem_replicate x) (hds x)
      refine (IsMantissa.point hzero (by decide) hfs).of_eq ?_ ?_
      · rw [String.toList_append, String.toList_append, toList_zeros, toList_digitText, digitChars,
          digitChars, digitChars, digitChars, List.map_append]
        rfl
      · rw [div_pow_eq, wholeOf_append, wholeOf_zeros_append, List.length_append,
          List.length_replicate]
        have hexponent : -(((-point).toNat + ds.length : ℕ) : ℤ) = point - ds.length := by omega
        have hnone : wholeOf [0] = 0 := rfl
        rw [hexponent, hnone, Nat.zero_mul, Nat.zero_add]
    · rename_i hpoint
      split
      · -- zeros stand behind the digits
        rename_i hlength
        have hws : ∀ x ∈ ds ++ List.replicate (point.toNat - ds.length) 0, x < 10 := fun x hx =>
          (List.mem_append.mp hx).elim (hds x) (lt_ten_of_mem_replicate x)
        refine (IsMantissa.digits hws (by simp [hempty])).of_eq ?_ ?_
        · rw [String.toList_append, toList_zeros, toList_digitText, digitChars, digitChars,
            digitChars, List.map_append]
        · rw [wholeOf_append, wholeOf_zeros, List.length_replicate, Nat.add_zero]
          have hexponent : point - ds.length = ((point.toNat - ds.length : ℕ) : ℤ) := by omega
          rw [hexponent, zpow_natCast]
          push_cast
          rfl
      · -- the point stands among the digits
        rename_i hlength
        have htake : ∀ x ∈ ds.take point.toNat, x < 10 := fun x hx => hds x (List.mem_of_mem_take hx)
        have hdrop : ∀ x ∈ ds.drop point.toNat, x < 10 := fun x hx => hds x (List.mem_of_mem_drop hx)
        have hne : ds.take point.toNat ≠ [] := by
          rw [ne_eq, List.take_eq_nil_iff, not_or]
          exact ⟨by omega, hempty⟩
        refine (IsMantissa.point htake hne hdrop).of_eq ?_ ?_
        · rw [String.toList_append, String.toList_append, toList_digitText, toList_digitText,
            List.append_assoc]
          rfl
        · rw [div_pow_eq, List.take_append_drop, List.length_drop]
          have hexponent : -((ds.length - point.toNat : ℕ) : ℤ) = point - ds.length := by omega
          rw [hexponent]

/-- An exponent with its sign and two digits at least. -/
def exponentText (e : ℤ) : String :=
  (if e < 0 then "e-" else "e+") ++
    (if (toString e.natAbs).length < 2 then "0" ++ toString e.natAbs else toString e.natAbs)

/-- An exponent has a sign and at least one digit. -/
theorem exists_exponentParts (e : ℤ) : ∃ sign ds, (exponentText e).toList = 'e' :: sign :: ds ∧
    (sign = '-' ∨ sign = '+') ∧ ds ≠ [] ∧ (∀ c ∈ ds, c.isDigit = true) ∧
    signedValue (sign :: ds) = e := by
  -- a zero in front of the digits changes nothing
  obtain ⟨ds, hds, hne, hvalue, hdigits⟩ : ∃ ds, (if (toString e.natAbs).length < 2 then
      "0" ++ toString e.natAbs else toString e.natAbs).toList = ds ∧ ds ≠ [] ∧
      natOfDigits 10 hexValue ds = e.natAbs ∧ ∀ c ∈ ds, c.isDigit = true := by
    have hdigits : ∀ c ∈ Nat.toDigits 10 e.natAbs, c.isDigit = true :=
      fun c hc => Nat.isDigit_of_mem_toDigits (by decide) (by decide) hc
    have hlist : (toString e.natAbs).toList = Nat.toDigits 10 e.natAbs := by
      rw [Nat.toString_eq_repr, Nat.toList_repr]
    split
    · refine ⟨'0' :: Nat.toDigits 10 e.natAbs, ?_, List.cons_ne_nil _ _, ?_, ?_⟩
      · rw [String.toList_append, hlist]
        rfl
      · exact natOfDigits_toDigits e.natAbs
      · intro c hc
        rcases List.mem_cons.mp hc with rfl | hc
        · decide
        · exact hdigits c hc
    · exact ⟨_, hlist, Nat.toDigits_ne_nil, natOfDigits_toDigits e.natAbs, hdigits⟩
  rw [exponentText, String.toList_append, hds]
  split
  · refine ⟨'-', ds, rfl, .inl rfl, hne, hdigits, ?_⟩
    rw [signedValue, hvalue]
    omega
  · refine ⟨'+', ds, rfl, .inr rfl, hne, hdigits, ?_⟩
    rw [signedValue, hvalue]
    omega

theorem exists_exponentText (e : ℤ) : ∃ r, (exponentText e).toList = 'e' :: r ∧
    signedValue r = e ∧ ∀ c ∈ r, c.isDigit = true ∨ c = '-' ∨ c = '+' := by
  obtain ⟨sign, ds, htext, hsign, -, hdigits, hvalue⟩ := exists_exponentParts e
  refine ⟨sign :: ds, htext, hvalue, ?_⟩
  intro c hc
  rcases List.mem_cons.mp hc with rfl | hc
  · exact .inr hsign
  · exact .inl (hdigits c hc)

theorem scientific_nil (point : ℤ) :
    scientific ⟨[], point⟩ = digitText [0] ++ "" ++ exponentText 0 := by
  rw [scientific, exponentText]
  exact String.append_assoc

theorem scientific_cons (x : ℕ) (l : List ℕ) (point : ℤ) :
    scientific ⟨x :: l, point⟩ = digitText [x] ++
      (if l.isEmpty then "" else "." ++ digitText l) ++ exponentText (point - 1) := by
  rw [scientific, exponentText]
  exact String.append_assoc

/-- One digit stands before the point, and an exponent behind the others. -/
theorem exists_scientific (h : d.Proper) : ∃ cs q r, IsMantissa cs q ∧
    d.scientific.toList = cs ++ 'e' :: r ∧ q * 10 ^ signedValue r = d.value ∧
    ∀ c ∈ r, c.isDigit = true ∨ c = '-' ∨ c = '+' := by
  obtain ⟨ds, point⟩ := d
  cases ds with
  | nil =>
    obtain ⟨r, htext, hvalue, hchars⟩ := exists_exponentText 0
    refine ⟨digitChars [0], wholeOf [0], r, .digits (by decide) (by decide), ?_, ?_, hchars⟩
    · rw [scientific_nil, String.toList_append, htext, String.append_empty, toList_digitText]
    · simp [value, wholeOf]
  | cons x l =>
    have hlead : ∀ y ∈ [x], y < 10 := by
      intro y hy
      rw [List.mem_singleton.mp hy]
      exact h x List.mem_cons_self
    have hrest : ∀ y ∈ l, y < 10 := fun y hy => h y (List.mem_cons_of_mem _ hy)
    obtain ⟨r, htext, hvalue, hchars⟩ := exists_exponentText (point - 1)
    have hpoint : (wholeOf ([x] ++ l) : ℚ) / 10 ^ l.length * 10 ^ signedValue r =
        value ⟨x :: l, point⟩ := by
      have hexponent : (-l.length + (point - 1) : ℤ) = point - (x :: l).length := by
        rw [List.length_cons]
        omega
      rw [div_pow_eq, hvalue, value, mul_assoc, ← zpow_add₀ (by norm_num), hexponent]
      rfl
    -- a lone digit is written without a point
    cases l with
    | nil =>
      refine ⟨digitChars [x], wholeOf [x], r, .digits hlead (List.cons_ne_nil _ _), ?_, ?_, hchars⟩
      · rw [scientific_cons, String.toList_append, htext, List.isEmpty_nil, if_pos rfl,
          String.append_empty, toList_digitText]
      · rw [← hpoint, List.append_nil, List.length_nil, pow_zero, div_one]
    | cons y l =>
      refine ⟨_, _, r, .point hlead (List.cons_ne_nil _ _) hrest, ?_, hpoint, hchars⟩
      rw [scientific_cons, String.toList_append, htext, String.toList_append, if_neg (by simp),
        String.toList_append, toList_digitText, toList_digitText]
      rfl

/-- A character of a decimal. -/
def IsNumeral (c : Char) : Prop :=
  c.isDigit = true ∨ c = '.' ∨ c = 'e' ∨ c = '-' ∨ c = '+'

/-- A text that stands for a decimal. -/
structure Writes (cs : List Char) (q : ℚ) : Prop where
  value : textValue cs = q
  head : ∃ c r, cs = c :: r ∧ c.isDigit = true
  numerals : ∀ c ∈ cs, IsNumeral c

theorem writes_positional (h : d.Proper) : Writes d.positional.toList d.value := by
  have hmantissa := isMantissa_positional h
  exact ⟨hmantissa.textValue_eq, hmantissa.exists_head,
    fun c hc => (hmantissa.chars c hc).imp_right .inl⟩

/-- Either notation stands for the value. -/
theorem writes_general (h : d.Proper) : Writes d.general.toList d.value := by
  rw [general]
  split
  · obtain ⟨cs, q, r, hmantissa, htext, hvalue, hchars⟩ := exists_scientific h
    obtain ⟨c, l, hhead, hc⟩ := hmantissa.exists_head
    rw [htext]
    refine ⟨?_, ⟨c, l ++ 'e' :: r, ?_, hc⟩, ?_⟩
    · rw [hmantissa.textValue_exponent, hvalue]
    · rw [hhead, List.cons_append]
    · intro x hx
      rcases List.mem_append.mp hx with hx | hx
      · exact (hmantissa.chars x hx).imp_right .inl
      · rcases List.mem_cons.mp hx with rfl | hx
        · exact .inr (.inr (.inl rfl))
        · exact (hchars x hx).imp_right fun h => .inr (.inr h)
  · exact writes_positional h

end Digits

/-! ### Numbers -/

/-- The literal of a number without its sign. -/
def unsignedText (x : Float) : String :=
  if x.isNaN then "NaN"
  else if x.isInf then "Infinity"
  else if isIntegral x && x.abs < 1e21 then (shortest (Magnitude.ofFloat x)).positional
  else (shortest (Magnitude.ofFloat x)).general

theorem literal_eq (x : Float) :
    literal x = (if !x.isNaN && isNegative x then "-" else "") ++ unsignedText x := by
  rw [literal, unsignedText]
  cases x.isNaN with
  | true => rfl
  | false =>
    cases x.isInf with
    | true => rfl
    | false =>
      simp only [Bool.not_false, Bool.true_and, Bool.false_eq_true, if_false]

theorem writes_unsignedText {x : Float} (hnumber : x.isNaN = false) (hfinite : x.isInf = false) :
    Digits.Writes (unsignedText x).toList (shortest (Magnitude.ofFloat x)).value := by
  have hproper := proper_shortest (Magnitude.ofFloat x)
  rw [unsignedText, hnumber, hfinite]
  simp only [Bool.false_eq_true, if_false]
  split
  · exact Digits.writes_positional hproper
  · exact Digits.writes_general hproper

/-- The sign of all but the undefined number. -/
def sign? : UnpackedFloat → Option UnpackedFloat.Sign
  | .notANumber => none
  | .infinity s | .zero s | .finite s _ _ _ => some s

section Parts

variable {x : Float} {s : UnpackedFloat.Sign}

theorem isNegative_of_sign? (h : sign? x.toModel.unpack = some s) :
    isNegative x = true ↔ s = .negative := by
  have hbits : isNegative x = true ↔ 2 ^ 63 ≤ x.toModel.toBits.toBitVec.toNat := by
    rw [isNegative, decide_eq_true_eq, ge_iff_le, UInt64.le_iff_toNat_le]
    rfl
  rw [hbits]
  rw [Float.Model.unpack, UnpackedFloat.unpack] at h
  generalize x.toModel.toBits.toBitVec = b at h
  -- whatever else the number is, its sign is read off the first bit
  have hsign : UnpackedFloat.Sign.ofBitVec (@UnpackedFloat.unpackSign Format.binary64 b) = s := by
    simp only at h
    split at h
    · split at h
      · exact Option.some.inj h
      · cases h
    · split at h
      · split at h
        · exact Option.some.inj h
        · exact Option.some.inj h
      · exact Option.some.inj h
  have hnat := toNat_unpackSign b
  have hlt := b.isLt
  rw [← hsign, UnpackedFloat.Sign.ofBitVec]
  split
  · rename_i hzero
    have hnone : (@UnpackedFloat.unpackSign Format.binary64 b).toNat = 0 := congrArg BitVec.toNat hzero
    refine ⟨fun hle => ?_, UnpackedFloat.Sign.noConfusion⟩
    omega
  · rename_i hone
    have hsome : (@UnpackedFloat.unpackSign Format.binary64 b).toNat ≠ 0 :=
      fun h0 => hone (BitVec.eq_of_toNat_eq h0)
    refine ⟨fun _ => rfl, fun _ => ?_⟩
    omega

/-- The magnitude of a number with an exponent field and a fraction. -/
def ofParts (field fraction : ℕ) : Magnitude :=
  if field = 0 then ⟨fraction, -1074, false⟩
  else ⟨2 ^ 52 + fraction, (field : ℤ) - 1075, fraction = 0 && field > 1⟩

theorem ofFloat_eq (x : Float) : Magnitude.ofFloat x =
    ofParts (@UnpackedFloat.unpackExponent Format.binary64 x.toModel.toBits.toBitVec).toNat
      (@UnpackedFloat.unpackMantissa Format.binary64 x.toModel.toBits.toBitVec).toNat := by
  rw [toNat_unpackExponent, toNat_unpackMantissa]
  rfl

/-- A zero has no significand. -/
theorem ofFloat_of_zero (h : x.toModel.unpack = .zero s) :
    Magnitude.ofFloat x = ⟨0, -1074, false⟩ := by
  rw [ofFloat_eq]
  rw [Float.Model.unpack, UnpackedFloat.unpack] at h
  generalize x.toModel.toBits.toBitVec = b at h
  simp only at h
  split at h
  · split at h <;> cases h
  · split at h
    · rename_i hfield
      split at h
      · rename_i hfraction
        rw [hfield, hfraction]
        rfl
      · cases h
    · cases h

theorem value_shortest_of_zero (h : x.toModel.unpack = .zero s) :
    (shortest (Magnitude.ofFloat x)).value = 0 := by
  rw [ofFloat_of_zero h]
  simp [shortest, Digits.value, wholeOf]

/-- The magnitude of a finite number other than zero has its parts. -/
theorem ofFloat_of_finite {m : ℕ} {e : ℤ} {hm : 0 < m} (h : x.toModel.unpack = .finite s m e hm) :
    (Magnitude.ofFloat x).significand = m ∧ (Magnitude.ofFloat x).exponent = e ∧
      (Magnitude.ofFloat x).Proper := by
  have hcanonical := canonical_of_unpack h
  have hbias : Format.binary64.exponentBias = 1023 := rfl
  rw [ofFloat_eq]
  rw [Float.Model.unpack, UnpackedFloat.unpack] at h
  simp only [hbias] at h
  generalize x.toModel.toBits.toBitVec = b at h
  have hmantissa : (@UnpackedFloat.unpackMantissa Format.binary64 b).toNat < 2 ^ 52 := BitVec.isLt _
  split at h
  · split at h <;> cases h
  · split at h
    -- the field of the exponent is zero: there is no leading bit
    · rename_i hfield
      split at h
      · cases h
      · obtain ⟨-, rfl, rfl⟩ := UnpackedFloat.finite.inj h
        rw [hfield] at hcanonical ⊢
        refine ⟨rfl, rfl, hcanonical, ?_⟩
        simp [ofParts]
    · rename_i hfield
      obtain ⟨-, rfl, rfl⟩ := UnpackedFloat.finite.inj h
      have hfield' : (@UnpackedFloat.unpackExponent Format.binary64 b).toNat ≠ 0 :=
        fun h0 => hfield (BitVec.eq_of_toNat_eq h0)
      have happ := toNat_one_append (@UnpackedFloat.unpackMantissa Format.binary64 b)
      have hexponent : ((@UnpackedFloat.unpackExponent Format.binary64 b).toNat : ℤ) - 1075 =
          (@UnpackedFloat.unpackExponent Format.binary64 b).toNat - ((1023 : ℕ) + (52 : ℕ)) := by
        push_cast
        omega
      rw [happ, ← hexponent] at hcanonical
      rw [ofParts, if_neg hfield', happ, ← hexponent]
      refine ⟨rfl, rfl, hcanonical, ?_⟩
      simp only [Bool.and_eq_true, decide_eq_true_eq]
      omega

end Parts

/-- A number that is neither undefined nor infinite. -/
def IsFinite (x : Float) : Prop :=
  x.isNaN = false ∧ x.isInf = false

theorem IsFinite.exists_unpack {x : Float} (h : IsFinite x) :
    ∃ s, x.toModel.unpack = .zero s ∨ ∃ m e hm, x.toModel.unpack = .finite s m e hm := by
  have hnumber : x.toModel.unpack.isNaN = false := h.1
  have hsmall : x.toModel.unpack.isInf = false := h.2
  cases hx : x.toModel.unpack with
  | notANumber =>
    rw [hx] at hnumber
    exact nomatch hnumber
  | infinity s =>
    rw [hx] at hsmall
    exact nomatch hsmall
  | zero s => exact ⟨s, .inl rfl⟩
  | finite s m e hm => exact ⟨s, .inr ⟨m, e, hm, rfl⟩⟩

theorem sign_eq {x y : Float} {s t : UnpackedFloat.Sign} (hx : sign? x.toModel.unpack = some s)
    (hy : sign? y.toModel.unpack = some t) (h : isNegative x = isNegative y) : s = t := by
  have hiff := isNegative_of_sign? hx
  rw [h, isNegative_of_sign? hy] at hiff
  cases s <;> cases t <;> simp at hiff ⊢

/-- Finite numbers with one sign and one shortest decimal are the same. -/
theorem IsFinite.eq {x y : Float} (hx : IsFinite x) (hy : IsFinite y)
    (hsign : isNegative x = isNegative y)
    (hvalue : (shortest (Magnitude.ofFloat x)).value = (shortest (Magnitude.ofFloat y)).value) :
    x = y := by
  obtain ⟨s, hx⟩ := hx.exists_unpack
  obtain ⟨t, hy⟩ := hy.exists_unpack
  apply eq_of_unpack_eq
  rcases hx with hx | ⟨m, e, hm, hx⟩ <;> rcases hy with hy | ⟨n, f, hn, hy⟩
  · rw [hx, hy, sign_eq (congrArg sign? hx) (congrArg sign? hy) hsign]
  · have hpos := value_shortest_pos (ofFloat_of_finite hy).2.2
    rw [← hvalue, value_shortest_of_zero hx] at hpos
    exact absurd hpos (lt_irrefl 0)
  · have hpos := value_shortest_pos (ofFloat_of_finite hx).2.2
    rw [hvalue, value_shortest_of_zero hy] at hpos
    exact absurd hpos (lt_irrefl 0)
  · obtain rfl := sign_eq (congrArg sign? hx) (congrArg sign? hy) hsign
    obtain ⟨hsignificand, hexponent, hproper⟩ := ofFloat_of_finite hx
    obtain ⟨hsignificand', hexponent', hproper'⟩ := ofFloat_of_finite hy
    have heq := eq_of_value_shortest hproper hproper' hvalue
    obtain rfl : m = n := by rw [← hsignificand, ← hsignificand', heq]
    obtain rfl : e = f := by rw [← hexponent, ← hexponent', heq]
    rw [hx, hy]

/-! ### Literals -/

theorem unsignedText_of_isNaN {x : Float} (h : x.isNaN = true) : unsignedText x = "NaN" :=
  if_pos h

theorem unsignedText_of_isInf {x : Float} (hnumber : x.isNaN = false) (h : x.isInf = true) :
    unsignedText x = "Infinity" := by
  rw [unsignedText, hnumber, h]
  rfl

/-- What the first character of an unsigned literal tells. -/
theorem exists_head_unsignedText (x : Float) : ∃ c r, (unsignedText x).toList = c :: r ∧
    (x.isNaN = true ↔ c = 'N') ∧ (x.isNaN = false ∧ x.isInf = true ↔ c = 'I') ∧ c ≠ '-' := by
  cases hnumber : x.isNaN with
  | true =>
    rw [unsignedText_of_isNaN hnumber]
    exact ⟨'N', _, rfl, by simp, by simp, by decide⟩
  | false =>
    cases hfinite : x.isInf with
    | true =>
      rw [unsignedText_of_isInf hnumber hfinite]
      exact ⟨'I', _, rfl, by simp, by simp, by decide⟩
    | false =>
      obtain ⟨c, r, htext, hc⟩ := (writes_unsignedText hnumber hfinite).head
      have hother {mark : Char} (hmark : mark.isDigit = false) : c ≠ mark := by
        rintro rfl
        rw [hc] at hmark
        exact Bool.noConfusion hmark
      have hundefined : c ≠ 'N' := hother (by decide)
      have hinfinite : c ≠ 'I' := hother (by decide)
      exact ⟨c, r, htext, by simp [hundefined], by simp [hinfinite], hother (by decide)⟩

theorem unpack_of_isNaN {x : Float} (h : x.isNaN = true) : x.toModel.unpack = .notANumber := by
  have hnumber : x.toModel.unpack.isNaN = true := h
  cases hx : x.toModel.unpack with
  | notANumber => rfl
  | _ =>
    rw [hx] at hnumber
    exact nomatch hnumber

theorem exists_unpack_of_isInf {x : Float} (h : x.isInf = true) :
    ∃ s, x.toModel.unpack = .infinity s := by
  have hinfinite : x.toModel.unpack.isInf = true := h
  cases hx : x.toModel.unpack with
  | infinity s => exact ⟨s, rfl⟩
  | _ =>
    rw [hx] at hinfinite
    exact nomatch hinfinite

/-- Numbers with one literal besides their signs are the same if the signs are. -/
theorem eq_of_unsignedText_eq {x y : Float} (h : unsignedText x = unsignedText y)
    (hsign : (!x.isNaN && isNegative x) = (!y.isNaN && isNegative y)) : x = y := by
  obtain ⟨c, r, hx, hnan, hinf, _⟩ := exists_head_unsignedText x
  obtain ⟨d, l, hy, hnan', hinf', _⟩ := exists_head_unsignedText y
  rw [h, hy] at hx
  obtain ⟨rfl, rfl⟩ := List.cons.inj hx
  have hundefined : x.isNaN = y.isNaN := Bool.eq_iff_iff.mpr (hnan.trans hnan'.symm)
  have hinfinite := hinf.trans hinf'.symm
  cases hnumber : x.isNaN with
  | true =>
    apply eq_of_unpack_eq
    rw [unpack_of_isNaN hnumber, unpack_of_isNaN (hundefined ▸ hnumber)]
  | false =>
    have hnumber' : y.isNaN = false := hundefined ▸ hnumber
    rw [hnumber, hnumber', Bool.not_false, Bool.true_and, Bool.true_and] at hsign
    have hsizes : x.isInf = y.isInf := by
      rw [hnumber, hnumber'] at hinfinite
      simpa using hinfinite
    cases hfinite : x.isInf with
    | true =>
      obtain ⟨s, hs⟩ := exists_unpack_of_isInf hfinite
      obtain ⟨t, ht⟩ := exists_unpack_of_isInf (hsizes ▸ hfinite)
      apply eq_of_unpack_eq
      rw [hs, ht, sign_eq (congrArg sign? hs) (congrArg sign? ht) hsign]
    | false =>
      have hfinite' : y.isInf = false := hsizes ▸ hfinite
      have hvalue := (writes_unsignedText hnumber hfinite).value
      rw [h, (writes_unsignedText hnumber' hfinite').value] at hvalue
      exact IsFinite.eq ⟨hnumber, hfinite⟩ ⟨hnumber', hfinite'⟩ hsign hvalue.symm

/-- A literal tells its number from all others. -/
theorem literal_injective {x y : Float} (h : literal x = literal y) : x = y := by
  rw [literal_eq, literal_eq] at h
  obtain ⟨c, r, hx, _, _, hplain⟩ := exists_head_unsignedText x
  obtain ⟨d, l, hy, _, _, hplain'⟩ := exists_head_unsignedText y
  -- no literal goes on with a second sign
  have hone {z : Float} {b : Char} {k : List Char} (hz : (unsignedText z).toList = b :: k)
      (hb : b ≠ '-') (t : String) : unsignedText z ≠ "-" ++ t := by
    intro heq
    rw [heq, String.toList_append] at hz
    exact hb (List.cons.inj hz).1.symm
  cases hsx : !x.isNaN && isNegative x <;> cases hsy : !y.isNaN && isNegative y <;>
    simp only [hsx, hsy, Bool.false_eq_true, if_false, if_true, String.empty_append] at h
  · exact eq_of_unsignedText_eq h (hsx.trans hsy.symm)
  · exact absurd h (hone hx hplain _)
  · exact absurd h.symm (hone hy hplain' _)
  · exact eq_of_unsignedText_eq (String.append_right_inj _ |>.mp h) (hsx.trans hsy.symm)

/-- No literal has a comma or a brace in it. -/
theorem literal_plain (x : Float) : ∀ c ∈ (literal x).toList, c ≠ ',' ∧ c ≠ '\x7d' := by
  have hunsigned : ∀ c ∈ (unsignedText x).toList, c ≠ ',' ∧ c ≠ '\x7d' := by
    cases hnumber : x.isNaN with
    | true =>
      rw [unsignedText_of_isNaN hnumber]
      simp
    | false =>
      cases hfinite : x.isInf with
      | true =>
        rw [unsignedText_of_isInf hnumber hfinite]
        simp
      | false =>
        intro c hc
        rcases (writes_unsignedText hnumber hfinite).numerals c hc with hdigit | hmark
        · constructor <;> rintro rfl <;> exact absurd hdigit (by decide)
        · rcases hmark with rfl | rfl | rfl | rfl <;> decide
  intro c hc
  rw [literal_eq, String.toList_append, List.mem_append] at hc
  rcases hc with hc | hc
  · split at hc
    · rw [List.mem_singleton.mp hc]
      decide
    · exact nomatch hc
  · exact hunsigned c hc

end Phrasebook.Decimal
