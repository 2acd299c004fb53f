import Phrasebook.Proofs.ReadTrees

/-!
Whole numbers are read back. A floating-point number that is whole is written with the digits of
its value, however many there are, and reading them rounds to the number itself.
-/
namespace Phrasebook.Floats

open Float.Model Float.Model.UnpackedFloat

/-! ### Rounding what needs no rounding -/

/-- The mantissa and the exponent of a finite number: the exponent is not too small, and the mantissa
is as long as it can be unless the exponent is the least. -/
structure Canonical (m : Nat) (e : Int) : Prop where
  pos : 0 < m
  lt : m < 2 ^ 53
  least : -1074 ≤ e
  most : e ≤ 971
  full : e = -1074 ∨ 2 ^ 52 ≤ m

theorem canonical_of_unpack {x : Float} {s : Sign} {m : Nat} {e : Int} {hm : 0 < m}
    (h : x.toModel.unpack = .finite s m e hm) : Canonical m e := by
  have hbias : Format.binary64.exponentBias = 1023 := rfl
  rw [Float.Model.unpack, UnpackedFloat.unpack] at h
  simp only [hbias] at h
  generalize x.toModel.toBits.toBitVec = b at h
  have hexponent : (@unpackExponent Format.binary64 b).toNat < 2048 := BitVec.isLt _
  have hmantissa : (@unpackMantissa Format.binary64 b).toNat < 2 ^ 52 := BitVec.isLt _
  split at h
  · split at h <;> cases h
  · rename_i hlast
    have hlast' : (@unpackExponent Format.binary64 b).toNat ≠ 2047 :=
      fun h0 => hlast (BitVec.eq_of_toNat_eq h0)
    split at h
    -- without its leading bit a mantissa comes with the least exponent
    · rename_i hzero
      split at h
      · cases h
      · obtain ⟨-, rfl, rfl⟩ := UnpackedFloat.finite.inj h
        rw [hzero]
        exact ⟨hm, by omega, by decide, by decide, .inl (by decide)⟩
    -- with it the mantissa has all of its 53 bits
    · rename_i hzero
      have hzero' : (@unpackExponent Format.binary64 b).toNat ≠ 0 :=
        fun h0 => hzero (BitVec.eq_of_toNat_eq h0)
      obtain ⟨-, rfl, rfl⟩ := UnpackedFloat.finite.inj h
      have happ := toNat_one_append (@unpackMantissa Format.binary64 b)
      refine ⟨hm, ?_, ?_, ?_, .inr ?_⟩
      · omega
      · push_cast
        omega
      · push_cast
        omega
      · omega

theorem totalExponent_mul_pow {m : Nat} (hm : 0 < m) (e : Int) (k : Nat) :
    totalExponent (m * 2 ^ k) (e - k) = totalExponent m e := by
  have hlog : (m * 2 ^ k).log2 = m.log2 + k := by
    have hle := Nat.log2_self_le (Nat.ne_of_gt hm)
    have hlt := Nat.lt_log2_self (n := m)
    have hpos : 0 < 2 ^ k := Nat.two_pow_pos k
    rw [Nat.log2_eq_iff (by positivity)]
    constructor
    · rw [Nat.pow_add]
      exact Nat.mul_le_mul_right _ hle
    · rw [Nat.add_right_comm, Nat.pow_add]
      exact Nat.mul_lt_mul_of_pos_right hlt hpos
  rw [totalExponent, totalExponent, hlog]
  omega

namespace Canonical

variable {m : Nat} {e : Int}

theorem targetExponent (h : Canonical m e) :
    Format.binary64.targetExponent (totalExponent m e) = e := by
  have hbits : (Format.binary64.mantissaBits : Int) = 53 := rfl
  have hmin : Format.binary64.minExponent = -1074 := rfl
  have hlog : m.log2 ≤ 52 :=
    Nat.le_of_lt_succ ((Nat.log2_lt (Nat.ne_of_gt h.pos)).mpr h.lt)
  have hleast := h.least
  rw [Format.targetExponent, totalExponent, hbits, hmin]
  rcases h.full with hfull | hfull
  · omega
  · have hlog' : 52 ≤ m.log2 := (Nat.le_log2 (Nat.ne_of_gt h.pos)).mpr hfull
    omega

end Canonical

/-- Zeros at the end of a mantissa are shifted out without a trace. -/
theorem shiftRight_mul_pow (m k : Nat) :
    ExtendedMantissa.mk (m * 2 ^ k) false false >>> k = ⟨m, false, false⟩ := by
  induction k generalizing m with
  | zero =>
    rw [Nat.pow_zero, Nat.mul_one]
    rfl
  | succ k ih =>
    have hsplit : m * 2 ^ (k + 1) = m * 2 * 2 ^ k := by
      rw [Nat.pow_succ, Nat.mul_comm (2 ^ k), Nat.mul_assoc]
    change ExtendedMantissa.shiftRightOne
      (ExtendedMantissa.mk (m * 2 ^ (k + 1)) false false >>> k) = _
    rw [hsplit, ih, ExtendedMantissa.shiftRightOne]
    simp

theorem shiftToTargetExponent_mul_pow {m : Nat} {e : Int} (h : Canonical m e) (k : Nat) :
    shiftToTargetExponent Format.binary64 (m * 2 ^ k) (e - k) .exact = (⟨m, false, false⟩, e) := by
  have hshift : (e - (e - k)).toNat = k := by omega
  rw [shiftToTargetExponent, totalExponent_mul_pow h.pos, h.targetExponent]
  simp only [shiftToExponent, hshift, ExtendedMantissa.ofMantissaAndAccuracy, shiftRight_mul_pow,
    Int.sub_add_cancel]

/-- A number that has a mantissa and an exponent rounds to them. -/
theorem roundWithAccuracy_mul_pow {m : Nat} {e : Int} (h : Canonical m e) (s : Sign) (k : Nat) :
    roundWithAccuracy Format.binary64 s (m * 2 ^ k) (e - k) .exact = .finite s m e h.pos := by
  have hagain := shiftToTargetExponent_mul_pow h 0
  rw [Nat.pow_zero, Nat.mul_one, Int.natCast_zero, Int.sub_zero] at hagain
  rw [roundWithAccuracy, shiftToTargetExponent_mul_pow h]
  simp only [ExtendedMantissa.roundedMantissa, ExtendedMantissa.accuracy,
    Accuracy.roundToNearestEven, hagain, dif_neg (Nat.ne_of_gt h.pos)]

/-! ### Whole numbers -/

/-- The value of a whole number that is not below zero. -/
def wholePart (x : Float) : Nat :=
  match x.toModel.unpack with
  | .finite _ m e _ => m * 2 ^ e.toNat / 2 ^ (-e).toNat
  | _ => 0

/-- A whole number that is not below zero: it is finite and has neither a sign nor a fraction. -/
def IsWhole (x : Float) : Prop :=
  match x.toModel.unpack with
  | .finite s m e _ => s = .positive ∧ 2 ^ (-e).toNat ∣ m
  | .zero s => s = .positive
  | _ => False

/-- The two ways in which a whole number is one: it is its mantissa with zeros behind it, or zeros
are cut off its mantissa. -/
theorem exists_shift {m n : Nat} {e : Int} (h : n * 2 ^ (-e).toNat = m * 2 ^ e.toNat) :
    ∃ k : Nat, (e = k ∧ n = m * 2 ^ k) ∨ (e = -k ∧ m = n * 2 ^ k) := by
  rcases Int.le_total 0 e with he | he
  · have hzero : (-e).toNat = 0 := by omega
    rw [hzero, Nat.pow_zero, Nat.mul_one] at h
    exact ⟨e.toNat, .inl ⟨by omega, h⟩⟩
  · have hzero : e.toNat = 0 := by omega
    rw [hzero, Nat.pow_zero, Nat.mul_one] at h
    exact ⟨(-e).toNat, .inr ⟨by omega, h.symm⟩⟩

theorem Canonical.ofNat {m n : Nat} {e : Int} (h : Canonical m e)
    (hn : n * 2 ^ (-e).toNat = m * 2 ^ e.toNat) :
    UnpackedFloat.ofNat Format.binary64 n = .finite .positive m e h.pos := by
  have hpos : 0 < n := by
    rcases Nat.eq_zero_or_pos n with rfl | hpos
    · have hright : 0 < m * 2 ^ e.toNat := Nat.mul_pos h.pos (Nat.two_pow_pos _)
      omega
    · exact hpos
  have hgt : compare (n : Int) 0 = .gt := by
    rw [compare_gt_iff_gt]
    omega
  have hround : UnpackedFloat.ofNat Format.binary64 n =
      UnpackedFloat.round Format.binary64 .positive n 0 := by
    rw [UnpackedFloat.ofNat, UnpackedFloat.ofInt, UnpackedFloat.normalize]
    simp only [hgt, Int.toNat_natCast]
  obtain ⟨k, ⟨rfl, rfl⟩ | ⟨rfl, rfl⟩⟩ := exists_shift hn
  · -- the zeros behind the mantissa are rounded away
    have htotal : totalExponent (m * 2 ^ k) 0 = totalExponent m k := by
      rw [← totalExponent_mul_pow h.pos k k, Int.sub_self]
    have hshift : (0 - (k : Int)).toNat = 0 := by omega
    have hexact := roundWithAccuracy_mul_pow h .positive k
    rw [Int.sub_self] at hexact
    rw [hround, UnpackedFloat.round, htotal, h.targetExponent]
    simp only [decreaseExponent, hshift, Nat.shiftLeft_zero, Int.natCast_zero, Int.sub_zero, hexact]
  · -- the mantissa is filled up with zeros
    have htotal : totalExponent n 0 = totalExponent (n * 2 ^ k) (-k) := by
      rw [← totalExponent_mul_pow hpos 0 k, Int.zero_sub]
    have hshift : (- -(k : Int)).toNat = k := by omega
    have hexact := roundWithAccuracy_mul_pow h .positive 0
    rw [Nat.pow_zero, Nat.mul_one, Int.natCast_zero, Int.sub_zero] at hexact
    rw [hround, UnpackedFloat.round, htotal, h.targetExponent]
    simp only [decreaseExponent, Int.zero_sub, hshift, Nat.shiftLeft_eq, hexact]

/-- A whole number is written as the decimal fraction without a fraction. -/
theorem ofScientific_of_unpack {x : Float} {m n : Nat} {e : Int} {hm : 0 < m}
    (hx : x.toModel.unpack = .finite .positive m e hm)
    (hn : n * 2 ^ (-e).toNat = m * 2 ^ e.toNat) : Float.ofScientific n false 0 = x := by
  have h := canonical_of_unpack hx
  rw [Float.ofScientific]
  split
  · rename_i hsmall
    -- the number itself is exact, and so is its product with one
    have hnat : n.toUInt64.toFloat = x := by
      have hvalue : n.toUInt64.toNat = n := by
        rw [UInt64.toNat_ofNat']
        exact Nat.mod_eq_of_lt (by omega)
      rw [← ofModel_pack_unpack x, hx, ← h.ofNat hn]
      change Float.ofModel (Float.Model.pack (UnpackedFloat.ofNat Format.binary64
        n.toUInt64.toNat)) = _
      rw [hvalue]
    have hone : (Float.ofBits 0x3FF0000000000000).toModel.unpack =
        .finite .positive (2 ^ 52) (-52) (by decide) := rfl
    have hexact := roundWithAccuracy_mul_pow h .positive 52
    have hmul : UnpackedFloat.mul Format.binary64 x.toModel.unpack
        (Float.ofBits 0x3FF0000000000000).toModel.unpack = x.toModel.unpack := by
      rw [hx, hone, UnpackedFloat.mul]
      exact hexact
    rw [hnat]
    change Float.ofModel (Float.Model.pack (UnpackedFloat.mul Format.binary64 x.toModel.unpack
      (Float.ofBits 0x3FF0000000000000).toModel.unpack)) = x
    rw [hmul, ofModel_pack_unpack]
  · rename_i hlarge
    -- so large a number has its mantissa without a fraction
    obtain ⟨k, ⟨rfl, rfl⟩ | ⟨rfl, rfl⟩⟩ := exists_shift hn
    · have hexact := roundWithAccuracy_mul_pow h .positive (k + 53)
      have hmantissa : (m * 2 ^ k) <<< 53 * 10 ^ (0 : Int).toNat = m * 2 ^ (k + 53) := by
        have hone : 10 ^ (0 : Int).toNat = 1 := rfl
        rw [hone, Nat.mul_one, Nat.shiftLeft_eq, Nat.mul_assoc, ← Nat.pow_add]
      have hexponent : -(53 : Int) + 0 = k - (k + 53 : Nat) := by omega
      have hmodel : UnpackedFloat.ofScientific Format.binary64 (m * 2 ^ k) 0 = x.toModel.unpack := by
        have hbits : (2 : Int) ^ Format.binary64.exponentBits = 2048 := rfl
        rw [UnpackedFloat.ofScientific, hbits, dif_neg (by omega), if_neg (by decide),
          if_neg (by omega), if_pos (Int.le_refl 0), hx, ← hexact, UnpackedFloat.mul]
        change roundWithAccuracy Format.binary64 .positive
          ((m * 2 ^ k) <<< 53 * 10 ^ (0 : Int).toNat) (-(53 : Int) + 0) .exact = _
        rw [hmantissa, hexponent]
      change Float.ofModel (Float.Model.pack (UnpackedFloat.ofScientific Format.binary64 _ 0)) = x
      rw [hmodel, ofModel_pack_unpack]
    · have hle : n ≤ n * 2 ^ k := Nat.le_mul_of_pos_right n (Nat.two_pow_pos k)
      have hlt := h.lt
      omega

end Phrasebook.Floats

namespace Phrasebook.Decimal

open Floats

theorem natOfDigits_toDigits (n : Nat) : natOfDigits 10 hexValue (Nat.toDigits 10 n) = n := by
  have hfold (cs : List Char) (h : ∀ c ∈ cs, c.isDigit = true) (init : Nat) :
      cs.foldl (fun n c => n * 10 + hexValue c) init = Nat.ofDigitChars 10 cs init := by
    induction cs generalizing init with
    | nil => rfl
    | cons c r ih =>
      have hc : hexValue c = c.toNat - '0'.toNat := if_pos (h c List.mem_cons_self)
      rw [List.foldl_cons, Nat.ofDigitChars_cons, hc, Nat.mul_comm init,
        ih fun d hd => h d (List.mem_cons_of_mem _ hd)]
  rw [natOfDigits, hfold _ fun c hc => Nat.isDigit_of_mem_toDigits (by decide) (by decide) hc,
    Nat.ofDigitChars_ten_toDigits]

/-- The value of a whole number has few digits. -/
theorem length_toDigits_le {x : Float} {m n : Nat} {e : Int} {hm : 0 < m}
    (hx : x.toModel.unpack = .finite .positive m e hm)
    (hn : n * 2 ^ (-e).toNat = m * 2 ^ e.toNat) : (Nat.toDigits 10 n).length ≤ 310 := by
  have h := canonical_of_unpack hx
  have hmost := h.most
  have hle : n ≤ n * 2 ^ (-e).toNat := Nat.le_mul_of_pos_right n (Nat.two_pow_pos _)
  have hpow : 2 ^ e.toNat ≤ 2 ^ 971 := by
    gcongr
    · decide
    · omega
  have hlt : n < 10 ^ 310 := by
    calc n ≤ m * 2 ^ e.toNat := hn ▸ hle
      _ ≤ 2 ^ 53 * 2 ^ 971 := Nat.mul_le_mul (Nat.le_of_lt h.lt) hpow
      _ < 10 ^ 310 := by decide +kernel
  exact Nat.toDigits_length 10 n 310 (by decide) hlt

/-- A whole number is the one nearest to its value. -/
theorem nearestDecimal_wholePart {x : Float} (h : IsWhole x) :
    nearestDecimal (wholePart x) 0 = x := by
  unfold IsWhole at h
  unfold wholePart
  cases hx : x.toModel.unpack with
  | notANumber | infinity =>
    rw [hx] at h
    exact h.elim
  | zero s =>
    rw [hx] at h
    obtain rfl : s = .positive := h
    exact (eq_of_unpack_eq hx).symm
  | finite s m e hm =>
    rw [hx] at h
    obtain ⟨rfl, hdvd⟩ := h
    have hn : m * 2 ^ e.toNat / 2 ^ (-e).toNat * 2 ^ (-e).toNat = m * 2 ^ e.toNat :=
      Nat.div_mul_cancel (Dvd.dvd.mul_right hdvd _)
    have hpos : m * 2 ^ e.toNat / 2 ^ (-e).toNat ≠ 0 := by
      intro hzero
      rw [hzero, Nat.zero_mul] at hn
      have hvalue : 0 < m * 2 ^ e.toNat := Nat.mul_pos hm (Nat.two_pow_pos _)
      omega
    have hlength := length_toDigits_le hx hn
    have hone : Nat.pow 10 (Int.natAbs 0) = 1 := rfl
    simp only [nearestDecimal, if_neg hpos]
    rw [if_neg (by omega), if_neg (by omega), if_neg (by decide), hone, Nat.mul_one]
    exact ofScientific_of_unpack hx hn

theorem eq_zero_of_wholePart {x : Float} (h : IsWhole x) (hx : wholePart x = 0) : x = 0 := by
  rw [← nearestDecimal_wholePart h, hx]
  rfl

theorem isInf_of_isWhole {x : Float} (h : IsWhole x) : x.isInf = false := by
  change x.toModel.unpack.isInf = false
  unfold IsWhole at h
  cases hx : x.toModel.unpack with
  | infinity =>
    rw [hx] at h
    exact h.elim
  | notANumber | zero | finite => rfl

/-- The digits of a whole number are read as the number. -/
theorem read?_toDigits {x : Float} (h : IsWhole x) :
    read? (Nat.toDigits 10 (wholePart x)) = some x := by
  have hdigits : ∀ c ∈ Nat.toDigits 10 (wholePart x), c.isDigit = true :=
    fun c hc => Nat.isDigit_of_mem_toDigits (by decide) (by decide) hc
  have hnumber : ∀ c ∈ Nat.toDigits 10 (wholePart x), Message.isNumberChar c = true :=
    fun c hc => isNumberChar_of_isDigit (hdigits c hc)
  have hne : Nat.toDigits 10 (wholePart x) ≠ [] := Nat.toDigits_ne_nil
  have hunsigned : readUnsigned? (Nat.toDigits 10 (wholePart x)) = some x := by
    rw [readUnsigned?_eq hnumber, readDecimal?_digits hne hdigits, natOfDigits_toDigits,
      nearestDecimal_wholePart h]
  have hfinite : (some x).filter (fun y => !y.isInf) = some x := by
    rw [Option.filter_some, isInf_of_isWhole h]
    rfl
  unfold read?
  rw [named?_eq_none hnumber]
  simp only
  split
  · rename_i heq
    exact absurd (hdigits '+' (heq ▸ List.mem_cons_self)) (by decide)
  · rename_i heq
    exact absurd (hdigits '-' (heq ▸ List.mem_cons_self)) (by decide)
  · rw [hunsigned, hfinite]

end Phrasebook.Decimal
