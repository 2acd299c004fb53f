import Phrasebook.Proofs.Numbers
import Phrasebook.Proofs.WholeNumbers

/-!
Whole numbers keep their order. A whole number becomes the floating-point number nearest to it, and
of two whole numbers the larger one becomes no smaller number.
-/
namespace Phrasebook.Floats

open Float.Model Float.Model.UnpackedFloat

/-! ### Rounding -/

theorem mod_pow_succ_ne_zero_iff (a k : Nat) :
    a % 2 ^ (k + 1) ≠ 0 ↔ a / 2 ^ k % 2 ≠ 0 ∨ a % 2 ^ k ≠ 0 := by
  have hpos : 0 < 2 ^ k := Nat.two_pow_pos k
  have hsplit : a % 2 ^ (k + 1) = a % 2 ^ k + 2 ^ k * (a / 2 ^ k % 2) := Nat.mod_pow_succ
  constructor
  · intro h
    by_contra hnone
    obtain ⟨hbit, hlow⟩ := not_or.mp hnone
    rw [not_not] at hbit hlow
    rw [hbit, hlow] at hsplit
    exact h hsplit
  · intro h hzero
    rcases Nat.mod_two_eq_zero_or_one (a / 2 ^ k) with hbit | hbit
    · rw [hbit] at h hsplit
      omega
    · rw [hbit] at hsplit
      omega

/-- The bits behind a shifted mantissa: the first of them, and whether any other is set. -/
theorem shiftRight_succ (a k : Nat) :
    ExtendedMantissa.mk a false false >>> (k + 1) =
      ⟨a / 2 ^ (k + 1), a / 2 ^ k % 2 != 0, a % 2 ^ k != 0⟩ := by
  induction k with
  | zero =>
    change ExtendedMantissa.shiftRightOne ⟨a, false, false⟩ = _
    simp [ExtendedMantissa.shiftRightOne, Nat.mod_one]
  | succ k ih =>
    change ExtendedMantissa.shiftRightOne (ExtendedMantissa.mk a false false >>> (k + 1)) = _
    have hquotient : a / 2 ^ (k + 1) / 2 = a / 2 ^ (k + 1 + 1) := by
      rw [Nat.div_div_eq_div_mul, ← Nat.pow_succ]
    -- the bit that came first joins those of which is known only whether any is set
    have hsticky : (a / 2 ^ k % 2 != 0 || a % 2 ^ k != 0) = (a % 2 ^ (k + 1) != 0) := by
      rw [Bool.eq_iff_iff, Bool.or_eq_true, bne_iff_ne, bne_iff_ne, bne_iff_ne]
      exact (mod_pow_succ_ne_zero_iff a k).symm
    rw [ih, ExtendedMantissa.shiftRightOne]
    simp only [hquotient, hsticky]

/-- A mantissa is rounded up if more than half of its last place is cut off, or if it is half and the
mantissa is odd. -/
def roundUp (q : Nat) (half rest : Bool) : Nat :=
  if half && (rest || q % 2 == 1) then q + 1 else q

theorem roundedMantissa_eq (q : Nat) (half rest : Bool) :
    (ExtendedMantissa.mk q half rest).roundedMantissa = roundUp q half rest := by
  have hparity := Nat.mod_two_eq_zero_or_one q
  cases half <;> cases rest <;>
    simp only [ExtendedMantissa.roundedMantissa, ExtendedMantissa.accuracy,
      Accuracy.roundToNearestEven, roundUp] <;>
    rcases hparity with h | h <;> simp [h]

theorem le_roundUp (q : Nat) (half rest : Bool) : q ≤ roundUp q half rest := by
  unfold roundUp
  split <;> omega

theorem roundUp_le (q : Nat) (half rest : Bool) : roundUp q half rest ≤ q + 1 := by
  unfold roundUp
  split <;> omega

/-- A mantissa with its last `k + 1` bits rounded off. -/
def roundOff (a k : Nat) : Nat :=
  roundUp (a / 2 ^ (k + 1)) (a / 2 ^ k % 2 != 0) (a % 2 ^ k != 0)

theorem roundOff_le_roundOff {a b : Nat} (h : a ≤ b) (k : Nat) : roundOff a k ≤ roundOff b k := by
  have hquotient : a / 2 ^ (k + 1) ≤ b / 2 ^ (k + 1) := Nat.div_le_div_right h
  rcases Nat.lt_or_eq_of_le hquotient with hlt | heq
  · calc
      roundOff a k ≤ a / 2 ^ (k + 1) + 1 := roundUp_le _ _ _
      _ ≤ b / 2 ^ (k + 1) := hlt
      _ ≤ roundOff b k := le_roundUp _ _ _
  · -- what is cut off decides
    have hdouble (c : Nat) : c / 2 ^ (k + 1) = c / 2 ^ k / 2 := by
      rw [Nat.div_div_eq_div_mul, ← Nat.pow_succ]
    have hnext : a / 2 ^ k ≤ b / 2 ^ k := Nat.div_le_div_right h
    unfold roundOff roundUp
    rw [heq]
    rw [hdouble, hdouble] at heq
    by_cases hup : ((a / 2 ^ k % 2 != 0) &&
        ((a % 2 ^ k != 0) || (b / 2 ^ (k + 1) % 2 == 1))) = true
    · rw [if_pos hup, if_pos]
      simp only [Bool.and_eq_true, Bool.or_eq_true, bne_iff_ne, beq_iff_eq] at hup ⊢
      obtain ⟨hhalf, hrest⟩ := hup
      have hsame : a / 2 ^ k = b / 2 ^ k := by omega
      have hlow : a % 2 ^ k ≤ b % 2 ^ k := by
        have ha := Nat.div_add_mod a (2 ^ k)
        have hb := Nat.div_add_mod b (2 ^ k)
        rw [hsame] at ha
        omega
      refine ⟨hsame ▸ hhalf, ?_⟩
      omega
    · rw [if_neg hup]
      split <;> omega

/-! ### Mantissas of full length -/

/-- The mantissa and the exponent of a number that is not small, however large it is. -/
structure Full (m : Nat) (e : Int) : Prop where
  low : 2 ^ 52 ≤ m
  high : m < 2 ^ 53
  least : -1074 ≤ e

namespace Full

variable {m : Nat} {e : Int}

theorem pos (h : Full m e) : 0 < m :=
  Nat.lt_of_lt_of_le (by decide) h.low

theorem log2_eq (h : Full m e) : m.log2 = 52 := by
  rw [Nat.log2_eq_iff (Nat.ne_of_gt h.pos)]
  exact ⟨h.low, h.high⟩

/-- There is nothing to shift. -/
theorem shiftToTargetExponent (h : Full m e) :
    shiftToTargetExponent Format.binary64 m e .exact = (⟨m, false, false⟩, e) := by
  have hbits : (Format.binary64.mantissaBits : Int) = 53 := rfl
  have hmin : Format.binary64.minExponent = -1074 := rfl
  have htarget : Format.binary64.targetExponent (totalExponent m e) = e := by
    have hleast := h.least
    rw [Format.targetExponent, totalExponent, hbits, hmin, h.log2_eq]
    omega
  have hshift : (e - e).toNat = 0 := by omega
  rw [UnpackedFloat.shiftToTargetExponent, htarget, shiftToExponent, hshift]
  exact congrArg _ (Int.add_zero e)

end Full

/-- A mantissa that was rounded to the next power of two loses its last place. -/
theorem shiftToTargetExponent_carry {e : Int} (he : -1074 ≤ e) :
    shiftToTargetExponent Format.binary64 (2 ^ 53) e .exact = (⟨2 ^ 52, false, false⟩, e + 1) := by
  have hbits : (Format.binary64.mantissaBits : Int) = 53 := rfl
  have hmin : Format.binary64.minExponent = -1074 := rfl
  have htarget : Format.binary64.targetExponent (totalExponent (2 ^ 53) e) = e + 1 := by
    rw [Format.targetExponent, totalExponent, hbits, hmin, Nat.log2_two_pow]
    omega
  have hshift : (e + 1 - e).toNat = 1 := by omega
  rw [shiftToTargetExponent, htarget, shiftToExponent, hshift]
  rfl

/-! ### Whole numbers, rounded -/

/-- What a whole number is rounded to. -/
def roundedWhole (n : Nat) : UnpackedFloat :=
  roundWithAccuracy Format.binary64 .positive (n * 2 ^ 53) (-53) .exact

/-- The mantissa of a whole number before it is looked at for a carry. -/
theorem roundOff_bounds {n : Nat} (hn : 0 < n) :
    2 ^ 52 ≤ roundOff (n * 2 ^ 53) n.log2 ∧ roundOff (n * 2 ^ 53) n.log2 ≤ 2 ^ 53 := by
  have hpos : 0 < 2 ^ (n.log2 + 1) := Nat.two_pow_pos _
  have hlow : 2 ^ 52 ≤ n * 2 ^ 53 / 2 ^ (n.log2 + 1) := by
    rw [Nat.le_div_iff_mul_le hpos]
    calc
      2 ^ 52 * 2 ^ (n.log2 + 1) = 2 ^ n.log2 * 2 ^ 53 := by
        rw [← Nat.pow_add, ← Nat.pow_add]
        congr 1
        omega
      _ ≤ n * 2 ^ 53 := Nat.mul_le_mul_right _ (Nat.log2_self_le (Nat.ne_of_gt hn))
  have hhigh : n * 2 ^ 53 / 2 ^ (n.log2 + 1) < 2 ^ 53 := by
    rw [Nat.div_lt_iff_lt_mul hpos, Nat.mul_comm]
    exact Nat.mul_lt_mul_of_pos_left Nat.lt_log2_self (Nat.two_pow_pos 53)
  constructor
  · exact le_trans hlow (le_roundUp _ _ _)
  · exact le_trans (roundUp_le _ _ _) hhigh

theorem shiftToTargetExponent_whole {n : Nat} (hn : 0 < n) :
    (shiftToTargetExponent Format.binary64 (n * 2 ^ 53) (-53) .exact).1.roundedMantissa =
        roundOff (n * 2 ^ 53) n.log2 ∧
      (shiftToTargetExponent Format.binary64 (n * 2 ^ 53) (-53) .exact).2 = n.log2 - 52 := by
  have hbits : (Format.binary64.mantissaBits : Int) = 53 := rfl
  have hmin : Format.binary64.minExponent = -1074 := rfl
  have htotal : totalExponent (n * 2 ^ 53) (-53) = n.log2 + 1 := by
    have h := totalExponent_mul_pow hn 0 53
    rw [totalExponent, totalExponent] at *
    omega
  have htarget : Format.binary64.targetExponent (totalExponent (n * 2 ^ 53) (-53)) =
      n.log2 - 52 := by
    rw [htotal, Format.targetExponent, hbits, hmin]
    omega
  have hshift : ((n.log2 : Int) - 52 - -53).toNat = n.log2 + 1 := by omega
  rw [shiftToTargetExponent, htarget, shiftToExponent, hshift]
  constructor
  · change (ExtendedMantissa.mk (n * 2 ^ 53) false false >>> (n.log2 + 1)).roundedMantissa = _
    rw [shiftRight_succ, roundedMantissa_eq, roundOff]
  · push_cast
    omega

/-- The mantissa of a rounded whole number, with one place more if it is rounded to the next power of
two. -/
theorem exists_roundedWhole {n : Nat} (hn : 0 < n) :
    ∃ m e, ∃ h : Full m e, roundedWhole n = .finite .positive m e h.pos ∧
      ((m = roundOff (n * 2 ^ 53) n.log2 ∧ e = n.log2 - 52) ∨
        (roundOff (n * 2 ^ 53) n.log2 = 2 ^ 53 ∧ m = 2 ^ 52 ∧ e = n.log2 - 51)) := by
  obtain ⟨hlow, hhigh⟩ := roundOff_bounds hn
  obtain ⟨hmantissa, hexponent⟩ := shiftToTargetExponent_whole hn
  rcases Nat.lt_or_eq_of_le hhigh with hlt | hcarry
  · have hfull : Full (roundOff (n * 2 ^ 53) n.log2) (n.log2 - 52) := ⟨hlow, hlt, by omega⟩
    refine ⟨_, _, hfull, ?_, .inl ⟨rfl, rfl⟩⟩
    rw [roundedWhole, roundWithAccuracy]
    simp only [hmantissa, hexponent, hfull.shiftToTargetExponent, dif_neg (Nat.ne_of_gt hfull.pos)]
  · have hfull : Full (2 ^ 52) (n.log2 - 51) := ⟨by decide, by decide, by omega⟩
    refine ⟨_, _, hfull, ?_, .inr ⟨hcarry, rfl, rfl⟩⟩
    have hnext : (n.log2 : Int) - 52 + 1 = n.log2 - 51 := by omega
    have hshift := shiftToTargetExponent_carry (e := (n.log2 : Int) - 52) (by omega)
    rw [hnext] at hshift
    rw [roundedWhole, roundWithAccuracy]
    simp only [hmantissa, hexponent, hcarry, hshift, dif_neg (Nat.ne_of_gt hfull.pos)]

/-! ### Packing -/

theorem unpackSign_positive (e : BitVec 11) (m : BitVec 52) :
    @unpackSign Format.binary64 (packComponents Format.binary64 .positive e m) = 0#1 := by
  apply BitVec.eq_of_toNat_eq
  have he := e.isLt
  have hm := m.isLt
  have hs : Sign.positive.toBitVec.toNat = 0 := rfl
  rw [toNat_unpackSign, toNat_packComponents, hs]
  change _ = 0
  omega

/-- A number that fits is unpacked as it was packed. -/
theorem unpack_pack_full {m : Nat} {e : Int} (h : Full m e) (he : e ≤ 971) :
    UnpackedFloat.unpack Format.binary64
      (UnpackedFloat.pack Format.binary64 (.finite .positive m e h.pos)) =
        .finite .positive m e h.pos := by
  obtain ⟨hlow, hhigh, hleast⟩ := id h
  have hbias : (Format.binary64.exponentBias : Int) = 1023 := rfl
  -- the exponent with its bias, and the mantissa without its first bit
  obtain ⟨b, hb⟩ : ∃ b : BitVec 11, (b.toNat : Int) = e + 1075 := by
    refine ⟨BitVec.ofNat 11 (e + 1075).toNat, ?_⟩
    rw [BitVec.toNat_ofNat]
    omega
  obtain ⟨f, hf⟩ : ∃ f : BitVec 52, (1#1 ++ f).toNat = m := by
    refine ⟨BitVec.ofNat 52 (m - 2 ^ 52), ?_⟩
    rw [toNat_one_append, BitVec.toNat_ofNat]
    omega
  have hexponent : (b.toNat : Int) - (Format.binary64.exponentBias + 52) = e := by
    rw [hbias]
    omega
  have hpack : UnpackedFloat.pack Format.binary64 (.finite .positive m e h.pos) =
      packComponents Format.binary64 .positive b f := by
    have hpos : 0 < (1#1 ++ f).toNat := hf ▸ h.pos
    have hnormal := pack_normal .positive b f (by omega) hpos
    simp only [hexponent] at hnormal
    simp only [hf] at hnormal
    exact hnormal
  have hlast : b ≠ -1#11 := by
    intro heq
    have hvalue : b.toNat = 2047 := congrArg BitVec.toNat heq
    omega
  have hfirst : b ≠ 0#11 := by
    intro heq
    have hvalue : b.toNat = 0 := congrArg BitVec.toNat heq
    omega
  rw [hpack, UnpackedFloat.unpack]
  simp only [unpackExponent_packComponents, unpackMantissa_packComponents, unpackSign_positive]
  rw [if_neg hlast, if_neg hfirst]
  change UnpackedFloat.finite .positive (1#1 ++ f).toNat
    ((b.toNat : Int) - (Format.binary64.exponentBias + 52)) _ = _
  simp only [hf, hexponent]

/-- A number that is too large is packed as an infinite one. -/
theorem unpack_pack_infinity {m : Nat} {e : Int} (h : Full m e) (he : 971 < e) :
    UnpackedFloat.unpack Format.binary64
      (UnpackedFloat.pack Format.binary64 (.finite .positive m e h.pos)) =
        .infinity .positive := by
  have hbias : (Format.binary64.exponentBias : Int) = 1023 := rfl
  rw [UnpackedFloat.pack]
  simp only [hbias]
  rw [if_pos]
  · rfl
  · have hlimit : (2 : Nat) ^ 11 = 2048 := rfl
    change 2 ^ 11 ≤ (e + 1023 + (52 : Nat)).toNat + 1
    omega

/-! ### Order -/

/-- A number that has no more digits than a mantissa is not rounded. -/
theorem unpack_toFloat_small {n : Nat} (hn : 0 < n) (hsmall : n < 2 ^ 53) :
    (Float.ofScientific n false 0).toModel.unpack =
      UnpackedFloat.unpack Format.binary64 (UnpackedFloat.pack Format.binary64 (roundedWhole n)) := by
  -- the mantissa is filled up with zeros
  obtain ⟨k, hk⟩ : ∃ k, n.log2 + k = 52 := by
    have hlog : n.log2 < 53 := (Nat.log2_lt (Nat.ne_of_gt hn)).mpr hsmall
    exact ⟨52 - n.log2, by omega⟩
  have hlow : 2 ^ 52 ≤ n * 2 ^ k := by
    rw [← hk, Nat.pow_add]
    exact Nat.mul_le_mul_right _ (Nat.log2_self_le (Nat.ne_of_gt hn))
  have hhigh : n * 2 ^ k < 2 ^ 53 := by
    calc
      n * 2 ^ k < 2 ^ (n.log2 + 1) * 2 ^ k :=
        Nat.mul_lt_mul_of_pos_right Nat.lt_log2_self (Nat.two_pow_pos k)
      _ = 2 ^ 53 := by
        rw [← Nat.pow_add]
        congr 1
        omega
  have hfull : Full (n * 2 ^ k) (-k) := ⟨hlow, hhigh, by omega⟩
  have hcanonical : Canonical (n * 2 ^ k) (-k) :=
    ⟨hfull.pos, hhigh, hfull.least, by omega, .inr hlow⟩
  have hvalue : n * 2 ^ (- -(k : Int)).toNat = n * 2 ^ k * 2 ^ (-(k : Int)).toNat := by
    have hshift : (- -(k : Int)).toNat = k := by omega
    have hzero : (-(k : Int)).toNat = 0 := by omega
    rw [hshift, hzero, Nat.pow_zero, Nat.mul_one]
  have hunpack := unpack_pack_full hfull (by omega)
  have hrounded : roundedWhole n = .finite .positive (n * 2 ^ k) (-k) hfull.pos := by
    have hmantissa : n * 2 ^ k * 2 ^ (53 - k) = n * 2 ^ 53 := by
      rw [Nat.mul_assoc, ← Nat.pow_add]
      congr 2
      omega
    have hexponent : -(k : Int) - (53 - k : Nat) = -53 := by omega
    have hround := roundWithAccuracy_mul_pow hcanonical .positive (53 - k)
    rw [hmantissa, hexponent] at hround
    exact hround
  have hexact : Float.ofScientific n false 0 =
      .ofModel (Float.Model.pack (.finite .positive (n * 2 ^ k) (-k) hfull.pos)) :=
    ofScientific_of_unpack hunpack hvalue
  rw [hexact, hrounded]
  rfl

theorem unpack_toFloat {n : Nat} (hn : 0 < n) :
    n.toFloat.toModel.unpack =
      UnpackedFloat.unpack Format.binary64 (UnpackedFloat.pack Format.binary64 (roundedWhole n)) := by
  change (Float.ofScientific n false 0).toModel.unpack = _
  by_cases hsmall : n < 2 ^ 53
  · exact unpack_toFloat_small hn hsmall
  · have hmodel : UnpackedFloat.ofScientific Format.binary64 n 0 = roundedWhole n := by
      have hbits : (2 : Int) ^ Format.binary64.exponentBits = 2048 := rfl
      have hmantissa : n <<< 53 * 10 ^ (0 : Int).toNat = n * 2 ^ 53 := by
        have hone : 10 ^ (0 : Int).toNat = 1 := rfl
        rw [hone, Nat.mul_one, Nat.shiftLeft_eq]
      rw [UnpackedFloat.ofScientific, hbits, dif_neg (by omega), if_neg (by decide),
        if_neg (by omega), if_pos (Int.le_refl 0), UnpackedFloat.mul]
      change roundWithAccuracy Format.binary64 .positive (n <<< 53 * 10 ^ (0 : Int).toNat)
        (-(53 : Int) + 0) .exact = _
      rw [hmantissa]
      rfl
    rw [Float.ofScientific, dif_neg (by omega), ← hmodel]
    rfl

/-- Rounded numbers are in order if their exponents and, for one exponent, their mantissas are. -/
theorem unpack_pack_le {m m' : Nat} {e e' : Int} (h : Full m e) (h' : Full m' e')
    (hle : e < e' ∨ e = e' ∧ m ≤ m') :
    UnpackedFloat.le
      (UnpackedFloat.unpack Format.binary64
        (UnpackedFloat.pack Format.binary64 (.finite .positive m e h.pos)))
      (UnpackedFloat.unpack Format.binary64
        (UnpackedFloat.pack Format.binary64 (.finite .positive m' e' h'.pos))) = true := by
  rcases Int.lt_or_le 971 e' with hlarge | hfits
  · rw [unpack_pack_infinity h' hlarge]
    rcases Int.lt_or_le 971 e with hlarge | hfits
    · rw [unpack_pack_infinity h hlarge]
      rfl
    · rw [unpack_pack_full h hfits]
      rfl
  · rw [unpack_pack_full h' hfits, unpack_pack_full h (by omega)]
    change (((compare e e').then (compare m m')).isLE) = true
    rcases hle with hlt | ⟨rfl, hle⟩
    · rw [Int.compare_eq_lt.mpr hlt]
      rfl
    · rw [Int.compare_eq_eq.mpr rfl]
      exact Nat.isLE_compare.mpr hle

/-- Of two whole numbers the larger one does not become the smaller floating-point number. -/
theorem toFloat_le_toFloat {n n' : Nat} (h : n ≤ n') : n.toFloat ≤ n'.toFloat := by
  rcases Nat.eq_zero_or_pos n with rfl | hn
  · exact zero_le_of_unsigned (unsigned_ofScientific n') (isNaN_ofScientific n' false 0)
  have hn' : 0 < n' := Nat.lt_of_lt_of_le hn h
  obtain ⟨m, e, hfull, hrounded, hcases⟩ := exists_roundedWhole hn
  obtain ⟨m', e', hfull', hrounded', hcases'⟩ := exists_roundedWhole hn'
  have hlog : n.log2 ≤ n'.log2 := (Nat.le_log2 (Nat.ne_of_gt hn')).mpr
    (le_trans (Nat.log2_self_le (Nat.ne_of_gt hn)) h)
  have hlow := hfull.low
  have hlow' := hfull'.low
  have hhigh := hfull.high
  have hhigh' := hfull'.high
  have horder : e < e' ∨ e = e' ∧ m ≤ m' := by
    rcases Nat.lt_or_eq_of_le hlog with hlt | hsame
    · -- the larger number has more places, and a carry gives the smaller one at most as many
      omega
    · have hround := roundOff_le_roundOff (Nat.mul_le_mul_right (2 ^ 53) h) n.log2
      rw [← hsame] at hcases'
      omega
  refine decide_eq_true (?_ : n.toFloat.toModel ≤ n'.toFloat.toModel)
  change UnpackedFloat.le n.toFloat.toModel.unpack n'.toFloat.toModel.unpack = true
  rw [unpack_toFloat hn, unpack_toFloat hn', hrounded, hrounded']
  exact unpack_pack_le hfull hfull' horder

/-- A number from one on does not become less than one. -/
theorem one_le_toFloat_iff {n : Nat} : 1 ≤ n.toFloat ↔ n ≠ 0 := by
  constructor
  · rintro h rfl
    exact absurd h (by decide)
  · intro h
    exact toFloat_le_toFloat (Nat.one_le_iff_ne_zero.mpr h)

end Phrasebook.Floats
