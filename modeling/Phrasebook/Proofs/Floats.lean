import Mathlib

/-!
Floating-point numbers by their bits. Packing undoes unpacking, so a number is known by what it
unpacks to; from this follow the few laws that offsets and number literals rest on.
-/
namespace Phrasebook.Floats

open Float.Model Float.Model.UnpackedFloat

/-! ### Packing -/

theorem toBitVec_ofBitVec (b : BitVec 1) : (Sign.ofBitVec b).toBitVec = b := by
  rw [Sign.ofBitVec]
  split
  · rename_i h
    rw [h]
    rfl
  · rename_i h
    have hone : b = 1#1 := by
      have hlt := b.isLt
      have hne : b.toNat ≠ 0 := fun h0 => h (BitVec.eq_of_toNat_eq h0)
      apply BitVec.eq_of_toNat_eq
      rw [BitVec.toNat_ofNat]
      omega
    rw [hone]
    rfl
theorem toNat_packComponents (s : Sign) (e : BitVec 11) (m : BitVec 52) :
    (packComponents Format.binary64 s e m).toNat = s.toBitVec.toNat * 2 ^ 63 + e.toNat * 2 ^ 52 + m.toNat := by
  rw [packComponents, BitVec.toNat_append, BitVec.toNat_append]
  have he := e.isLt
  have hm := m.isLt
  rw [← Nat.shiftLeft_add_eq_or_of_lt hm, ← Nat.shiftLeft_add_eq_or_of_lt he, Nat.shiftLeft_eq, Nat.shiftLeft_eq]
  have hpow : (2 : Nat) ^ 11 * 2 ^ 52 = 2 ^ 63 := by
    decide
  rw [Nat.add_mul, Nat.mul_assoc, hpow]

theorem toNat_unpackSign (b : BitVec 64) : (@unpackSign Format.binary64 b).toNat = b.toNat / 2 ^ 63 := by
  have hb := b.isLt
  simp [unpackSign, Nat.shiftRight_eq_div_pow]
  omega
theorem toNat_unpackExponent (b : BitVec 64) : (@unpackExponent Format.binary64 b).toNat = b.toNat / 2 ^ 52 % 2 ^ 11 := by
  simp [unpackExponent, Nat.shiftRight_eq_div_pow]
theorem toNat_unpackMantissa (b : BitVec 64) : (@unpackMantissa Format.binary64 b).toNat = b.toNat % 2 ^ 52 := by
  simp [unpackMantissa]

theorem packComponents_unpack (b : BitVec 64) :
    packComponents Format.binary64 (Sign.ofBitVec (@unpackSign Format.binary64 b))
      (@unpackExponent Format.binary64 b) (@unpackMantissa Format.binary64 b) = b := by
  apply BitVec.eq_of_toNat_eq
  rw [toNat_packComponents, toBitVec_ofBitVec, toNat_unpackSign, toNat_unpackExponent,
    toNat_unpackMantissa]
  have hb := b.isLt
  omega


/-- The implicit bit of a mantissa stands before the others. -/
theorem toNat_one_append (m : BitVec 52) : (1#1 ++ m).toNat = 2 ^ 52 + m.toNat := by
  have hm : m.toNat < 2 ^ 52 := m.isLt
  rw [BitVec.toNat_append, ← Nat.shiftLeft_add_eq_or_of_lt hm, Nat.shiftLeft_eq]
  rfl

/-- A normal number: the implicit bit of its mantissa is dropped again. -/
theorem pack_normal (s : Sign) (e : BitVec 11) (m : BitVec 52) (he : e.toNat ≠ 2047)
    (hpos : 0 < (1#1 ++ m).toNat) :
    UnpackedFloat.pack Format.binary64 (.finite s (1#1 ++ m).toNat
      ((e.toNat : Int) - (Format.binary64.exponentBias + 52)) hpos) =
      packComponents Format.binary64 s e m := by
  have hm : m.toNat < 2 ^ 52 := m.isLt
  have hlt : e.toNat < 2 ^ 11 := e.isLt
  have happ := toNat_one_append m
  have hlog : (2 ^ 52 + m.toNat).log2 = 52 := by
    rw [Nat.log2_eq_iff (by omega)]
    omega
  have hbias : ((e.toNat : Int) - ((Format.binary64.exponentBias : Nat) + (52 : Nat)) +
      (Format.binary64.exponentBias : Nat) + (52 : Nat)).toNat = e.toNat := by
    omega
  have hmant : BitVec.ofNat 52 (1#1 ++ m).toNat = m := by
    apply BitVec.eq_of_toNat_eq
    rw [BitVec.toNat_ofNat, happ]
    omega
  rw [UnpackedFloat.pack]
  simp only [happ, hlog] at hmant ⊢
  -- the exponent does not overflow, and the mantissa has its leading bit
  rw [if_neg, if_pos]
  · rw [hmant]
    congr
    apply BitVec.eq_of_toNat_eq
    rw [BitVec.toNat_ofNat]
    refine (congrArg (· % 2 ^ 11) hbias).trans ?_
    exact Nat.mod_eq_of_lt hlt
  · rfl
  · intro h
    have h' : 2 ^ 11 ≤ e.toNat + 1 := by
      refine le_trans h (le_of_eq ?_)
      exact congrArg (· + 1) hbias
    omega

theorem pack_subnormal (s : Sign) (m : BitVec 52) (hpos : 0 < m.toNat) :
    UnpackedFloat.pack Format.binary64 (.finite s m.toNat (-1074) hpos) =
      packComponents Format.binary64 s 0 m := by
  have hlog : m.toNat.log2 < 52 := (Nat.log2_lt (by omega)).mpr m.isLt
  rw [UnpackedFloat.pack]
  rw [if_neg (by decide), if_neg]
  · rw [BitVec.ofNat_toNat, BitVec.setWidth_eq]
    rfl
  · simp only [Format.mantissaBits]
    omega

theorem pack_unpack (b : BitVec 64) (hv : Format.binary64.Valid b) :
    UnpackedFloat.pack Format.binary64 (UnpackedFloat.unpack Format.binary64 b) = b := by
  have hsplit := packComponents_unpack b
  rw [UnpackedFloat.unpack]
  split
  · rename_i hexp
    split
    · rename_i hmant
      rw [UnpackedFloat.pack, packedInfinity]
      rw [hexp, hmant] at hsplit
      exact hsplit
    · rename_i hmant
      exact (hv.eq_packedNaN hexp hmant).symm
  · rename_i hexp
    split
    · rename_i hzero
      rw [hzero] at hsplit
      split
      · rename_i hmant
        rw [UnpackedFloat.pack, packedZero]
        rw [hmant] at hsplit
        exact hsplit
      · rw [hzero]
        exact (pack_subnormal _ _ _).trans hsplit
    · have hne : (@unpackExponent Format.binary64 b).toNat ≠ 2047 := by
        intro h
        exact hexp (BitVec.eq_of_toNat_eq h)
      exact (pack_normal _ _ _ hne _).trans hsplit

/-- A number is what it unpacks to. -/
theorem ofModel_pack_unpack (x : Float) :
    Float.ofModel (Float.Model.pack x.toModel.unpack) = x := by
  obtain ⟨⟨bits, valid⟩⟩ := x
  have hpack := pack_unpack bits.toBitVec valid
  have hbits : UInt64.ofBitVec (UnpackedFloat.pack Format.binary64
      (UnpackedFloat.unpack Format.binary64 bits.toBitVec)) = bits := by
    rw [hpack]
  change Float.ofModel ⟨UInt64.ofBitVec (UnpackedFloat.pack Format.binary64
    (UnpackedFloat.unpack Format.binary64 bits.toBitVec)), _⟩ = _
  simp only [hbits]

/-- A number is known by what it unpacks to. -/
theorem eq_of_unpack_eq {x y : Float} (h : x.toModel.unpack = y.toModel.unpack) : x = y := by
  have hbits : x.toModel.toBits.toBitVec = y.toModel.toBits.toBitVec := by
    rw [← pack_unpack _ x.toModel.valid, ← pack_unpack _ y.toModel.valid]
    exact congrArg (UnpackedFloat.pack Format.binary64) h
  obtain ⟨⟨bits, _⟩⟩ := x
  obtain ⟨⟨bits', _⟩⟩ := y
  have heq : bits = bits' := UInt64.eq_of_toBitVec_eq hbits
  subst heq
  rfl

/-! ### Zero -/

theorem unpack_zero : (0 : Float).toModel.unpack = .zero .positive := rfl

/-- Two numbers count as equal if both are zeros, or if they are one number. -/
theorem compare_eq_iff {a b : UnpackedFloat} : (a.compare b == some .eq) = true ↔
    (∃ s t, a = .zero s ∧ b = .zero t) ∨ a = b ∧ a ≠ .notANumber := by
  cases a with
  | notANumber => simp [UnpackedFloat.compare]
  | zero s =>
    cases b with
    | notANumber => simp [UnpackedFloat.compare]
    | zero t => exact ⟨fun _ => .inl ⟨s, t, rfl, rfl⟩, fun _ => rfl⟩
    | infinity t => cases t <;> simp [UnpackedFloat.compare]
    | finite t n f hn => cases t <;> simp [UnpackedFloat.compare]
  | infinity s =>
    cases b with
    | notANumber => simp [UnpackedFloat.compare]
    | zero t => cases s <;> simp [UnpackedFloat.compare]
    | infinity t => cases s <;> cases t <;> simp [UnpackedFloat.compare, compare]
    | finite t n f hn => cases s <;> simp [UnpackedFloat.compare]
  | finite s m e hm =>
    cases b with
    | notANumber => simp [UnpackedFloat.compare]
    | zero t => cases s <;> simp [UnpackedFloat.compare]
    | infinity t => cases t <;> simp [UnpackedFloat.compare]
    | finite t n f hn =>
      cases s <;> cases t <;> simp [UnpackedFloat.compare, Ordering.then_eq_eq, and_comm]

/-- Numbers that count as equal are the same number, unless they are zeros. -/
theorem eq_of_beq {x y : Float} (h : (x == y) = true) (hx : (x == 0) = false) : x = y := by
  rcases compare_eq_iff.mp h with ⟨s, -, hs, -⟩ | ⟨heq, -⟩
  · have hzero : (x == 0) = true := compare_eq_iff.mpr (.inl ⟨s, .positive, hs, unpack_zero⟩)
    exact Bool.noConfusion (hzero.symm.trans hx)
  · exact eq_of_unpack_eq heq

theorem beq_zero_iff {x : Float} : (x == 0) = true ↔ ∃ s, x.toModel.unpack = .zero s := by
  constructor
  · intro h
    rcases compare_eq_iff.mp h with ⟨s, -, hs, -⟩ | ⟨heq, -⟩
    · exact ⟨s, hs⟩
    · exact ⟨.positive, heq.trans unpack_zero⟩
  · rintro ⟨s, hs⟩
    exact compare_eq_iff.mpr (.inl ⟨s, .positive, hs, unpack_zero⟩)

/-- Equal numbers are both zeros, or one number. -/
theorem beq_iff {x y : Float} :
    (x == y) = true ↔ (x == 0) = true ∧ (y == 0) = true ∨ x = y ∧ (x == x) = true := by
  constructor
  · intro h
    rcases compare_eq_iff.mp h with ⟨s, t, hs, ht⟩ | ⟨heq, -⟩
    · exact .inl ⟨beq_zero_iff.mpr ⟨s, hs⟩, beq_zero_iff.mpr ⟨t, ht⟩⟩
    · obtain rfl := eq_of_unpack_eq heq
      exact .inr ⟨rfl, h⟩
  · rintro (⟨hx, hy⟩ | ⟨rfl, h⟩)
    · obtain ⟨s, hs⟩ := beq_zero_iff.mp hx
      obtain ⟨t, ht⟩ := beq_zero_iff.mp hy
      exact compare_eq_iff.mpr (.inl ⟨s, t, hs, ht⟩)
    · exact h

theorem beq_trans {x y z : Float} (h : (x == y) = true) (h' : (y == z) = true) :
    (x == z) = true := by
  rcases beq_iff.mp h with ⟨hx, hy⟩ | ⟨rfl, _⟩
  · rcases beq_iff.mp h' with ⟨_, hz⟩ | ⟨rfl, _⟩
    · exact beq_iff.mpr (.inl ⟨hx, hz⟩)
    · exact h
  · exact h'

/-- A finite number counts as equal to itself. -/
theorem beq_self_of_isFinite {x : Float} (h : x.isFinite = true) : (x == x) = true := by
  refine compare_eq_iff.mpr (.inr ⟨rfl, fun hnan => ?_⟩)
  have hfinite : x.toModel.unpack.isFinite = true := h
  rw [hnan] at hfinite
  exact Bool.noConfusion hfinite

theorem sub_zero (x : Float) : x - 0 = x := by
  have hsub : UnpackedFloat.sub Format.binary64 x.toModel.unpack (.zero .positive) =
      x.toModel.unpack := by
    generalize x.toModel.unpack = a
    cases a with
    | notANumber => rfl
    | infinity s => rfl
    | finite s m e hm => rfl
    | zero s => cases s <;> rfl
  change Float.ofModel (Float.Model.pack
    (UnpackedFloat.sub Format.binary64 x.toModel.unpack (.zero .positive))) = x
  rw [hsub, ofModel_pack_unpack]

/-! ### Signs -/

/-- No number below zero, and not the zero below zero either. -/
def Positive : UnpackedFloat → Prop
  | .notANumber => True
  | .infinity s | .zero s | .finite s _ _ _ => s = .positive

/-- The sign bit is not set. -/
def Unsigned (x : Float) : Prop :=
  x.toModel.toBits.toBitVec.toNat < 2 ^ 63

theorem positive_unpack {x : Float} (h : Unsigned x) : Positive x.toModel.unpack := by
  have hsign : Sign.ofBitVec (@unpackSign Format.binary64 x.toModel.toBits.toBitVec) = .positive := by
    have hzero : @unpackSign Format.binary64 x.toModel.toBits.toBitVec = 0#1 := by
      apply BitVec.eq_of_toNat_eq
      rw [toNat_unpackSign]
      exact Nat.div_eq_of_lt h
    rw [hzero]
    rfl
  rw [Float.Model.unpack, UnpackedFloat.unpack]
  simp only [hsign]
  split
  · split
    · rfl
    · trivial
  · split
    · split
      · rfl
      · rfl
    · rfl

theorem pack_positive_lt {u : UnpackedFloat} (h : Positive u) :
    (UnpackedFloat.pack Format.binary64 u).toNat < 2 ^ 63 := by
  have hlt (e : BitVec 11) (m : BitVec 52) :
      (packComponents Format.binary64 .positive e m).toNat < 2 ^ 63 := by
    rw [toNat_packComponents]
    have he := e.isLt
    have hm := m.isLt
    have hs : Sign.positive.toBitVec.toNat = 0 := rfl
    omega
  cases u with
  | notANumber => exact hlt _ _
  | infinity s =>
    obtain rfl : s = .positive := h
    exact hlt _ _
  | zero s =>
    obtain rfl : s = .positive := h
    exact hlt _ _
  | finite s m e hm =>
    obtain rfl : s = .positive := h
    rw [UnpackedFloat.pack]
    split
    · exact hlt _ _
    · split
      · exact hlt _ _
      · exact hlt _ _

theorem unsigned_pack {u : UnpackedFloat} (h : Positive u) :
    Unsigned (.ofModel (Float.Model.pack u)) :=
  pack_positive_lt h

theorem positive_roundWithAccuracy (m : Nat) (e : Int) (a : Accuracy) :
    Positive (roundWithAccuracy Format.binary64 .positive m e a) := by
  rw [roundWithAccuracy]
  simp only
  split
  · rfl
  · rfl

theorem positive_mul {u v : UnpackedFloat} (hu : Positive u) (hv : Positive v) :
    Positive (UnpackedFloat.mul Format.binary64 u v) := by
  cases u with
  | notANumber => cases v <;> trivial
  | infinity s =>
    obtain rfl : s = .positive := hu
    cases v with
    | notANumber | zero => trivial
    | infinity t | finite t =>
      obtain rfl : t = .positive := hv
      rfl
  | zero s =>
    obtain rfl : s = .positive := hu
    cases v with
    | notANumber | infinity => trivial
    | zero t | finite t =>
      obtain rfl : t = .positive := hv
      rfl
  | finite s m e hm =>
    obtain rfl : s = .positive := hu
    cases v with
    | notANumber => trivial
    | infinity t | zero t =>
      obtain rfl : t = .positive := hv
      rfl
    | finite t n f hn =>
      obtain rfl : t = .positive := hv
      exact positive_roundWithAccuracy _ _ _

theorem positive_ofNat (n : Nat) : Positive (UnpackedFloat.ofNat Format.binary64 n) := by
  rw [UnpackedFloat.ofNat, UnpackedFloat.ofInt, UnpackedFloat.normalize]
  cases n with
  | zero => rfl
  | succ n => exact positive_roundWithAccuracy _ _ _

theorem positive_ofScientific (n : Nat) {e : Int} (he : 0 ≤ e) :
    Positive (UnpackedFloat.ofScientific Format.binary64 n e) := by
  rw [UnpackedFloat.ofScientific]
  split
  · exact rfl
  · split
    · exact rfl
    · split
      · exact rfl
      · refine positive_mul ?_ ?_
        · simp only [Positive]
        · simp only [Positive]

/-- A whole number has no sign. -/
theorem unsigned_ofScientific (n : Nat) : Unsigned (Float.ofScientific n false 0) := by
  rw [Float.ofScientific]
  split
  · -- a power of ten has no sign either
    have hone : Unsigned (Float.ofBits 0x3FF0000000000000) := by
      rw [Unsigned]
      decide
    have hnat : Unsigned n.toUInt64.toFloat := unsigned_pack (positive_ofNat _)
    exact unsigned_pack (positive_mul (positive_unpack hnat) (positive_unpack hone))
  · exact unsigned_pack (positive_ofScientific n (by decide))

/-- Of the two zeros only one has no sign. -/
theorem eq_zero_of_unsigned {x : Float} (h : Unsigned x) (hx : (x == 0) = true) : x = 0 := by
  apply eq_of_unpack_eq
  have hpos := positive_unpack h
  have heq : (x.toModel.unpack.compare (.zero .positive) == some .eq) = true := hx
  rw [unpack_zero]
  generalize x.toModel.unpack = a at heq hpos
  cases a with
  | notANumber => simp [UnpackedFloat.compare] at heq
  | infinity s => cases s <;> simp [UnpackedFloat.compare] at heq
  | finite s m e hm => cases s <;> simp [UnpackedFloat.compare] at heq
  | zero s =>
    obtain rfl : s = .positive := hpos
    rfl

end Phrasebook.Floats
