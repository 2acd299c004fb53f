import Mathlib.Logic.Basic
import Phrasebook.Message.Cursor
import Phrasebook.Proofs.ReadTrees

/-!
The numbers that texts are read as. A number that is written in digits, with or without a point, a
sign and an exponent, is finite, and in digits alone it is not below zero.
-/
namespace Phrasebook.Floats

open Float.Model Float.Model.UnpackedFloat

/-! ### Undefined numbers -/

/-- Packing makes no undefined number. -/
theorem isNaN_unpack_pack {u : UnpackedFloat} (h : u.isNaN = false) :
    (UnpackedFloat.unpack Format.binary64 (UnpackedFloat.pack Format.binary64 u)).isNaN = false := by
  have hcomponents (s : Sign) (e : BitVec 11) (m : BitVec 52) (hem : e = -1#11 → m = 0#52) :
      (UnpackedFloat.unpack Format.binary64 (packComponents Format.binary64 s e m)).isNaN =
        false := by
    rw [UnpackedFloat.unpack]
    simp only [unpackExponent_packComponents, unpackMantissa_packComponents]
    split
    · rename_i he
      rw [if_pos (hem he)]
      rfl
    · split
      · split <;> rfl
      · rfl
  cases u with
  | notANumber => exact Bool.noConfusion h
  | infinity s => exact hcomponents s _ _ fun _ => rfl
  | zero s => exact hcomponents s _ _ fun _ => rfl
  | finite s m e hm =>
    rw [UnpackedFloat.pack]
    simp only
    split
    · exact hcomponents s _ _ fun _ => rfl
    · rename_i hfits
      split
      · refine hcomponents s _ _ fun he => ?_
        -- the exponent of infinity is too large for a finite number
        have hvalue := congrArg BitVec.toNat he
        rw [BitVec.toNat_ofNat] at hvalue
        have hlast : (-1#11).toNat = 2047 := rfl
        have hlimit : (2 : Nat) ^ 11 = 2048 := rfl
        omega
      · exact hcomponents s _ _ fun he => absurd he (by decide)

/-- A number that was packed is undefined only if what was packed was. -/
theorem isNaN_ofModel_pack {u : UnpackedFloat} (h : u.isNaN = false) :
    (Float.ofModel (Float.Model.pack u)).isNaN = false :=
  isNaN_unpack_pack h

theorem isNaN_roundWithAccuracy (s : Sign) (m : Nat) (e : Int) (a : Accuracy) :
    (roundWithAccuracy Format.binary64 s m e a).isNaN = false := by
  rw [roundWithAccuracy]
  simp only
  split <;> rfl

theorem isNaN_mul_finite {u v : UnpackedFloat} (hu : u.isNaN = false) {s : Sign} {m : Nat}
    {e : Int} {hm : 0 < m} (hv : v = .finite s m e hm) :
    (UnpackedFloat.mul Format.binary64 u v).isNaN = false := by
  subst hv
  cases u with
  | notANumber => exact Bool.noConfusion hu
  | infinity | zero => rfl
  | finite => exact isNaN_roundWithAccuracy _ _ _ _

theorem isNaN_div_finite {u v : UnpackedFloat} (hu : u.isNaN = false) {s : Sign} {m : Nat}
    {e : Int} {hm : 0 < m} (hv : v = .finite s m e hm) :
    (UnpackedFloat.div Format.binary64 u v).isNaN = false := by
  subst hv
  cases u with
  | notANumber => exact Bool.noConfusion hu
  | infinity | zero => rfl
  | finite => exact isNaN_roundWithAccuracy _ _ _ _

theorem isNaN_ofNat (n : Nat) : (UnpackedFloat.ofNat Format.binary64 n).isNaN = false := by
  rw [UnpackedFloat.ofNat, UnpackedFloat.ofInt, UnpackedFloat.normalize]
  cases n with
  | zero => rfl
  | succ n => exact isNaN_roundWithAccuracy _ _ _ _

/-- The powers of ten that are exact are finite and not zero. -/
theorem exists_finite_power {x : Float} (h : x ∈ Float.exactlyRepresentablePowersOfTen) :
    ∃ s m e hm, x.toModel.unpack = .finite s m e hm := by
  have hall : Float.exactlyRepresentablePowersOfTen.toList.all
      (fun y => y.toModel.unpack.isFinite && y.toModel.unpack.compare (.zero .positive) != some .eq) =
        true := by
    decide +kernel
  have hx := List.all_eq_true.mp hall x (Array.mem_toList_iff.mpr h)
  cases hu : x.toModel.unpack with
  | notANumber | infinity =>
    rw [hu] at hx
    exact Bool.noConfusion hx
  | zero =>
    rw [hu] at hx
    exact Bool.noConfusion hx
  | finite s m e hm => exact ⟨s, m, e, hm, rfl⟩

theorem isNaN_model_ofScientific (m : Nat) (e : Int) :
    (UnpackedFloat.ofScientific Format.binary64 m e).isNaN = false := by
  rw [UnpackedFloat.ofScientific]
  split
  · rfl
  · split
    · rfl
    · split
      · rfl
      · split
        · exact isNaN_mul_finite rfl rfl
        · exact isNaN_div_finite rfl rfl

/-- A decimal fraction is a number. -/
theorem isNaN_ofScientific (m : Nat) (s : Bool) (e : Nat) :
    (Float.ofScientific m s e).isNaN = false := by
  rw [Float.ofScientific]
  split
  · rename_i hsmall
    have hnat : m.toUInt64.toFloat.toModel.unpack.isNaN = false :=
      isNaN_unpack_pack (isNaN_ofNat _)
    have hsize : e < Float.exactlyRepresentablePowersOfTen.size := Nat.lt_succ_of_le hsmall.2
    obtain ⟨_, _, _, _, hpower⟩ := exists_finite_power (Array.getElem_mem hsize)
    simp only
    split
    · exact isNaN_ofModel_pack (isNaN_div_finite hnat hpower)
    · exact isNaN_ofModel_pack (isNaN_mul_finite hnat hpower)
  · exact isNaN_ofModel_pack (isNaN_model_ofScientific m _)

theorem isNaN_neg {x : Float} (h : x.isNaN = false) : (-x).isNaN = false := by
  have hneg : x.toModel.unpack.neg.isNaN = false := by
    have hx : x.toModel.unpack.isNaN = false := h
    cases hu : x.toModel.unpack with
    | notANumber =>
      rw [hu] at hx
      exact Bool.noConfusion hx
    | infinity | zero | finite => rfl
  exact isNaN_ofModel_pack hneg

theorem isFinite_of_not {x : Float} (hinf : x.isInf = false) (hnan : x.isNaN = false) :
    x.isFinite = true := by
  have hinf' : x.toModel.unpack.isInf = false := hinf
  have hnan' : x.toModel.unpack.isNaN = false := hnan
  change x.toModel.unpack.isFinite = true
  cases hu : x.toModel.unpack with
  | notANumber =>
    rw [hu] at hnan'
    exact Bool.noConfusion hnan'
  | infinity =>
    rw [hu] at hinf'
    exact Bool.noConfusion hinf'
  | zero | finite => rfl

/-- What has no sign is not below zero. -/
theorem zero_le_of_unsigned {x : Float} (h : Unsigned x) (hnan : x.isNaN = false) : 0 ≤ x := by
  have hpos := positive_unpack h
  have hnan' : x.toModel.unpack.isNaN = false := hnan
  refine decide_eq_true (?_ : (0 : Float).toModel ≤ x.toModel)
  change UnpackedFloat.le (0 : Float).toModel.unpack x.toModel.unpack = true
  rw [unpack_zero]
  cases hu : x.toModel.unpack with
  | notANumber =>
    rw [hu] at hnan'
    exact Bool.noConfusion hnan'
  | infinity s | zero s | finite s =>
    rw [hu] at hpos
    obtain rfl : s = .positive := hpos
    rfl

end Phrasebook.Floats

namespace Phrasebook.Decimal

open Message

/-! ### Written numbers -/

theorem isNaN_nearestDecimal (m : Nat) (e : Int) : (nearestDecimal m e).isNaN = false := by
  rw [nearestDecimal]
  split
  · exact Floats.isNaN_ofScientific 0 true 1
  · simp only
    split
    · decide
    · split
      · exact Floats.isNaN_ofScientific 0 true 1
      · split
        · exact Floats.isNaN_ofScientific _ _ _
        · exact Floats.isNaN_ofScientific _ _ _

theorem isNaN_readDecimal? {cs : List Char} {x : Float} (h : readDecimal? cs = some x) :
    x.isNaN = false := by
  rw [readDecimal?] at h
  obtain ⟨m, -, h⟩ := Option.bind_eq_some_iff.mp h
  obtain ⟨e, -, h⟩ := Option.bind_eq_some_iff.mp h
  obtain ⟨_, -, h⟩ := Option.bind_eq_some_iff.mp h
  obtain rfl := Option.some.inj h
  exact isNaN_nearestDecimal _ _

/-- A number that is written with the characters of numbers is finite. -/
theorem isFinite_read? {cs : List Char} {x : Float} (h : ∀ c ∈ cs, isNumberChar c = true)
    (hx : read? cs = some x) : x.isFinite = true := by
  unfold read? at hx
  rw [named?_eq_none h] at hx
  obtain ⟨hread, hinf⟩ := Option.filter_eq_some_iff.mp hx
  refine Floats.isFinite_of_not (by simpa using hinf) ?_
  split at hread
  · rw [readUnsigned?_eq fun c hc => h c (List.mem_cons_of_mem _ hc)] at hread
    exact isNaN_readDecimal? hread
  · obtain ⟨y, hy, rfl⟩ := Option.map_eq_some_iff.mp hread
    rw [readUnsigned?_eq fun c hc => h c (List.mem_cons_of_mem _ hc)] at hy
    exact Floats.isNaN_neg (isNaN_readDecimal? hy)
  · rw [readUnsigned?_eq h] at hread
    exact isNaN_readDecimal? hread

/-- A number that is written in digits is not below zero. -/
theorem zero_le_read? {cs : List Char} {x : Float} (hne : cs ≠ [])
    (h : ∀ c ∈ cs, c.isDigit = true) (hx : read? cs = some x) : 0 ≤ x := by
  have hfinite := isFinite_read? (fun c hc => isNumberChar_of_isDigit (h c hc)) hx
  refine Floats.zero_le_of_unsigned (unsigned_read? hne h hx) ?_
  have hfinite' : x.toModel.unpack.isFinite = true := hfinite
  change x.toModel.unpack.isNaN = false
  cases hu : x.toModel.unpack with
  | notANumber =>
    rw [hu] at hfinite'
    exact Bool.noConfusion hfinite'
  | infinity | zero | finite => rfl

end Phrasebook.Decimal
