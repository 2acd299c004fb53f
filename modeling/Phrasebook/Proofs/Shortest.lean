import Phrasebook.Proofs.WholeNumbers

/-!
The shortest decimal of a number tells it from all other numbers. Whatever lies between the
middles towards the two neighbours of a number rounds to it; the shortest decimal is found there,
and no two numbers have such a decimal in common.
-/
namespace Phrasebook.Decimal

open Floats (Canonical)

/-! ### What rounds to a magnitude -/

namespace Magnitude

/-- The parts of a normal or subnormal number. The gap below is the smaller one at powers of two. -/
structure Proper (m : Magnitude) : Prop where
  canonical : Canonical m.significand m.exponent
  boundary : m.atBoundary = true ↔ m.significand = 2 ^ 52 ∧ -1074 < m.exponent

/-- A quarter of the last place of a magnitude. -/
def quarter (m : Magnitude) : ℚ :=
  2 ^ (m.exponent - 2)

/-- How many quarters lie between a magnitude and the middle towards its lower neighbour. -/
def reach (m : Magnitude) : ℕ :=
  if m.atBoundary then 1 else 2

def value (m : Magnitude) : ℚ :=
  4 * m.significand * m.quarter

def low (m : Magnitude) : ℚ :=
  (4 * m.significand - m.reach) * m.quarter

def high (m : Magnitude) : ℚ :=
  (4 * m.significand + 2) * m.quarter

/-- A number for which the magnitude is the nearest; of two as near, the even one counts. -/
structure Nearest (m : Magnitude) (q : ℚ) : Prop where
  low_le : m.low ≤ q
  le_high : q ≤ m.high
  inside : m.significand % 2 = 1 → m.low ≠ q ∧ q ≠ m.high

theorem quarter_pos (m : Magnitude) : 0 < m.quarter := by
  rw [quarter]
  positivity

theorem one_le_reach (m : Magnitude) : 1 ≤ m.reach := by
  rw [reach]
  split <;> decide

theorem reach_le (m : Magnitude) : m.reach ≤ 2 := by
  rw [reach]
  split <;> decide

variable {m m' : Magnitude} {q : ℚ}

theorem Proper.low_pos (h : m.Proper) : 0 < m.low := by
  have hsignificand : (1 : ℚ) ≤ m.significand := by exact_mod_cast h.canonical.pos
  have hreach : (m.reach : ℚ) ≤ 2 := by exact_mod_cast m.reach_le
  exact mul_pos (by linarith) m.quarter_pos

/-- Magnitudes with one exponent have no number in common. -/
theorem Nearest.not_of_significand_lt (hq : m.Nearest q) (hq' : m'.Nearest q)
    (hm : m.Proper) (hm' : m'.Proper) (hexponent : m.exponent = m'.exponent)
    (hlt : m.significand < m'.significand) : False := by
  have hquarter : m'.quarter = m.quarter := by rw [quarter, quarter, hexponent]
  have hpos := m.quarter_pos
  -- the greater magnitude is none with a small gap below: the other one would be too short
  have hreach : m'.reach = 2 := by
    rw [reach, if_neg]
    intro hboundary
    obtain ⟨hpower, hleast⟩ := hm'.boundary.mp hboundary
    rcases hm.canonical.full with hfull | hfull
    · omega
    · omega
  have hlow : m'.low = (4 * m'.significand - 2) * m.quarter := by
    rw [low, hreach, hquarter]
    push_cast
    rfl
  have hmeet : m'.low ≤ m.high := hq'.low_le.trans hq.le_high
  rcases Nat.lt_or_ge (m.significand + 1) m'.significand with hfar | hnear
  · have hfar' : (m.significand : ℚ) + 2 ≤ m'.significand := by exact_mod_cast hfar
    rw [hlow, high] at hmeet
    have hle := le_of_mul_le_mul_right hmeet hpos
    linarith
  · -- neighbours share the middle between them, which is left to the even one
    have hnext : m'.significand = m.significand + 1 := by omega
    have hmiddle : m'.low = m.high := by
      rw [hlow, high, hnext]
      push_cast
      ring
    have hqlow : m'.low = q := le_antisymm hq'.low_le (hmiddle ▸ hq.le_high)
    rcases Nat.mod_two_eq_zero_or_one m.significand with heven | hodd
    · exact (hq'.inside (by omega)).1 hqlow
    · exact (hq.inside hodd).2 (hqlow ▸ hmiddle)

/-- Magnitudes with different exponents have no number in common. -/
theorem Nearest.not_of_exponent_lt (hq : m.Nearest q) (hq' : m'.Nearest q)
    (hm : m.Proper) (hm' : m'.Proper) (hlt : m.exponent < m'.exponent) : False := by
  have hpos := m.quarter_pos
  have hquarter : 2 * m.quarter ≤ m'.quarter := by
    have hpow : (2 : ℚ) ^ (m.exponent - 2 + 1) ≤ 2 ^ (m'.exponent - 2) :=
      zpow_le_zpow_right₀ one_le_two (by omega)
    rw [zpow_add_one₀ two_ne_zero] at hpow
    rw [quarter, quarter]
    linarith
  have hfull : 2 ^ 52 ≤ m'.significand := by
    have hleast := hm.canonical.least
    rcases hm'.canonical.full with hfull | hfull
    · omega
    · exact hfull
  have hmost : (m.significand : ℚ) + 1 ≤ 2 ^ 53 := by exact_mod_cast hm.canonical.lt
  have hhigh : m.high ≤ (2 ^ 55 - 2) * m.quarter := by
    rw [high]
    exact mul_le_mul_of_nonneg_right (by linarith) hpos.le
  -- the lower end of the greater magnitude is no lower than the upper end of the other one
  have hlow : (2 ^ 55 - 2) * m.quarter ≤ m'.low := by
    have hends : (2 ^ 54 - 1) * m'.quarter ≤ m'.low := by
      have hfull' : (2 : ℚ) ^ 52 ≤ m'.significand := by exact_mod_cast hfull
      rw [low]
      refine mul_le_mul_of_nonneg_right ?_ m'.quarter_pos.le
      rcases hfull.lt_or_eq with hgreater | hpower
      · have hgreater' : (2 : ℚ) ^ 52 + 1 ≤ m'.significand := by exact_mod_cast hgreater
        have hreach : (m'.reach : ℚ) ≤ 2 := by exact_mod_cast m'.reach_le
        linarith
      · have hreach : m'.reach = 1 := by
          rw [reach, if_pos]
          have hleast := hm.canonical.least
          exact hm'.boundary.mpr ⟨hpower.symm, by omega⟩
        rw [hreach]
        push_cast
        linarith
    calc (2 ^ 55 - 2 : ℚ) * m.quarter = (2 ^ 54 - 1) * (2 * m.quarter) := by ring
      _ ≤ (2 ^ 54 - 1) * m'.quarter := mul_le_mul_of_nonneg_left hquarter (by norm_num)
      _ ≤ m'.low := hends
  -- so the number is both ends, and the lower magnitude the odd one in front of a power of two
  have hqhigh : q = m.high :=
    le_antisymm hq.le_high (hhigh.trans (hlow.trans hq'.low_le))
  have hends : m.high = (2 ^ 55 - 2) * m.quarter :=
    le_antisymm hhigh (hlow.trans (hq'.low_le.trans hq.le_high))
  have hsignificand : 4 * (m.significand : ℚ) + 2 = 2 ^ 55 - 2 :=
    mul_right_cancel₀ hpos.ne' hends
  have hodd : m.significand + 1 = 2 ^ 53 := by
    have hcast : (m.significand : ℚ) + 1 = 2 ^ 53 := by linarith
    exact_mod_cast hcast
  exact (hq.inside (by omega)).2 hqhigh

/-- No number is nearest to two magnitudes. -/
theorem Nearest.eq (hq : m.Nearest q) (hq' : m'.Nearest q) (hm : m.Proper) (hm' : m'.Proper) :
    m = m' := by
  have hexponent : m.exponent = m'.exponent := by
    rcases lt_trichotomy m.exponent m'.exponent with hlt | heq | hgt
    · exact (hq.not_of_exponent_lt hq' hm hm' hlt).elim
    · exact heq
    · exact (hq'.not_of_exponent_lt hq hm' hm hgt).elim
  have hsignificand : m.significand = m'.significand := by
    rcases lt_trichotomy m.significand m'.significand with hlt | heq | hgt
    · exact (hq.not_of_significand_lt hq' hm hm' hexponent hlt).elim
    · exact heq
    · exact (hq'.not_of_significand_lt hq hm' hm hexponent.symm hgt).elim
  have hboundary : m.atBoundary = m'.atBoundary := by
    rw [Bool.eq_iff_iff, hm.boundary, hm'.boundary, hexponent, hsignificand]
  obtain ⟨significand, exponent, atBoundary⟩ := m
  cases m'
  simp only [Magnitude.mk.injEq]
  exact ⟨hsignificand, hexponent, hboundary⟩

end Magnitude

/-! ### Searching a grid -/

/-- A power with a positive exponent over one with a negative exponent. -/
theorem pow_toNat_div_pow_toNat {b : ℚ} (hb : b ≠ 0) (e : ℤ) :
    b ^ e.toNat / b ^ (-e).toNat = b ^ e := by
  rw [← zpow_natCast, ← zpow_natCast, ← zpow_sub₀ hb, Int.toNat_sub_toNat_neg]

/-- A place on a grid is compared with a number. -/
theorem grid_le_iff {a n den : ℕ} (hden : 0 < den) (step : ℤ) :
    n * (den * 10 ^ step.toNat) ≤ a * 10 ^ (-step).toNat ↔ n * 10 ^ step ≤ (a : ℚ) / den := by
  have hdown : (0 : ℚ) < 10 ^ (-step).toNat := by positivity
  have hden' : (0 : ℚ) < den := by exact_mod_cast hden
  rw [← pow_toNat_div_pow_toNat (by norm_num) step, ← mul_div_assoc, div_le_div_iff₀ hdown hden',
    mul_assoc, mul_comm ((10 : ℚ) ^ step.toNat)]
  exact_mod_cast Iff.rfl

theorem le_grid_iff {a n den : ℕ} (hden : 0 < den) (step : ℤ) :
    a * 10 ^ (-step).toNat ≤ n * (den * 10 ^ step.toNat) ↔ (a : ℚ) / den ≤ n * 10 ^ step := by
  have hdown : (0 : ℚ) < 10 ^ (-step).toNat := by positivity
  have hden' : (0 : ℚ) < den := by exact_mod_cast hden
  rw [← pow_toNat_div_pow_toNat (by norm_num) step, ← mul_div_assoc, div_le_div_iff₀ hden' hdown,
    mul_assoc, mul_comm ((10 : ℚ) ^ step.toNat)]
  exact_mod_cast Iff.rfl

section Search

variable {value low high den : ℕ} {closed : Bool} {step top : ℤ} {n : ℕ}

/-- Whether a place on a grid lies between the ends. -/
def isInside (low high den : ℕ) (closed : Bool) (step : ℤ) (n : ℕ) : Bool :=
  let place := n * (den * 10 ^ step.toNat)
  if closed then low * 10 ^ (-step).toNat ≤ place && place ≤ high * 10 ^ (-step).toNat
  else low * 10 ^ (-step).toNat < place && place < high * 10 ^ (-step).toNat

def tryBoth (inside : ℕ → Bool) (first second : ℕ) : Option ℕ :=
  if inside first then some first else if inside second then some second else none

theorem inside_of_tryBoth {inside : ℕ → Bool} {first second : ℕ}
    (h : tryBoth inside first second = some n) : inside n = true := by
  rw [tryBoth] at h
  split at h
  · rename_i hfirst
    rwa [← Option.some.inj h]
  · split at h
    · rename_i hsecond
      rwa [← Option.some.inj h]
    · exact nomatch h

theorem exists_tryBoth {inside : ℕ → Bool} {first second : ℕ}
    (h : inside first = true ∨ inside second = true) : ∃ n, tryBoth inside first second = some n := by
  rw [tryBoth]
  split
  · exact ⟨_, rfl⟩
  · rename_i hfirst
    rw [if_pos (h.resolve_left hfirst)]
    exact ⟨_, rfl⟩

/-- The two neighbours on a grid are tried, in whichever order. -/
theorem onGrid?_eq (value low high den : ℕ) (closed : Bool) (step : ℤ) :
    let below := value * 10 ^ (-step).toNat / (den * 10 ^ step.toNat)
    let above := if below * (den * 10 ^ step.toNat) = value * 10 ^ (-step).toNat then below
      else below + 1
    ∃ first second, (first = below ∧ second = above ∨ first = above ∧ second = below) ∧
      onGrid? value low high den closed step =
        tryBoth (isInside low high den closed step) first second := by
  intro below above
  have horder (c : Bool) (a b : ℕ) : (if c then a else b) = a ∧ (if c then b else a) = b ∨
      (if c then a else b) = b ∧ (if c then b else a) = a := by
    cases c
    · exact .inr ⟨rfl, rfl⟩
    · exact .inl ⟨rfl, rfl⟩
  exact ⟨_, _, horder _ below above, rfl⟩

/-- What is found on a grid lies between the ends, and is an end only if these count. -/
theorem inside_of_onGrid? (h : onGrid? value low high den closed step = some n) :
    isInside low high den closed step n = true := by
  obtain ⟨first, second, _, heq⟩ := onGrid?_eq value low high den closed step
  exact inside_of_tryBoth (heq ▸ h)

/-- On a grid that is finer than the distance of the ends there is something between them. -/
theorem exists_onGrid? (hden : 0 < den) (hlow : low < value) (hhigh : value < high)
    (hfine : den * 10 ^ step.toNat < (high - low) * 10 ^ (-step).toNat) :
    ∃ n, onGrid? value low high den closed step = some n := by
  have hdown : 0 < 10 ^ (-step).toNat := by positivity
  have hunit : 0 < den * 10 ^ step.toNat := by positivity
  have hlow' := Nat.mul_lt_mul_of_pos_right hlow hdown
  have hhigh' := Nat.mul_lt_mul_of_pos_right hhigh hdown
  rw [Nat.sub_mul] at hfine
  have hbelow := Nat.div_mul_le_self (value * 10 ^ (-step).toNat) (den * 10 ^ step.toNat)
  have habove := Nat.lt_mul_of_div_lt (Nat.lt_succ_self
    (value * 10 ^ (-step).toNat / (den * 10 ^ step.toNat))) hunit
  rw [Nat.succ_mul] at habove
  have hinside (n : ℕ) (h : low * 10 ^ (-step).toNat < n * (den * 10 ^ step.toNat) ∧
      n * (den * 10 ^ step.toNat) < high * 10 ^ (-step).toNat) :
      isInside low high den closed step n = true := by
    rw [isInside]
    cases closed with
    | true => simpa using ⟨h.1.le, h.2.le⟩
    | false => simpa using h
  obtain ⟨first, second, horder, heq⟩ := onGrid?_eq value low high den closed step
  rw [heq]
  apply exists_tryBoth
  -- the number is nearer to one of its neighbours than to the end on that side
  have hneighbour : isInside low high den closed step
      (value * 10 ^ (-step).toNat / (den * 10 ^ step.toNat)) = true ∨
      isInside low high den closed step
        (if value * 10 ^ (-step).toNat / (den * 10 ^ step.toNat) * (den * 10 ^ step.toNat) =
          value * 10 ^ (-step).toNat then value * 10 ^ (-step).toNat / (den * 10 ^ step.toNat)
        else value * 10 ^ (-step).toNat / (den * 10 ^ step.toNat) + 1) = true := by
    by_cases hnear : low * 10 ^ (-step).toNat <
        value * 10 ^ (-step).toNat / (den * 10 ^ step.toNat) * (den * 10 ^ step.toNat)
    · exact .inl (hinside _ ⟨hnear, by omega⟩)
    · refine .inr (hinside _ ?_)
      rw [if_neg (by omega), Nat.succ_mul]
      omega
  rcases horder with ⟨rfl, rfl⟩ | ⟨rfl, rfl⟩
  · exact hneighbour
  · exact hneighbour.symm

/-- What a search finds is on the grid of its step. -/
theorem onGrid?_of_searchGrids {fuel count : ℕ}
    (h : searchGrids value low high den closed top fuel count = some (n, step)) :
    onGrid? value low high den closed step = some n := by
  induction fuel generalizing count with
  | zero => exact nomatch h
  | succ fuel ih =>
    simp only [searchGrids] at h
    split at h
    · rename_i hfound
      split at h
      · exact ih h
      · obtain ⟨rfl, rfl⟩ := Prod.mk.inj (Option.some.inj h)
        exact hfound
    · exact ih h

/-- A search that goes on to a grid with something on it finds something. -/
theorem exists_searchGrids {last fuel count : ℕ} (hpos : 0 < n)
    (hlast : onGrid? value low high den closed (top - last + 1) = some n)
    (hfuel : fuel + count = last + 1) (hcount : count ≤ last) :
    ∃ result, searchGrids value low high den closed top fuel count = some result := by
  induction fuel generalizing count with
  | zero => omega
  | succ fuel ih =>
    -- before the last grid the search may stop early, and on the last it finds `n`
    rcases hcount.lt_or_eq with hless | rfl
    · have hnext := @ih (count + 1) (by omega) hless
      simp only [searchGrids]
      split
      · split
        · exact hnext
        · exact ⟨_, rfl⟩
      · exact hnext
    · simp only [searchGrids, hlast, if_neg hpos.ne']
      exact ⟨_, rfl⟩

end Search

/-- A search for the leading digit of a fraction stops at it, if it may go on for long enough. -/
theorem le_mul_pow_shiftsToReach {den fuel num : ℕ} (h : den ≤ num * 10 ^ fuel) :
    den ≤ num * 10 ^ shiftsToReach den fuel num := by
  induction fuel generalizing num with
  | zero => exact h
  | succ fuel ih =>
    rw [shiftsToReach]
    split
    · rename_i hreached
      rw [Nat.pow_zero, Nat.mul_one]
      exact hreached
    · rw [Nat.pow_succ', ← Nat.mul_assoc] at h ⊢
      exact ih h

theorem two_pow_le_ten_pow {j k : ℕ} (h : j ≤ 3 * k) : 2 ^ j ≤ 10 ^ k :=
  calc 2 ^ j ≤ 2 ^ (3 * k) := Nat.pow_le_pow_right two_pos h
    _ = (2 ^ 3) ^ k := Nat.pow_mul 2 3 k
    _ ≤ 10 ^ k := Nat.pow_le_pow_left (by decide) k

/-- The power of ten of the leading digit is not above a number. -/
theorem pow_floorLog_le {num den : ℕ} (hnum : 0 < num) (hden : 0 < den) (hfuel : den ≤ 10 ^ 400) :
    (10 : ℚ) ^ floorLog num den ≤ num / den := by
  have hden' : (0 : ℚ) < den := by exact_mod_cast hden
  rw [floorLog]
  split
  · rename_i hle
    have hquotient : 0 < num / den := Nat.div_pos hle hden
    have hdigits : 10 ^ (digitCount (num / den) - 1) ≤ num / den := by
      by_contra hlt
      have hshort := (Nat.length_toDigits_le_iff (b := 10) (n := num / den)
        (k := digitCount (num / den) - 1) (by decide) ?_).mpr (not_le.mp hlt)
      · have hpos : 0 < digitCount (num / den) := Nat.length_toDigits_pos
        rw [← digitCount] at hshort
        omega
      · by_contra hnone
        have hzero : digitCount (num / den) - 1 = 0 := by omega
        rw [hzero, Nat.pow_zero] at hlt
        omega
    have hexponent : (digitCount (num / den) : ℤ) - 1 = ((digitCount (num / den) - 1 : ℕ) : ℤ) := by
      have hpos : 0 < digitCount (num / den) := Nat.length_toDigits_pos
      omega
    rw [hexponent, zpow_natCast]
    refine le_trans (by exact_mod_cast hdigits) Nat.cast_div_le
  · have hreach : den ≤ num * 10 ^ shiftsToReach den 400 num :=
      le_mul_pow_shiftsToReach (hfuel.trans (Nat.le_mul_of_pos_left _ hnum))
    rw [zpow_neg, zpow_natCast, inv_le_iff_one_le_mul₀ (by positivity), div_mul_eq_mul_div,
      one_le_div hden']
    exact_mod_cast hreach

/-! ### Digits -/

/-- The number that digits stand for. -/
def wholeOf (ds : List ℕ) : ℕ :=
  ds.foldl (fun n d => n * 10 + d) 0

namespace Digits

def value (d : Digits) : ℚ :=
  wholeOf d.digits * 10 ^ (d.point - d.digits.length)

/-- Every digit is one. -/
def Proper (d : Digits) : Prop :=
  ∀ x ∈ d.digits, x < 10

end Digits

theorem wholeOf_append (ds es : List ℕ) :
    wholeOf (ds ++ es) = wholeOf ds * 10 ^ es.length + wholeOf es := by
  have hfold (n : ℕ) : es.foldl (fun n d => n * 10 + d) n = n * 10 ^ es.length + wholeOf es := by
    induction es generalizing n with
    | nil => simp [wholeOf]
    | cons x r ih =>
      rw [wholeOf, List.foldl_cons, List.foldl_cons, ih, ih, List.length_cons]
      ring
  rw [wholeOf, List.foldl_append, hfold, ← wholeOf]

theorem wholeOf_zeros (k : ℕ) : wholeOf (List.replicate k 0) = 0 := by
  induction k with
  | zero => rfl
  | succ k ih => exact ih

theorem natOfDigits_digitChars {ds : List ℕ} (h : ∀ x ∈ ds, x < 10) :
    natOfDigits 10 hexValue (ds.map Nat.digitChar) = wholeOf ds := by
  have hdigit : ∀ x < 10, hexValue (Nat.digitChar x) = x := by decide
  rw [natOfDigits, wholeOf, List.foldl_map]
  refine List.foldl_ext _ _ _ fun n x hx => ?_
  rw [hdigit x (h x hx)]

theorem digit_of_mem_digitsOf {n x : ℕ} (h : x ∈ digitsOf n) : x < 10 := by
  obtain ⟨c, hc, rfl⟩ := List.mem_map.mp h
  have hdigit := Nat.isDigit_of_mem_toDigits (by decide) (by decide) hc
  simp only [Char.isDigit, Bool.and_eq_true, decide_eq_true_eq] at hdigit
  have hle : c.toNat ≤ 57 := hdigit.2
  omega

theorem wholeOf_digitsOf (n : ℕ) : wholeOf (digitsOf n) = n := by
  have hvalues := natOfDigits_toDigits n
  rw [natOfDigits] at hvalues
  rw [wholeOf, digitsOf, List.foldl_map]
  refine Eq.trans (List.foldl_ext _ _ _ fun k c hc => ?_) hvalues
  rw [hexValue, if_pos (Nat.isDigit_of_mem_toDigits (by decide) (by decide) hc)]

/-- Only zeros are stripped. -/
theorem exists_stripZeros (ds : List ℕ) : ∃ k, ds = stripZeros ds ++ List.replicate k 0 := by
  have hzeros : ∀ x ∈ ds.reverse.takeWhile (· == 0), x = 0 := fun x hx =>
    eq_of_beq (List.mem_takeWhile_imp (p := (· == 0)) hx)
  refine ⟨(ds.reverse.takeWhile (· == 0)).length, ?_⟩
  have hsplit : ds.reverse = List.replicate (ds.reverse.takeWhile (· == 0)).length 0 ++
      ds.reverse.dropWhile (· == 0) := by
    rw [← List.eq_replicate_of_mem hzeros, List.takeWhile_append_dropWhile]
  have hreverse := congrArg List.reverse hsplit
  rwa [List.reverse_reverse, List.reverse_append, List.reverse_replicate, ← stripZeros] at hreverse

/-- Digits in front of zeros that stand for the digits behind them. -/
theorem value_stripZeros (n : ℕ) (step : ℤ) :
    Digits.value ⟨stripZeros (digitsOf n), (digitsOf n).length + step⟩ = n * 10 ^ step := by
  obtain ⟨k, hk⟩ := exists_stripZeros (digitsOf n)
  have hlength := congrArg List.length hk
  rw [List.length_append, List.length_replicate] at hlength
  have hwhole := congrArg wholeOf hk
  rw [wholeOf_digitsOf, wholeOf_append, wholeOf_zeros, List.length_replicate, Nat.add_zero] at hwhole
  have hexponent : ((digitsOf n).length + step : ℤ) - (stripZeros (digitsOf n)).length =
      k + step := by
    omega
  rw [Digits.value, hexponent, zpow_add₀ (by norm_num), zpow_natCast, ← mul_assoc]
  congr 1
  exact_mod_cast hwhole.symm

theorem proper_shortest (m : Magnitude) : (shortest m).Proper := by
  have hstrip (n : ℕ) : ∀ x ∈ stripZeros (digitsOf n), x < 10 := by
    intro x hx
    obtain ⟨k, hk⟩ := exists_stripZeros (digitsOf n)
    refine digit_of_mem_digitsOf (n := n) ?_
    rw [hk]
    exact List.mem_append_left _ hx
  rw [shortest]
  split
  · exact fun x hx => nomatch hx
  · simp only
    split
    · exact hstrip _
    · exact fun x hx => nomatch hx

/-! ### The shortest decimal -/

section Found

variable {m : Magnitude} {scale den n : ℕ} {step : ℤ}

/-- Quarters as a search counts them. -/
theorem quarters_eq (hscale : scale = 2 ^ (m.exponent - 2).toNat)
    (hden : den = 2 ^ (-(m.exponent - 2)).toNat) (k : ℕ) :
    ((k * scale : ℕ) : ℚ) / den = k * m.quarter := by
  rw [Magnitude.quarter, ← pow_toNat_div_pow_toNat two_ne_zero, hscale, hden]
  push_cast
  rw [mul_div_assoc]

variable (hden : 0 < den) (hquarters : ∀ k : ℕ, ((k * scale : ℕ) : ℚ) / den = k * m.quarter)
  (hm : m.Proper)

include hden hquarters hm

/-- What lies between the ends on a grid is nearest to the magnitude. -/
theorem nearest_of_isInside (h : isInside ((4 * m.significand - m.reach) * scale)
      ((4 * m.significand + 2) * scale) den (m.significand % 2 = 0) step n = true) :
    m.Nearest (n * 10 ^ step) := by
  have hreach := m.reach_le
  have hpos := hm.canonical.pos
  have hlow : (((4 * m.significand - m.reach) * scale : ℕ) : ℚ) / den = m.low := by
    rw [hquarters, Nat.cast_sub (by omega), Magnitude.low]
    push_cast
    rfl
  have hhigh : (((4 * m.significand + 2) * scale : ℕ) : ℚ) / den = m.high := by
    rw [hquarters, Magnitude.high]
    push_cast
    rfl
  rw [isInside] at h
  rcases Nat.mod_two_eq_zero_or_one m.significand with heven | hodd
  · simp only [heven, decide_true, if_true, Bool.and_eq_true, decide_eq_true_eq,
      le_grid_iff hden, grid_le_iff hden, hlow, hhigh] at h
    exact ⟨h.1, h.2, fun hodd => by omega⟩
  · simp only [hodd, one_ne_zero, decide_false, Bool.false_eq_true, if_false, Bool.and_eq_true,
      decide_eq_true_eq] at h
    rw [← not_le, ← not_le, grid_le_iff hden, le_grid_iff hden, hlow, hhigh, not_le, not_le] at h
    exact ⟨h.1.le, h.2.le, fun _ => ⟨h.1.ne, h.2.ne⟩⟩

/-- The grid of eighteen digits is finer than the distance of the ends. -/
theorem grid_lt {top : ℤ} (htop : (10 : ℚ) ^ top ≤ m.value) :
    den * 10 ^ (top - (18 : ℕ) + 1).toNat < ((4 * m.significand + 2) * scale -
      (4 * m.significand - m.reach) * scale) * 10 ^ (-(top - (18 : ℕ) + 1)).toNat := by
  have hreach := m.reach_le
  have hpos := hm.canonical.pos
  have hquarter := m.quarter_pos
  have hlt : (m.significand : ℚ) < 2 ^ 53 := by exact_mod_cast hm.canonical.lt
  have hdistance : (4 * m.significand + 2) * scale - (4 * m.significand - m.reach) * scale =
      (2 + m.reach) * scale := by
    rw [← Nat.sub_mul]
    congr 1
    omega
  have hstep : (10 : ℚ) ^ (top - (18 : ℕ) + 1) = 10 ^ top / 10 ^ 17 := by
    have hexponent : top - (18 : ℕ) + 1 = top - (17 : ℕ) := by omega
    rw [hexponent, zpow_sub₀ (by norm_num), zpow_natCast]
  rw [hdistance, ← not_le, ← Nat.one_mul (den * _), le_grid_iff hden, hquarters, hstep, not_le]
  -- a value is less than 2 ^ 55 quarters, and 17 digits tell more numbers apart than that
  calc ((1 : ℕ) : ℚ) * (10 ^ top / 10 ^ 17) ≤ m.value / 10 ^ 17 := by
        rw [Nat.cast_one, one_mul]
        gcongr
    _ < (2 ^ 55 / 10 ^ 17) * m.quarter := by
        rw [Magnitude.value, div_mul_eq_mul_div]
        gcongr
        linarith
    _ ≤ 2 * m.quarter := by
        gcongr
        norm_num
    _ ≤ ((2 + m.reach : ℕ) : ℚ) * m.quarter := by
        gcongr
        push_cast
        linarith [Nat.cast_nonneg (α := ℚ) m.reach]

end Found

/-- A search for digits that finds something. -/
theorem exists_found {m : Magnitude} (hm : m.Proper) :
    ∃ (n : ℕ) (step : ℤ), m.Nearest (n * 10 ^ step) ∧
      shortest m = ⟨stripZeros (digitsOf n), ((digitsOf n).length : ℤ) + step⟩ := by
  have hpos := hm.canonical.pos
  have hleast := hm.canonical.least
  have hreach := m.one_le_reach
  generalize hscale : 2 ^ (m.exponent - 2).toNat = scale
  generalize hden : 2 ^ (-(m.exponent - 2)).toNat = den
  have hscalepos : 0 < scale := hscale ▸ Nat.two_pow_pos _
  have hdenpos : 0 < den := hden ▸ Nat.two_pow_pos _
  have hquarters := quarters_eq (m := m) hscale.symm hden.symm
  have hfuel : (-(m.exponent - 2)).toNat ≤ 3 * 400 := by omega
  have htop : (10 : ℚ) ^ floorLog (4 * m.significand * scale) den ≤
      ((4 * m.significand * scale : ℕ) : ℚ) / den :=
    pow_floorLog_le (by positivity) hdenpos (hden ▸ two_pow_le_ten_pow hfuel)
  have hvalue : ((4 * m.significand * scale : ℕ) : ℚ) / den = m.value := by
    rw [hquarters, Magnitude.value]
    push_cast
    rfl
  rw [hvalue] at htop
  -- on the finest grid something lies between the ends, so the search cannot fail
  obtain ⟨last, hlast⟩ : ∃ n, onGrid? (4 * m.significand * scale)
      ((4 * m.significand - m.reach) * scale) ((4 * m.significand + 2) * scale) den
      (m.significand % 2 = 0) (floorLog (4 * m.significand * scale) den - (18 : ℕ) + 1) = some n :=
    exists_onGrid? hdenpos (Nat.mul_lt_mul_of_pos_right (by omega) hscalepos)
      (Nat.mul_lt_mul_of_pos_right (by omega) hscalepos) (grid_lt hdenpos hquarters hm htop)
  have hnearest {n : ℕ} {step : ℤ} := @nearest_of_isInside m scale den n step hdenpos hquarters hm
  -- zero is not among the numbers nearest to the value
  have hlastpos : 0 < last := by
    have hnear := hnearest (inside_of_onGrid? hlast)
    rw [Nat.pos_iff_ne_zero]
    rintro rfl
    have hle := hm.low_pos.trans_le hnear.low_le
    rw [Nat.cast_zero, zero_mul] at hle
    exact lt_irrefl _ hle
  obtain ⟨⟨n, step⟩, hfound⟩ := @exists_searchGrids _ _ _ _ _ _ _ 18 18 1 hlastpos hlast rfl
    (by decide)
  refine ⟨n, step, hnearest (inside_of_onGrid? (onGrid?_of_searchGrids hfound)), ?_⟩
  subst hscale hden
  rw [shortest, if_neg hpos.ne']
  simp only
  split
  · rename_i hsome
    have hsame := Option.some.inj (hsome.symm.trans hfound)
    obtain ⟨rfl, rfl⟩ := Prod.mk.inj hsame
    rfl
  · rename_i hnone
    cases hnone.symm.trans hfound

/-- The shortest decimal of a magnitude is nearest to it. -/
theorem shortest_nearest {m : Magnitude} (hm : m.Proper) : m.Nearest (shortest m).value := by
  obtain ⟨n, step, hnearest, heq⟩ := exists_found hm
  rw [heq, value_stripZeros]
  exact hnearest

theorem value_shortest_pos {m : Magnitude} (hm : m.Proper) : 0 < (shortest m).value :=
  hm.low_pos.trans_le (shortest_nearest hm).low_le

/-- The shortest decimal tells a magnitude from all others. -/
theorem eq_of_value_shortest {m m' : Magnitude} (hm : m.Proper) (hm' : m'.Proper)
    (h : (shortest m).value = (shortest m').value) : m = m' := by
  have hnearest := shortest_nearest hm
  rw [h] at hnearest
  exact hnearest.eq (shortest_nearest hm') hm hm'

end Phrasebook.Decimal
