import Mathlib.Data.List.Nodup
import Phrasebook.Skeleton.Date

/-!
Ordinary options: texts, numbers and truth values. Skeletons set no others, and no key twice.
-/
namespace Phrasebook

/-- A value that a formatter takes. -/
def OptionValue.Ordinary : OptionValue → Prop
  | .text _ | .number _ | .flag _ => True
  | .foreign _ _ => False

instance : DecidablePred OptionValue.Ordinary
  | .text _ | .number _ | .flag _ => .isTrue trivial
  | .foreign _ _ => .isFalse id

def FormatOptions.Ordinary (o : FormatOptions) : Prop :=
  ∀ p ∈ o, p.2.Ordinary

instance (o : FormatOptions) : Decidable o.Ordinary :=
  inferInstanceAs (Decidable (∀ p ∈ o, p.2.Ordinary))

/-- Ordinary options, each under a key of its own. -/
structure FormatOptions.Regular (o : FormatOptions) : Prop where
  ordinary : o.Ordinary
  distinct : (o.map (·.1)).Nodup

instance (o : FormatOptions) : Decidable o.Regular :=
  decidable_of_iff (o.Ordinary ∧ (o.map (·.1)).Nodup)
    ⟨fun h => ⟨h.1, h.2⟩, fun h => ⟨h.ordinary, h.distinct⟩⟩

theorem FormatOptions.Ordinary.nil : FormatOptions.Ordinary [] :=
  fun _ hp => absurd hp List.not_mem_nil

namespace FormatOptions

/-- A key that is new stands behind the others. -/
theorem keys_set (o : FormatOptions) (key : String) (value : OptionValue) :
    (o.set key value).map (·.1) =
      if key ∈ o.map (·.1) then o.map (·.1) else o.map (·.1) ++ [key] := by
  induction o with
  | nil => rfl
  | cons p r ih =>
    rw [set]
    by_cases hkey : p.1 = key
    · rw [if_pos hkey, List.map_cons, List.map_cons, if_pos (hkey ▸ List.mem_cons_self)]
    · rw [if_neg hkey, List.map_cons, ih, List.map_cons]
      simp only [List.mem_cons, Ne.symm hkey, false_or]
      split <;> rfl

namespace Regular

theorem nil : Regular [] :=
  ⟨.nil, List.nodup_nil⟩

theorem set {o : FormatOptions} (h : o.Regular) (key : String) {value : OptionValue}
    (hv : value.Ordinary) : (o.set key value).Regular := by
  constructor
  case ordinary =>
    obtain ⟨hordinary, -⟩ := h
    induction o with
    | nil =>
      intro p hp
      rw [List.mem_singleton.mp hp]
      exact hv
    | cons q r ih =>
      have hr : FormatOptions.Ordinary r := fun p hp => hordinary p (List.mem_cons_of_mem _ hp)
      intro p hp
      rw [FormatOptions.set] at hp
      split at hp
      · rcases List.mem_cons.mp hp with rfl | hp
        · exact hv
        · exact hr p hp
      · rcases List.mem_cons.mp hp with rfl | hp
        · exact hordinary _ List.mem_cons_self
        · exact ih hr p hp
  case distinct =>
    rw [keys_set]
    split
    · exact h.distinct
    · rename_i hnew
      refine List.nodup_append.mpr ⟨h.distinct, List.nodup_singleton key, ?_⟩
      rintro x hx y hy rfl
      exact hnew (List.mem_singleton.mp hy ▸ hx)

theorem setText {o : FormatOptions} (h : o.Regular) (key value : String) :
    (o.setText key value).Regular :=
  h.set key trivial

theorem setCount {o : FormatOptions} (h : o.Regular) (key : String) (n : Nat) :
    (o.setCount key n).Regular :=
  h.set key trivial

end Regular

end FormatOptions

namespace Skeleton

/-- A change that leaves options regular. -/
def Keeps (change : Change) : Prop :=
  ∀ o o', FormatOptions.Regular o → change o = .ok o' → FormatOptions.Regular o'

/-! ### Changes that a token can make -/

theorem keeps_ok {f : FormatOptions → FormatOptions} (h : ∀ o, o.Regular → (f o).Regular) :
    Keeps fun o => .ok (f o) := by
  intro o o' ho hf
  rw [← Except.ok.inj hf]
  exact h o ho

@[simp] theorem keeps_error (reason : String) : Keeps fun _ => .error reason := by
  intro o o' _ h
  exact nomatch h

@[simp] theorem keeps_nothing : Keeps .ok :=
  keeps_ok fun _ ho => ho

@[simp] theorem keeps_setFlag (key : String) (b : Bool) :
    Keeps fun o => .ok (o.set key (.flag b)) :=
  keeps_ok fun _ ho => ho.set key trivial

@[simp] theorem keeps_setCount (key : String) (n : Nat) : Keeps fun o => .ok (o.setCount key n) :=
  keeps_ok fun _ ho => ho.setCount key n

@[simp] theorem keeps_setText_setCount (key value count : String) (n : Nat) :
    Keeps fun o => .ok ((o.setText key value).setCount count n) :=
  keeps_ok fun _ ho => (ho.setText key value).setCount count n

@[simp] theorem keeps_texts (pairs : List (String × String)) : Keeps (texts pairs) := by
  refine keeps_ok ?_
  induction pairs with
  | nil => exact fun _ ho => ho
  | cons p r ih => exact fun o ho => ih _ (ho.setText p.1 p.2)

@[simp] theorem keeps_ite {p : Prop} [Decidable p] {a b : Change} (ha : Keeps a) (hb : Keeps b) :
    Keeps (if p then a else b) := by
  split
  · exact ha
  · exact hb

@[simp] theorem keeps_currencyChange (options : List (List Char)) :
    Keeps (currencyChange options) := by
  intro o o' ho h
  rw [currencyChange] at h
  split at h
  · split at h
    · exact nomatch h
    · rw [← Except.ok.inj h]
      exact (ho.setText _ _).setText _ _
  · exact nomatch h

@[simp] theorem keeps_unitChange (typed : Bool) (options : List (List Char)) :
    Keeps (unitChange typed options) := by
  intro o o' ho h
  rw [unitChange] at h
  split at h
  · rw [← Except.ok.inj h]
    exact (ho.setText _ _).setText _ _
  · exact nomatch h

@[simp] theorem keeps_scaleChange (options : List (List Char)) : Keeps (scaleChange options) := by
  intro o o' ho h
  rw [scaleChange] at h
  split at h
  · split at h
    · rw [← Except.ok.inj h]
      exact ho.set _ trivial
    · exact nomatch h
  · exact nomatch h

@[simp] theorem keeps_integerWidthChange (options : List (List Char)) :
    Keeps (integerWidthChange options) := by
  intro o o' ho h
  rw [integerWidthChange] at h
  split at h
  · split at h
    · exact nomatch h
    · rw [← Except.ok.inj h]
      exact ho.setCount _ _
  · exact nomatch h

theorem keeps_notationOptions (options : List (List Char)) :
    Keeps fun o => notationOptions o options := by
  induction options with
  | nil => exact keeps_nothing
  | cons opt r ih =>
    intro o o' ho h
    simp only [notationOptions] at h
    split at h
    · exact ih _ _ (ho.setText _ _) h
    · exact ih _ _ (ho.setText _ _) h
    · exact ih _ _ (ho.setText _ _) h
    · exact ih _ _ (ho.setText _ _) h
    · exact ih _ _ (ho.setText _ _) h
    · exact ih _ _ (ho.setText _ _) h
    · split at h
      · exact ih _ _ ho h
      · exact nomatch h

@[simp] theorem keeps_setText_notation (key value : String) (options : List (List Char)) :
    Keeps fun o => notationOptions (o.setText key value) options :=
  fun _ o' ho h => keeps_notationOptions options _ o' (ho.setText key value) h

theorem significantPrecision_regular {o o' : FormatOptions} {cs : List Char} (ho : o.Regular)
    (h : significantPrecision? o cs = some o') : o'.Regular := by
  rw [significantPrecision?] at h
  split at h
  · split at h
    · exact nomatch h
    · rw [← Option.some.inj h]
      split
      · exact ho.setCount _ _
      · exact (ho.setCount _ _).setCount _ _
  · exact nomatch h

theorem fractionPrecision_regular {o o' : FormatOptions} {cs : List Char} (ho : o.Regular)
    (h : fractionPrecision? o cs = some o') : o'.Regular := by
  rw [fractionPrecision?] at h
  split at h
  · split at h
    · exact nomatch h
    · rw [← Option.some.inj h]
      split
      · exact ho.setCount _ _
      · exact (ho.setCount _ _).setCount _ _
  · exact nomatch h

theorem keeps_fractionOptions (options : List (List Char)) :
    Keeps fun o => fractionOptions o options := by
  induction options with
  | nil => exact keeps_nothing
  | cons opt r ih =>
    intro o o' ho h
    simp only [fractionOptions] at h
    split at h
    · exact ih _ _ (ho.setText _ _) h
    · split at h
      · rename_i o₁ hs
        exact ih _ _ (significantPrecision_regular ho hs) h
      · exact nomatch h

@[simp] theorem keeps_precisionChange (t : Token) : Keeps (precisionChange t) := by
  intro o o' ho h
  rw [precisionChange] at h
  split at h
  · rw [← Except.ok.inj h]
    exact ho.setCount _ _
  · split at h
    · split at h
      · rename_i o₁ hf
        exact keeps_fractionOptions _ _ _ (fractionPrecision_regular ho hf) h
      · exact nomatch h
    · split at h
      · rename_i o₁ hs
        rw [← Except.ok.inj h]
        exact significantPrecision_regular ho hs
      · exact nomatch h
    · exact nomatch h

/-! ### Whole skeletons -/

theorem keeps_change (t : Token) : Keeps t.change := by
  rw [Token.change]
  split <;> simp

theorem parseNumber_regular {cs : List Char} {o : FormatOptions} (h : parseNumber cs = .ok o) :
    o.Regular := by
  have hfold (ts : List Token) : ∀ o₁ : FormatOptions, o₁.Regular →
      ts.foldlM (fun o t => t.apply o) o₁ = .ok o → o.Regular := by
    induction ts with
    | nil =>
      intro o₁ ho₁ hts
      rw [← Except.ok.inj hts]
      exact ho₁
    | cons t r ih =>
      intro o₁ ho₁ hts
      rw [List.foldlM_cons, Token.apply] at hts
      cases hchange : t.change o₁ with
      | error reason =>
        rw [hchange] at hts
        exact nomatch hts
      | ok o₂ =>
        rw [hchange] at hts
        exact ih o₂ (keeps_change t o₁ o₂ ho₁ hchange) hts
  exact hfold _ [] .nil h

theorem keeps_fieldChange (field : Char) (n : Nat) : Keeps (fieldChange field n) := by
  rw [fieldChange.eq_def]
  split <;> simp [hourChange]

theorem applyRuns_regular {runs : List (Char × Nat)} :
    ∀ {o o' : FormatOptions} {offset : Nat}, o.Regular → applyRuns o offset runs = .ok o' →
      o'.Regular := by
  induction runs with
  | nil =>
    intro o o' offset ho h
    rw [← Except.ok.inj h]
    exact ho
  | cons p r ih =>
    intro o o' offset ho h
    rw [applyRuns] at h
    split at h
    · rename_i o₁ hfield
      exact ih (keeps_fieldChange p.1 p.2 o o₁ ho hfield) h
    · exact nomatch h

theorem parseDate_regular {cs : List Char} {o : FormatOptions} (h : parseDate cs = .ok o) :
    o.Regular :=
  applyRuns_regular .nil h

end Skeleton

end Phrasebook
