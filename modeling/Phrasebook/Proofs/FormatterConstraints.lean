import Phrasebook.Proofs.SkeletonComposition
import Phrasebook.Proofs.WholeOrder

/-!
Which number skeletons make formatters. The last token that asks for a digit count or for a style
decides it, so the bounds of one token may meet those of another one. The options of a skeleton are
ones that a formatter takes exactly if what its tokens ask for together is sound.
-/
namespace Phrasebook

/-- Three ASCII letters. -/
def IsCurrencyCode (cs : List Char) : Prop :=
  cs.length = 3 ∧ ∀ c ∈ cs, c.isAlpha = true

namespace FormatOptions

/-- What a number formatter demands of its options. -/
structure Constructible (o : FormatOptions) : Prop where
  fraction : ∀ least most, o.get? "minimumFractionDigits" = some (.number least) →
    o.get? "maximumFractionDigits" = some (.number most) → least ≤ most
  significant : ∀ least most, o.get? "minimumSignificantDigits" = some (.number least) →
    o.get? "maximumSignificantDigits" = some (.number most) → least ≤ most
  integer : ∀ n, o.get? "minimumIntegerDigits" = some (.number n) → 1 ≤ n
  leastSignificant : ∀ n, o.get? "minimumSignificantDigits" = some (.number n) → 1 ≤ n
  currency : o.get? "style" = some (.text "currency") →
    ∃ code, o.get? "currency" = some (.text code) ∧ IsCurrencyCode code.toList

theorem get?_set (o : FormatOptions) (key other : String) (value : OptionValue) :
    (o.set key value).get? other = if key = other then some value else o.get? other := by
  induction o with
  | nil => rw [set, get?_cons, get?_nil]
  | cons e r ih =>
    rw [set]
    by_cases hkey : e.1 = key
    · rw [if_pos hkey, get?_cons, get?_cons, hkey]
      split <;> rfl
    · rw [if_neg hkey, get?_cons, ih, get?_cons]
      by_cases hother : e.1 = other
      · rw [if_pos hother, if_pos hother, if_neg fun h => hkey (hother.trans h.symm)]
      · rw [if_neg hother, if_neg hother]

end FormatOptions

namespace Skeleton

open FormatOptions

/-! ### What skeletons ask for -/

/-- The digit counts that a skeleton sets. -/
inductive Count where
  | leastFraction | mostFraction | leastSignificant | mostSignificant | integer
  deriving DecidableEq

def Count.key : Count → String
  | leastFraction => "minimumFractionDigits"
  | mostFraction => "maximumFractionDigits"
  | leastSignificant => "minimumSignificantDigits"
  | mostSignificant => "maximumSignificantDigits"
  | integer => "minimumIntegerDigits"

theorem Count.key_injective {c d : Count} (h : c.key = d.key) : c = d := by
  cases c <;> cases d <;> first | rfl | exact absurd h (by decide)

/-- The styles that a skeleton sets, a currency with the code as it is written. -/
inductive Style where
  | percent | unit
  | currency (code : List Char)
  deriving DecidableEq

def Style.name : Style → String
  | percent => "percent"
  | unit => "unit"
  | currency _ => "currency"

/-- The digit counts and the style that are asked for. -/
structure Asked where
  count : Count → Option Nat
  style : Option Style

namespace Asked

def nothing : Asked :=
  ⟨fun _ => none, none⟩

def digits (c : Count) (n : Nat) : Asked :=
  ⟨fun d => if d = c then some n else none, none⟩

def styled (s : Style) : Asked :=
  ⟨fun _ => none, some s⟩

/-- What is asked for later wins. -/
def followedBy (a b : Asked) : Asked :=
  ⟨fun c => (b.count c).or (a.count c), b.style.or a.style⟩

theorem followedBy_nothing (a : Asked) : a.followedBy nothing = a :=
  rfl

theorem followedBy_assoc (a b d : Asked) :
    (a.followedBy b).followedBy d = a.followedBy (b.followedBy d) := by
  simp only [followedBy, Option.or_assoc]

/-- What a run of signs asks for: a least count, and a largest one unless it is open. -/
def precision (required : Char) (least most : Count) (cs : List Char) : Asked :=
  match precision? required cs with
  | some (n, more, isOpen) =>
    if isOpen then digits least n else (digits least n).followedBy (digits most (n + more))
  | none => nothing

def significant (cs : List Char) : Asked :=
  precision '@' .leastSignificant .mostSignificant cs

/-- The options behind a fraction ask for significant digits, one after the other. -/
def significants : List (List Char) → Asked
  | [] => nothing
  | opt :: r => (significant opt).followedBy (significants r)

/-- Stems that are built of repeated signs. -/
def ofSigns (t : Token) : Asked :=
  if isAll '0' t.stem then digits .integer t.stem.length
  else
    match t.stem with
    | '.' :: fraction =>
      (precision '0' .leastFraction .mostFraction fraction).followedBy (significants t.options)
    | '@' :: _ => significant t.stem
    | _ => nothing

end Asked

open Asked

def Token.asked (t : Token) : Asked :=
  match String.ofList t.stem with
  | "percent" | "%" | "%x100" => styled .percent
  | "measure-unit" | "unit" => styled .unit
  | "currency" =>
    match soleOption? t.options with
    | some code => styled (.currency code)
    | none => nothing
  | "precision-integer" | "." => digits .mostFraction 0
  | "integer-width" =>
    match soleOption? t.options with
    | some (_ :: ds) => digits .integer ds.length
    | _ => nothing
  | _ => ofSigns t

/-- What tokens ask for together. -/
def asked (ts : List Token) : Asked :=
  ts.foldl (fun a t => a.followedBy t.asked) nothing

/-- Options show what is asked for: the counts under their keys, and the style, for a currency with
its code in capitals. Such a code has three bytes, and at least one significant digit is asked for. -/
structure Shows (o : FormatOptions) (a : Asked) : Prop where
  count : ∀ c, o.get? c.key = (a.count c).map fun n => .number n.toFloat
  style : o.get? "style" = a.style.map fun s => .text s.name
  currency : ∀ code, a.style = some (.currency code) → byteLength code = 3 ∧
    o.get? "currency" = some (.text (Text.upperText (String.ofList code)))
  positive : a.count .leastSignificant ≠ some 0

namespace Shows

variable {o : FormatOptions} {a : Asked}

theorem nothing : Shows [] Asked.nothing :=
  ⟨fun _ => rfl, rfl, nofun, nofun⟩

/-- A key that says nothing about counts and styles. -/
def Plain (key : String) : Prop :=
  key ≠ "style" ∧ key ≠ "currency" ∧ key ≠ "minimumFractionDigits" ∧
    key ≠ "maximumFractionDigits" ∧ key ≠ "minimumSignificantDigits" ∧
      key ≠ "maximumSignificantDigits" ∧ key ≠ "minimumIntegerDigits"

instance (key : String) : Decidable (Plain key) :=
  inferInstanceAs (Decidable (_ ∧ _))

theorem set {key : String} (h : Shows o a) (hkey : Plain key) (value : OptionValue) :
    Shows (o.set key value) a := by
  obtain ⟨hstyle, hcurrency, hcounts⟩ := hkey
  have hcount (c : Count) : key ≠ c.key := by
    obtain ⟨h₁, h₂, h₃, h₄, h₅⟩ := hcounts
    cases c <;> assumption
  constructor
  case count =>
    intro c
    rw [get?_set, if_neg (hcount c)]
    exact h.count c
  case style =>
    rw [get?_set, if_neg hstyle]
    exact h.style
  case currency =>
    intro code hcode
    rw [get?_set, if_neg hcurrency]
    exact h.currency code hcode
  case positive => exact h.positive

theorem setCount (h : Shows o a) (c : Count) (n : Nat) (hn : c = .leastSignificant → n ≠ 0) :
    Shows (o.setCount c.key n) (a.followedBy (digits c n)) := by
  -- counts have keys of their own
  have hstyle : c.key ≠ "style" := by
    cases c <;> decide
  have hcurrency : c.key ≠ "currency" := by
    cases c <;> decide
  constructor
  case count =>
    intro d
    rw [FormatOptions.setCount, get?_set]
    change _ = Option.map _ ((if d = c then some n else none).or (a.count d))
    by_cases hd : d = c
    · rw [if_pos (congrArg Count.key hd.symm), if_pos hd]
      rfl
    · rw [if_neg fun hkey => hd (Count.key_injective hkey).symm, if_neg hd, Option.none_or]
      exact h.count d
  case style =>
    rw [FormatOptions.setCount, get?_set, if_neg hstyle]
    exact h.style
  case currency =>
    intro code hcode
    rw [FormatOptions.setCount, get?_set, if_neg hcurrency]
    exact h.currency code hcode
  case positive =>
    change (if Count.leastSignificant = c then some n else none).or _ ≠ some 0
    split
    · rename_i hc
      exact fun hzero => hn hc.symm (Option.some.inj hzero)
    · rw [Option.none_or]
      exact h.positive

theorem setCount_of_ne (h : Shows o a) (c : Count) (n : Nat) (hc : c ≠ .leastSignificant) :
    Shows (o.setCount c.key n) (a.followedBy (digits c n)) :=
  h.setCount c n fun hleast => absurd hleast hc

/-- A style that is no currency. -/
theorem setStyle (h : Shows o a) {s : Style} (hs : ∀ code, s ≠ .currency code) :
    Shows (o.setText "style" s.name) (a.followedBy (styled s)) := by
  have hcount (c : Count) : "style" ≠ c.key := by
    cases c <;> decide
  constructor
  case count =>
    intro c
    rw [FormatOptions.setText, get?_set, if_neg (hcount c)]
    exact h.count c
  case style =>
    rw [FormatOptions.setText, get?_set, if_pos rfl]
    rfl
  case currency => exact fun code hcode => absurd (Option.some.inj hcode) (hs code)
  case positive => exact h.positive

theorem setPercent (h : Shows o a) :
    Shows (o.setText "style" "percent") (a.followedBy (styled .percent)) :=
  h.setStyle (s := .percent) nofun

theorem setCurrency (h : Shows o a) {code : List Char} (hcode : byteLength code = 3) :
    Shows ((o.setText "style" "currency").setText "currency"
      (Text.upperText (String.ofList code))) (a.followedBy (styled (.currency code))) := by
  have hcount (c : Count) : "style" ≠ c.key ∧ "currency" ≠ c.key := by
    cases c <;> decide
  constructor
  case count =>
    intro c
    rw [FormatOptions.setText, get?_set, if_neg (hcount c).2, FormatOptions.setText, get?_set,
      if_neg (hcount c).1]
    exact h.count c
  case style =>
    rw [FormatOptions.setText, get?_set, if_neg (by decide), FormatOptions.setText, get?_set,
      if_pos rfl]
    rfl
  case currency =>
    intro code' hcode'
    obtain rfl : code = code' := Style.currency.inj (Option.some.inj hcode')
    refine ⟨hcode, ?_⟩
    rw [FormatOptions.setText, get?_set, if_pos rfl]
  case positive => exact h.positive

end Shows

/-! ### One token -/

/-- A change after which options show in addition what is asked for. -/
def Adds (change : Change) (b : Asked) : Prop :=
  ∀ o o' a, Shows o a → change o = .ok o' → Shows o' (a.followedBy b)

namespace Adds

theorem error (reason : String) (b : Asked) : Adds (fun _ => .error reason) b :=
  fun _ _ _ _ h => nomatch h

theorem ok {f : FormatOptions → FormatOptions} {b : Asked}
    (h : ∀ o a, Shows o a → Shows (f o) (a.followedBy b)) : Adds (fun o => .ok (f o)) b := by
  intro o o' a ho hf
  rw [← Except.ok.inj hf]
  exact h o a ho

theorem setPlain {key : String} (hkey : Shows.Plain key) (value : OptionValue) :
    Adds (fun o => .ok (o.set key value)) .nothing :=
  ok fun _ _ ho => ho.set hkey value

theorem plainTexts {pairs : List (String × String)} (h : ∀ p ∈ pairs, Shows.Plain p.1) :
    Adds (texts pairs) .nothing := by
  refine ok fun o a ho => ?_
  induction pairs generalizing o with
  | nil => exact ho
  | cons p r ih =>
    obtain ⟨hp, hr⟩ := List.forall_mem_cons.mp h
    exact ih hr _ (ho.set hp (.text p.2))

theorem texts_style : Adds (texts [("style", "percent")]) (styled .percent) :=
  ok fun _ _ ho => ho.setPercent

theorem notationOptions (options : List (List Char)) :
    Adds (fun o => Skeleton.notationOptions o options) .nothing := by
  intro o o' a ho h
  induction options generalizing o with
  | nil =>
    rw [← Except.ok.inj h]
    exact ho
  | cons opt r ih =>
    have hsign (value : String) : Shows (o.setText "signDisplay" value) a :=
      ho.set (by decide) (.text value)
    simp only [Skeleton.notationOptions] at h
    split at h
    · exact ih _ (hsign "always") h
    · exact ih _ (hsign "always") h
    · exact ih _ (hsign "exceptZero") h
    · exact ih _ (hsign "exceptZero") h
    · exact ih _ (hsign "never") h
    · exact ih _ (hsign "never") h
    · split at h
      · exact ih o ho h
      · cases h

theorem setText_notation (value : String) (options : List (List Char)) :
    Adds (fun o => Skeleton.notationOptions (o.setText "notation" value) options) .nothing :=
  fun _ o' a ho h => notationOptions options _ o' a (ho.set (by decide) (.text value)) h

theorem scaleChange (options : List (List Char)) : Adds (scaleChange options) .nothing := by
  unfold Skeleton.scaleChange
  cases soleOption? options with
  | none => exact error _ _
  | some raw =>
    dsimp only
    cases Decimal.read? raw with
    | none => exact error _ _
    | some x => exact setPlain (by decide) _

theorem unitChange (typed : Bool) (options : List (List Char)) :
    Adds (unitChange typed options) (styled .unit) := by
  unfold Skeleton.unitChange
  cases soleOption? options with
  | none => exact error _ _
  | some unit =>
    exact ok fun _ _ ho => (ho.setStyle (s := .unit) nofun).set (by decide) _

end Adds

theorem Token.adds_currencyChange {t : Token} (h : String.ofList t.stem = "currency") :
    Adds (currencyChange t.options) t.asked := by
  simp only [Token.asked, h]
  unfold currencyChange
  cases soleOption? t.options with
  | none => exact Adds.error _ _
  | some code =>
    intro o o' a ho hchange
    dsimp only at hchange
    split at hchange
    · cases hchange
    · rename_i hbytes
      rw [← Except.ok.inj hchange]
      exact ho.setCurrency (not_not.mp hbytes)

theorem Token.adds_integerWidthChange {t : Token} (h : String.ofList t.stem = "integer-width") :
    Adds (integerWidthChange t.options) t.asked := by
  simp only [Token.asked, h]
  unfold integerWidthChange
  rcases soleOption? t.options with _ | _ | ⟨c, ds⟩
  · exact Adds.error _ _
  · exact Adds.error _ _
  · intro o o' a ho hchange
    dsimp only at hchange
    split at hchange
    · cases hchange
    · rw [← Except.ok.inj hchange]
      exact ho.setCount_of_ne .integer ds.length (by decide)

/-- The counts of a run of signs are set one after the other. -/
theorem Shows.setPrecision {o : FormatOptions} {a : Asked} (ho : Shows o a) (least most : Count)
    {required : Char} {cs : List Char} {n more : Nat} {isOpen : Bool}
    (hprecision : precision? required cs = some (n, more, isOpen))
    (hleast : least = .leastSignificant → n ≠ 0) (hmost : most ≠ .leastSignificant) :
    Shows (if isOpen then o.setCount least.key n
      else (o.setCount least.key n).setCount most.key (n + more))
      (a.followedBy (precision required least most cs)) := by
  have hfirst := ho.setCount least n hleast
  rw [precision, hprecision]
  cases isOpen with
  | true => exact hfirst
  | false =>
    change Shows _ (a.followedBy ((digits least n).followedBy (digits most (n + more))))
    rw [← followedBy_assoc]
    exact hfirst.setCount_of_ne most (n + more) hmost

theorem Shows.significantPrecision {o o' : FormatOptions} {a : Asked} (ho : Shows o a)
    {cs : List Char} (h : significantPrecision? o cs = some o') :
    Shows o' (a.followedBy (significant cs)) := by
  rw [significantPrecision?] at h
  split at h
  · rename_i hprecision
    split at h
    · cases h
    · rename_i hsome
      rw [← Option.some.inj h]
      exact ho.setPrecision .leastSignificant .mostSignificant hprecision (fun _ => hsome) (by decide)
  · cases h

theorem Shows.fractionPrecision {o o' : FormatOptions} {a : Asked} (ho : Shows o a)
    {cs : List Char} (h : fractionPrecision? o cs = some o') :
    Shows o' (a.followedBy (precision '0' .leastFraction .mostFraction cs)) := by
  rw [fractionPrecision?] at h
  split at h
  · rename_i hprecision
    split at h
    · cases h
    · rw [← Option.some.inj h]
      exact ho.setPrecision .leastFraction .mostFraction hprecision (fun h => absurd h (by decide))
        (by decide)
  · cases h

theorem adds_fractionOptions (options : List (List Char)) :
    Adds (fun o => fractionOptions o options) (significants options) := by
  induction options with
  | nil => exact Adds.ok fun _ _ ho => ho
  | cons opt r ih =>
    intro o o' a ho h
    simp only [fractionOptions] at h
    rw [significants, ← followedBy_assoc]
    split at h
    · rename_i hzeros
      -- trailing zeros are no digits
      have hopt : opt = ['w'] := beq_iff_eq.mp hzeros
      have hnothing : significant opt = .nothing := by
        rw [hopt]
        rfl
      rw [hnothing, followedBy_nothing]
      exact ih _ o' a (ho.set (by decide) _) h
    · split at h
      · rename_i hsignificant
        exact ih _ o' _ (ho.significantPrecision hsignificant) h
      · cases h

theorem ofSigns_zeros {t : Token} (h : isAll '0' t.stem = true) :
    ofSigns t = digits .integer t.stem.length := by
  rw [ofSigns, if_pos h]

theorem ofSigns_fraction {t : Token} {fraction : List Char} (h : t.stem = '.' :: fraction) :
    ofSigns t = (precision '0' .leastFraction .mostFraction fraction).followedBy
      (significants t.options) := by
  rw [ofSigns, h]
  rfl

theorem ofSigns_significant {t : Token} {signs : List Char} (h : t.stem = '@' :: signs) :
    ofSigns t = significant ('@' :: signs) := by
  rw [ofSigns, h]
  rfl

theorem adds_precisionChange (t : Token) : Adds (precisionChange t) (ofSigns t) := by
  intro o o' a ho h
  rw [precisionChange] at h
  split at h
  · rename_i hzeros
    rw [ofSigns_zeros hzeros, ← Except.ok.inj h]
    exact ho.setCount_of_ne .integer t.stem.length (by decide)
  · split at h
    · rename_i hstem
      rw [ofSigns_fraction hstem, ← followedBy_assoc]
      split at h
      · rename_i hfraction
        exact adds_fractionOptions t.options _ o' _ (ho.fractionPrecision hfraction) h
      · cases h
    · rename_i hstem
      rw [ofSigns_significant hstem, ← hstem]
      split at h
      · rename_i hsignificant
        rw [← Except.ok.inj h]
        exact ho.significantPrecision hsignificant
      · cases h
    · cases h

/-- A name that begins like no run of signs. -/
theorem ofSigns_of_name {t : Token} {name : String} (h : String.ofList t.stem = name)
    (hname : (name.toList.head?.any fun c => c != '0' && c != '.' && c != '@') = true) :
    ofSigns t = .nothing := by
  rw [← h, String.toList_ofList] at hname
  cases hstem : t.stem with
  | nil =>
    rw [hstem] at hname
    exact absurd hname Bool.false_ne_true
  | cons c r =>
    simp only [hstem, List.head?_cons, Option.any_some, Bool.and_eq_true, bne_iff_ne] at hname
    obtain ⟨⟨hzero, hpoint⟩, hat⟩ := hname
    have hall : isAll '0' (c :: r) = false := by
      rw [isAll, List.all_cons, beq_eq_false_iff_ne.mpr hzero, Bool.false_and]
    rw [ofSigns, hstem, hall, if_neg Bool.false_ne_true]
    split
    · rename_i heq
      exact absurd (List.cons.inj heq).1 hpoint
    · rename_i heq
      exact absurd (List.cons.inj heq).1 hat
    · rfl

theorem Token.adds_change (t : Token) : Adds t.change t.asked := by
  rw [Token.change]
  split
  -- most names set texts that say nothing about counts and styles
  all_goals try
    rename_i h
    have hasked : t.asked = .nothing := by
      simp only [Token.asked, h]
      exact ofSigns_of_name h (by decide +kernel)
    rw [hasked]
    first
    | exact Adds.plainTexts (by decide)
    | exact Adds.setPlain (by decide) _
    | exact Adds.setText_notation _ _
    | exact Adds.scaleChange _
  case h_1 h | h_2 h =>
    have hasked : t.asked = styled .percent := by
      simp only [Token.asked, h]
    rw [hasked]
    exact Adds.texts_style
  case h_3 h =>
    have hasked : t.asked = styled .percent := by
      simp only [Token.asked, h]
    rw [hasked]
    exact Adds.ok fun _ _ ho => ho.setPercent.set (by decide) _
  case h_4 => exact Adds.error _ _
  case h_5 h => exact Token.adds_currencyChange h
  case h_6 h | h_7 h =>
    have hasked : t.asked = styled .unit := by
      simp only [Token.asked, h]
    rw [hasked]
    exact Adds.unitChange _ _
  case h_10 h | h_11 h =>
    have hasked : t.asked = digits .mostFraction 0 := by
      simp only [Token.asked, h]
    rw [hasked]
    exact Adds.ok fun _ _ ho => ho.setCount_of_ne .mostFraction 0 (by decide)
  case h_37 h => exact Token.adds_integerWidthChange h
  case h_38 =>
    -- no name at all
    have hsigns : t.asked = ofSigns t := by
      unfold Token.asked
      split <;> first | rfl | contradiction
    rw [hsigns]
    exact adds_precisionChange t

/-! ### Whole skeletons -/

theorem shows_applyTokens {ts : List Token} {o o' : FormatOptions} {a : Asked} (ho : Shows o a)
    (h : applyTokens ts o = .ok o') :
    Shows o' (ts.foldl (fun a t => a.followedBy t.asked) a) := by
  -- what was asked for so far is carried along the tokens
  induction ts generalizing o a with
  | nil =>
    rw [← Except.ok.inj h]
    exact ho
  | cons t r ih =>
    rw [applyTokens_cons] at h
    cases hfirst : t.apply o with
    | error f =>
      rw [hfirst] at h
      cases h
    | ok p =>
      rw [hfirst] at h
      rw [Token.apply] at hfirst
      split at hfirst
      · rename_i hchange
        rw [← Except.ok.inj hfirst] at h
        exact ih (t.adds_change o _ a ho hchange) h
      · cases hfirst

theorem shows_parseNumber {cs : List Char} {o : FormatOptions} (h : parseNumber cs = .ok o) :
    Shows o (asked (tokens cs)) :=
  shows_applyTokens Shows.nothing h

/-- As many bytes as characters: all of them are ASCII. -/
theorem ascii_of_byteLength {cs : List Char} (h : byteLength cs = cs.length) :
    ∀ c ∈ cs, c.toNat < 128 := by
  induction cs with
  | nil => exact fun c hc => absurd hc List.not_mem_nil
  | cons d r ih =>
    have hd := d.utf8Size_pos
    have hr := length_le_byteLength r
    rw [byteLength_cons, List.length_cons] at h
    refine List.forall_mem_cons.mpr ⟨?_, ih (by omega)⟩
    have hone : d.utf8Size = 1 := by omega
    have hval : d.val.toNat ≤ 127 := UInt32.le_iff_toNat_le.mp (Char.utf8Size_eq_one_iff.mp hone)
    exact Nat.lt_succ_of_le hval

theorem isAlpha_upper {c : Char} (hc : c.toNat < 128) : (Text.upper c).isAlpha = c.isAlpha := by
  rw [Text.upper, if_pos hc, Char.isAlpha_toUpper_eq_isAlpha]

/-- Three bytes are three letters in capitals exactly if they are three letters. -/
theorem isCurrencyCode_upperText {code : List Char} (h : byteLength code = 3) :
    IsCurrencyCode (Text.upperText (String.ofList code)).toList ↔ IsCurrencyCode code := by
  have hupper : (Text.upperText (String.ofList code)).toList = code.map Text.upper := by
    rw [Text.upperText, String.toList_map, String.toList_ofList]
  rw [hupper, IsCurrencyCode, IsCurrencyCode, List.length_map, List.forall_mem_map]
  refine and_congr_right fun hlength => ?_
  have hascii := ascii_of_byteLength (h.trans hlength.symm)
  refine forall₂_congr fun c hc => ?_
  rw [isAlpha_upper (hascii c hc)]

/-- What is asked for is sound: no least count is above the largest one, there is an integer digit,
and the code of a currency has three letters. -/
structure Asked.Sound (a : Asked) : Prop where
  fraction : ∀ least most, a.count .leastFraction = some least →
    a.count .mostFraction = some most → least.toFloat ≤ most.toFloat
  significant : ∀ least most, a.count .leastSignificant = some least →
    a.count .mostSignificant = some most → least.toFloat ≤ most.toFloat
  integer : a.count .integer ≠ some 0
  currency : ∀ code, a.style = some (.currency code) → IsCurrencyCode code

namespace Shows

variable {o : FormatOptions} {a : Asked}

theorem get?_eq_number_iff (h : Shows o a) (c : Count) (x : Float) :
    o.get? c.key = some (.number x) ↔ ∃ n, a.count c = some n ∧ n.toFloat = x := by
  rw [h.count c, Option.map_eq_some_iff]
  simp only [OptionValue.number.injEq]

/-- Bounds of options are in order exactly if those asked for are. -/
theorem ordered_iff (h : Shows o a) (least most : Count) :
    (∀ x y, o.get? least.key = some (.number x) → o.get? most.key = some (.number y) → x ≤ y) ↔
      ∀ n m, a.count least = some n → a.count most = some m → n.toFloat ≤ m.toFloat := by
  simp only [h.get?_eq_number_iff]
  constructor
  · intro hle n m hn hm
    exact hle _ _ ⟨n, hn, rfl⟩ ⟨m, hm, rfl⟩
  · rintro hle _ _ ⟨n, hn, rfl⟩ ⟨m, hm, rfl⟩
    exact hle n m hn hm

theorem constructible_iff_sound (h : Shows o a) : o.Constructible ↔ a.Sound := by
  have hcurrency (code : List Char) (hcode : a.style = some (.currency code)) :
      o.get? "style" = some (.text "currency") := by
    rw [h.style, hcode]
    rfl
  constructor
  · intro hc
    constructor
    case fraction => exact (h.ordered_iff .leastFraction .mostFraction).mp hc.fraction
    case significant => exact (h.ordered_iff .leastSignificant .mostSignificant).mp hc.significant
    case integer =>
      intro hzero
      have hone := hc.integer _ ((h.get?_eq_number_iff .integer _).mpr ⟨0, hzero, rfl⟩)
      exact absurd rfl (Floats.one_le_toFloat_iff.mp hone)
    case currency =>
      intro code hcode
      obtain ⟨hbytes, hshown⟩ := h.currency code hcode
      obtain ⟨shown, hshown', hletters⟩ := hc.currency (hcurrency code hcode)
      rw [hshown] at hshown'
      obtain rfl := OptionValue.text.inj (Option.some.inj hshown')
      exact (isCurrencyCode_upperText hbytes).mp hletters
  · intro hs
    constructor
    case fraction => exact (h.ordered_iff .leastFraction .mostFraction).mpr hs.fraction
    case significant => exact (h.ordered_iff .leastSignificant .mostSignificant).mpr hs.significant
    case integer =>
      intro x hx
      obtain ⟨n, hn, rfl⟩ := (h.get?_eq_number_iff .integer x).mp hx
      exact Floats.one_le_toFloat_iff.mpr fun hzero => hs.integer (hzero ▸ hn)
    -- this count is never set to zero, so nothing has to be known of what was asked
    case leastSignificant =>
      intro x hx
      obtain ⟨n, hn, rfl⟩ := (h.get?_eq_number_iff .leastSignificant x).mp hx
      exact Floats.one_le_toFloat_iff.mpr fun hzero => h.positive (hzero ▸ hn)
    case currency =>
      intro hstyle
      rw [h.style, Option.map_eq_some_iff] at hstyle
      obtain ⟨s, hs', hname⟩ := hstyle
      cases s with
      | percent | unit => exact absurd (OptionValue.text.inj hname) (by decide)
      | currency code =>
        obtain ⟨hbytes, hshown⟩ := h.currency code hs'
        exact ⟨_, hshown, (isCurrencyCode_upperText hbytes).mpr (hs.currency code hs')⟩

end Shows

/-- The options of a number skeleton are ones that a formatter takes exactly if what its tokens ask
for is sound. A least count of significant digits is never zero. -/
theorem constructible_iff {cs : List Char} {o : FormatOptions} (h : parseNumber cs = .ok o) :
    o.Constructible ↔ (asked (tokens cs)).Sound :=
  (shows_parseNumber h).constructible_iff_sound

/-- The least count of the open token is above the largest one of the token before it. -/
theorem constructible_iff_openAfterClosed :
    parseNumber "currency/EUR .0#".toList = .ok [("style", .text "currency"),
        ("currency", .text "EUR"), ("minimumFractionDigits", .number (Nat.toFloat 1)),
        ("maximumFractionDigits", .number (Nat.toFloat 2))] ∧
      FormatOptions.Constructible [("style", .text "currency"),
        ("currency", .text "EUR"), ("minimumFractionDigits", .number (Nat.toFloat 1)),
        ("maximumFractionDigits", .number (Nat.toFloat 2))] ∧
      parseNumber ".0 .00+".toList = .ok [("minimumFractionDigits", .number (Nat.toFloat 2)),
        ("maximumFractionDigits", .number (Nat.toFloat 1))] ∧
      ¬FormatOptions.Constructible [("minimumFractionDigits", .number (Nat.toFloat 2)),
        ("maximumFractionDigits", .number (Nat.toFloat 1))] := by
  have hmoney : parseNumber "currency/EUR .0#".toList = .ok [("style", .text "currency"),
      ("currency", .text "EUR"), ("minimumFractionDigits", .number (Nat.toFloat 1)),
      ("maximumFractionDigits", .number (Nat.toFloat 2))] := by
    have hcapitals : Text.upperText "EUR" = "EUR" := by
      decide +kernel
    rw [← hcapitals]
    rfl
  have hopen : parseNumber ".0 .00+".toList = .ok [("minimumFractionDigits",
      .number (Nat.toFloat 2)), ("maximumFractionDigits", .number (Nat.toFloat 1))] := rfl
  refine ⟨hmoney, (constructible_iff hmoney).mpr ?_, hopen, fun h => ?_⟩
  · have hleast : (asked (tokens "currency/EUR .0#".toList)).count .leastFraction = some 1 := by
      decide +kernel
    have hmost : (asked (tokens "currency/EUR .0#".toList)).count .mostFraction = some 2 := by
      decide +kernel
    have hnone : (asked (tokens "currency/EUR .0#".toList)).count .leastSignificant = none := by
      decide +kernel
    have hstyle : (asked (tokens "currency/EUR .0#".toList)).style =
        some (.currency ['E', 'U', 'R']) := by
      decide +kernel
    constructor
    case fraction =>
      intro n m hn hm
      obtain rfl : 1 = n := Option.some.inj (hleast.symm.trans hn)
      obtain rfl : 2 = m := Option.some.inj (hmost.symm.trans hm)
      exact Floats.toFloat_le_toFloat (by decide)
    case significant =>
      intro n m hn
      exact nomatch hnone.symm.trans hn
    case integer => decide +kernel
    case currency =>
      intro code hcode
      obtain rfl := Style.currency.inj (Option.some.inj (hstyle.symm.trans hcode))
      exact ⟨rfl, List.all_eq_true.mp rfl⟩
  · have hsound := (constructible_iff hopen).mp h
    have hle : Nat.toFloat 2 ≤ Nat.toFloat 1 := hsound.fraction 2 1 (by decide +kernel)
      (by decide +kernel)
    exact absurd hle (by decide +kernel)

end Skeleton

end Phrasebook
