import Mathlib.Data.List.Nodup
import Phrasebook.Proofs.Encoding

/-!
Number skeletons compose. What a token does to options does not depend on them: the options it makes
of none override those that it is applied to. So a skeleton behind another one overrides what that
one sets.
-/
namespace Phrasebook

namespace FormatOptions

/-- Each key stands once. -/
def Distinct (o : FormatOptions) : Prop :=
  (o.map (·.1)).Nodup

/-- Options overridden by others. Keys keep their places, and new ones follow in their order. -/
def override (o p : FormatOptions) : FormatOptions :=
  o.map (fun e => (e.1, (p.get? e.1).getD e.2)) ++ p.filter fun e => (o.get? e.1).isNone

theorem get?_nil (key : String) : get? [] key = none :=
  rfl

theorem get?_cons (e : String × OptionValue) (o : FormatOptions) (key : String) :
    get? (e :: o) key = if e.1 = key then some e.2 else o.get? key := by
  rw [get?, List.find?_cons]
  by_cases hkey : e.1 = key
  · rw [if_pos hkey, beq_iff_eq.mpr hkey]
    rfl
  · rw [if_neg hkey, beq_eq_false_iff_ne.mpr hkey]
    rfl

theorem get?_append (o p : FormatOptions) (key : String) :
    get? (o ++ p) key = (o.get? key).or (p.get? key) := by
  induction o with
  | nil => rw [List.nil_append, get?_nil, Option.none_or]
  | cons e r ih =>
    rw [List.cons_append, get?_cons, get?_cons, ih]
    split <;> rfl

theorem get?_eq_none_iff {o : FormatOptions} {key : String} :
    o.get? key = none ↔ key ∉ o.map (·.1) := by
  induction o with
  | nil => exact iff_of_true rfl List.not_mem_nil
  | cons e r ih =>
    rw [get?_cons, List.map_cons, List.mem_cons, not_or]
    split
    · rename_i hkey
      exact iff_of_false (Option.some_ne_none _) fun h => h.1 hkey.symm
    · rename_i hkey
      rw [ih, and_iff_right (Ne.symm hkey)]

/-- The values under the keys of an object, changed by their keys. -/
theorem get?_map (o : FormatOptions) (f : String → OptionValue → OptionValue) (key : String) :
    get? (o.map fun e => (e.1, f e.1 e.2)) key = (o.get? key).map (f key) := by
  induction o with
  | nil => rfl
  | cons e r ih =>
    rw [List.map_cons, get?_cons, get?_cons, ih]
    split
    · rename_i hkey
      rw [← hkey]
      rfl
    · rfl

/-- Entries that are kept or dropped by their keys. -/
theorem get?_filter (o : FormatOptions) (keep : String → Bool) (key : String) :
    get? (o.filter fun e => keep e.1) key = if keep key then o.get? key else none := by
  induction o with
  | nil =>
    rw [List.filter_nil, get?_nil]
    split <;> rfl
  | cons e r ih =>
    rw [List.filter_cons, get?_cons]
    by_cases hkey : e.1 = key
    · rw [if_pos hkey, hkey]
      split
      · rw [get?_cons, if_pos hkey]
      · rename_i hdropped
        rw [ih, if_neg hdropped]
    · rw [if_neg hkey]
      split
      · rw [get?_cons, if_neg hkey, ih]
      · exact ih

/-- The values of the overriding options win. -/
theorem get?_override (o p : FormatOptions) (key : String) :
    (o.override p).get? key = (p.get? key).or (o.get? key) := by
  rw [override, get?_append, get?_map o (fun k v => (p.get? k).getD v),
    get?_filter p (fun k => (o.get? k).isNone)]
  cases o.get? key <;> cases p.get? key <;> rfl

theorem keys_override (o p : FormatOptions) :
    (o.override p).map (·.1) = o.map (·.1) ++ (p.map (·.1)).filter fun key => (o.get? key).isNone := by
  rw [override, List.map_append, List.map_map, List.filter_map]
  rfl

theorem override_nil (o : FormatOptions) : o.override [] = o := by
  rw [override, List.filter_nil, List.append_nil]
  exact List.map_id o

theorem nil_override (p : FormatOptions) : override [] p = p := by
  rw [override, List.map_nil, List.nil_append]
  exact List.filter_eq_self.mpr fun _ _ => rfl

theorem override_assoc (o p q : FormatOptions) :
    (o.override p).override q = o.override (p.override q) := by
  -- the keys of `o`, those that `p` adds, and those that only `q` has
  have hown : (o.map fun e => (e.1, (p.get? e.1).getD e.2)).map
      (fun e => (e.1, (q.get? e.1).getD e.2)) =
        o.map fun e => (e.1, ((p.override q).get? e.1).getD e.2) := by
    rw [List.map_map]
    refine List.map_congr_left fun e _ => ?_
    rw [get?_override]
    change (e.1, (q.get? e.1).getD ((p.get? e.1).getD e.2)) = _
    cases q.get? e.1 <;> rfl
  have hadded : (p.filter fun e => (o.get? e.1).isNone).map
      (fun e => (e.1, (q.get? e.1).getD e.2)) =
        (p.map fun e => (e.1, (q.get? e.1).getD e.2)).filter fun e => (o.get? e.1).isNone := by
    rw [List.filter_map]
    rfl
  have hnew : (q.filter fun e => ((o.override p).get? e.1).isNone) =
      (q.filter fun e => (p.get? e.1).isNone).filter fun e => (o.get? e.1).isNone := by
    rw [List.filter_filter]
    refine List.filter_congr fun e _ => ?_
    rw [get?_override]
    cases p.get? e.1 <;> cases o.get? e.1 <;> rfl
  calc
    (o.override p).override q =
        (o.map fun e => (e.1, ((p.override q).get? e.1).getD e.2)) ++
          (((p.map fun e => (e.1, (q.get? e.1).getD e.2)).filter fun e => (o.get? e.1).isNone) ++
            (q.filter fun e => (p.get? e.1).isNone).filter fun e => (o.get? e.1).isNone) := by
      rw [override, hnew, override, List.map_append, hown, hadded, List.append_assoc]
    _ = o.override (p.override q) := by
      rw [← List.filter_append]
      rfl

theorem distinct_nil : Distinct [] :=
  List.nodup_nil

theorem distinct_singleton (e : String × OptionValue) : Distinct [e] :=
  List.nodup_singleton e.1

theorem distinct_cons {e : String × OptionValue} {o : FormatOptions} :
    Distinct (e :: o) ↔ e.1 ∉ o.map (·.1) ∧ o.Distinct :=
  List.nodup_cons

theorem distinct_override {o p : FormatOptions} (ho : o.Distinct) (hp : p.Distinct) :
    (o.override p).Distinct := by
  rw [Distinct, keys_override]
  refine List.nodup_append.mpr ⟨ho, hp.filter _, ?_⟩
  rintro key hkey other hother rfl
  have hnew : o.get? key = none := Option.isNone_iff_eq_none.mp (List.mem_filter.mp hother).2
  exact get?_eq_none_iff.mp hnew hkey

/-- An entry has the value that is found under its key. -/
theorem get?_of_mem {o : FormatOptions} (h : o.Distinct) {e : String × OptionValue} (he : e ∈ o) :
    o.get? e.1 = some e.2 := by
  induction o with
  | nil => exact absurd he List.not_mem_nil
  | cons d r ih =>
    obtain ⟨hfresh, hr⟩ := distinct_cons.mp h
    rw [get?_cons]
    rcases List.mem_cons.mp he with rfl | he
    · rw [if_pos rfl]
    · have hkey : d.1 ≠ e.1 := by
        intro hkey
        rw [hkey] at hfresh
        exact hfresh (List.mem_map_of_mem he)
      rw [if_neg hkey]
      exact ih hr he

/-- Options that override themselves stay as they are. -/
theorem override_self {o : FormatOptions} (h : o.Distinct) : o.override o = o := by
  have hsame : (o.map fun e => (e.1, (o.get? e.1).getD e.2)) = o.map id := by
    refine List.map_congr_left fun e he => ?_
    rw [get?_of_mem h he]
    rfl
  have hnone : (o.filter fun e => (o.get? e.1).isNone) = [] := by
    refine List.filter_eq_nil_iff.mpr fun e he => ?_
    rw [get?_of_mem h he]
    exact Bool.false_ne_true
  rw [override, hsame, hnone, List.append_nil, List.map_id]

/-- Setting a key overrides it alone. -/
theorem set_eq_override {o : FormatOptions} (h : o.Distinct) (key : String) (value : OptionValue) :
    o.set key value = o.override [(key, value)] := by
  induction o with
  | nil => rw [nil_override, set]
  | cons e r ih =>
    obtain ⟨hfresh, hr⟩ := distinct_cons.mp h
    rw [set, override, List.map_cons, get?_cons, get?_nil, List.filter_singleton, get?_cons]
    split
    · rename_i hkey
      -- no other entry has the key
      have hother : (r.map fun d => (d.1, (get? [(key, value)] d.1).getD d.2)) = r.map id := by
        refine List.map_congr_left fun d hd => ?_
        have hne : key ≠ d.1 := by
          intro hsame
          rw [hkey, hsame] at hfresh
          exact hfresh (List.mem_map_of_mem hd)
        rw [get?_cons, get?_nil, if_neg hne]
        rfl
      rw [if_pos hkey.symm, hother, List.map_id, hkey]
      exact (List.append_nil _).symm
    · rename_i hkey
      rw [if_neg (Ne.symm hkey), ih hr, override, List.filter_singleton]
      rfl

end FormatOptions

open FormatOptions

namespace Skeleton

/-! ### Changes that do not read what they change -/

/-- A change that does the same to all options: what it makes of none overrides them. -/
structure Independent {ε : Type} (change : FormatOptions → Except ε FormatOptions) : Prop where
  distinct : ∀ p, change [] = .ok p → p.Distinct
  acts : ∀ o, o.Distinct → change o = (change []).map o.override

namespace Independent

variable {ε : Type}

@[simp] theorem error (reason : ε) : Independent fun _ => .error reason :=
  ⟨nofun, fun _ _ => rfl⟩

@[simp] theorem nothing : Independent (ε := ε) .ok := by
  refine ⟨fun p hp => ?_, fun o _ => ?_⟩
  · rw [← Except.ok.inj hp]
    exact distinct_nil
  · exact congrArg Except.ok (override_nil o).symm

@[simp] theorem set (key : String) (value : OptionValue) :
    Independent (ε := ε) fun o => .ok (o.set key value) := by
  refine ⟨fun p hp => ?_, fun o ho => ?_⟩
  · rw [← Except.ok.inj hp]
    exact distinct_singleton _
  · exact congrArg Except.ok (set_eq_override ho key value)

/-- One change after the other: both act on their own, and overriding is associative. -/
theorem bind {first second : FormatOptions → Except ε FormatOptions} (h₁ : Independent first)
    (h₂ : Independent second) : Independent fun o => first o >>= second := by
  constructor
  case distinct =>
    intro q hq
    cases hfirst : first [] with
    | error reason =>
      rw [hfirst] at hq
      exact nomatch hq
    | ok p =>
      have hp : p.Distinct := h₁.distinct p hfirst
      rw [hfirst] at hq
      change second p = .ok q at hq
      rw [h₂.acts p hp] at hq
      cases hsecond : second [] with
      | error reason =>
        rw [hsecond] at hq
        exact nomatch hq
      | ok r =>
        rw [hsecond] at hq
        rw [← Except.ok.inj hq]
        exact distinct_override hp (h₂.distinct r hsecond)
  case acts =>
    intro o ho
    rw [h₁.acts o ho]
    cases hfirst : first [] with
    | error reason => rfl
    | ok p =>
      have hp : p.Distinct := h₁.distinct p hfirst
      change second (o.override p) = (second p).map o.override
      -- on both sides `o` is overridden by what the two changes set on their own
      rw [h₂.acts _ (distinct_override ho hp), h₂.acts p hp]
      cases second [] with
      | error reason => rfl
      | ok q => exact congrArg Except.ok (override_assoc o p q)

/-- Keys are set before a change. -/
theorem afterSet {change : FormatOptions → Except ε FormatOptions} (h : Independent change)
    (key : String) (value : OptionValue) : Independent fun o => change (o.set key value) :=
  (set key value).bind h

@[simp] theorem setCount (key : String) (n : Nat) :
    Independent (ε := ε) fun o => .ok (o.setCount key n) :=
  set key _

@[simp] theorem setText_setCount (key value count : String) (n : Nat) :
    Independent (ε := ε) fun o => .ok ((o.setText key value).setCount count n) :=
  (setCount count n).afterSet key _

@[simp] theorem setText_setText (key value key' value' : String) :
    Independent (ε := ε) fun o => .ok ((o.setText key value).setText key' value') :=
  (set key' _).afterSet key _

@[simp] theorem ite {p : Prop} [Decidable p] {a b : FormatOptions → Except ε FormatOptions}
    (ha : Independent a) (hb : Independent b) : Independent fun o => if p then a o else b o := by
  by_cases hp : p
  · simp only [if_pos hp]
    exact ha
  · simp only [if_neg hp]
    exact hb

/-- Faults may be told in another way. -/
theorem mapError {δ : Type} {change : FormatOptions → Except ε FormatOptions}
    (h : Independent change) (tell : ε → δ) : Independent fun o => (change o).mapError tell := by
  refine ⟨fun p hp => ?_, fun o ho => ?_⟩
  · cases hchange : change [] with
    | error reason =>
      rw [hchange] at hp
      exact nomatch hp
    | ok q =>
      rw [hchange] at hp
      rw [← Except.ok.inj hp]
      exact h.distinct q hchange
  · rw [h.acts o ho]
    cases change [] <;> rfl

end Independent

open Independent

/-! ### What a token does -/

@[simp] theorem independent_texts (pairs : List (String × String)) : Independent (texts pairs) := by
  induction pairs with
  | nil => exact nothing
  | cons p r ih => exact ih.afterSet p.1 (.text p.2)

@[simp] theorem independent_currencyChange (options : List (List Char)) :
    Independent (currencyChange options) := by
  unfold currencyChange
  cases soleOption? options with
  | none => exact error _
  | some code => exact ite (error _) (setText_setText _ _ _ _)

@[simp] theorem independent_unitChange (typed : Bool) (options : List (List Char)) :
    Independent (unitChange typed options) := by
  unfold unitChange
  cases soleOption? options with
  | none => exact error _
  | some unit => exact setText_setText _ _ _ _

@[simp] theorem independent_scaleChange (options : List (List Char)) :
    Independent (scaleChange options) := by
  unfold scaleChange
  cases soleOption? options with
  | none => exact error _
  | some raw =>
    dsimp only
    cases Decimal.read? raw with
    | none => exact error _
    | some x => exact set _ _

@[simp] theorem independent_integerWidthChange (options : List (List Char)) :
    Independent (integerWidthChange options) := by
  unfold integerWidthChange
  rcases soleOption? options with _ | _ | ⟨c, ds⟩
  · exact error _
  · exact error _
  · exact ite (error _) (setCount _ _)

theorem independent_notationOptions (options : List (List Char)) :
    Independent fun o => notationOptions o options := by
  induction options with
  | nil => exact nothing
  | cons opt r ih =>
    simp only [notationOptions]
    -- every option that is known sets a key or nothing
    split
    · exact ih.afterSet _ _
    · exact ih.afterSet _ _
    · exact ih.afterSet _ _
    · exact ih.afterSet _ _
    · exact ih.afterSet _ _
    · exact ih.afterSet _ _
    · exact ite ih (error _)

@[simp] theorem independent_setText_notation (key value : String) (options : List (List Char)) :
    Independent fun o => notationOptions (o.setText key value) options :=
  (independent_notationOptions options).afterSet key _

section

variable {next : Change} (hnext : Independent next) (cs : List Char) (reason : String)

include hnext

theorem independent_significantPrecision :
    Independent fun o =>
      match significantPrecision? o cs with
      | some o => next o
      | none => .error reason := by
  simp only [significantPrecision?]
  rcases precision? '@' cs with _ | ⟨least, more, isOpen⟩
  · exact error reason
  · by_cases hnone : least = 0
    · simp only [if_pos hnone]
      exact error reason
    · simp only [if_neg hnone]
      cases isOpen with
      | true => exact hnext.afterSet _ _
      | false => exact (hnext.afterSet _ _).afterSet _ _

theorem independent_fractionPrecision :
    Independent fun o =>
      match fractionPrecision? o cs with
      | some o => next o
      | none => .error reason := by
  simp only [fractionPrecision?]
  rcases precision? '0' cs with _ | ⟨least, more, isOpen⟩
  · exact error reason
  · by_cases hnone : least + more = 0
    · simp only [if_pos hnone]
      exact error reason
    · simp only [if_neg hnone]
      cases isOpen with
      | true => exact hnext.afterSet _ _
      | false => exact (hnext.afterSet _ _).afterSet _ _

end

theorem independent_fractionOptions (options : List (List Char)) :
    Independent fun o => fractionOptions o options := by
  induction options with
  | nil => exact nothing
  | cons opt r ih =>
    simp only [fractionOptions]
    exact ite (ih.afterSet _ _) (independent_significantPrecision ih opt _)

@[simp] theorem independent_precisionChange (t : Token) : Independent (precisionChange t) := by
  unfold precisionChange
  refine ite (setCount _ _) ?_
  split
  · exact independent_fractionPrecision (independent_fractionOptions t.options) _ _
  · exact independent_significantPrecision nothing _ _
  · exact error _

theorem independent_change (t : Token) : Independent t.change := by
  rw [Token.change]
  split <;> simp

theorem independent_apply (t : Token) : Independent t.apply := by
  have happly : t.apply =
      fun o => (t.change o).mapError fun reason => ⟨t.offset, String.ofList t.stem, reason⟩ := by
    funext o
    rw [Token.apply]
    cases t.change o <;> rfl
  rw [happly]
  exact (independent_change t).mapError _

/-- The tokens of a skeleton, applied from the left. -/
def applyTokens (ts : List Token) (o : FormatOptions) : Except Fault FormatOptions :=
  ts.foldlM (fun o t => t.apply o) o

theorem parseNumber_eq (cs : List Char) : parseNumber cs = applyTokens (tokens cs) [] :=
  rfl

theorem applyTokens_cons (t : Token) (ts : List Token) (o : FormatOptions) :
    applyTokens (t :: ts) o = t.apply o >>= applyTokens ts :=
  List.foldlM_cons

theorem applyTokens_append (ts us : List Token) (o : FormatOptions) :
    applyTokens (ts ++ us) o = applyTokens ts o >>= applyTokens us :=
  List.foldlM_append

theorem independent_applyTokens (ts : List Token) : Independent (applyTokens ts) := by
  induction ts with
  | nil => exact nothing
  | cons t r ih => exact (independent_apply t).bind ih

/-! ### Skeletons behind others -/

def Token.shift (distance : Nat) (t : Token) : Token :=
  { t with offset := distance + t.offset }

def Fault.shift (distance : Nat) (f : Fault) : Fault :=
  { f with offset := distance + f.offset }

theorem Token.ofWord_shift (distance off : Nat) (word : List Char) :
    Token.ofWord (distance + off) word = (Token.ofWord off word).shift distance := by
  unfold Token.ofWord
  split <;> rfl

theorem Token.apply_shift (distance : Nat) (t : Token) (o : FormatOptions) :
    (t.shift distance).apply o = (t.apply o).mapError (Fault.shift distance) := by
  have hchange : (t.shift distance).change = t.change := rfl
  rw [Token.apply, Token.apply, hchange]
  cases t.change o <;> rfl

theorem applyTokens_shift (distance : Nat) (ts : List Token) (o : FormatOptions) :
    applyTokens (ts.map (Token.shift distance)) o =
      (applyTokens ts o).mapError (Fault.shift distance) := by
  induction ts generalizing o with
  | nil => rfl
  | cons t r ih =>
    rw [List.map_cons, applyTokens_cons, applyTokens_cons, Token.apply_shift]
    cases t.apply o with
    | error f => rfl
    | ok p => exact ih p

/-- Where a word would have started does not matter before it starts. -/
theorem words_start (start start' off : Nat) (cs : List Char) :
    words start [] off cs = words start' [] off cs := by
  induction cs generalizing off with
  | nil => rfl
  | cons c r ih =>
    rw [words, words]
    split
    · exact ih _
    · rfl

theorem words_shift (distance start off : Nat) (word cs : List Char) :
    words (distance + start) word (distance + off) cs =
      (words start word off cs).map fun w => (distance + w.1, w.2) := by
  induction cs generalizing start off word with
  | nil =>
    rw [words, words]
    split <;> rfl
  | cons c r ih =>
    rw [words, words, Nat.add_assoc]
    split
    · split
      · exact ih start _ []
      · rw [List.map_cons, ih]
    · rw [← ih]
      congr 1
      split <;> rfl

/-- A blank ends a word: what stands behind it is read on its own. -/
theorem words_append (a b : List Char) {c : Char} (hc : Text.isBlank c = true)
    (start off : Nat) (word : List Char) :
    words start word off (a ++ c :: b) =
      words start word off a ++ words 0 [] (off + byteLength a + c.utf8Size) b := by
  -- the open word and its place are carried by the loop, so both vary
  induction a generalizing start off word with
  | nil =>
    simp only [List.nil_append, byteLength_nil, Nat.add_zero, words, if_pos hc]
    rw [words_start start 0]
    split <;> rfl
  | cons d r ih =>
    rw [List.cons_append, words, words, byteLength_cons, ← Nat.add_assoc off]
    split
    · split
      · exact ih _ _ _
      · rw [ih, List.cons_append]
    · exact ih _ _ _

theorem tokens_append (a b : List Char) :
    tokens (a ++ ' ' :: b) = tokens a ++ (tokens b).map (Token.shift (byteLength a + 1)) := by
  have hsize : (' ' : Char).utf8Size = 1 := rfl
  have hbehind : words 0 [] (0 + byteLength a + (' ' : Char).utf8Size) b =
      (words 0 [] 0 b).map fun w => (byteLength a + 1 + w.1, w.2) := by
    rw [hsize, Nat.zero_add, words_start 0 (byteLength a + 1 + 0)]
    exact words_shift (byteLength a + 1) 0 0 [] b
  have htoken : (fun w : Nat × List Char => Token.ofWord (byteLength a + 1 + w.1) w.2) =
      Token.shift (byteLength a + 1) ∘ fun w => Token.ofWord w.1 w.2 := by
    funext w
    exact Token.ofWord_shift _ _ _
  rw [tokens, words_append a b rfl, hbehind, List.map_append, List.map_map]
  rw [tokens, tokens, List.map_map, ← htoken]
  rfl

/-- A skeleton behind another one is read on its own, and what it sets overrides what the other one
sets. -/
theorem parseNumber_append (a b : List Char) :
    parseNumber (a ++ ' ' :: b) = do
      let o ← parseNumber a
      let p ← (parseNumber b).mapError (Fault.shift (byteLength a + 1))
      return o.override p := by
  rw [parseNumber_eq, parseNumber_eq, tokens_append, applyTokens_append]
  cases ha : applyTokens (tokens a) [] with
  | error f => rfl
  | ok o =>
    have ho : o.Distinct := (independent_applyTokens (tokens a)).distinct o ha
    change applyTokens ((tokens b).map _) o = _
    rw [applyTokens_shift, (independent_applyTokens (tokens b)).acts o ho, ← parseNumber_eq]
    cases parseNumber b <;> rfl

theorem parseNumber_distinct {a : List Char} {o : FormatOptions} (h : parseNumber a = .ok o) :
    o.Distinct :=
  (independent_applyTokens (tokens a)).distinct o h

/-- Number skeletons compose. Behind a blank the second one is read on its own: its fault is told by
its place in the whole, and the options it sets override those of the first one. So no token depends
on what stands before it, a skeleton that is repeated sets the same, and no key is set twice. -/
theorem parseNumber_composes :
    (∀ a b : List Char, parseNumber (a ++ ' ' :: b) = do
      let o ← parseNumber a
      let p ← (parseNumber b).mapError (Fault.shift (byteLength a + 1))
      return o.override p) ∧
    (∀ (t : Token) (o : FormatOptions), o.Distinct → t.apply o = (t.apply []).map o.override) ∧
    (∀ a : List Char, parseNumber (a ++ ' ' :: a) = parseNumber a) ∧
    ∀ (a : List Char) (o : FormatOptions), parseNumber a = .ok o → o.Distinct := by
  refine ⟨parseNumber_append, fun t => (independent_apply t).acts, fun a => ?_, fun a o ho => ?_⟩
  · rw [parseNumber_append]
    cases ha : parseNumber a with
    | error f => rfl
    | ok o => exact congrArg Except.ok (override_self (parseNumber_distinct ha))
  · exact parseNumber_distinct ho

/-- The sign of the second skeleton wins, and its fault is told behind the first one. -/
theorem parseNumber_composes_signs :
    parseNumber "sign-always percent sign-never".toList =
        .ok [("signDisplay", .text "never"), ("style", .text "percent")] ∧
      parseNumber "percent unit".toList =
        .error ⟨8, "unit", "unit requires a unit identifier"⟩ ∧
      (Token.mk "percent".toList [] 0).apply [("style", .text "unit")] =
        .ok [("style", .text "percent")] ∧
      FormatOptions.Distinct [("style", .text "percent")] := by
  obtain ⟨happend, hact, -, hdistinct⟩ := parseNumber_composes
  have hpercent : parseNumber "percent".toList = .ok [("style", .text "percent")] := rfl
  refine ⟨?_, ?_, ?_, hdistinct _ _ hpercent⟩
  · exact happend "sign-always percent".toList "sign-never".toList
  · exact happend "percent".toList "unit".toList
  · exact hact _ _ (distinct_singleton _)

end Skeleton
end Phrasebook
