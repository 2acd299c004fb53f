import Phrasebook.Proofs.Literals
import Phrasebook.Proofs.Loading

/-!
The canonical text of options tells what a formatter is made of. Options with one canonical text
have the same entries but for their order, and a formatter looks its options up by their keys.
-/
namespace Phrasebook

/-! ### Quoted texts -/

namespace Text

/-- Reads the character that a text starts with, which may be escaped. -/
def unquoteChar : List Char → Char × List Char
  | '\\' :: 'a' :: r => ('\x07', r)
  | '\\' :: 'b' :: r => ('\x08', r)
  | '\\' :: 'f' :: r => ('\x0c', r)
  | '\\' :: 'n' :: r => ('\n', r)
  | '\\' :: 'r' :: r => ('\r', r)
  | '\\' :: 't' :: r => ('\t', r)
  | '\\' :: 'v' :: r => ('\x0b', r)
  | '\\' :: 'x' :: r => (Char.ofNat (Decimal.natOfDigits 16 Decimal.hexValue (r.take 2)), r.drop 2)
  | '\\' :: 'u' :: r => (Char.ofNat (Decimal.natOfDigits 16 Decimal.hexValue (r.take 4)), r.drop 4)
  | '\\' :: 'U' :: r => (Char.ofNat (Decimal.natOfDigits 16 Decimal.hexValue (r.take 8)), r.drop 8)
  | '\\' :: c :: r => (c, r)
  | c :: r => (c, r)
  | [] => ('\x00', [])

theorem length_hexDigits (width n : Nat) : (hexDigits width n).length = width := by
  induction width generalizing n with
  | zero => rfl
  | succ width ih => rw [hexDigits, List.length_append, ih, List.length_singleton]

theorem natOfDigits_hexDigits (width n : Nat) :
    Decimal.natOfDigits 16 Decimal.hexValue (hexDigits width n) = n % 16 ^ width := by
  have hdigit : ∀ d < 16, Decimal.hexValue (Nat.digitChar d) = d := by decide
  induction width generalizing n with
  | zero => rw [Nat.pow_zero, Nat.mod_one]; rfl
  | succ width ih =>
    have hstep := ih (n / 16)
    rw [Decimal.natOfDigits] at hstep ⊢
    rw [hexDigits, List.foldl_append, hstep, List.foldl_cons, List.foldl_nil,
      hdigit _ (Nat.mod_lt _ (by decide)), Nat.pow_succ', Nat.mod_mul]
    omega

/-- A character that is written by its code. -/
theorem unquote_code {c : Char} {width : Nat} (h : c.toNat < 16 ^ width) (r : List Char) :
    (Char.ofNat (Decimal.natOfDigits 16 Decimal.hexValue
        ((hexDigits width c.toNat ++ r).take width)),
      (hexDigits width c.toNat ++ r).drop width) = (c, r) := by
  have hlength := length_hexDigits width c.toNat
  rw [List.take_left' hlength, List.drop_left' hlength, natOfDigits_hexDigits, Nat.mod_eq_of_lt h,
    Char.ofNat_toNat]

theorem unquoteChar_cons {c : Char} (h : c ≠ '\\') (r : List Char) :
    unquoteChar (c :: r) = (c, r) := by
  rw [unquoteChar.eq_def]
  split <;> simp_all

/-- A quoted character is read back. -/
theorem unquoteChar_quoteChar (c : Char) (r : List Char) :
    unquoteChar (quoteChar c ++ r) = (c, r) := by
  have hvalid : c.toNat < 16 ^ 8 := lt_of_lt_of_le c.val.toNat_lt (by decide)
  fun_cases quoteChar c
  case case10 hprintable _ hslash _ _ _ _ _ _ _ =>
    rw [if_pos hprintable]
    exact unquoteChar_cons hslash r
  case case11 hprintable hcontrol _ _ _ _ _ _ _ _ _ =>
    have hlt : c.toNat < 16 ^ 2 := by
      simp only [Bool.or_eq_true, decide_eq_true_eq] at hcontrol
      omega
    rw [if_neg hprintable, if_pos hcontrol]
    exact unquote_code hlt r
  case case12 hprintable hcontrol hlt _ _ _ _ _ _ _ _ _ =>
    rw [if_neg hprintable, if_neg hcontrol, if_pos hlt]
    exact unquote_code hlt r
  case case13 hprintable hcontrol hlt _ _ _ _ _ _ _ _ _ =>
    rw [if_neg hprintable, if_neg hcontrol, if_neg hlt]
    exact unquote_code hvalid r
  all_goals rfl

/-- No character is written as a quote alone. -/
theorem quoteChar_append_ne (c : Char) (r l : List Char) : quoteChar c ++ r ≠ '"' :: l := by
  intro h
  have hread := congrArg unquoteChar h
  rw [unquoteChar_quoteChar, unquoteChar_cons (by decide)] at hread
  obtain ⟨rfl, rfl⟩ := Prod.mk.inj hread
  exact absurd h (by simp [quoteChar])

theorem flatMap_quoteChar_inj {cs ds r l : List Char}
    (h : cs.flatMap quoteChar ++ '"' :: r = ds.flatMap quoteChar ++ '"' :: l) : cs = ds ∧ r = l := by
  induction cs generalizing ds with
  | nil =>
    cases ds with
    | nil => exact ⟨rfl, (List.cons.inj h).2⟩
    | cons d ds =>
      -- A quote is never how a quoted character starts, so one list cannot end before the other.
      rw [List.flatMap_cons, List.append_assoc] at h
      exact absurd h.symm (quoteChar_append_ne d _ _)
  | cons c cs ih =>
    cases ds with
    | nil =>
      rw [List.flatMap_cons, List.append_assoc] at h
      exact absurd h (quoteChar_append_ne c _ _)
    | cons d ds =>
      rw [List.flatMap_cons, List.flatMap_cons, List.append_assoc, List.append_assoc] at h
      have hread := congrArg unquoteChar h
      rw [unquoteChar_quoteChar, unquoteChar_quoteChar] at hread
      obtain ⟨rfl, hrest⟩ := Prod.mk.inj hread
      obtain ⟨rfl, hr⟩ := ih hrest
      exact ⟨rfl, hr⟩

/-- A quoted text ends where it says so. -/
theorem quote_append_inj {s t : String} {r l : List Char}
    (h : (quote s).toList ++ r = (quote t).toList ++ l) : s = t ∧ r = l := by
  rw [quote, quote, String.toList_ofList, String.toList_ofList] at h
  simp only [List.cons_append, List.append_assoc, List.nil_append, List.cons.injEq, true_and] at h
  obtain ⟨hchars, hrest⟩ := flatMap_quoteChar_inj h
  exact ⟨String.toList_inj.mp hchars, hrest⟩

end Text

/-! ### Entries -/

/-- What stands behind an entry. -/
def EntryEnds (cs : List Char) : Prop :=
  ∃ c r, cs = c :: r ∧ (c = ',' ∨ c = '\x7d')

/-- A number literal ends in front of the next entry. -/
theorem Decimal.literal_append_inj {x y : Float} {r l : List Char} (hr : EntryEnds r)
    (hl : EntryEnds l) (h : (literal x).toList ++ r = (literal y).toList ++ l) : x = y ∧ r = l := by
  have hspan {z : Float} {k : List Char} (hk : EntryEnds k) :
      ((literal z).toList ++ k).span (fun c => c != ',' && c != '\x7d') = ((literal z).toList, k) := by
    obtain ⟨c, q, rfl, hc⟩ := hk
    have hplain : ∀ d ∈ (literal z).toList, (d != ',' && d != '\x7d') = true := by
      intro d hd
      simpa using literal_plain z d hd
    have hstop : (c != ',' && c != '\x7d') = false := by
      rcases hc with rfl | rfl <;> rfl
    rw [List.span_eq_takeWhile_dropWhile, List.takeWhile_append_of_pos hplain,
      List.dropWhile_append_of_pos hplain, List.takeWhile_cons_of_neg (by simp [hstop]),
      List.dropWhile_cons_of_neg (by simp [hstop]), List.append_nil]
  have hsplit := congrArg (List.span fun c => c != ',' && c != '\x7d') h
  rw [hspan hr, hspan hl] at hsplit
  obtain ⟨htext, hrest⟩ := Prod.mk.inj hsplit
  exact ⟨literal_injective (String.toList_inj.mp htext), hrest⟩

namespace OptionValue

theorem toList_canonical_text (s : String) :
    (OptionValue.text s).canonical.toList = 's' :: (Text.quote s).toList :=
  String.toList_append

theorem toList_canonical_number (x : Float) :
    (OptionValue.number x).canonical.toList = 'n' :: (Decimal.literal x).toList :=
  String.toList_append

theorem toList_canonical_flag (b : Bool) :
    (OptionValue.flag b).canonical.toList = 'b' :: (toString b).toList :=
  String.toList_append

/-- A value with what stands behind it tells both. -/
theorem canonical_append_inj {v w : OptionValue} (hv : v.Ordinary) (hw : w.Ordinary)
    {r l : List Char} (hr : EntryEnds r) (hl : EntryEnds l)
    (h : v.canonical.toList ++ r = w.canonical.toList ++ l) : v = w ∧ r = l := by
  cases v with
  | foreign => exact hv.elim
  | text s =>
    cases w with
    | foreign => exact hw.elim
    | text t =>
      rw [toList_canonical_text, toList_canonical_text, List.cons_append, List.cons_append,
        List.cons_inj_right] at h
      obtain ⟨rfl, hrest⟩ := Text.quote_append_inj h
      exact ⟨rfl, hrest⟩
    | number y =>
      rw [toList_canonical_text, toList_canonical_number] at h
      exact absurd (List.cons.inj h).1 (by decide)
    | flag b =>
      rw [toList_canonical_text, toList_canonical_flag] at h
      exact absurd (List.cons.inj h).1 (by decide)
  | number x =>
    cases w with
    | foreign => exact hw.elim
    | number y =>
      rw [toList_canonical_number, toList_canonical_number, List.cons_append, List.cons_append,
        List.cons_inj_right] at h
      obtain ⟨rfl, hrest⟩ := Decimal.literal_append_inj hr hl h
      exact ⟨rfl, hrest⟩
    | text t =>
      rw [toList_canonical_number, toList_canonical_text] at h
      exact absurd (List.cons.inj h).1 (by decide)
    | flag b =>
      rw [toList_canonical_number, toList_canonical_flag] at h
      exact absurd (List.cons.inj h).1 (by decide)
  | flag b =>
    cases w with
    | foreign => exact hw.elim
    | flag c =>
      rw [toList_canonical_flag, toList_canonical_flag] at h
      cases b <;> cases c
      · exact ⟨rfl, List.append_cancel_left h⟩
      · exact absurd (List.cons.inj (List.cons.inj h).2).1 (by decide)
      · exact absurd (List.cons.inj (List.cons.inj h).2).1 (by decide)
      · exact ⟨rfl, List.append_cancel_left h⟩
    | text t =>
      rw [toList_canonical_flag, toList_canonical_text] at h
      exact absurd (List.cons.inj h).1 (by decide)
    | number y =>
      rw [toList_canonical_flag, toList_canonical_number] at h
      exact absurd (List.cons.inj h).1 (by decide)

end OptionValue

theorem keyLe_trans {α : Type} (a b c : String × α) (hab : textLe a.1 b.1 = true)
    (hbc : textLe b.1 c.1 = true) : textLe a.1 c.1 = true := by
  simp only [textLe, decide_eq_true_eq] at hab hbc ⊢
  exact String.le_trans hab hbc

theorem keyLe_total {α : Type} (a b : String × α) : (textLe a.1 b.1 || textLe b.1 a.1) = true := by
  simp only [textLe, Bool.or_eq_true, decide_eq_true_eq]
  exact String.le_total a.1 b.1

/-- Sorting by keys keeps the order of the entries of one key. -/
theorem filter_sortedByKey {α : Type} (l : List (String × α)) (key : String) :
    (List.mergeSort l fun a b => textLe a.1 b.1).filter (·.1 == key) =
      l.filter (·.1 == key) := by
  have hsame : (l.filter (·.1 == key)).Pairwise fun a b => textLe a.1 b.1 = true := by
    refine List.pairwise_of_forall_mem_list fun a ha b hb => ?_
    have hkey : a.1 = key := by simpa using (List.mem_filter.mp ha).2
    have hkey' : b.1 = key := by simpa using (List.mem_filter.mp hb).2
    rw [hkey, hkey', textLe]
    simp
  have hsub : (l.filter (·.1 == key)).Sublist (List.mergeSort l fun a b => textLe a.1 b.1) := by
    exact List.sublist_mergeSort keyLe_trans keyLe_total hsame List.filter_sublist
  have hfilter := hsub.filter (·.1 == key)
  rw [List.filter_filter] at hfilter
  simp only [Bool.and_self] at hfilter
  refine (hfilter.eq_of_length ?_).symm
  exact ((List.mergeSort_perm l _).filter _).length_eq.symm

namespace FormatOptions

def entryText (p : String × OptionValue) : String :=
  Text.quote p.1 ++ ":" ++ p.2.canonical

/-- The entries behind the first one, each behind a comma, and the closing brace. -/
def restText (l : FormatOptions) : List Char :=
  l.flatMap (fun p => ',' :: (entryText p).toList) ++ ['\x7d']

theorem entryEnds_restText (l : FormatOptions) (r : List Char) : EntryEnds (restText l ++ r) := by
  cases l with
  | nil => exact ⟨'\x7d', r, rfl, .inr rfl⟩
  | cons p l => exact ⟨',', _, rfl, .inl rfl⟩

theorem entryText_append_inj {p q : String × OptionValue} (hp : p.2.Ordinary) (hq : q.2.Ordinary)
    {r l : List Char} (hr : EntryEnds r) (hl : EntryEnds l)
    (h : (entryText p).toList ++ r = (entryText q).toList ++ l) : p = q ∧ r = l := by
  obtain ⟨key, v⟩ := p
  obtain ⟨key', w⟩ := q
  have hentry (key : String) (v : OptionValue) (r : List Char) : (entryText (key, v)).toList ++ r =
      (Text.quote key).toList ++ ':' :: (v.canonical.toList ++ r) := by
    have hcolon : ":".toList = [':'] := rfl
    rw [entryText, String.toList_append, String.toList_append, hcolon, List.append_assoc,
      List.append_assoc, List.singleton_append]
  rw [hentry, hentry] at h
  obtain ⟨hkey, hvalues⟩ := Text.quote_append_inj h
  obtain ⟨hvalue, hrest⟩ := OptionValue.canonical_append_inj hp hq hr hl (List.cons.inj hvalues).2
  exact ⟨Prod.ext hkey hvalue, hrest⟩

/-- The entries behind the first one end where they say so. -/
theorem restText_append_inj {l l' : FormatOptions} (hl : l.Ordinary) (hl' : l'.Ordinary)
    {r r' : List Char} (h : restText l ++ r = restText l' ++ r') : l = l' ∧ r = r' := by
  have hcons (p : String × OptionValue) (l : FormatOptions) (r : List Char) :
      restText (p :: l) ++ r = ',' :: ((entryText p).toList ++ (restText l ++ r)) := by
    simp only [restText, List.flatMap_cons, List.cons_append, List.append_assoc]
  induction l generalizing l' with
  | nil =>
    cases l' with
    | nil => exact ⟨rfl, (List.cons.inj h).2⟩
    | cons q m' =>
      rw [hcons] at h
      -- A comma is not the closing brace.
      exact absurd (List.cons.inj h).1 (by decide)
  | cons p m ih =>
    cases l' with
    | nil =>
      rw [hcons] at h
      exact absurd (List.cons.inj h).1 (by decide)
    | cons q m' =>
      rw [hcons, hcons] at h
      obtain ⟨rfl, hrest⟩ := entryText_append_inj (hl p List.mem_cons_self)
        (hl' q List.mem_cons_self) (entryEnds_restText m r) (entryEnds_restText m' r')
        (List.cons.inj h).2
      obtain ⟨rfl, hr⟩ := ih (fun x hx => hl x (List.mem_cons_of_mem _ hx))
        (fun x hx => hl' x (List.mem_cons_of_mem _ hx)) hrest
      exact ⟨rfl, hr⟩

theorem mem_sorted {o : FormatOptions} {p : String × OptionValue} : p ∈ o.sorted ↔ p ∈ o :=
  List.mem_mergeSort

theorem Ordinary.sorted {o : FormatOptions} (h : o.Ordinary) : FormatOptions.Ordinary o.sorted :=
  fun p hp => h p (mem_sorted.mp hp)

theorem toList_canonical_nil {o : FormatOptions} (h : o.sorted = []) :
    o.canonical.toList = ['\x7b', '\x7d'] := by
  have hopen : "\x7b".toList = ['\x7b'] := rfl
  have hclose : "\x7d".toList = ['\x7d'] := rfl
  rw [canonical, h, String.toList_append, String.toList_append, Text.join,
    String.toList_intercalate, hopen, hclose]
  rfl

theorem toList_canonical_cons {o : FormatOptions} {p : String × OptionValue} {r : FormatOptions}
    (h : o.sorted = p :: r) :
    o.canonical.toList = '\x7b' :: ((entryText p).toList ++ restText r) := by
  have hjoin (l : FormatOptions) (p : String × OptionValue) :
      [','].intercalate (((p :: l).map entryText).map String.toList) =
        (entryText p).toList ++ l.flatMap fun q => ',' :: (entryText q).toList := by
    induction l generalizing p with
    | nil => simp
    | cons q l ih =>
      rw [List.map_cons, List.map_cons, List.map_cons, List.map_cons, List.intercalate_cons_cons,
        ← List.map_cons, ← List.map_cons, ih, List.flatMap_cons, List.append_assoc,
        List.singleton_append, List.cons_append]
  have hentries : (p :: r).map (fun q => Text.quote q.1 ++ ":" ++ q.2.canonical) =
      (p :: r).map entryText := rfl
  have hcomma : ",".toList = [','] := rfl
  have hopen : "\x7b".toList = ['\x7b'] := rfl
  have hclose : "\x7d".toList = ['\x7d'] := rfl
  rw [canonical, h, hentries, String.toList_append, String.toList_append, Text.join,
    String.toList_intercalate, hcomma, hopen, hclose, hjoin, List.append_assoc, List.append_assoc,
    restText, List.singleton_append]

/-- No options at all are told from any others, whatever stands behind them. -/
theorem canonical_append_ne {o o' : FormatOptions} {p : String × OptionValue} {l : FormatOptions}
    (h : o.sorted = []) (h' : o'.sorted = p :: l) (r r' : List Char) :
    o.canonical.toList ++ r ≠ o'.canonical.toList ++ r' := by
  intro hsame
  rw [toList_canonical_nil h, toList_canonical_cons h', entryText, Text.quote,
    String.toList_append, String.toList_append, String.toList_ofList] at hsame
  exact absurd (List.cons.inj (List.cons.inj hsame).2).1 (by decide)

theorem canonical_ne {o o' : FormatOptions} {p : String × OptionValue} {r : FormatOptions}
    (h : o.sorted = []) (h' : o'.sorted = p :: r) : o.canonical ≠ o'.canonical := by
  intro hsame
  exact canonical_append_ne h h' [] [] (by rw [hsame])

/-- A canonical text ends where it says so. -/
theorem canonical_append_inj {o o' : FormatOptions} (ho : o.Ordinary) (ho' : o'.Ordinary)
    {r r' : List Char} (h : o.canonical.toList ++ r = o'.canonical.toList ++ r') :
    o.sorted = o'.sorted ∧ r = r' := by
  have hsorted := ho.sorted
  have hsorted' := ho'.sorted
  cases hl : o.sorted with
  | nil =>
    cases hl' : o'.sorted with
    | nil =>
      rw [toList_canonical_nil hl, toList_canonical_nil hl'] at h
      exact ⟨rfl, List.append_cancel_left h⟩
    | cons q m' => exact absurd h (canonical_append_ne hl hl' r r')
  | cons p m =>
    cases hl' : o'.sorted with
    | nil => exact absurd h.symm (canonical_append_ne hl' hl r' r)
    | cons q m' =>
      rw [hl] at hsorted
      rw [hl'] at hsorted'
      rw [toList_canonical_cons hl, toList_canonical_cons hl', List.cons_append, List.cons_append,
        List.append_assoc, List.append_assoc] at h
      obtain ⟨rfl, hrest⟩ := entryText_append_inj (hsorted p List.mem_cons_self)
        (hsorted' q List.mem_cons_self) (entryEnds_restText m r) (entryEnds_restText m' r')
        (List.cons.inj h).2
      obtain ⟨rfl, hr⟩ := restText_append_inj (fun x hx => hsorted x (List.mem_cons_of_mem _ hx))
        (fun x hx => hsorted' x (List.mem_cons_of_mem _ hx)) hrest
      exact ⟨rfl, hr⟩

/-- Options with one canonical text have the same entries. -/
theorem sorted_eq {o o' : FormatOptions} (ho : o.Ordinary) (ho' : o'.Ordinary)
    (h : o.canonical = o'.canonical) : o.sorted = o'.sorted := by
  have hsame : o.canonical.toList ++ [] = o'.canonical.toList ++ [] := by rw [h]
  exact (canonical_append_inj ho ho' hsame).1

theorem filter_sorted (o : FormatOptions) (key : String) :
    o.sorted.filter (·.1 == key) = o.filter (·.1 == key) :=
  filter_sortedByKey o key

end FormatOptions

/-! ### Formatters -/

namespace Evaluate

theorem option?_setEntry (key : String) (v : Value) (es : List (String × Value)) (key' : String) :
    option? (setEntry key v es) key' = if key = key' then some v else option? es key' := by
  induction es with
  | nil =>
    by_cases hkey : key = key'
    · simp [setEntry, option?, hkey]
    · simp [setEntry, option?, hkey]
  | cons e r ih =>
    obtain ⟨k, w⟩ := e
    simp only [option?] at ih
    by_cases hk : k = key
    · subst hk
      by_cases hkey : k = key'
      · simp [setEntry, option?, hkey]
      · simp [setEntry, option?, hkey]
    · by_cases hk' : k = key'
      · subst hk'
        simp [setEntry, option?, hk, Ne.symm hk]
      · simp [setEntry, option?, hk, hk', ih]

/-- A formatter looks its options up. -/
theorem construct_congr {c : FormatterClass} {l : Locale} {es es' : List (String × Value)}
    (h : ∀ key, option? es key = option? es' key) : construct c l es = construct c l es' := by
  have htext (key : String) : textOption es key = textOption es' key := by
    rw [textOption, textOption, h]
  have hcount (key : String) : countOption? es key = countOption? es' key := by
    rw [countOption?, countOption?, h]
  cases c with
  | number =>
    simp only [construct, numberOptions, numberStyle, htext, hcount, h]
  | date =>
    simp only [construct, dateFormat, htext]
  | plural =>
    simp only [construct, htext]

end Evaluate

def OptionValue.value : OptionValue → Value
  | .text s => .text s
  | .number x => .number x
  | .flag b => .flag b
  | .foreign shown _ => .text shown

namespace FormatOptions

/-- The object that a program makes of options: of entries with one key the last counts. -/
def entries (o : FormatOptions) : List (String × Value) :=
  o.foldl (fun done p => Evaluate.setEntry p.1 p.2.value done) []

theorem option?_entries (o : FormatOptions) (key : String) :
    Evaluate.option? o.entries key = ((o.filter (·.1 == key)).getLast?).map (·.2.value) := by
  rw [entries]
  induction o using List.reverseRecOn with
  | nil => rfl
  | append_singleton o p ih =>
    rw [List.foldl_append, List.foldl_cons, List.foldl_nil, Evaluate.option?_setEntry, ih,
      List.filter_append]
    by_cases hkey : p.1 = key
    · simp [hkey]
    · simp [hkey]

/-- Options with one canonical text make one formatter. -/
theorem construct_eq {o o' : FormatOptions} (ho : o.Ordinary) (ho' : o'.Ordinary)
    (h : o.canonical = o'.canonical) (c : FormatterClass) (l : Locale) :
    Evaluate.construct c l o.entries = Evaluate.construct c l o'.entries := by
  refine Evaluate.construct_congr fun key => ?_
  rw [option?_entries, option?_entries, ← filter_sorted o, ← filter_sorted o', sorted_eq ho ho' h]

end FormatOptions

namespace Compile

/-- What the initializer of a formatter passes to it. -/
theorem initEntries_formatterInit (locale : String) (kind : FormatKind) (o : FormatOptions) :
    initEntries (formatterInit locale kind o) = o.entries := by
  have hvalue (v : OptionValue) : literalValue (valueExpr v) = v.value := by
    cases v <;> rfl
  cases o with
  | nil => rfl
  | cons p r =>
    have hinit : initEntries (formatterInit locale kind (p :: r)) =
        ((p :: r).map fun q => (q.1, valueExpr q.2)).foldl
          (fun done q => Evaluate.setEntry q.1 (literalValue q.2) done) [] := rfl
    rw [hinit, List.foldl_map]
    simp only [hvalue]
    rfl

end Compile

end Phrasebook
