import Mathlib
import Phrasebook.Proofs.Framing
import Phrasebook.Proofs.Granted
import Phrasebook.Proofs.Restyling
import Phrasebook.Settings.Basic

/-!
What the keys of the cache tell apart. Options with one key agree in everything that the generated
text depends on, but for one thing: the order in which a style lists its options, which is not part
of its canonical text.
-/
namespace Phrasebook

/-! ### Digests -/

namespace Sha256

theorem length_bigEndian (n x : Nat) : (bigEndian n x).length = n := by
  induction n generalizing x with
  | zero => rfl
  | succ n ih => rw [bigEndian, List.length_append, ih, List.length_singleton]

theorem length_hash (bs : Bytes) : (hash bs).length = 32 := by
  simp only [hash, List.flatMap_cons, List.flatMap_nil, List.length_append, length_bigEndian,
    List.length_nil]

theorem hexDigits_injective {b c : UInt8} (h : Text.hexDigits 2 b.toNat = Text.hexDigits 2 c.toNat) :
    b = c := by
  have hread := congrArg (Decimal.natOfDigits 16 Decimal.hexValue) h
  have hb : b.toNat < 16 ^ 2 := b.toNat_lt
  have hc : c.toNat < 16 ^ 2 := c.toNat_lt
  rw [Text.natOfDigits_hexDigits, Text.natOfDigits_hexDigits, Nat.mod_eq_of_lt hb,
    Nat.mod_eq_of_lt hc] at hread
  exact UInt8.toNat_inj.mp hread

theorem hex_injective {bs cs : Bytes} (h : hex bs = hex cs) : bs = cs := by
  have hchars := String.ofList_injective h
  induction bs generalizing cs with
  | nil =>
    cases cs with
    | nil => rfl
    | cons c cs => exact absurd (congrArg List.length hchars) (by simp [Text.hexDigits])
  | cons b bs ih =>
    cases cs with
    | nil => exact absurd (congrArg List.length hchars) (by simp [Text.hexDigits])
    | cons c cs =>
      -- every byte takes two digits
      have hlength : (Text.hexDigits 2 b.toNat).length = (Text.hexDigits 2 c.toNat).length := by
        rw [Text.length_hexDigits, Text.length_hexDigits]
      rw [List.flatMap_cons, List.flatMap_cons] at hchars
      obtain ⟨hbyte, hrest⟩ := List.append_inj hchars hlength
      rw [hexDigits_injective hbyte, ih (congrArg String.ofList hrest) hrest]

/-- No two of the texts have one hash. -/
def TellsApart (xs : List Bytes) : Prop :=
  ∀ x ∈ xs, ∀ y ∈ xs, hash x = hash y → x = y

end Sha256

/-! ### Styles -/

namespace StyleTable

/-- The names of the styles in ascending order, each with the canonical text of its options. -/
def listing (t : StyleTable) : List (String × String) :=
  (List.mergeSort t fun a b => textLe a.1 b.1).map fun p => (p.1, p.2.canonical)

theorem length_listing (t : StyleTable) : t.listing.length = t.length := by
  rw [listing, List.length_map, List.length_mergeSort]

/-- The listing tells the canonical text of every style. -/
theorem canonical_get? (t : StyleTable) (name : String) :
    (t.get? name).map FormatOptions.canonical =
      ((t.listing.filter (·.1 == name)).head?).map (·.2) := by
  have hfilter : t.listing.filter (·.1 == name) =
      (t.filter (·.1 == name)).map fun p => (p.1, p.2.canonical) := by
    rw [listing, List.filter_map, ← filter_sortedByKey t name]
    rfl
  rw [hfilter, List.head?_map, List.head?_filter, get?, Option.map_map, Option.map_map]
  rfl

theorem mem_of_get?_eq_some {t : StyleTable} {name : String} {o : FormatOptions}
    (h : t.get? name = some o) : (name, o) ∈ t := by
  obtain ⟨p, hfind, rfl⟩ := Option.map_eq_some_iff.mp h
  have hname := List.find?_some hfind
  rw [← beq_iff_eq.mp hname]
  exact List.mem_of_find?_eq_some hfind

/-- A style is looked for above first. -/
theorem get?_overlay (base top : StyleTable) (name : String) :
    (base.overlay top).get? name = (top.get? name).or (base.get? name) := by
  rw [overlay, get?, List.find?_append, List.find?_filter, Option.map_or]
  cases htop : top.get? name with
  | none =>
    have hkept : (fun p : String × FormatOptions =>
        decide ((top.get? p.1).isNone = true ∧ (p.1 == name) = true)) = fun p => p.1 == name := by
      funext p
      by_cases hp : p.1 = name
      · simp [hp, htop]
      · simp [hp]
    have hnone : top.find? (·.1 == name) = none := Option.map_eq_none_iff.mp htop
    rw [hkept, hnone, Option.map_none, Option.or_none, Option.none_or, get?]
  | some o =>
    have hhidden : (base.find? fun p =>
        decide ((top.get? p.1).isNone = true ∧ (p.1 == name) = true)) = none := by
      refine List.find?_eq_none.mpr fun p _ hp => ?_
      simp only [decide_eq_true_eq, beq_iff_eq] at hp
      rw [hp.2, htop] at hp
      exact Bool.noConfusion hp.1
    rw [hhidden, Option.map_none, Option.none_or, Option.some_or]
    exact htop

end StyleTable

namespace Formats

theorem table_overlay (base top : Formats) (kind : FormatKind) :
    (base.overlay top).table kind = (base.table kind).overlay (top.table kind) := by
  cases kind <;> rfl

/-- Styles of one name with the same options list them in the same order. -/
def SameOrder (f f' : Formats) : Prop :=
  ∀ kind, ∀ p ∈ f.table kind, ∀ p' ∈ f'.table kind,
    p.1 = p'.1 → FormatOptions.sorted p.2 = FormatOptions.sorted p'.2 → p.2 = p'.2

end Formats

namespace Compile

/-- Options with one canonical text. -/
def SameCanonical (o o' : FormatOptions) : Prop :=
  o.canonical = o'.canonical

theorem interchange_eq : Interchange Eq :=
  ⟨fun _ => rfl, fun h => h ▸ rfl, fun h => h ▸ rfl⟩

theorem interchange_sameCanonical : Interchange SameCanonical where
  refl _ := rfl
  canonical h := h
  isEmpty {o o'} h := by
    have hsorted (o : FormatOptions) : o.isEmpty = o.sorted.isEmpty := by
      rw [Bool.eq_iff_iff, List.isEmpty_iff_length_eq_zero, List.isEmpty_iff_length_eq_zero,
        FormatOptions.sorted, List.length_mergeSort]
    rw [hsorted o, hsorted o']
    cases hl : o.sorted with
    | nil =>
      cases hl' : o'.sorted with
      | nil => rfl
      | cons q r' => exact absurd h (FormatOptions.canonical_ne hl hl')
    | cons p r =>
      cases hl' : o'.sorted with
      | nil => exact absurd h.symm (FormatOptions.canonical_ne hl' hl)
      | cons q r' => rfl

/-- Tables of one listing have options of one canonical text under every name. -/
theorem rel_get?_of_listing {t t' : StyleTable} (h : t.listing = t'.listing) (name : String) :
    Option.Rel SameCanonical (t.get? name) (t'.get? name) := by
  have htexts : (t.get? name).map FormatOptions.canonical =
      (t'.get? name).map FormatOptions.canonical := by
    rw [StyleTable.canonical_get?, StyleTable.canonical_get?, h]
  cases hleft : t.get? name with
  | none =>
    cases hright : t'.get? name with
    | none => exact .none
    | some o' =>
      rw [hleft, hright] at htexts
      cases htexts
  | some o =>
    cases hright : t'.get? name with
    | none =>
      rw [hleft, hright] at htexts
      cases htexts
    | some o' =>
      rw [hleft, hright] at htexts
      exact .some (Option.some.inj htexts)

/-- What holds of the tables of the user holds once they lie over the built-in ones. -/
theorem FormatsRestyled.overlay {R : FormatOptions → FormatOptions → Prop} (hrefl : ∀ o, R o o)
    {f f' : Formats}
    (h : ∀ kind name, Option.Rel R ((f.table kind).get? name) ((f'.table kind).get? name)) :
    FormatsRestyled R (Formats.standard.overlay f) (Formats.standard.overlay f') := by
  intro kind name
  have hsame (o : Option FormatOptions) : Option.Rel R o o := by
    cases o with
    | none => exact .none
    | some o => exact .some (hrefl o)
  have hrel := h kind name
  rw [Formats.lookup?, Formats.lookup?, Formats.table_overlay, Formats.table_overlay,
    StyleTable.get?_overlay, StyleTable.get?_overlay]
  revert hrel
  generalize (f.table kind).get? name = found
  generalize (f'.table kind).get? name = found'
  intro hrel
  cases hrel with
  | none => exact hsame _
  | some ho => exact .some ho

theorem FormatsRestyled.of_listing {f f' : Formats}
    (h : ∀ kind, (f.table kind).listing = (f'.table kind).listing) :
    FormatsRestyled SameCanonical (Formats.standard.overlay f) (Formats.standard.overlay f') :=
  FormatsRestyled.overlay interchange_sameCanonical.refl fun kind name =>
    rel_get?_of_listing (h kind) name

/-- If they list the options in the same order as well, they have the same options. -/
theorem FormatsRestyled.of_sameOrder {f f' : Formats}
    (h : ∀ kind, (f.table kind).listing = (f'.table kind).listing)
    (hf : f.Ordinary) (hf' : f'.Ordinary) (horder : f.SameOrder f') :
    FormatsRestyled Eq (Formats.standard.overlay f) (Formats.standard.overlay f') := by
  refine FormatsRestyled.overlay (fun _ => rfl) fun kind name => ?_
  rcases rel_cases (rel_get?_of_listing (h kind) name) with
    ⟨hleft, hright⟩ | ⟨o, o', htext, hleft, hright⟩
  · rw [hleft, hright]
    exact .none
  · have hmem := StyleTable.mem_of_get?_eq_some hleft
    have hmem' := StyleTable.mem_of_get?_eq_some hright
    rw [hleft, hright]
    refine .some (horder kind _ hmem _ hmem' rfl ?_)
    exact FormatOptions.sorted_eq (hf kind _ hmem) (hf' kind _ hmem') htext

end Compile

/-! ### Keys -/

namespace Build

/-- Options that agree in everything that is part of a key. -/
structure Options.Alike (o o' : Options) : Prop where
  locale : o.compile.locale = o'.compile.locale
  target : o.compile.target = o'.compile.target
  print : o.print = o'.print
  declarations : o.declarations = o'.declarations
  styles : ∀ kind, (o.compile.formats.table kind).listing = (o'.compile.formats.table kind).listing

/-- The same options without a cache. -/
def Options.uncached (o : Options) : Options :=
  { o with cache := none }

theorem Options.Alike.uncached {o o' : Options} (h : o.Alike o') : o.Alike o'.uncached :=
  ⟨h.locale, h.target, h.print, h.declarations, h.styles⟩

namespace Cache

def writeStyle (p : String × String) : Bytes :=
  Fields.writeText p.1 ++ Fields.writeText p.2

theorem styleFields_eq (kind : FormatKind) (styles : StyleTable) :
    styleFields kind styles = Fields.writeText kind.name ++
      (Fields.writeCount styles.listing.length ++ styles.listing.flatMap writeStyle) := by
  rw [styleFields, StyleTable.length_listing, StyleTable.listing, List.flatMap_map,
    List.append_assoc]
  rfl

theorem styleFields_append_inj {kind : FormatKind} {styles styles' : StyleTable} {r l : Bytes}
    (h : styleFields kind styles ++ r = styleFields kind styles' ++ l) :
    styles.listing = styles'.listing ∧ r = l := by
  simp only [styleFields_eq, List.append_assoc] at h
  obtain ⟨hlength, hlisted⟩ := Fields.writeCount_append_inj (Fields.writeText_append_inj h).2
  refine Fields.flatMap_append_inj (fun p q r l hpq => ?_) hlength hlisted
  rw [writeStyle, writeStyle, List.append_assoc, List.append_assoc] at hpq
  obtain ⟨hname, hrest⟩ := Fields.writeText_append_inj hpq
  obtain ⟨htext, hr⟩ := Fields.writeText_append_inj hrest
  exact ⟨Prod.ext hname htext, hr⟩

theorem toString_bool_injective {b c : Bool} (h : toString b = toString c) : b = c := by
  revert h
  cases b <;> cases c <;> decide

theorem targetName_injective {t t' : Compile.Target} (h : t.name = t'.name) : t = t' := by
  revert h
  cases t <;> cases t' <;> decide

theorem markupName_injective {m m' : Program.MarkupMode} (h : m.name = m'.name) : m = m' := by
  revert h
  cases m <;> cases m' <;> decide

/-- The text that is hashed to a key tells the digest of the content, and the options but for the
order inside of styles. Nothing that stands behind it can be taken for a part of it. -/
theorem keyStream_append_inj {content content' : Bytes} (hlength : content.length = content'.length)
    {o o' : Options} {r l : Bytes} (h : keyStream content o ++ r = keyStream content' o' ++ l) :
    content = content' ∧ o.Alike o' ∧ r = l := by
  simp only [keyStream, List.append_assoc] at h
  obtain ⟨-, h⟩ := Fields.writeCount_append_inj h
  obtain ⟨-, h⟩ := Fields.writeText_append_inj h
  obtain ⟨-, h⟩ := Fields.writeText_append_inj h
  -- the digest has no length in front, but all digests are of one length
  obtain ⟨hcontent, h⟩ := List.append_inj h hlength
  obtain ⟨hlocale, h⟩ := Fields.writeText_append_inj h
  obtain ⟨htarget, h⟩ := Fields.writeText_append_inj h
  obtain ⟨htypes, h⟩ := Fields.writeText_append_inj h
  obtain ⟨hmarkup, h⟩ := Fields.writeText_append_inj h
  obtain ⟨hnamespace, h⟩ := Fields.writeText_append_inj h
  obtain ⟨hdeclarations, h⟩ := Fields.writeText_append_inj h
  obtain ⟨hnumber, h⟩ := styleFields_append_inj h
  obtain ⟨hdate, h⟩ := styleFields_append_inj h
  obtain ⟨htime, h⟩ := styleFields_append_inj h
  have hprint : o.print = o'.print := by
    rw [Program.PrintStyle.mk.injEq]
    exact ⟨toString_bool_injective htypes, markupName_injective hmarkup, hnamespace⟩
  refine ⟨hcontent, ⟨hlocale, targetName_injective htarget, hprint,
    toString_bool_injective hdeclarations, fun kind => ?_⟩, h⟩
  cases kind with
  | number => exact hnumber
  | date => exact hdate
  | time => exact htime

theorem keyStream_inj {content content' : Bytes} (hlength : content.length = content'.length)
    {o o' : Options} (h : keyStream content o = keyStream content' o') :
    content = content' ∧ o.Alike o' := by
  rw [← List.append_nil (keyStream content o), ← List.append_nil (keyStream content' o')] at h
  obtain ⟨hcontent, halike, -⟩ := keyStream_append_inj hlength h
  exact ⟨hcontent, halike⟩

/-- Options that are alike have one key for every content. -/
theorem keyStream_eq {o o' : Options} (h : o.Alike o') (content : Bytes) :
    keyStream content o = keyStream content o' := by
  have hstyles (kind : FormatKind) : styleFields kind (o.compile.formats.table kind) =
      styleFields kind (o'.compile.formats.table kind) := by
    rw [styleFields_eq, styleFields_eq, h.styles]
  have hnumber := hstyles .number
  have hdate := hstyles .date
  have htime := hstyles .time
  simp only [Formats.table] at hnumber hdate htime
  rw [keyStream, keyStream, h.locale, h.target, h.print, h.declarations, hnumber, hdate, htime]

theorem key_eq {o o' : Options} (h : o.Alike o') (content : Bytes) :
    key content o = key content o' := by
  rw [key, key, keyStream_eq h]

end Cache

end Build

end Phrasebook
