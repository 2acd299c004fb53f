import Phrasebook.Proofs.CacheKeys
import Phrasebook.Proofs.Needs

/-!
What is hashed to the keys of the cache is unambiguous. From the text that is hashed one can tell the
digest of the content and every option that is part of a key, whatever bytes stand in the fields, and
where the text ends. The styles are part of it as a map: in which order a table lists them is lost.
-/
namespace Phrasebook

namespace StyleTable

variable {t t' : StyleTable}

/-- The table is a map: its styles have names of their own. -/
def IsMap (t : StyleTable) : Prop :=
  (t.map (·.1)).Nodup

instance (t : StyleTable) : Decidable t.IsMap :=
  inferInstanceAs (Decidable (t.map (·.1)).Nodup)

/-- The canonical text of a style. -/
def canonical? (t : StyleTable) (name : String) : Option String :=
  (t.get? name).map FormatOptions.canonical

/-- All styles with their canonical texts, in the order of the table. -/
def texts (t : StyleTable) : List (String × String) :=
  t.map fun p => (p.1, p.2.canonical)

theorem IsMap.texts (h : t.IsMap) : (t.texts.map (·.1)).Nodup := by
  have hnames : t.texts.map (·.1) = t.map (·.1) := by
    rw [StyleTable.texts, List.map_map]
    rfl
  rw [hnames]
  exact h

/-- The listing has the texts by ascending names. -/
theorem listing_eq (t : StyleTable) :
    t.listing = List.mergeSort t.texts fun a b => textLe a.1 b.1 := by
  rw [listing, texts]
  exact List.map_mergeSort fun _ _ _ _ => rfl

theorem IsMap.mem_texts_iff (h : t.IsMap) {name text : String} :
    (name, text) ∈ t.texts ↔ t.canonical? name = some text := by
  have hfind : t.canonical? name = (t.texts.find? (·.1 == name)).map (·.2) := by
    rw [canonical?, get?, StyleTable.texts, List.find?_map, Option.map_map, Option.map_map]
    rfl
  rw [hfind]
  exact (map_find?_eq_some_iff h.texts).symm

/-- A listing tells a table that is a map, and the map tells the listing. -/
theorem IsMap.listing_eq_iff (h : t.IsMap) (h' : t'.IsMap) :
    t.listing = t'.listing ↔ ∀ name, t.canonical? name = t'.canonical? name := by
  constructor
  · intro hlisting name
    rw [canonical?, canonical?, canonical_get?, canonical_get?, hlisting]
  · intro hmap
    have hperm : t.texts.Perm t'.texts := by
      apply (List.perm_ext_iff_of_nodup h.texts.of_map h'.texts.of_map).mpr
      rintro ⟨name, text⟩
      rw [h.mem_texts_iff, h'.mem_texts_iff, hmap]
    rw [listing_eq, listing_eq]
    exact sortedByKey_eq_of_perm h.texts hperm

/-- A table that lists the same styles in another order is the same map. -/
theorem IsMap.of_perm (h : t.IsMap) (hperm : t.Perm t') :
    t'.IsMap ∧ ∀ name, t.canonical? name = t'.canonical? name := by
  have h' : t'.IsMap := (hperm.map Prod.fst).nodup_iff.mp h
  refine ⟨h', fun name => ?_⟩
  have hget : t.get? name = t'.get? name := by
    apply Option.ext
    intro o
    calc t.get? name = some o ↔ (name, o) ∈ t := map_find?_eq_some_iff h
      _ ↔ (name, o) ∈ t' := hperm.mem_iff
      _ ↔ t'.get? name = some o := (map_find?_eq_some_iff h').symm
  rw [canonical?, canonical?, hget]

end StyleTable

namespace Build

namespace Options

/-- The tables of styles are maps. -/
def StylesAreMaps (o : Options) : Prop :=
  ∀ kind, (o.compile.formats.table kind).IsMap

/-- Options that agree in every field that is hashed. Of a style that is its name and the canonical
text of its options. -/
structure SameFields (o o' : Options) : Prop where
  locale : o.compile.locale = o'.compile.locale
  target : o.compile.target.name = o'.compile.target.name
  types : o.print.types = o'.print.types
  markup : o.print.markup.name = o'.print.markup.name
  namespaceName : o.print.namespaceName = o'.print.namespaceName
  declarations : o.declarations = o'.declarations
  styles : ∀ kind name, (o.compile.formats.table kind).canonical? name =
    (o'.compile.formats.table kind).canonical? name

variable {o o' : Options}

theorem alike_iff (h : o.StylesAreMaps) (h' : o'.StylesAreMaps) :
    o.Alike o' ↔ o.SameFields o' := by
  constructor
  · intro ha
    refine ⟨ha.locale, by rw [ha.target], by rw [ha.print], by rw [ha.print], by rw [ha.print],
      ha.declarations, fun kind => ?_⟩
    exact ((h kind).listing_eq_iff (h' kind)).mp (ha.styles kind)
  · intro hf
    have hprint : o.print = o'.print := by
      rw [Program.PrintStyle.mk.injEq]
      exact ⟨hf.types, Cache.markupName_injective hf.markup, hf.namespaceName⟩
    refine ⟨hf.locale, Cache.targetName_injective hf.target, hprint, hf.declarations,
      fun kind => ?_⟩
    exact ((h kind).listing_eq_iff (h' kind)).mpr (hf.styles kind)

end Options

namespace Cache

/-- The text that is hashed to a key is unambiguous: two such texts are the same just if the digests
of the contents and all hashed fields are, and then whatever stands behind them is the same too. How
the tables list their styles does not show. -/
theorem keyStream_unambiguous {content content' : Bytes} (hdigest : content.length = 32)
    (hdigest' : content'.length = 32) {o o' : Options} (hmaps : o.StylesAreMaps)
    (hmaps' : o'.StylesAreMaps) :
    (keyStream content o = keyStream content' o' ↔ content = content' ∧ o.SameFields o') ∧
    (∀ r l, keyStream content o ++ r = keyStream content' o' ++ l →
      content = content' ∧ o.SameFields o' ∧ r = l) ∧
    ∀ formats : Formats,
      (∀ kind, (formats.table kind).Perm (o.compile.formats.table kind)) →
      keyStream content { o with compile := { o.compile with formats } } = keyStream content o := by
  have hlength : content.length = content'.length := hdigest.trans hdigest'.symm
  refine ⟨⟨fun h => ?_, ?_⟩, fun r l h => ?_, fun formats hperm => ?_⟩
  · obtain ⟨hcontent, halike⟩ := keyStream_inj hlength h
    exact ⟨hcontent, (Options.alike_iff hmaps hmaps').mp halike⟩
  · rintro ⟨rfl, hfields⟩
    exact keyStream_eq ((Options.alike_iff hmaps hmaps').mpr hfields) content
  · obtain ⟨hcontent, halike, hrest⟩ := keyStream_append_inj hlength h
    exact ⟨hcontent, (Options.alike_iff hmaps hmaps').mp halike, hrest⟩
  · have hlisted (kind : FormatKind) :
        (formats.table kind).listing = (o.compile.formats.table kind).listing := by
      obtain ⟨hmap, hsame⟩ := (hmaps kind).of_perm (hperm kind).symm
      exact (hmap.listing_eq_iff (hmaps kind)).mpr fun name => (hsame name).symm
    have halike : Options.Alike { o with compile := { o.compile with formats } } o :=
      ⟨rfl, rfl, rfl, rfl, hlisted⟩
    exact keyStream_eq halike content

/-- Options with fields that look like the beginning of the next one. -/
def lookalike (locale namespaceName : String) (number : StyleTable) : Options where
  compile := ⟨locale, ⟨number, [("6:string", [])], []⟩, .string, ""⟩
  print := ⟨true, .classic, namespaceName⟩
  declarations := false
  outDir := ""
  baseDir := ""
  write := false
  keepGoing := false
  maxDiagnostics := 0
  cache := none
  timings := false

/-- Two styles, in one order and in the other. -/
def twoStyles : StyleTable :=
  [("2:\x7b\x7d", [("b", .flag true), ("a", .text "1:,")]), ("", [])]

theorem keyStream_unambiguous_lookalike :
    let content := List.replicate 32 0x3A
    let o := lookalike "en6:string4:true" "R" twoStyles
    let o' := lookalike "en" "6:string4:trueR" twoStyles.reverse
    content.length = 32 ∧ o.StylesAreMaps ∧ o'.StylesAreMaps ∧
      keyStream content o ≠ keyStream content o' ∧
      keyStream content (lookalike "en6:string4:true" "R" twoStyles.reverse) =
        keyStream content o := by
  intro content o o'
  have hmaps : o.StylesAreMaps := by
    intro kind
    cases kind <;> decide
  have hmaps' : o'.StylesAreMaps := by
    intro kind
    cases kind <;> decide
  have hdigest : content.length = 32 := rfl
  obtain ⟨htells, -, horder⟩ := keyStream_unambiguous hdigest hdigest hmaps hmaps'
  refine ⟨rfl, hmaps, hmaps', fun hsame => ?_, horder ⟨_, _, _⟩ fun kind => ?_⟩
  · have hlocale := (htells.mp hsame).2.locale
    exact absurd hlocale (by decide)
  · cases kind
    · exact List.reverse_perm twoStyles
    · exact List.Perm.refl _
    · exact List.Perm.refl _

end Cache

end Build

end Phrasebook
