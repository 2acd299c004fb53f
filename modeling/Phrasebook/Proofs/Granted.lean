import Phrasebook.Proofs.Canonical
import Phrasebook.Proofs.Isolation

/-!
What a module grants. Requests for one key make one formatter, so that the constant of the first
request for a key serves every message that asks for it.
-/
namespace Phrasebook

/-! ### Styles -/

/-- All styles have ordinary options. -/
def Formats.Ordinary (f : Formats) : Prop :=
  ∀ kind, ∀ p ∈ f.table kind, FormatOptions.Ordinary p.2

namespace Formats

section Styles

variable {P : FormatOptions → Prop} {f g : Formats}

/-- What holds of all styles of two tables holds of all styles of the one over the other. -/
theorem forall_overlay (hf : ∀ kind, ∀ p ∈ f.table kind, P p.2)
    (hg : ∀ kind, ∀ p ∈ g.table kind, P p.2) : ∀ kind, ∀ p ∈ (f.overlay g).table kind, P p.2 := by
  have htable {a b : StyleTable} (ha : ∀ p ∈ a, P p.2) (hb : ∀ p ∈ b, P p.2) :
      ∀ p ∈ a.overlay b, P p.2 := by
    intro p hp
    rcases List.mem_append.mp hp with hp | hp
    · exact ha p (List.mem_of_mem_filter hp)
    · exact hb p hp
  intro kind
  have hkind := htable (hf kind) (hg kind)
  cases kind <;> exact hkind

/-- The plain number format may have no style of its own. -/
theorem forall_lookup? (hnil : P []) (hf : ∀ kind, ∀ p ∈ f.table kind, P p.2) {kind : FormatKind}
    {name : String} {o : FormatOptions} (h : f.lookup? kind name = some o) : P o := by
  rw [Formats.lookup?, StyleTable.get?] at h
  cases hfind : (f.table kind).find? (·.1 == name) with
  | some p =>
    rw [hfind] at h
    obtain rfl := Option.some.inj h
    exact hf kind p (List.mem_of_find?_eq_some hfind)
  | none =>
    rw [hfind] at h
    simp only [Option.map_none] at h
    split at h
    · obtain rfl := Option.some.inj h
      exact hnil
    · exact nomatch h

end Styles

namespace Ordinary

theorem standard : Formats.standard.Ordinary := by
  intro kind
  cases kind <;> decide

theorem overlay {f g : Formats} (hf : f.Ordinary) (hg : g.Ordinary) : (f.overlay g).Ordinary :=
  forall_overlay hf hg

end Ordinary

end Formats

namespace Compile

/-- What holds of no options, of all styles and of the options of a skeleton holds of the options
of a style. -/
theorem styleOptions_of {P : FormatOptions → Prop} (hnil : P []) {formats : Formats}
    (hformats : ∀ kind, ∀ p ∈ formats.table kind, P p.2) {kind : FormatKind} {style : Style}
    (hskeleton : ∀ text o span, style = .skeleton text o span → P o) :
    P (styleOptions formats kind style) := by
  rw [styleOptions]
  cases hresolved : resolveStyle formats .zero kind style with
  | error f => exact hnil
  | ok r =>
    obtain ⟨preset, o⟩ := r
    -- Each way of naming a style reads its options from one place.
    cases style with
    | skeleton text options styleSpan =>
      obtain ⟨rfl, rfl⟩ := Prod.mk.inj (Except.ok.inj hresolved)
      exact hskeleton _ _ _ rfl
    | named style styleSpan =>
      cases hfind : formats.lookup? kind style with
      | none =>
        rw [resolveStyle, hfind] at hresolved
        cases hresolved
      | some found =>
        rw [resolveStyle, hfind] at hresolved
        simp only at hresolved
        split at hresolved
        · obtain ⟨rfl, rfl⟩ := Prod.mk.inj (Except.ok.inj hresolved)
          exact hnil
        · obtain ⟨rfl, rfl⟩ := Prod.mk.inj (Except.ok.inj hresolved)
          exact Formats.forall_lookup? hnil hformats hfind
    | default =>
      rw [resolveStyle] at hresolved
      split at hresolved
      · rename_i hfind
        obtain ⟨rfl, rfl⟩ := Prod.mk.inj (Except.ok.inj hresolved)
        split at hfind
        · exact Formats.forall_lookup? hnil hformats hfind
        · cases hfind
      · obtain ⟨rfl, rfl⟩ := Prod.mk.inj (Except.ok.inj hresolved)
        exact hnil

/-- Styles that were read have ordinary options. -/
theorem ordinary_styleOptions {formats : Formats} (hformats : formats.Ordinary) {span nameSpan : Span}
    {kind : FormatKind} {name : String} {style : Style}
    (hread : (Node.format span kind name nameSpan style).Readable) :
    (styleOptions formats kind style).Ordinary := by
  refine styleOptions_of .nil hformats ?_
  rintro text o styleSpan rfl
  exact hread.ordinary

/-! ### Requests -/

/-- A request for plural rules, or for a formatter of ordinary options. -/
def Request.Ordinary (locale : String) (r : Request) : Prop :=
  (∃ kind o, FormatOptions.Ordinary o ∧ r = formatterRequest locale kind o) ∨
    ∃ kind, r = rulesRequest locale kind

/-- What a formatter is made of. -/
theorem formatter_formatterRequest (l : Locale) (locale : String) (kind : FormatKind)
    (o : FormatOptions) : (formatterRequest locale kind o).formatter l =
      Evaluate.construct (SharedKey.formatter kind o.canonical).formatterClass l o.entries := by
  rw [Request.formatter, formatterRequest, initEntries_formatterInit]

theorem formatter_rulesRequest (l : Locale) (locale : String) (kind : PluralKind) :
    (rulesRequest locale kind).formatter l = .plural ⟨l, kind = .ordinal⟩ := by
  cases kind <;> rfl

/-- Requests for one key make one formatter. -/
theorem Request.Ordinary.formatter_eq {locale : String} {r r' : Request} (hr : r.Ordinary locale)
    (hr' : r'.Ordinary locale) (hkey : r'.1 = r.1) (l : Locale) : r'.formatter l = r.formatter l := by
  rcases hr with ⟨kind, o, ho, rfl⟩ | ⟨kind, rfl⟩
  · rcases hr' with ⟨kind', o', ho', rfl⟩ | ⟨kind', rfl⟩
    · obtain ⟨rfl, hcanonical⟩ := SharedKey.formatter.inj hkey
      rw [formatter_formatterRequest, formatter_formatterRequest, hcanonical]
      exact FormatOptions.construct_eq ho' ho hcanonical _ l
    · exact nomatch hkey
  · rcases hr' with ⟨kind', o', ho', rfl⟩ | ⟨kind', rfl⟩
    · exact nomatch hkey
    · obtain rfl := SharedKey.pluralRules.inj hkey
      rfl

theorem requests_ordinary {locale : String} {formats : Formats} (hformats : formats.Ordinary)
    {n : Node} (hread : n.All Node.Readable) :
    ∀ r ∈ requests locale formats n, Request.Ordinary locale r := by
  refine requests_forall ?_ ?_ n (hread.imp ?_)
  · exact fun kind => Or.inr ⟨kind, rfl⟩
  · exact Or.inl ⟨_, _, .nil, rfl⟩
  · intro k hk
    cases k with
    | format => exact Or.inl ⟨_, _, ordinary_styleOptions hformats hk, rfl⟩
    | _ => trivial

/-- Every key that is asked for is granted. -/
theorem exists_mem_share {shared asked : List Request} {r : Request}
    (h : r ∈ shared ∨ r ∈ asked) : ∃ r' ∈ share shared asked, r'.1 = r.1 := by
  -- The induction is on the requests still to come, with what is shared so far.
  induction asked generalizing shared r with
  | nil => exact ⟨r, h.resolve_right List.not_mem_nil, rfl⟩
  | cons a l ih =>
    rw [share, List.foldl_cons]
    rcases h with h | h
    · refine ih (.inl ?_)
      split
      · exact h
      · exact List.mem_append_left _ h
    · rcases List.mem_cons.mp h with rfl | h
      · split
        · rename_i hknown
          obtain ⟨r', hr', hkey⟩ := List.any_eq_true.mp hknown
          rw [← eq_of_beq hkey]
          exact ih (.inl hr')
        · exact ih (.inl (List.mem_append_right _ (List.mem_singleton.mpr rfl)))
      · exact ih (.inr h)

namespace Module

variable {m : Module} {es : List Entry} {e : Entry}

/-- Every message is served with what it asks for. -/
theorem Keeps.serves_requests (h : m.Keeps es) (hformats : m.formats.Ordinary) (he : e ∈ es)
    (l : Locale) (args : List (String × Value)) :
    ∀ r ∈ messageRequests m.options.effectiveLocale m.formats e.text,
      (surroundings l m.idle.granted args).formatter r.1 = r.formatter l := by
  have hordinary {e : Entry} (he : e ∈ es) :
      ∀ r ∈ messageRequests m.options.effectiveLocale m.formats e.text,
        Request.Ordinary m.options.effectiveLocale r := by
    intro r hr
    obtain ⟨list, hlist, hr⟩ := List.mem_flatten.mp hr
    obtain ⟨n, hn, rfl⟩ := List.mem_map.mp hlist
    exact requests_ordinary hformats (Message.parse_readable (h.compiled e he).parse_eq n hn) r hr
  intro r hr
  have hasked : r ∈ (es.map Entry.call).flatMap fun c =>
      messageRequests m.options.effectiveLocale m.formats c.text :=
    List.mem_flatMap.mpr ⟨e.call, List.mem_map_of_mem he, hr⟩
  obtain ⟨r', hgranted, hkey⟩ := @exists_mem_share [] _ _ (.inr hasked)
  have hordinary' : Request.Ordinary m.options.effectiveLocale r' := by
    rcases mem_share hgranted with hr' | hr'
    · exact absurd hr' List.not_mem_nil
    · obtain ⟨c, hc, hr'⟩ := List.mem_flatMap.mp hr'
      obtain ⟨e', he', rfl⟩ := List.mem_map.mp hc
      exact hordinary he' r' hr'
  rw [← h.granted_eq] at hgranted
  rw [← hkey, (h.serves l args).formatter r' hgranted]
  exact (hordinary he r hr).formatter_eq hordinary' hkey l

end Module

/-! ### Compiled messages -/

/-- Messages that were all added are all accepted. -/
theorem addMessages_eq {m m' : Module} {messages : List SourceMessage}
    (h : addMessages m messages = .ok m') :
    m' = m.addAll messages ∧ m.accepted messages = messages := by
  induction messages generalizing m with
  | nil => exact ⟨(Except.ok.inj h).symm, rfl⟩
  | cons c r ih =>
    rw [addMessages] at h
    rw [Module.addAll, List.foldl_cons, Module.accepted]
    generalize m.addMessage c.name c.text = next at h ⊢
    obtain ⟨m₁, outcome⟩ := next
    cases outcome with
    | some e => cases h
    | none =>
      obtain ⟨hall, haccepted⟩ := ih h
      simp only [Option.isNone_none, if_true, haccepted]
      exact ⟨hall, trivial⟩

/-- What messages are compiled to is the program of a module that has accepted them. -/
theorem exists_keeps_of_compile {messages : List SourceMessage} {o : Options}
    {built : Module.Built} (hbuilt : compile messages o = .ok built) :
    ∃ m es, Module.Keeps m es ∧ es.map Entry.call = messages ∧ m.options = o ∧
      m.program = built.program := by
  rw [compile] at hbuilt
  cases hadd : addMessages (Module.new .empty o) messages with
  | error e =>
    rw [hadd] at hbuilt
    cases hbuilt
  | ok m =>
    rw [hadd] at hbuilt
    obtain ⟨hall, haccepted⟩ := addMessages_eq hadd
    obtain ⟨es, hkeeps, hcalls, hreaches⟩ := (Module.keeps_new .empty o).addAll rfl messages
    rw [List.nil_append, ← hall] at hkeeps
    rw [haccepted] at hcalls
    exact ⟨m, es, hkeeps, hcalls, hall ▸ hreaches.options, Module.program_of_build hbuilt⟩

end Compile

end Phrasebook
