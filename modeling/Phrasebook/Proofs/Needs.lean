import Phrasebook.Proofs.ClearTrees
import Phrasebook.Proofs.Granted

/-!
What messages need of their module: formatters, told by their kind and by the map of their options,
and plural rules. Regular options are known by their map up to the order of the keys, and so is their
canonical text; the constants of a module are therefore as many as the needs of its messages.
-/
namespace Phrasebook

/-! ### Option maps -/

/-- Entries with distinct keys are looked up by their keys. -/
theorem map_find?_eq_some_iff {α β : Type} [BEq α] [LawfulBEq α] {l : List (α × β)}
    (h : (l.map (·.1)).Nodup) {key : α} {v : β} :
    (l.find? (·.1 == key)).map (·.2) = some v ↔ (key, v) ∈ l := by
  rw [Option.map_eq_some_iff]
  constructor
  · rintro ⟨p, hfind, rfl⟩
    have hkey : p.1 = key := by simpa using List.find?_some hfind
    rw [← hkey]
    exact List.mem_of_find?_eq_some hfind
  · intro hmem
    have hfound : (l.find? (·.1 == key)).isSome = true :=
      List.find?_isSome.mpr ⟨_, hmem, beq_self_eq_true key⟩
    obtain ⟨p, hfind⟩ := Option.isSome_iff_exists.mp hfound
    have hkey : p.1 = key := by simpa using List.find?_some hfind
    have hsame := List.inj_on_of_nodup_map h (List.mem_of_find?_eq_some hfind) hmem hkey
    exact ⟨p, hfind, by rw [hsame]⟩

/-- Entries with distinct keys are a partial function. -/
theorem exists_lookup {α β : Type} {l : List (α × β)} (h : (l.map (·.1)).Nodup) :
    ∃ f : α → Option β, ∀ key v, f key = some v ↔ (key, v) ∈ l := by
  classical
  exact ⟨fun key => (l.find? (·.1 == key)).map (·.2), fun _ _ => map_find?_eq_some_iff h⟩

/-- Of entries with distinct keys there is one order by their keys. -/
theorem sortedByKey_eq_of_perm {α : Type} {l l' : List (String × α)} (h : (l.map (·.1)).Nodup)
    (hperm : l.Perm l') : (List.mergeSort l fun a b => textLe a.1 b.1) =
      List.mergeSort l' fun a b => textLe a.1 b.1 := by
  have hsorted (l : List (String × α)) :
      (List.mergeSort l fun a b => textLe a.1 b.1).Pairwise fun a b => textLe a.1 b.1 = true :=
    List.pairwise_mergeSort keyLe_trans keyLe_total l
  have hentries := ((List.mergeSort_perm l fun a b => textLe a.1 b.1).trans hperm).trans
    (List.mergeSort_perm l' fun a b => textLe a.1 b.1).symm
  apply hentries.eq_of_pairwise ?_ (hsorted l) (hsorted l')
  intro a b ha hb hab hba
  have hkey : a.1 = b.1 := by
    simp only [textLe, decide_eq_true_eq] at hab hba
    exact String.le_antisymm hab hba
  exact List.inj_on_of_nodup_map h (List.mem_mergeSort.mp ha)
    (hperm.mem_iff.mpr (List.mem_mergeSort.mp hb)) hkey

/-- Sorting by keys does not change which value a key has. -/
theorem FormatOptions.get?_eq_of_sorted {o o' : FormatOptions} (h : o.sorted = o'.sorted) :
    o.get? = o'.get? := by
  funext key
  rw [get?, get?, ← List.head?_filter, ← List.head?_filter, ← filter_sorted o, h, filter_sorted o']

namespace FormatOptions.Regular

variable {o o' : FormatOptions}

theorem get?_eq_some_iff (h : o.Regular) {key : String} {v : OptionValue} :
    o.get? key = some v ↔ (key, v) ∈ o :=
  map_find?_eq_some_iff h.distinct

/-- Options with one map have the same entries. -/
theorem perm_of_get? (h : o.Regular) (h' : o'.Regular) (hget : o.get? = o'.get?) : o.Perm o' := by
  refine (List.perm_ext_iff_of_nodup h.distinct.of_map h'.distinct.of_map).mpr ?_
  rintro ⟨key, v⟩
  rw [← h.get?_eq_some_iff, ← h'.get?_eq_some_iff, hget]

theorem sorted_eq_of_perm (h : o.Regular) (hperm : o.Perm o') : o.sorted = o'.sorted :=
  sortedByKey_eq_of_perm h.distinct hperm

/-- The canonical text tells the map of the options, and nothing else. -/
theorem canonical_eq_iff (h : o.Regular) (h' : o'.Regular) :
    o.canonical = o'.canonical ↔ o.get? = o'.get? := by
  constructor
  · intro hcanonical
    exact get?_eq_of_sorted (sorted_eq h.ordinary h'.ordinary hcanonical)
  · intro hget
    rw [canonical, canonical, h.sorted_eq_of_perm (h.perm_of_get? h' hget)]

end FormatOptions.Regular

namespace Formats

/-- All styles have regular options. -/
def Regular (f : Formats) : Prop :=
  ∀ kind, ∀ p ∈ f.table kind, FormatOptions.Regular p.2

theorem Regular.standard : Formats.standard.Regular := by
  intro kind
  cases kind <;> decide

theorem Regular.overlay {f g : Formats} (hf : f.Regular) (hg : g.Regular) : (f.overlay g).Regular :=
  forall_overlay hf hg

end Formats

namespace Compile

theorem regular_styleOptions {formats : Formats} (hformats : formats.Regular) {span nameSpan : Span}
    {kind : FormatKind} {name : String} {style : Style}
    (hread : (Node.format span kind name nameSpan style).Readable) :
    (styleOptions formats kind style).Regular := by
  refine styleOptions_of .nil hformats ?_
  rintro text o styleSpan rfl
  exact hread

/-! ### Needs of elements -/

/-- What messages share: formatters of a kind and of options, whatever the order of their keys, and
plural rules of a kind. -/
inductive Need where
  | formatter (kind : FormatKind) (options : String → Option OptionValue)
  | rules (kind : PluralKind)

instance : Inhabited Need := ⟨.rules .cardinal⟩

/-- What an element needs for itself. -/
def need? (formats : Formats) : Node → Option Need
  | .format _ kind _ _ style => some (.formatter kind (styleOptions formats kind style).get?)
  | .pound _ => some (.formatter .number fun _ => none)
  | .plural _ _ _ _ kind cases => if hasCategory cases then some (.rules kind) else none
  | .literal .. | .argument .. | .select .. | .tag .. | .unknown _ | .hole => none

/-- What the elements of a text need. -/
def messageNeeds (formats : Formats) (text : Bytes) : Set Need :=
  {need | ∃ n ∈ messageNodes text, ∃ m, Node.Within m n ∧ need? formats m = some need}

/-- A shared constant of a module with what it is for. -/
structure Supply where
  need : Need
  name : String
  init : Expr

namespace Need

/-- An expression that makes what is needed. -/
def MadeBy (locale : String) : Need → Expr → Prop
  | .formatter kind options, e =>
    ∃ o : FormatOptions, o.Regular ∧ o.get? = options ∧ e = formatterInit locale kind o
  | .rules kind, e => e = rulesInit locale kind

/-- The key of a need. -/
inductive HasKey : Need → SharedKey → Prop where
  | formatter {kind : FormatKind} {o : FormatOptions} : o.Regular →
      HasKey (.formatter kind o.get?) (.formatter kind o.canonical)
  | rules {kind : PluralKind} : HasKey (.rules kind) (.pluralRules kind)

/-- Needs are told apart by their keys. -/
theorem HasKey.eq_iff {need need' : Need} {key key' : SharedKey} (h : need.HasKey key)
    (h' : need'.HasKey key') : need = need' ↔ key = key' := by
  cases h with
  | formatter ho =>
    cases h' with
    | formatter ho' => rw [Need.formatter.injEq, SharedKey.formatter.injEq, ho.canonical_eq_iff ho']
    | rules => exact iff_of_false Need.noConfusion SharedKey.noConfusion
  | rules =>
    cases h' with
    | formatter ho' => exact iff_of_false Need.noConfusion SharedKey.noConfusion
    | rules => rw [Need.rules.injEq, SharedKey.pluralRules.injEq]

/-- A request for what is needed. -/
structure Asks (locale : String) (need : Need) (r : Request) : Prop where
  key : need.HasKey r.1
  made : need.MadeBy locale r.2

theorem asks_formatter (locale : String) (kind : FormatKind) {o : FormatOptions} (h : o.Regular) :
    Asks locale (.formatter kind o.get?) (formatterRequest locale kind o) :=
  ⟨.formatter h, o, h, rfl, rfl⟩

theorem asks_rules (locale : String) (kind : PluralKind) :
    Asks locale (.rules kind) (rulesRequest locale kind) :=
  ⟨.rules, rfl⟩

end Need

/-! ### Requests of elements -/

section Related

variable {α β : Type} {R : α → β → Prop} {x : Option α} {y : Option β}

theorem exists_right_of_rel (h : Option.Rel R x y) {a : α} (hx : x = some a) :
    ∃ b, y = some b ∧ R a b := by
  cases h with
  | some hr => exact ⟨_, rfl, Option.some.inj hx ▸ hr⟩
  | none => cases hx

theorem exists_left_of_rel (h : Option.Rel R x y) {b : β} (hy : y = some b) :
    ∃ a, x = some a ∧ R a b := by
  cases h with
  | some hr => exact ⟨_, rfl, Option.some.inj hy ▸ hr⟩
  | none => cases hy

end Related

/-- What an element asks for itself. -/
def request? (locale : String) (formats : Formats) : Node → Option Request
  | .format _ kind _ _ style => some (formatterRequest locale kind (styleOptions formats kind style))
  | .pound _ => some (formatterRequest locale .number [])
  | .plural _ _ _ _ kind cases => if hasCategory cases then some (rulesRequest locale kind) else none
  | .literal .. | .argument .. | .select .. | .tag .. | .unknown _ | .hole => none

/-- An element asks for what it needs. -/
theorem rel_request? {formats : Formats} (hformats : formats.Regular) (locale : String) {n : Node}
    (hread : n.Readable) :
    Option.Rel (Need.Asks locale) (need? formats n) (request? locale formats n) := by
  cases n with
  | format span kind name nameSpan style =>
    exact .some (Need.asks_formatter locale kind (regular_styleOptions hformats hread))
  | pound => exact .some (Need.asks_formatter locale .number .nil)
  | plural span name nameSpan offset kind cases =>
    rw [need?, request?]
    split
    · exact .some (Need.asks_rules locale kind)
    · exact .none
  | literal | argument | select | tag | unknown | hole => exact .none

section Requests

variable {locale : String} {formats : Formats} {r : Request}

theorem mem_choiceRequests_iff {cases : List (Branch Node)}
    (hdistinct : (cases.map (·.key)).Nodup) :
    r ∈ choiceRequests (branchRequests locale formats cases) ↔
      ∃ b ∈ cases, ∃ n ∈ b.body, r ∈ requests locale formats n := by
  have hlist (ns : List Node) : r ∈ (ns.map (requests locale formats)).flatten ↔
      ∃ n ∈ ns, r ∈ requests locale formats n := by
    rw [← List.flatMap_def, List.mem_flatMap]
  have hbranches : r ∈ choiceRequests (branchRequests locale formats cases) ↔
      (∃ b ∈ keptCases [] cases, ∃ n ∈ b.body, r ∈ requests locale formats n) ∨
        ∃ n ∈ fallbackBody cases, r ∈ requests locale formats n := by
    rw [choiceRequests, branchRequests_eq_map, keptCases_map, fallbackBody_map, List.mem_append,
      List.flatMap_map, List.mem_flatMap, hlist]
    simp only [Branch.mapBody, hlist]
  rw [hbranches]
  constructor
  · rintro (⟨b, hb, n, hn, hr⟩ | ⟨n, hn, hr⟩)
    · exact ⟨b, mem_of_mem_keptCases hb, n, hn, hr⟩
    · obtain ⟨b, hb, hn⟩ := exists_of_mem_fallbackBody hn
      exact ⟨b, hb, n, hn, hr⟩
  · rintro ⟨b, hb, n, hn, hr⟩
    rcases (mem_body_iff hdistinct).mp ⟨b, hb, hn⟩ with ⟨b', hb', hn'⟩ | hn'
    · exact .inl ⟨b', hb', n, hn', hr⟩
    · exact .inr ⟨n, hn', hr⟩

/-- In a clear tree every element is asked for. -/
theorem mem_requests_iff : ∀ n : Node, n.All Node.Clear →
    (r ∈ requests locale formats n ↔ ∃ m, Node.Within m n ∧ request? locale formats m = some r) := by
  apply Node.Hereditary.holds
  constructor
  case select =>
    intro span name nameSpan cases ih hclear
    rw [Node.exists_within_select, requests, mem_choiceRequests_iff hclear.self, request?]
    simp only [reduceCtorEq, false_or]
    exact exists_congr fun b => and_congr_right fun hb => exists_congr fun n =>
      and_congr_right fun hn => ih b hb n hn (hclear.of_select b hb n hn)
  case plural =>
    intro span name nameSpan offset kind cases ih hclear
    rw [Node.exists_within_plural, requests, List.mem_append, mem_choiceRequests_iff hclear.self,
      request?]
    refine or_congr ?_ (exists_congr fun b => and_congr_right fun hb => exists_congr fun n =>
      and_congr_right fun hn => ih b hb n hn (hclear.of_plural b hb n hn))
    split
    · rw [List.mem_singleton, Option.some.injEq, eq_comm]
    · simp only [List.not_mem_nil, reduceCtorEq]
  case tag =>
    intro span name nameSpan selfClosing children ih hclear
    rw [Node.exists_within_tag, requests, listRequests_eq_map, request?]
    simp only [reduceCtorEq, false_or]
    split
    · rename_i hclosed
      -- nothing is hidden in a tag that closes itself
      obtain rfl : children = [] := hclear.self hclosed
      simp only [List.not_mem_nil, false_and, exists_false]
    · rw [← List.flatMap_def, List.mem_flatMap]
      exact exists_congr fun n => and_congr_right fun hn => ih n hn (hclear.of_tag n hn)
  case format | pound =>
    intros
    rw [Node.exists_within_leaf fun m hm => by cases hm; rfl, requests, request?,
      List.mem_singleton, Option.some.injEq, eq_comm]
  case literal | argument | unknown | hole =>
    intros
    rw [Node.exists_within_leaf fun m hm => by cases hm; rfl, requests, request?]
    simp only [List.not_mem_nil, reduceCtorEq]

end Requests

namespace Module

variable {m : Module} {es : List Entry} {e : Entry}

/-- What a text needs is what it asks for. -/
theorem Compiled.asks (he : m.Compiled e) (hformats : m.formats.Regular) :
    (∀ need ∈ messageNeeds m.formats e.text,
      ∃ r ∈ messageRequests m.options.effectiveLocale m.formats e.text,
        need.Asks m.options.effectiveLocale r) ∧
    ∀ r ∈ messageRequests m.options.effectiveLocale m.formats e.text,
      ∃ need ∈ messageNeeds m.formats e.text, need.Asks m.options.effectiveLocale r := by
  have hread := Message.parse_readable he.parse_eq
  have hclear := Message.clear_of_parse he.parse_eq
  have hmem (r : Request) : r ∈ messageRequests m.options.effectiveLocale m.formats e.text ↔
      ∃ n ∈ messageNodes e.text, ∃ k, Node.Within k n ∧
        request? m.options.effectiveLocale m.formats k = some r := by
    rw [messageRequests, ← List.flatMap_def, List.mem_flatMap]
    exact exists_congr fun n => and_congr_right fun hn => mem_requests_iff n (hclear n hn)
  constructor
  · rintro need ⟨n, hn, k, hk, hneed⟩
    obtain ⟨r, hrequest, hasks⟩ := exists_right_of_rel
      (rel_request? hformats m.options.effectiveLocale (hread n hn k hk)) hneed
    exact ⟨r, (hmem r).mpr ⟨n, hn, k, hk, hrequest⟩, hasks⟩
  · intro r hr
    obtain ⟨n, hn, k, hk, hrequest⟩ := (hmem r).mp hr
    obtain ⟨need, hneed, hasks⟩ := exists_left_of_rel
      (rel_request? hformats m.options.effectiveLocale (hread n hn k hk)) hrequest
    exact ⟨need, ⟨n, hn, k, hk, hneed⟩, hasks⟩

/-- Every slot of a module is for a need of an accepted text. -/
theorem Keeps.exists_need (h : m.Keeps es) (hformats : m.formats.Regular) {slot : Slot}
    (hslot : slot ∈ m.slots) : ∃ need : Need, need.Asks m.options.effectiveLocale slot.2 ∧
      ∃ e ∈ es, need ∈ messageNeeds m.formats e.text := by
  have hgranted : slot.2 ∈ m.idle.granted := by
    rw [← map_snd_slots]
    exact List.mem_map_of_mem hslot
  rw [h.granted_eq] at hgranted
  have hasked := (mem_share hgranted).resolve_left List.not_mem_nil
  obtain ⟨c, hc, hr⟩ := List.mem_flatMap.mp hasked
  obtain ⟨e, he, rfl⟩ := List.mem_map.mp hc
  obtain ⟨need, hneed, hasks⟩ := ((h.compiled e he).asks hformats).2 _ hr
  exact ⟨need, hasks, e, he, hneed⟩

/-- Every need of an accepted text has its slot. -/
theorem Keeps.exists_slot_of_need (h : m.Keeps es) (hformats : m.formats.Regular) (he : e ∈ es)
    {need : Need} (hneed : need ∈ messageNeeds m.formats e.text) :
    ∃ slot ∈ m.slots, need.HasKey slot.2.1 := by
  obtain ⟨r, hr, hasks⟩ := ((h.compiled e he).asks hformats).1 need hneed
  have hasked : r ∈ (es.map Entry.call).flatMap fun c =>
      messageRequests m.options.effectiveLocale m.formats c.text :=
    List.mem_flatMap.mpr ⟨e.call, List.mem_map_of_mem he, hr⟩
  obtain ⟨r', hgranted, hkey⟩ := @exists_mem_share [] _ _ (.inr hasked)
  rw [← h.granted_eq, ← map_snd_slots] at hgranted
  obtain ⟨slot, hslot, rfl⟩ := List.mem_map.mp hgranted
  refine ⟨slot, hslot, ?_⟩
  rw [hkey]
  exact hasks.key

/-- No two slots have one key. -/
theorem Keeps.pairwise_slots (h : m.Keeps es) :
    m.slots.Pairwise fun slot slot' => slot.2.1 ≠ slot'.2.1 := by
  have hkeys : (m.slots.map fun slot => slot.2.1).Nodup := by
    have hsame : m.slots.map (fun slot => slot.2.1) = m.idle.granted.map (·.1) := by
      rw [← map_snd_slots, List.map_map]
      rfl
    rw [hsame, map_fst_granted (h.sound m.root)]
    exact (h.sound m.root).keys_distinct
  exact List.pairwise_map.mp hkeys

/-- The constants of a module with what they are for: each need of an accepted text once, and its
key refers to its constant. -/
theorem Keeps.exists_supplies (h : m.Keeps es) (hformats : m.formats.Regular) :
    ∃ supplies : List Supply,
      supplies.map (fun p => (p.name, p.init)) = m.constants ∧
      (supplies.map (·.need)).Nodup ∧
      (∀ need, need ∈ supplies.map (·.need) ↔ ∃ e ∈ es, need ∈ messageNeeds m.formats e.text) ∧
      (∀ p ∈ supplies, p.need.MadeBy m.options.effectiveLocale p.init) ∧
      ∀ need key name, need.HasKey key → (key, name) ∈ m.shared →
        (need, name) ∈ supplies.map fun p => (p.need, p.name) := by
  have hneeds : ∀ slot ∈ m.slots, ∃ need : Need, need.Asks m.options.effectiveLocale slot.2 ∧
      ∃ e ∈ es, need ∈ messageNeeds m.formats e.text :=
    fun _ hslot => h.exists_need hformats hslot
  -- the key of a slot tells its need, so it does not matter which entry asked for it
  choose! needOf hneedOf using hneeds
  have hmap {β : Type} (f : Supply → β) :
      (m.slots.map fun slot => (⟨needOf slot, slot.1, slot.2.2⟩ : Supply)).map f =
        m.slots.map fun slot => f ⟨needOf slot, slot.1, slot.2.2⟩ := List.map_map
  refine ⟨m.slots.map fun slot => ⟨needOf slot, slot.1, slot.2.2⟩, ?_, ?_, ?_, ?_, ?_⟩
  · rw [hmap, h.map_slots _ (g := id) fun _ _ _ => rfl, List.map_id]
  · rw [hmap]
    refine List.pairwise_map.mpr (h.pairwise_slots.imp_of_mem ?_)
    intro slot slot' hslot hslot' hne hsame
    exact hne (((hneedOf slot hslot).1.key.eq_iff (hneedOf slot' hslot').1.key).mp hsame)
  · intro need
    rw [hmap]
    constructor
    · intro hmem
      obtain ⟨slot, hslot, rfl⟩ := List.mem_map.mp hmem
      exact (hneedOf slot hslot).2
    · rintro ⟨e, he, hneed⟩
      obtain ⟨slot, hslot, hkey⟩ := h.exists_slot_of_need hformats he hneed
      exact List.mem_map.mpr ⟨slot, hslot, ((hneedOf slot hslot).1.key.eq_iff hkey).mpr rfl⟩
  · intro p hp
    obtain ⟨slot, hslot, rfl⟩ := List.mem_map.mp hp
    exact (hneedOf slot hslot).1.made
  · intro need key name hkey hmem
    obtain ⟨slot, hslot, rfl, rfl⟩ := h.exists_slot hmem
    rw [hmap]
    refine List.mem_map.mpr ⟨slot, hslot, ?_⟩
    rw [((hneedOf slot hslot).1.key.eq_iff hkey).mpr rfl]

end Module

end Compile

end Phrasebook
