import Mathlib.Order.Bounds.Basic
import Phrasebook.Proofs.ClearTrees
import Phrasebook.Proofs.Isolation

/-!
Inferred arguments. The types of arguments are ordered by which demands they meet: what is only
interpolated may be any scalar. A message has an argument for each name that occurs in its tree, of
the join of the types that the occurrences demand. The order of the occurrences does not matter: the
arguments found so far are told by the set of demands seen so far.
-/
namespace Phrasebook

/-! ### The order of types -/

namespace ArgType

instance : Fintype ArgType := ⟨⟨all, by decide⟩, fun t => by cases t <;> decide⟩

/-- The types of values that serve where a type is demanded. A plain interpolation takes every
scalar, and one into a string also what can stand in markup; all else takes its own type only. -/
def serving : ArgType → List ArgType
  | .text => [.text, .markupNode, .string, .number, .date]
  | .markupNode => [.markupNode, .string, .number, .date]
  | .string => [.string]
  | .number => [.number]
  | .date => [.date]
  | .markupElement => [.markupElement]
  | .tagFunction => [.tagFunction]

/-- A type is below the types that serve in its place. -/
instance : LE ArgType := ⟨fun a b => b ∈ a.serving⟩

instance : DecidableLE ArgType := fun a b => inferInstanceAs (Decidable (b ∈ a.serving))

instance : PartialOrder ArgType where
  le_refl := by decide
  le_trans := by decide +kernel
  le_antisymm := by decide +kernel

/-- The join of two types is their least upper bound. -/
theorem join?_eq_some_iff {a b c : ArgType} : a.join? b = some c ↔ IsLUB {a, b} c := by
  have hleast : ∀ a b c : ArgType, a.join? b = some c ↔
      (a ≤ c ∧ b ≤ c) ∧ ∀ d : ArgType, a ≤ d ∧ b ≤ d → c ≤ d := by
    decide +kernel
  rw [hleast]
  simp only [IsLUB, IsLeast, mem_upperBounds, mem_lowerBounds, Set.mem_insert_iff,
    Set.mem_singleton_iff, forall_eq_or_imp, forall_eq]

/-- Types without a join have no upper bound at all. -/
theorem join?_eq_none_iff {a b : ArgType} : a.join? b = none ↔ ¬∃ c, a ≤ c ∧ b ≤ c := by
  revert a b
  decide +kernel

/-- The join of two types is one of them. -/
theorem eq_or_eq_of_join? {a b c : ArgType} (h : a.join? b = some c) : c = a ∨ c = b := by
  revert a b c
  decide +kernel

/-- One more type joins the greatest of some. -/
theorem isGreatest_join {types : Set ArgType} {a b c : ArgType} (ha : IsGreatest types a)
    (h : a.join? b = some c) : IsGreatest (insert b types) c := by
  have hlub := join?_eq_some_iff.mp h
  have hac : a ≤ c := hlub.1 (Set.mem_insert a _)
  have hbc : b ≤ c := hlub.1 (Set.mem_insert_of_mem a rfl)
  constructor
  · rcases eq_or_eq_of_join? h with rfl | rfl
    · exact Set.mem_insert_of_mem b ha.1
    · exact Set.mem_insert c types
  · rintro t (rfl | ht)
    · exact hbc
    · exact (ha.2 ht).trans hac

example : IsLUB {ArgType.text, ArgType.number} ArgType.number :=
  join?_eq_some_iff.mp rfl

end ArgType

namespace Compile

/-! ### Demands -/

/-- The name that an element names an argument by, and the type it demands of it. -/
def demand? (target : Target) : Node → Option (String × ArgType)
  | .argument _ name _ => some (name, target.interpolation)
  | .select _ name _ _ => some (name, .string)
  | .plural _ name _ _ _ _ => some (name, .number)
  | .format _ kind name _ _ => some (name, if kind = .number then .number else .date)
  | .tag _ name _ _ _ => some (name, target.tagType)
  | .literal .. | .pound _ | .unknown _ | .hole => none

/-- What the elements of a tree, at any depth, demand. -/
def demands (target : Target) (ns : List Node) : Set (String × ArgType) :=
  {p | ∃ n ∈ ns, ∃ m, Node.Within m n ∧ demand? target m = some p}

/-- Two occurrences of a name demand types that no type serves both of. -/
def Conflict (seen : Set (String × ArgType)) : Prop :=
  ∃ name type type', (name, type) ∈ seen ∧ (name, type') ∈ seen ∧ ¬∃ t, type ≤ t ∧ type' ≤ t

section Demands

variable {target : Target}

/-- What elements right below an element demand. -/
theorem mem_demands {ns : List Node} {p : String × ArgType} :
    p ∈ demands target ns ↔ ∃ n ∈ ns, p ∈ demands target [n] := by
  simp only [demands, Set.mem_ofPred_eq, List.mem_singleton, exists_eq_left]

theorem demands_leaf {n : Node} (hleaf : ∀ m, Node.Within m n → m = n) :
    demands target [n] = {p | demand? target n = some p} := by
  ext p
  simp only [demands, Set.mem_ofPred_eq, List.mem_singleton, exists_eq_left,
    Node.exists_within_leaf hleaf]

/-- What the bodies of a choice demand. -/
def caseDemands (target : Target) (cases : List (Branch Node)) : Set (String × ArgType) :=
  {p | ∃ b ∈ cases, p ∈ demands target b.body}

theorem demands_select (span nameSpan : Span) (name : String) (cases : List (Branch Node)) :
    demands target [.select span name nameSpan cases] =
      {(name, .string)} ∪ caseDemands target cases := by
  ext p
  simp only [demands, caseDemands, Set.mem_ofPred_eq, Set.mem_union, Set.mem_singleton_iff,
    List.mem_singleton, exists_eq_left, Node.exists_within_select, demand?, Option.some.injEq,
    eq_comm]

theorem demands_plural (span nameSpan : Span) (name : String) (offset : Float) (kind : PluralKind)
    (cases : List (Branch Node)) :
    demands target [.plural span name nameSpan offset kind cases] =
      {(name, .number)} ∪ caseDemands target cases := by
  ext p
  simp only [demands, caseDemands, Set.mem_ofPred_eq, Set.mem_union, Set.mem_singleton_iff,
    List.mem_singleton, exists_eq_left, Node.exists_within_plural, demand?, Option.some.injEq,
    eq_comm]

theorem demands_tag (span nameSpan : Span) (name : String) (selfClosing : Bool)
    (children : List Node) :
    demands target [.tag span name nameSpan selfClosing children] =
      {(name, target.tagType)} ∪ demands target children := by
  ext p
  simp only [demands, Set.mem_ofPred_eq, Set.mem_union, Set.mem_singleton_iff,
    List.mem_singleton, exists_eq_left, Node.exists_within_tag, demand?, Option.some.injEq, eq_comm]

end Demands

/-! ### Arguments found so far -/

/-- The uses are those of the demands seen: each name once, with the greatest of its types. -/
structure Collected (seen : Set (String × ArgType)) (uses : List Use) : Prop where
  nodup : (uses.map (·.name)).Nodup
  mem_names : ∀ p ∈ seen, p.1 ∈ uses.map (·.name)
  greatest : ∀ u ∈ uses, IsGreatest {type | (u.name, type) ∈ seen} u.type

theorem collected_nil : Collected ∅ [] :=
  ⟨List.nodup_nil, fun _ hp => absurd hp (Set.notMem_empty _),
    fun _ hu => absurd hu List.not_mem_nil⟩

/-- Demands with a greatest type for each name are not in conflict. -/
theorem Collected.not_conflict {seen : Set (String × ArgType)} {uses : List Use}
    (h : Collected seen uses) : ¬Conflict seen := by
  rintro ⟨name, type, type', hseen, hseen', hnone⟩
  obtain ⟨u, hu, rfl⟩ := List.mem_map.mp (h.mem_names _ hseen)
  have hgreatest := h.greatest u hu
  exact hnone ⟨u.type, hgreatest.2 hseen, hgreatest.2 hseen'⟩

/-- One more demand of a name that is in use joins its types. -/
theorem Collected.join {seen : Set (String × ArgType)} {uses : List Use} (h : Collected seen uses)
    {first : Use} (hfirst : first ∈ uses) {type joined : ArgType}
    (hjoin : first.type.join? type = some joined) :
    Collected (seen ∪ {(first.name, type)})
      (uses.map fun u => if u.name == first.name then { u with type := joined } else u) := by
  have hnames : (uses.map fun u => if u.name == first.name then { u with type := joined } else u).map
      (·.name) = uses.map (·.name) := by
    rw [List.map_map]
    refine List.map_congr_left fun u _ => ?_
    simp only [Function.comp_apply]
    split <;> rfl
  constructor
  case nodup =>
    rw [hnames]
    exact h.nodup
  case mem_names =>
    rw [hnames]
    rintro p (hp | rfl)
    · exact h.mem_names p hp
    · exact List.mem_map_of_mem hfirst
  case greatest =>
    intro v hv
    obtain ⟨u, hu, rfl⟩ := List.mem_map.mp hv
    by_cases hname : u.name = first.name
    · -- a name is in use once, so this is the use that the demand joins
      obtain rfl : u = first := List.inj_on_of_nodup_map h.nodup hu hfirst hname
      have hset : {t | (u.name, t) ∈ seen ∪ {(u.name, type)}} =
          insert type {t | (u.name, t) ∈ seen} := by
        ext t
        simp only [Set.mem_ofPred_eq, Set.mem_union, Set.mem_singleton_iff, Prod.mk.injEq, true_and,
          Set.mem_insert_iff]
        exact or_comm
      simp only [beq_self_eq_true, if_true]
      rw [hset]
      exact ArgType.isGreatest_join (h.greatest u hu) hjoin
    · have hset : {t | (u.name, t) ∈ seen ∪ {(first.name, type)}} = {t | (u.name, t) ∈ seen} := by
        ext t
        simp only [Set.mem_ofPred_eq, Set.mem_union, Set.mem_singleton_iff, Prod.mk.injEq, hname,
          false_and, or_false]
      rw [if_neg (by simpa using hname), hset]
      exact h.greatest u hu

/-- The first demand of a name puts it in use. -/
theorem Collected.first {seen : Set (String × ArgType)} {uses : List Use}
    (h : Collected seen uses) {name : String} (hnew : name ∉ uses.map (·.name)) (type : ArgType)
    (span : Span) : Collected (seen ∪ {(name, type)}) (uses ++ [⟨name, type, span⟩]) := by
  constructor
  case nodup =>
    rw [List.map_append, List.map_singleton]
    refine List.nodup_append.mpr ⟨h.nodup, List.nodup_singleton _, ?_⟩
    rintro x hx y hy rfl
    obtain rfl : x = name := List.mem_singleton.mp hy
    exact hnew hx
  case mem_names =>
    rw [List.map_append, List.map_singleton]
    rintro p (hp | rfl)
    · exact List.mem_append_left _ (h.mem_names p hp)
    · exact List.mem_append_right _ (List.mem_singleton.mpr rfl)
  case greatest =>
    intro u hu
    rcases List.mem_append.mp hu with hu | hu
    -- what was demanded of other names stays as it was
    · have hname : u.name ≠ name := fun hsame => hnew (hsame ▸ List.mem_map_of_mem hu)
      have hset : {t | (u.name, t) ∈ seen ∪ {(name, type)}} = {t | (u.name, t) ∈ seen} := by
        ext t
        simp only [Set.mem_ofPred_eq, Set.mem_union, Set.mem_singleton_iff, Prod.mk.injEq, hname,
          false_and, or_false]
      rw [hset]
      exact h.greatest u hu
    · rw [List.mem_singleton.mp hu]
      constructor
      · exact Or.inr rfl
      · rintro t (ht | ht)
        · exact absurd (h.mem_names _ ht) hnew
        · exact le_of_eq (Prod.mk.inj ht).2

/-! ### Checks -/

/-- A check that finds the arguments of some demands: it adds them to those found before, and a
conflict it reports is one of all these demands. -/
def Collects (c : Check) (added : Set (String × ArgType)) : Prop :=
  ∀ seen uses, Collected seen uses →
    (∀ uses', c uses = .ok uses' → Collected (seen ∪ added) uses') ∧
    ∀ d, c uses = .error (.diagnostic d) → d.code = .argumentTypeConflict → Conflict (seen ∪ added)

theorem Conflict.mono {seen seen' : Set (String × ArgType)} (h : Conflict seen)
    (hsub : seen ⊆ seen') : Conflict seen' := by
  obtain ⟨name, type, type', hseen, hseen', hnone⟩ := h
  exact ⟨name, type, type', hsub hseen, hsub hseen', hnone⟩

/-- What is required besides fails in other ways. -/
def Harmless {α : Type} (test : Except Failure α) : Prop :=
  ∀ d, test = .error (.diagnostic d) → d.code ≠ .argumentTypeConflict

namespace Collects

variable {c next : Check} {added added' : Set (String × ArgType)}

theorem accept : Collects (fun uses => .ok uses) ∅ := by
  intro seen uses h
  refine ⟨fun uses' hok => ?_, fun d herror => by cases herror⟩
  rw [← Except.ok.inj hok, Set.union_empty]
  exact h

/-- A check that fails in another way. -/
theorem fail {f : Failure} (hf : Harmless (.error f : Except Failure (List Use))) :
    Collects (fun _ => .error f) added := by
  intro seen uses _
  constructor
  · intro uses' hok
    cases hok
  · intro d herror hcode
    exact absurd hcode (hf d herror)

theorem use (name : String) (type : ArgType) (span : Span) :
    Collects (use name type span) {(name, type)} := by
  intro seen uses h
  rw [Compile.use]
  split
  · rename_i first hfirst
    have hmem := List.mem_of_find?_eq_some hfirst
    obtain rfl : first.name = name := by simpa using List.find?_some hfirst
    split
    · rename_i hnone
      refine ⟨fun uses' hok => (by cases hok), fun d _ _ => ?_⟩
      exact ⟨first.name, first.type, type, .inl (h.greatest first hmem).1, .inr rfl,
        ArgType.join?_eq_none_iff.mp hnone⟩
    · rename_i joined hjoin
      refine ⟨fun uses' hok => ?_, fun d herror => by cases herror⟩
      rw [← Except.ok.inj hok]
      exact h.join hmem hjoin
  · rename_i hnone
    have hnew : name ∉ uses.map (·.name) := by
      intro hmem
      obtain ⟨u, hu, rfl⟩ := List.mem_map.mp hmem
      exact List.find?_eq_none.mp hnone u hu (beq_self_eq_true _)
    refine ⟨fun uses' hok => ?_, fun d herror => by cases herror⟩
    rw [← Except.ok.inj hok]
    exact h.first hnew type span

theorem bind (hc : Collects c added) (hnext : Collects next added') :
    Collects (fun uses => c uses >>= next) (added ∪ added') := by
  intro seen uses h
  obtain ⟨hok, herror⟩ := hc seen uses h
  rw [← Set.union_assoc]
  cases hfirst : c uses with
  | ok uses₁ =>
    have hrest : (c uses >>= next) = next uses₁ := by
      rw [hfirst]
      rfl
    simp only [hrest]
    exact hnext _ _ (hok uses₁ hfirst)
  | error f =>
    have hstop : (c uses >>= next) = .error f := by
      rw [hfirst]
      rfl
    simp only [hstop]
    refine ⟨(fun uses' h' => nomatch h'), fun d hd hcode => ?_⟩
    obtain rfl : f = .diagnostic d := Except.error.inj hd
    exact (herror d hfirst hcode).mono Set.subset_union_left

theorem require {α : Type} {test : Except Failure α} (htest : Harmless test)
    (hc : Collects c added) : Collects (fun uses => test >>= fun _ => c uses) added := by
  intro seen uses h
  cases test with
  | ok a => exact hc seen uses h
  | error f =>
    have hfails : Harmless (.error f : Except Failure (List Use)) := by
      intro d hd
      obtain rfl : f = .diagnostic d := Except.error.inj hd
      exact htest d rfl
    exact fail hfails seen uses h

/-- Checks of elements, one after the other. -/
theorem all {α : Type} {f : α → Check} {g : α → Set (String × ArgType)} {xs : List α}
    (h : ∀ x ∈ xs, Collects (f x) (g x)) :
    Collects (Check.all (xs.map f)) {p | ∃ x ∈ xs, p ∈ g x} := by
  induction xs with
  | nil =>
    have hempty : {p : String × ArgType | ∃ x ∈ ([] : List α), p ∈ g x} = ∅ := by
      ext p
      simp
    rw [hempty]
    exact accept
  | cons x r ih =>
    have hsplit : {p | ∃ y ∈ x :: r, p ∈ g y} = g x ∪ {p | ∃ y ∈ r, p ∈ g y} := by
      ext p
      simp only [List.mem_cons, exists_eq_or_imp, Set.mem_ofPred_eq, Set.mem_union]
    rw [hsplit]
    exact (h x List.mem_cons_self).bind (ih fun y hy => h y (List.mem_cons_of_mem _ hy))

theorem nodes {target : Target} {f : Node → Check} {ns : List Node}
    (h : ∀ n ∈ ns, Collects (f n) (demands target [n])) :
    Collects (Check.all (ns.map f)) (demands target ns) := by
  have hset : demands target ns = {p | ∃ n ∈ ns, p ∈ demands target [n]} := by
    ext p
    exact mem_demands
  rw [hset]
  exact all h

/-- The branches of a choice, of which the default is checked last. -/
theorem choice {target : Target} {selector : Selector} {f : Node → Check}
    {cases : List (Branch Node)} (hdistinct : (cases.map (·.key)).Nodup)
    (hselector : ∀ key span, Harmless (selector key span))
    (h : ∀ b ∈ cases, ∀ n ∈ b.body, Collects (f n) (demands target [n])) :
    Collects (choiceCheck selector (cases.map (·.mapBody f))) (caseDemands target cases) := by
  have hset : caseDemands target cases =
      {p | ∃ b ∈ keptCases [] cases, p ∈ demands target b.body} ∪
        demands target (fallbackBody cases) := by
    ext p
    simp only [caseDemands, Set.mem_ofPred_eq, Set.mem_union]
    rw [@mem_demands target (fallbackBody cases) p]
    constructor
    · rintro ⟨b, hb, hp⟩
      obtain ⟨n, hn, hp⟩ := mem_demands.mp hp
      rcases (mem_body_iff hdistinct).mp ⟨b, hb, hn⟩ with ⟨b', hb', hn'⟩ | hn'
      · exact .inl ⟨b', hb', mem_demands.mpr ⟨n, hn', hp⟩⟩
      · exact .inr ⟨n, hn', hp⟩
    · rintro (⟨b, hb, hp⟩ | ⟨n, hn, hp⟩)
      · exact ⟨b, mem_of_mem_keptCases hb, hp⟩
      · obtain ⟨b, hb, hn⟩ := exists_of_mem_fallbackBody hn
        exact ⟨b, hb, mem_demands.mpr ⟨n, hn, hp⟩⟩
  rw [hset]
  unfold choiceCheck
  rw [keptCases_map, fallbackBody_map, List.map_map]
  -- the other cases come first, wherever the default case stands
  refine bind (all fun b hb => ?_) (nodes fun n hn => ?_)
  · exact require (hselector b.key b.keySpan) (nodes (h b (mem_of_mem_keptCases hb)))
  · obtain ⟨b, hb, hn⟩ := exists_of_mem_fallbackBody hn
    exact h b hb n hn

end Collects

/-! ### Elements -/

theorem harmless_stop {α : Type} {d : Diagnostic} (h : d.code ≠ .argumentTypeConflict) :
    Harmless (stop d : Except Failure α) := by
  intro d' hd'
  obtain rfl := Failure.diagnostic.inj (Except.error.inj hd')
  exact h

theorem harmless_requireDefault {α : Type} (span : Span) (kind : String)
    (cases : List (Branch α)) : Harmless (requireDefault span kind cases) := by
  unfold requireDefault
  split
  · exact fun d h => nomatch h
  · apply harmless_stop
    unfold missingDefault
    dsimp only
    split <;> exact nofun

theorem harmless_pluralSelector (key : String) (span : Span) :
    Harmless (pluralSelector key span) := by
  unfold pluralSelector
  split
  · split
    · exact fun d h => nomatch h
    · exact harmless_stop nofun
  · exact fun d h => nomatch h

theorem harmless_resolveStyle (formats : Formats) (span : Span) (kind : FormatKind)
    (style : Style) : Harmless (resolveStyle formats span kind style) := by
  intro d h
  unfold resolveStyle at h
  split at h
  · exact nomatch h
  · split at h
    · refine harmless_stop ?_ d h
      exact nofun
    · split at h <;> exact nomatch h
  · split at h <;> exact nomatch h

theorem harmless_requireIdentifier (name : String) (place : Span) :
    Harmless (requireIdentifier name place) := by
  unfold requireIdentifier
  split
  · exact fun d h => nomatch h
  · exact harmless_stop nofun

/-- The check of an element collects what the element and all in it demand. -/
theorem check_collects (target : Target) (formats : Formats) :
    ∀ n : Node, n.All Node.Clear → ∀ inPlural,
      Collects (check target formats inPlural n) (demands target [n]) := by
  have hleaf {n : Node} {name : String} {type : ArgType}
      (honly : ∀ m, Node.Within m n → m = n) (hdemand : demand? target n = some (name, type)) :
      demands target [n] = {(name, type)} := by
    rw [demands_leaf honly, hdemand]
    ext p
    simp only [Set.mem_ofPred_eq, Option.some.injEq, Set.mem_singleton_iff, eq_comm]
  have hsilent {n : Node} (honly : ∀ m, Node.Within m n → m = n)
      (hdemand : demand? target n = none) : demands target [n] = ∅ := by
    rw [demands_leaf honly, hdemand]
    ext p
    simp
  apply Node.Hereditary.holds
  constructor
  case literal =>
    intro span text _ inPlural
    rw [check, hsilent (fun m hm => by cases hm; rfl) rfl]
    exact .accept
  case argument =>
    intro span name nameSpan _ inPlural
    rw [check, hleaf (fun m hm => by cases hm; rfl) rfl]
    exact .use name _ nameSpan
  case select =>
    intro span name nameSpan cases ih hclear inPlural
    rw [check, branchChecks_eq_map, demands_select]
    refine (Collects.use name _ nameSpan).bind (.require ?_ (.choice hclear.self ?_ ?_))
    · exact harmless_requireDefault _ _ _
    · exact fun key span d h => by cases h
    · exact fun b hb n hn => ih b hb n hn (hclear.of_select b hb n hn) inPlural
  case plural =>
    intro span name nameSpan offset kind cases ih hclear inPlural
    rw [check, branchChecks_eq_map, demands_plural]
    refine (Collects.use name _ nameSpan).bind (.require ?_ (.choice hclear.self ?_ ?_))
    · exact harmless_requireDefault _ _ _
    · exact harmless_pluralSelector
    · exact fun b hb n hn => ih b hb n hn (hclear.of_plural b hb n hn) true
  case format =>
    intro span kind name nameSpan style _ inPlural
    rw [check, hleaf (fun m hm => by cases hm; rfl) rfl, ← Set.union_empty {_}]
    refine (Collects.use name _ nameSpan).bind (.require ?_ .accept)
    exact harmless_resolveStyle formats span kind style
  case pound =>
    intro span _ inPlural
    rw [check, hsilent (fun m hm => by cases hm; rfl) rfl]
    cases inPlural with
    | true => exact .accept
    | false =>
      refine .fail (harmless_stop fun hsame => ?_)
      cases hsame
  case tag =>
    intro span name nameSpan selfClosing children ih hclear inPlural
    rw [check, checks_eq_map, demands_tag]
    refine .require (harmless_requireIdentifier name _) ((Collects.use name _ _).bind ?_)
    cases selfClosing with
    | true =>
      -- nothing is hidden in a tag that closes itself
      have hnone : children = [] := hclear.self rfl
      have hempty : demands target ([] : List Node) = ∅ := by
        ext p
        simp [demands]
      rw [hnone, hempty]
      exact .accept
    | false => exact .nodes fun n hn => ih n hn (hclear.of_tag n hn) inPlural
  case unknown =>
    intro span _ inPlural
    rw [check, hsilent (fun m hm => by cases hm; rfl) rfl]
    exact .fail fun d h => by cases h
  case hole =>
    intro _ inPlural
    rw [check, hsilent (fun m hm => by cases hm; rfl) rfl]
    exact .fail fun d h => by cases h

/-! ### Messages -/

/-- What the occurrences of arguments in a text demand. -/
def messageDemands (target : Target) (text : Bytes) : Set (String × ArgType) :=
  demands target (messageNodes text)

theorem message_collects (target : Target) (formats : Formats) (text : Bytes) :
    Collects (Check.all ((messageNodes text).map (check target formats false)))
      (messageDemands target text) := by
  have hclear : ∀ n ∈ messageNodes text, n.All Node.Clear := by
    rw [messageNodes]
    split
    · rename_i ns hns
      exact Message.clear_of_parse hns
    · exact fun n hn => absurd hn List.not_mem_nil
  exact .nodes fun n hn => check_collects target formats n (hclear n hn) false

/-- A text is refused for a conflict of types only if two of its demands are in conflict. -/
theorem conflict_of_verdict {target : Target} {formats : Formats} {known : Bool}
    {name text : Bytes} {file : UInt32} {d : Diagnostic}
    (h : verdict target formats known name text file = some d)
    (hcode : d.code = .argumentTypeConflict) : Conflict (messageDemands target text) := by
  rw [verdict_inFile target formats known name text file 0] at h
  obtain ⟨d₀, hd₀, rfl⟩ := Option.map_eq_some_iff.mp h
  have hcode₀ : d₀.code = .argumentTypeConflict := hcode
  unfold verdict at hd₀
  simp only at hd₀
  split at hd₀
  · cases hd₀
  · rename_i fault _
    -- no fault of the text has this code
    rw [← Option.some.inj hd₀] at hcode₀
    obtain ⟨cause, span⟩ := fault
    cases cause <;> cases hcode₀
  · rename_i ns hns
    have hnodes : messageNodes text = ns := by
      rw [messageNodes, hns]
    split at hd₀
    · rw [← Option.some.inj hd₀] at hcode₀
      cases hcode₀
    · split at hd₀
      · rename_i d₁ hcheck
        obtain rfl := Option.some.inj hd₀
        rw [← hnodes] at hcheck
        have hconflict := (message_collects target formats text ∅ [] collected_nil).2 _ hcheck hcode₀
        rw [Set.empty_union] at hconflict
        exact hconflict
      · cases hd₀

namespace Module

/-- The arguments of an entry are those that its text demands. -/
theorem Compiled.collected {m : Module} {e : Entry} (he : m.Compiled e) :
    ∃ uses, Collected (messageDemands m.options.target e.text) uses ∧
      uses.map (fun u => (u.name, u.type)) =
        e.state.arguments.map fun a => (a.name, a.type) := by
  obtain ⟨uses, hcheck, hpairs⟩ := he.exists_uses
  have hcollected :=
    (message_collects m.options.target m.formats e.text ∅ [] collected_nil).1 _ hcheck
  rw [Set.empty_union] at hcollected
  exact ⟨uses, hcollected, hpairs⟩

/-- The parameters of an accepted message are bound to names of their own. -/
theorem Compiled.bindings_nodup {m : Module} {e : Entry} (he : m.Compiled e) :
    (e.state.arguments.map (·.binding)).Nodup := by
  obtain ⟨scope, outer, -, hsound, -⟩ := he.sound
  have hlocals := (List.nodup_append.mp hsound.distinct).2.1
  rw [State.locals] at hlocals
  exact (List.nodup_append.mp hlocals).1

section OneMessage

variable {m : Module} {es : List Entry}

/-- What an accepted message adds: its arguments, and a function with the same parameters. -/
theorem Keeps.accepted_arguments (h : m.Keeps es) (hopen : m.finalized = false) {name text : Bytes}
    (hnone : (m.addMessage name text).2 = none) : ∃ args : List Argument,
      (m.addMessage name text).1.arguments = m.arguments ++ [(name, args)] ∧
      (∃ binding body, (m.addMessage name text).1.functions = m.functions ++
        [.function binding (args.map fun a => ⟨a.name, a.binding, a.type.declared⟩) body
          m.returnType]) ∧ (args.map (·.binding)).Nodup ∧
      ∃ uses, Collected (messageDemands m.options.target text) uses ∧
        uses.map (fun u => (u.name, u.type)) = args.map fun a => (a.name, a.type) := by
  have hadded := h.added hopen name text
  generalize m.addMessage name text = next at hadded hnone ⊢
  cases hadded with
  | refused | overflowed => cases hnone
  | @accepted m' e hname htext _ hkeeps' hadvances =>
    have he := hkeeps'.compiled e (List.mem_append_right _ (List.mem_singleton_self e))
    obtain ⟨uses, hcollected, hpairs⟩ := he.collected
    -- all functions of a module return the same type
    have hreturn : m'.function = m.function := by
      funext e
      rw [function, function, returnType, returnType, hadvances.options]
    refine ⟨e.state.arguments.map fun a => ⟨a.name, a.binding, a.type⟩, ?_, ⟨e.binding,
      e.state.body.map (fun c => Stmt.const c.1 c.2) ++ [.return e.value], ?_⟩, ?_, uses, ?_, ?_⟩
    · rw [hkeeps'.arguments, List.map_append, ← h.arguments, List.map_singleton, hname]
    · rw [hkeeps'.functions, hreturn, List.map_append, ← h.functions, List.map_singleton,
        function, List.map_map]
      rfl
    · rw [List.map_map]
      exact he.bindings_nodup
    · rw [htext, hadvances.options] at hcollected
      exact hcollected
    · rw [hpairs, List.map_map]
      rfl

/-- A message that is refused for a conflict of types has two demands in conflict. -/
theorem Keeps.conflict_of_refused (h : m.Keeps es) (hopen : m.finalized = false)
    {name text : Bytes} {e : CompileError} (he : (m.addMessage name text).2 = some (.compile e))
    (hcode : e.diagnostic.code = .argumentTypeConflict) :
    Conflict (messageDemands m.options.target text) := by
  have hadded := h.added hopen name text
  generalize m.addMessage name text = next at hadded he
  cases hadded with
  | accepted | overflowed => cases he
  | refused _ _ _ _ hverdict =>
    obtain rfl := ModuleError.compile.inj (Option.some.inj he)
    exact conflict_of_verdict hverdict hcode

end OneMessage

/-- A message that compiles has an argument for each name that occurs in its tree, once, with a
binding of its own, and of the least type that serves all its occurrences; the parameters of its
function are the same. A message fails with a conflict of types only if no type serves two
occurrences of a name, and one with two such occurrences never compiles. -/
theorem arguments_join (files : FileSet) (o : Options) (calls : List SourceMessage)
    (name text : Bytes) :
    let m := (Module.new files o).addAll calls
    let next := m.addMessage name text
    let demanded := messageDemands o.target text
    (next.2 = none → ∃ args : List Argument,
      next.1.arguments = m.arguments ++ [(name, args)] ∧
      (∃ binding body, next.1.functions = m.functions ++
        [.function binding (args.map fun a => ⟨a.name, a.binding, a.type.declared⟩) body
          m.returnType]) ∧
      (∀ x, x ∈ args.map (·.name) ↔ ∃ type, (x, type) ∈ demanded) ∧
      (args.map (·.name)).Nodup ∧ (args.map (·.binding)).Nodup ∧
      ∀ a ∈ args, IsLUB {type | (a.name, type) ∈ demanded} a.type) ∧
    (∀ e, next.2 = some (.compile e) → e.diagnostic.code = .argumentTypeConflict →
      Conflict demanded) ∧
    (Conflict demanded → next.2 ≠ none) := by
  intro m next demanded
  obtain ⟨es, hkeeps, -, hreaches⟩ := (keeps_new files o).addAll rfl calls
  have htarget : m.options.target = o.target := congrArg Options.target hreaches.options
  refine ⟨fun hnone => ?_, fun e he hcode => ?_, fun hconflict hnone => ?_⟩
  · obtain ⟨args, harguments, hfunctions, hbindings, uses, hcollected, hpairs⟩ :=
      hkeeps.accepted_arguments hreaches.finalized hnone
    rw [htarget] at hcollected
    have hnames : args.map (·.name) = uses.map (·.name) := by
      have hfst := congrArg (List.map Prod.fst) hpairs
      rw [List.map_map, List.map_map] at hfst
      exact hfst.symm
    refine ⟨args, harguments, hfunctions, fun x => ?_, ?_, hbindings, fun a ha => ?_⟩
    · rw [hnames]
      constructor
      · intro hx
        obtain ⟨u, hu, rfl⟩ := List.mem_map.mp hx
        exact ⟨u.type, (hcollected.greatest u hu).1⟩
      · rintro ⟨type, hx⟩
        exact hcollected.mem_names _ hx
    · rw [hnames]
      exact hcollected.nodup
    -- arguments and uses are the same pairs of names and types
    · have hmem : (a.name, a.type) ∈ uses.map fun u => (u.name, u.type) := by
        rw [hpairs]
        exact List.mem_map_of_mem ha
      obtain ⟨u, hu, hsame⟩ := List.mem_map.mp hmem
      obtain ⟨hname, htype⟩ := Prod.mk.inj hsame
      rw [← hname, ← htype]
      exact (hcollected.greatest u hu).isLUB
  · have hconflict := hkeeps.conflict_of_refused hreaches.finalized he hcode
    rw [htarget] at hconflict
    exact hconflict
  · obtain ⟨args, -, -, -, uses, hcollected, -⟩ :=
      hkeeps.accepted_arguments hreaches.finalized hnone
    rw [htarget] at hcollected
    exact hcollected.not_conflict hconflict

/-- Uses in several ways, in front of the default case and in it; two names are no identifiers. -/
def mixedUses : Bytes :=
  "\x7bn\x7d\x7bn, plural, other \x7b\x7bclass\x7d\x7d one \x7b\x7b1, date\x7d\x7d\x7d\x7b1\x7d".toUTF8.toList

/-- The default case, which comes last, uses a number in another way. -/
def clashingUses : Bytes :=
  "\x7ba, select, other \x7b\x7ba, number\x7d\x7d x \x7b\x7ba\x7d\x7d\x7d".toUTF8.toList

/-- The code that a message was refused with. -/
def refusal? : Option ModuleError → Option Code
  | some (.compile e) => some e.diagnostic.code
  | _ => none

theorem arguments_join_mixedUses :
    let m := (Module.new .empty plainOptions).addAll interrupted
    let name := "x".toUTF8.toList
    (∃ args : List Argument,
      (m.addMessage name mixedUses).1.arguments = m.arguments ++ [(name, args)] ∧
        (args.map (·.binding)).Nodup ∧ ∀ a ∈ args,
          IsLUB {type | (a.name, type) ∈ messageDemands .string mixedUses} a.type) ∧
      Conflict (messageDemands .string clashingUses) ∧
      (m.addMessage name clashingUses).2 ≠ none := by
  intro m name
  have hcompiles : (m.addMessage name mixedUses).2.isNone = true := by
    decide +kernel
  have hrefused : refusal? (m.addMessage name clashingUses).2 = some .argumentTypeConflict := by
    decide +kernel
  obtain ⟨haccepted, -, -⟩ := arguments_join .empty plainOptions interrupted name mixedUses
  obtain ⟨-, hconflict, hnever⟩ := arguments_join .empty plainOptions interrupted name clashingUses
  have hclash : Conflict (messageDemands .string clashingUses) := by
    cases hresult : (m.addMessage name clashingUses).2 with
    | none =>
      rw [hresult] at hrefused
      exact nomatch hrefused
    | some failure =>
      rw [hresult] at hrefused
      cases failure with
      | compile e => exact hconflict e hresult (Option.some.inj hrefused)
      | _ => exact nomatch hrefused
  obtain ⟨args, harguments, -, -, -, hbindings, hjoins⟩ :=
    haccepted (Option.isNone_iff_eq_none.mp hcompiles)
  exact ⟨⟨args, harguments, hbindings, hjoins⟩, hclash, hnever hclash⟩

end Module

end Compile

end Phrasebook
