import Phrasebook.Proofs.FreshNames
import Phrasebook.Scope.Validate

/-!
What scope tables keep. A table is seen through the names bound in each scope; binding a name adds
it to one scope and changes nothing else.
-/
namespace Phrasebook.ScopeTable

/-- The names bound in a scope; an unknown scope binds none. -/
def bound (t : ScopeTable) (id : ScopeId) : List String :=
  ((t.scope? id).map fun s => s.names.map (·.1)).getD []

theorem bound_of_scope? {t : ScopeTable} {id : ScopeId} {s : Scope} (h : t.scope? id = some s) :
    t.bound id = s.names.map (·.1) := by
  rw [bound, h]; rfl

theorem index?_eq_some_iff {id i : Nat} : index? id = some i ↔ id = i + 1 := by
  cases id with
  | zero => exact ⟨nofun, nofun⟩
  | succ n => exact ⟨fun h => congrArg (· + 1) (Option.some.inj h), fun h => by cases h; rfl⟩

theorem index?_injective {a b i : Nat} (ha : index? a = some i) (hb : index? b = some i) :
    a = b := by
  rw [index?_eq_some_iff.mp ha, index?_eq_some_iff.mp hb]

theorem scope?_eq_some {t : ScopeTable} {id : ScopeId} {s : Scope} (h : t.scope? id = some s) :
    ∃ i, index? id = some i ∧ t.scopes[i]? = some s :=
  Option.bind_eq_some_iff.mp h

/-- Changing one scope leaves the others as they are. -/
theorem scope?_modifyScope (t : ScopeTable) (id j : ScopeId) (f : Scope → Scope) :
    (t.modifyScope id f).scope? j = if j = id then (t.scope? j).map f else t.scope? j := by
  cases hi : index? id with
  | none =>
    have hm : t.modifyScope id f = t := by rw [modifyScope, hi]
    rw [hm]
    split
    · rename_i hj
      rw [scope?, hj, hi]; rfl
    · rfl
  | some i =>
    have hm : t.modifyScope id f = { t with scopes := t.scopes.modify i f } := by
      rw [modifyScope, hi]
    rw [hm]
    cases hj : index? j with
    | none =>
      have hne : j ≠ id := by
        rintro rfl
        rw [hi] at hj
        simp at hj
      simp only [scope?, hj, if_neg hne, Option.bind_none]
    | some k =>
      simp only [scope?, hj, Option.bind_some, List.getElem?_modify]
      by_cases hk : i = k
      · subst hk
        rw [if_pos (index?_injective hj hi)]
        simp
      · have hne : j ≠ id := by
          rintro rfl
          rw [hi] at hj
          exact hk (Option.some.inj hj)
        rw [if_neg hne]
        simp [hk]

/-! ### Binding a name -/

/-- The table after a name was bound. -/
def withName (t : ScopeTable) (id : ScopeId) (name : String) (kind : SymbolKind) (span : Span) :
    ScopeTable :=
  let symbol := t.symbols.length + 1
  let known : ScopeTable :=
    { t with symbols := t.symbols ++ [(⟨name, kind, id, span⟩ : Symbol)] }
  let grown := known.modifyScope id fun s =>
    { s with names := s.names ++ [(name, symbol)], symbols := s.symbols ++ [symbol] }
  { grown with taken := if t.taken.contains name then t.taken else t.taken ++ [name] }

theorem find?_isSome_iff {s : Scope} {name : String} :
    (s.find? name).isSome = true ↔ name ∈ s.names.map (·.1) := by
  refine ⟨mem_names_of_find?, fun h => ?_⟩
  obtain ⟨p, hp, hkey⟩ := List.mem_map.mp h
  rw [Scope.find?, Option.isSome_map, List.find?_isSome]
  exact ⟨p, hp, by simpa using hkey⟩

theorem taken_modifyScope (t : ScopeTable) (id : ScopeId) (f : Scope → Scope) :
    (t.modifyScope id f).taken = t.taken := by
  rw [modifyScope]
  split <;> rfl

theorem symbols_modifyScope (t : ScopeTable) (id : ScopeId) (f : Scope → Scope) :
    (t.modifyScope id f).symbols = t.symbols := by
  rw [modifyScope]
  split <;> rfl

theorem length_modifyScope (t : ScopeTable) (id : ScopeId) (f : Scope → Scope) :
    (t.modifyScope id f).scopes.length = t.scopes.length := by
  rw [modifyScope]
  split
  · exact List.length_modify ..
  · rfl

/-- A name that a scope does not have yet can be declared in it. -/
theorem declare_eq_withName {t : ScopeTable} {id : ScopeId} {name : String} (kind : SymbolKind)
    (span : Span) (hs : (t.scope? id).isSome = true) (hn : name ∉ t.bound id) :
    t.declare id name kind span =
      .ok (t.withName id name kind span, t.symbols.length + 1) := by
  obtain ⟨s, hs⟩ := Option.isSome_iff_exists.mp hs
  rw [bound_of_scope? hs] at hn
  have hf : (s.find? name).isSome = false := by
    rw [Bool.eq_false_iff]
    exact fun h => hn (find?_isSome_iff.mp h)
  have hmod : ∀ r : Scope, r = s → setName r.names name (t.symbols.length + 1) =
      r.names ++ [(name, t.symbols.length + 1)] := by
    rintro r rfl
    have hany : (r.names.any fun p => p.1 == name) = false := by
      rw [List.any_eq_false]
      intro p hp hkey
      exact hn (List.mem_map.mpr ⟨p, hp, by simpa using hkey⟩)
    rw [setName, hany]
    simp
  simp only [declare, hs, hf, Bool.false_eq_true, if_false, newSymbol, withName,
    taken_modifyScope]
  -- setting a name that is new puts it behind the others
  have hcongr : ({ t with symbols := t.symbols ++ [⟨name, kind, id, span⟩] } :
      ScopeTable).modifyScope id (fun s => { s with
        names := setName s.names name (t.symbols.length + 1)
        symbols := s.symbols ++ [t.symbols.length + 1] }) =
      ({ t with symbols := t.symbols ++ [⟨name, kind, id, span⟩] } :
      ScopeTable).modifyScope id (fun s => { s with
        names := s.names ++ [(name, t.symbols.length + 1)]
        symbols := s.symbols ++ [t.symbols.length + 1] }) := by
    obtain ⟨i, hi, hget⟩ := scope?_eq_some hs
    simp only [modifyScope, hi]
    congr 1
    apply List.ext_getElem?
    intro k
    simp only [List.getElem?_modify]
    by_cases hk : i = k
    · subst hk
      simp only [hget, if_true, Option.map_eq_map, Option.map_some, hmod s rfl]
    · simp only [hk, if_false]
  rw [hcongr]

/-- Declaring fails in an unknown scope, and for a name that the scope has. -/
theorem declare_eq_error_iff {t : ScopeTable} {id : ScopeId} {name : String} (kind : SymbolKind)
    (span : Span) : (∃ e, t.declare id name kind span = .error e) ↔
      ((t.scope? id).isSome = true → name ∈ t.bound id) := by
  constructor
  · rintro ⟨e, he⟩ hs
    by_contra hn
    rw [declare_eq_withName kind span hs hn] at he
    exact nomatch he
  · intro h
    cases hs : t.scope? id with
    | none => exact ⟨_, by rw [declare, hs]⟩
    | some s =>
      have hmem := h (by rw [hs]; rfl)
      rw [bound_of_scope? hs] at hmem
      exact ⟨_, by simp only [declare, hs, find?_isSome_iff.mpr hmem, if_true]; rfl⟩

/-- A name that a scope does not have yet can be bound in it. -/
theorem bind_eq_withName {t : ScopeTable} {id : ScopeId} {name : String} (kind : SymbolKind)
    (hs : (t.scope? id).isSome = true) (hn : name ∉ t.bound id) :
    t.bind id name kind = .ok (t.withName id name kind .zero) := by
  rw [bind, declare_eq_withName kind .zero hs hn]

/-- What is known of a name that was bound. -/
theorem bind_inv {t t' : ScopeTable} {id : ScopeId} {name : String} {kind : SymbolKind}
    (h : t.bind id name kind = .ok t') :
    (t.scope? id).isSome = true ∧ name ∉ t.bound id ∧ t' = t.withName id name kind .zero := by
  have hs : (t.scope? id).isSome = true := by
    by_contra hno
    have hnone : t.scope? id = none := by simpa using hno
    simp [bind, declare, hnone] at h
  have hn : name ∉ t.bound id := by
    intro hmem
    obtain ⟨s, hs⟩ := Option.isSome_iff_exists.mp hs
    rw [bound_of_scope? hs] at hmem
    simp [bind, declare, hs, find?_isSome_iff.mpr hmem] at h
  refine ⟨hs, hn, ?_⟩
  rw [bind_eq_withName kind hs hn] at h
  exact (Except.ok.inj h).symm

section WithName

variable (t : ScopeTable) (id : ScopeId) (name : String) (kind : SymbolKind) (span : Span)

theorem scope?_withName (j : ScopeId) :
    (t.withName id name kind span).scope? j =
      if j = id then (t.scope? j).map fun s => { s with
        names := s.names ++ [(name, t.symbols.length + 1)]
        symbols := s.symbols ++ [t.symbols.length + 1] }
      else t.scope? j :=
  scope?_modifyScope { t with symbols := t.symbols ++ [⟨name, kind, id, span⟩] } id j _

theorem mem_taken_withName (x : String) :
    x ∈ (t.withName id name kind span).taken ↔ x ∈ t.taken ∨ x = name := by
  simp only [withName]
  split
  · rename_i h
    have hmem : name ∈ t.taken := by simpa using h
    constructor
    · exact Or.inl
    · rintro (hx | rfl)
      · exact hx
      · exact hmem
  · simp only [List.mem_append, List.mem_singleton]

theorem bound_withName_other {j : ScopeId} (hj : j ≠ id) :
    (t.withName id name kind span).bound j = t.bound j := by
  rw [bound, scope?_withName, if_neg hj, bound]

theorem bound_withName_self (hs : (t.scope? id).isSome = true) :
    (t.withName id name kind span).bound id = t.bound id ++ [name] := by
  obtain ⟨s, hs⟩ := Option.isSome_iff_exists.mp hs
  rw [bound, scope?_withName, if_pos rfl, hs, bound_of_scope? hs]
  simp

/-- Binding a name takes no name away. -/
theorem bound_subset_withName (j : ScopeId) :
    t.bound j ⊆ (t.withName id name kind span).bound j := by
  intro x hx
  by_cases hj : j = id
  · subst hj
    have hs : (t.scope? j).isSome = true := by
      by_contra hno
      have hnone : t.scope? j = none := by simpa using hno
      rw [bound, hnone] at hx
      simp at hx
    rw [bound_withName_self t j name kind span hs]
    exact List.mem_append_left _ hx
  · rw [bound_withName_other t id name kind span hj]
    exact hx

theorem isSome_scope?_withName (j : ScopeId) :
    ((t.withName id name kind span).scope? j).isSome = (t.scope? j).isSome := by
  rw [scope?_withName]
  split
  · rw [Option.isSome_map]
  · rfl

theorem parent_withName {j : ScopeId} {s : Scope}
    (h : (t.withName id name kind span).scope? j = some s) :
    ∃ r, t.scope? j = some r ∧ s.parent = r.parent := by
  rw [scope?_withName] at h
  split at h
  · obtain ⟨r, hr, rfl⟩ := Option.map_eq_some_iff.mp h
    exact ⟨r, hr, rfl⟩
  · exact ⟨s, h, rfl⟩

theorem length_scopes_withName :
    (t.withName id name kind span).scopes.length = t.scopes.length :=
  length_modifyScope _ _ _

theorem symbols_withName :
    (t.withName id name kind span).symbols = t.symbols ++ [⟨name, kind, id, span⟩] :=
  symbols_modifyScope _ _ _

end WithName

/-! ### Opening a scope -/

section NewScope

variable (t : ScopeTable) (kind : ScopeKind) (parent : ScopeId) (span : Span)

theorem taken_newScope : (t.newScope kind parent span).1.taken = t.taken :=
  taken_modifyScope _ _ _

theorem symbols_newScope : (t.newScope kind parent span).1.symbols = t.symbols :=
  symbols_modifyScope _ _ _

theorem scope?_append (s : Scope) (j : ScopeId) :
    ({ t with scopes := t.scopes ++ [s] } : ScopeTable).scope? j =
      if index? j = some t.scopes.length then some s else t.scope? j := by
  cases hj : index? j with
  | none => simp only [scope?, hj, Option.bind_none, reduceCtorEq, if_false]
  | some k =>
    simp only [scope?, hj, Option.bind_some, Option.some.injEq]
    by_cases hk : k = t.scopes.length
    · rw [if_pos hk, hk]
      simp
    · rw [if_neg hk]
      rcases Nat.lt_or_gt_of_ne hk with hlt | hgt
      · exact List.getElem?_append_left hlt
      · rw [List.getElem?_eq_none (by simp; omega), List.getElem?_eq_none (by omega)]

/-- The scope that an id of the grown table stands for: the new one, or one that was there and has
at most one more child. -/
theorem scope?_newScope (j : ScopeId) :
    (t.newScope kind parent span).1.scope? j =
      (if index? j = some t.scopes.length then some ⟨kind, parent, span, [], [], []⟩
        else t.scope? j).map fun s =>
          if j = parent then { s with children := s.children ++ [t.scopes.length + 1] }
          else s := by
  simp only [newScope, scope?_modifyScope, scope?_append]
  by_cases hj : j = parent
  · simp only [hj, if_true]
  · simp only [hj, if_false, Option.map_id']

/-- A new scope binds nothing, and the others bind what they did. -/
theorem bound_newScope (j : ScopeId) : (t.newScope kind parent span).1.bound j = t.bound j := by
  rw [bound, scope?_newScope, Option.map_map]
  have hnames : ((fun s : Scope => s.names.map (·.1)) ∘ fun s : Scope =>
      if j = parent then { s with children := s.children ++ [t.scopes.length + 1] }
      else s) = fun s => s.names.map (·.1) := by
    funext s
    simp only [Function.comp]
    split <;> rfl
  rw [hnames]
  split
  · rename_i hj
    -- the place behind the last scope was not in use
    have hnone : t.scope? j = none := by
      rw [scope?, hj, Option.bind_some]
      exact List.getElem?_eq_none (Nat.le_refl _)
    rw [bound, hnone]
    rfl
  · rfl

theorem isSome_scope?_newScope {j : ScopeId} (h : (t.scope? j).isSome = true) :
    ((t.newScope kind parent span).1.scope? j).isSome = true := by
  rw [scope?_newScope, Option.isSome_map]
  split
  · rfl
  · exact h

/-- The id of a new scope leads to it. -/
theorem isSome_scope?_newScope_self :
    ((t.newScope kind parent span).1.scope? (t.newScope kind parent span).2).isSome = true := by
  have hid : index? (t.newScope kind parent span).2 = some t.scopes.length := rfl
  rw [scope?_newScope, Option.isSome_map, hid, if_pos rfl]
  rfl

end NewScope

/-! ### Visible names -/

/-- Every scope is `root` or lies right below it. -/
structure Rooted (t : ScopeTable) (root : ScopeId) : Prop where
  exists_root : (t.scope? root).isSome = true
  parent_eq : ∀ id s, t.scope? id = some s → id ≠ root → s.parent = root

/-- Every bound name counts as taken. -/
def NamesTaken (t : ScopeTable) : Prop :=
  ∀ id, ∀ x ∈ t.bound id, x ∈ t.taken

theorem Rooted.withName {t : ScopeTable} {root : ScopeId} (h : t.Rooted root) (id : ScopeId)
    (name : String) (kind : SymbolKind) (span : Span) :
    (t.withName id name kind span).Rooted root := by
  refine ⟨?_, ?_⟩
  · rw [isSome_scope?_withName]
    exact h.exists_root
  · intro j s hs hj
    obtain ⟨r, hr, hp⟩ := t.parent_withName id name kind span hs
    rw [hp]
    exact h.parent_eq j r hr hj

theorem Rooted.newScope {t : ScopeTable} {root : ScopeId} (h : t.Rooted root) (kind : ScopeKind)
    (span : Span) : (t.newScope kind root span).1.Rooted root := by
  refine ⟨t.isSome_scope?_newScope kind root span h.exists_root, ?_⟩
  intro j s hs hj
  rw [scope?_newScope] at hs
  obtain ⟨r, hr, rfl⟩ := Option.map_eq_some_iff.mp hs
  rw [if_neg hj]
  split at hr
  · rw [← Option.some.inj hr]
  · exact h.parent_eq j r hr hj

theorem NamesTaken.withName {t : ScopeTable} (h : t.NamesTaken) (id : ScopeId) (name : String)
    (kind : SymbolKind) (span : Span) : (t.withName id name kind span).NamesTaken := by
  intro j x hx
  rw [mem_taken_withName]
  by_cases hs : j = id ∧ (t.scope? id).isSome = true
  · obtain ⟨rfl, hs⟩ := hs
    rw [bound_withName_self t j name kind span hs] at hx
    rcases List.mem_append.mp hx with hx | hx
    · exact Or.inl (h j x hx)
    · exact Or.inr (List.mem_singleton.mp hx)
  · left
    apply h j
    rw [bound, scope?_withName] at hx
    split at hx
    · rename_i hj
      have hnone : t.scope? j = none := by
        rw [hj]
        simpa [hj] using hs
      rw [hnone] at hx
      simp at hx
    · exact hx

theorem NamesTaken.newScope {t : ScopeTable} (h : t.NamesTaken) (kind : ScopeKind)
    (parent : ScopeId) (span : Span) : (t.newScope kind parent span).1.NamesTaken := by
  intro j x hx
  rw [taken_newScope]
  rw [bound_newScope] at hx
  exact h j x hx

theorem lookupWithin_succ_isSome {t : ScopeTable} {name : String} {id : ScopeId} {fuel : Nat}
    (h : name ∈ t.bound id) : (t.lookupWithin name (fuel + 1) id).isSome = true := by
  cases hs : t.scope? id with
  | none =>
    rw [bound, hs] at h
    simp at h
  | some s =>
    rw [bound_of_scope? hs] at h
    obtain ⟨i, hi⟩ := Option.isSome_iff_exists.mp (find?_isSome_iff.mpr h)
    simp only [lookupWithin, hs, hi, Option.isSome_some]

theorem lookupWithin_parent {t : ScopeTable} {name : String} {id : ScopeId} {s : Scope}
    {fuel : Nat} (hs : t.scope? id = some s) (hf : s.find? name = none) :
    t.lookupWithin name (fuel + 1) id = t.lookupWithin name fuel s.parent := by
  simp only [lookupWithin, hs, hf]

/-- A name that is not visible from a scope is bound neither there nor in the root. -/
theorem not_mem_bound_of_hasBinding {t : ScopeTable} {root id : ScopeId} {name : String}
    (hr : t.Rooted root) (hs : (t.scope? id).isSome = true) (h : t.hasBinding id name = false) :
    name ∉ t.bound id ∧ name ∉ t.bound root := by
  simp only [hasBinding, Bool.or_eq_false_iff, lookup?] at h
  have hid : name ∉ t.bound id := by
    intro hmem
    rw [lookupWithin_succ_isSome hmem] at h
    exact Bool.noConfusion h.2
  refine ⟨hid, ?_⟩
  by_cases hroot : id = root
  · rw [← hroot]
    exact hid
  · intro hmem
    obtain ⟨s, hs⟩ := Option.isSome_iff_exists.mp hs
    have hfind : s.find? name = none := by
      rw [← Option.not_isSome_iff_eq_none, find?_isSome_iff, ← bound_of_scope? hs]
      exact hid
    -- the table holds a scope, so the search has fuel for the root as well
    obtain ⟨i, _, hget⟩ := scope?_eq_some hs
    obtain ⟨hlt, _⟩ := List.getElem?_eq_some_iff.mp hget
    obtain ⟨n, hn⟩ : ∃ n, t.scopes.length = n + 1 := ⟨t.scopes.length - 1, by omega⟩
    rw [hn, lookupWithin_parent hs hfind, hr.parent_eq id s hs hroot,
      lookupWithin_succ_isSome hmem] at h
    exact Bool.noConfusion h.2

/-- A fresh name can be bound in every scope there is. -/
theorem bindFresh_eq {t : ScopeTable} {id : ScopeId} (base : List Char) (kind : SymbolKind)
    (hn : t.NamesTaken) (hs : (t.scope? id).isSome = true) :
    t.bindFresh id base kind =
      .ok (t.withName id (t.freshName id base) kind .zero, t.freshName id base) := by
  have hfree : t.freshName id base ∉ t.bound id := fun h =>
    t.freshName_not_taken id base (hn id _ h)
  simp only [bindFresh, bind_eq_withName kind hs hfree]

theorem bindFresh_inv {t t' : ScopeTable} {id : ScopeId} {base : List Char} {kind : SymbolKind}
    {name : String} (h : t.bindFresh id base kind = .ok (t', name)) :
    (t.scope? id).isSome = true ∧ name = t.freshName id base ∧
      t' = t.withName id name kind .zero := by
  simp only [bindFresh] at h
  split at h
  · rename_i t₁ ht
    obtain ⟨hs, _, ht₁⟩ := bind_inv ht
    simp only [Except.ok.injEq, Prod.mk.injEq] at h
    obtain ⟨rfl, rfl⟩ := h
    exact ⟨hs, rfl, ht₁⟩
  · simp at h

end Phrasebook.ScopeTable
