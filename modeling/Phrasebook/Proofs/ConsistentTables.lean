import Phrasebook.Proofs.ScopeTables

/-!
Consistent scope tables. Links between parents and children go both ways, and the names of a scope,
its symbols and the owners of these agree. Every operation keeps it so, and validation finds no flaw
in such a table.
-/
namespace Phrasebook.ScopeTable

/-- What validation looks at, clause by clause. -/
structure Consistent (t : ScopeTable) : Prop where
  kind : ∀ id s, t.scope? id = some s → s.kind ≠ .invalid
  parent : ∀ id s, t.scope? id = some s → s.parent ≠ 0 →
    s.parent ≠ id ∧ ∃ p, t.scope? s.parent = some p ∧ id ∈ p.children
  child : ∀ id s c, t.scope? id = some s → c ∈ s.children →
    c ≠ id ∧ ∃ r, t.scope? c = some r ∧ r.parent = id
  name : ∀ id s p, t.scope? id = some s → p ∈ s.names →
    p.2 ∈ s.symbols ∧ ∃ sym, t.symbol? p.2 = some sym ∧ sym.name = p.1
  symbol : ∀ id s i, t.scope? id = some s → i ∈ s.symbols → i ∈ s.names.map (·.2)
  owner : ∀ i sym, t.symbol? i = some sym → ∃ s, t.scope? sym.scope = some s ∧ i ∈ s.symbols

theorem consistent_empty : empty.Consistent := by
  have hscope (id : ScopeId) : empty.scope? id = none := by
    rw [scope?]
    cases index? id <;> rfl
  have hsymbol (id : SymbolId) : empty.symbol? id = none := by
    rw [symbol?]
    cases index? id <;> rfl
  constructor
  all_goals intro id s
  all_goals simp [hscope, hsymbol]

/-! ### Validation -/

section Validation

variable {t : ScopeTable} {id : ScopeId} {s : Scope}

theorem parentFlaws_eq_nil (h : t.Consistent) (hs : t.scope? id = some s) :
    t.parentFlaws id s = [] := by
  rw [parentFlaws]
  split
  · rfl
  · rename_i hp
    obtain ⟨hne, p, hpar, hmem⟩ := h.parent id s hs hp
    simp only [hpar, if_neg hne, List.contains_eq_mem, decide_eq_true hmem, if_true]

theorem childFlaws_eq_nil (h : t.Consistent) (hs : t.scope? id = some s) {c : ScopeId}
    (hc : c ∈ s.children) : t.childFlaws id c = [] := by
  obtain ⟨hne, r, hr, hpar⟩ := h.child id s c hs hc
  simp only [childFlaws, hr, if_neg hne, if_pos hpar]

theorem nameFlaws_eq_nil (h : t.Consistent) (hs : t.scope? id = some s) {p : String × SymbolId}
    (hp : p ∈ s.names) : t.nameFlaws id s p.1 p.2 = [] := by
  obtain ⟨hmem, sym, hsym, hname⟩ := h.name id s p hs hp
  simp only [nameFlaws, List.contains_eq_mem, decide_eq_true hmem, Bool.not_true,
    Bool.false_eq_true, if_false, hsym, if_pos hname]

theorem unindexedFlaws_eq_nil (h : t.Consistent) (hs : t.scope? id = some s) :
    unindexedFlaws id s = [] := by
  simp only [unindexedFlaws, List.map_eq_nil_iff, List.filter_eq_nil_iff, Bool.not_eq_true',
    Bool.not_eq_false, List.contains_eq_mem, decide_eq_true_eq, List.mem_filter]
  intro i hi
  exact ⟨h.symbol id s i hs hi, hi⟩

theorem allNameFlaws_eq_nil (h : t.Consistent) (hs : t.scope? id = some s) :
    s.names.flatMap (fun (n, i) => t.nameFlaws id s n i) = [] :=
  List.flatMap_eq_nil_iff.mpr fun _ hp => nameFlaws_eq_nil h hs hp

theorem scopeFlaws_eq_nil (h : t.Consistent) (hs : t.scope? id = some s) :
    t.scopeFlaws id s = [] := by
  have hchildren : s.children.flatMap (t.childFlaws id) = [] :=
    List.flatMap_eq_nil_iff.mpr fun c hc => childFlaws_eq_nil h hs hc
  rw [scopeFlaws, if_neg (h.kind id s hs), parentFlaws_eq_nil h hs, hchildren,
    allNameFlaws_eq_nil h hs,
    unindexedFlaws_eq_nil h hs]
  rfl

theorem symbolFlaws_eq_nil (h : t.Consistent) {i : SymbolId} {sym : Symbol}
    (hs : t.symbol? i = some sym) : t.symbolFlaws i sym = [] := by
  obtain ⟨owner, howner, hmem⟩ := h.owner i sym hs
  simp only [symbolFlaws, howner, List.contains_eq_mem, decide_eq_true hmem, if_true]

/-- Validation numbers entries by their places, and each number leads back to its entry. -/
theorem flaws_eq_nil (h : t.Consistent) : t.flaws = [] := by
  rw [flaws, List.append_eq_nil_iff]
  constructor
  · refine List.flatMap_eq_nil_iff.mpr ?_
    rintro ⟨s, i⟩ hmem
    obtain ⟨hi, hlt, hget⟩ := List.mem_zipIdx hmem
    obtain ⟨k, rfl⟩ : ∃ k, i = k + 1 := ⟨i - 1, by omega⟩
    have hk : k < t.scopes.length := by omega
    apply scopeFlaws_eq_nil h
    rw [scope?, index?_eq_some_iff.mpr rfl, Option.bind_some, List.getElem?_eq_getElem hk]
    simp only [Nat.add_sub_cancel] at hget
    rw [hget]
  · refine List.flatMap_eq_nil_iff.mpr ?_
    rintro ⟨s, i⟩ hmem
    obtain ⟨hi, hlt, hget⟩ := List.mem_zipIdx hmem
    obtain ⟨k, rfl⟩ : ∃ k, i = k + 1 := ⟨i - 1, by omega⟩
    have hk : k < t.symbols.length := by omega
    apply symbolFlaws_eq_nil h
    rw [symbol?, index?_eq_some_iff.mpr rfl, Option.bind_some, List.getElem?_eq_getElem hk]
    simp only [Nat.add_sub_cancel] at hget
    rw [hget]

end Validation

/-! ### Opening a scope -/

theorem index?_ne_length {t : ScopeTable} {j : ScopeId} (h : (t.scope? j).isSome = true) :
    index? j ≠ some t.scopes.length := by
  intro hj
  rw [scope?, hj, Option.bind_some, List.getElem?_eq_none (Nat.le_refl _)] at h
  exact Bool.noConfusion h

/-- A scope of the grown table is the new one, or an old one that gained the new one as a child if
it is the parent. -/
theorem scope?_newScope_cases {t : ScopeTable} {kind : ScopeKind} {parent j : ScopeId} {span : Span}
    {s : Scope} (hparent : parent = 0 ∨ (t.scope? parent).isSome = true)
    (hs : (t.newScope kind parent span).1.scope? j = some s) :
    (j = t.scopes.length + 1 ∧ s = ⟨kind, parent, span, [], [], []⟩) ∨
      ∃ r, t.scope? j = some r ∧ s = if j = parent then
        { r with children := r.children ++ [t.scopes.length + 1] } else r := by
  rw [scope?_newScope] at hs
  obtain ⟨r, hr, hrs⟩ := Option.map_eq_some_iff.mp hs
  split at hr
  · rename_i hj
    left
    have hne : j ≠ parent := by
      rintro rfl
      rcases hparent with h0 | hp
      · rw [h0] at hj
        simp [index?] at hj
      · exact index?_ne_length hp hj
    rw [if_neg hne, ← Option.some.inj hr] at hrs
    exact ⟨index?_eq_some_iff.mp hj, hrs.symm⟩
  · exact Or.inr ⟨r, hr, hrs.symm⟩

/-- The scope of an old id in the grown table. -/
theorem scope?_newScope_old {t : ScopeTable} {j : ScopeId} {r : Scope} (kind : ScopeKind)
    (parent : ScopeId) (span : Span) (hr : t.scope? j = some r) :
    (t.newScope kind parent span).1.scope? j = some (if j = parent then
      { r with children := r.children ++ [t.scopes.length + 1] } else r) := by
  have hj : index? j ≠ some t.scopes.length := index?_ne_length (by rw [hr]; rfl)
  rw [scope?_newScope, if_neg hj, hr]
  rfl

theorem scope?_newScope_self {t : ScopeTable} (kind : ScopeKind) {parent : ScopeId} (span : Span)
    (hparent : parent = 0 ∨ (t.scope? parent).isSome = true) :
    (t.newScope kind parent span).1.scope? (t.scopes.length + 1) =
      some ⟨kind, parent, span, [], [], []⟩ := by
  have hself := t.isSome_scope?_newScope_self kind parent span
  obtain ⟨s, hs⟩ := Option.isSome_iff_exists.mp hself
  have hid : (t.newScope kind parent span).2 = t.scopes.length + 1 := rfl
  rw [hid] at hs
  rcases scope?_newScope_cases hparent hs with ⟨_, rfl⟩ | ⟨r, hr, _⟩
  · exact hs
  · exact absurd (index?_eq_some_iff.mpr rfl) (index?_ne_length (by rw [hr]; rfl))

theorem Consistent.newScope {t : ScopeTable} (h : t.Consistent) {kind : ScopeKind}
    {parent : ScopeId} (span : Span) (hkind : kind ≠ .invalid)
    (hparent : parent = 0 ∨ (t.scope? parent).isSome = true) :
    (t.newScope kind parent span).1.Consistent := by
  have hold {j : ScopeId} {r : Scope} (hr : t.scope? j = some r) :=
    scope?_newScope_old kind parent span hr
  have hself := scope?_newScope_self kind span hparent
  -- an old scope is not the new one
  have hne {j : ScopeId} {r : Scope} (hr : t.scope? j = some r) :
      j ≠ t.scopes.length + 1 := by
    rintro rfl
    exact index?_ne_length (by rw [hr]; rfl) (index?_eq_some_iff.mpr rfl)
  have hsymbols (i : SymbolId) : (t.newScope kind parent span).1.symbol? i = t.symbol? i := by
    rw [symbol?, symbols_newScope, symbol?]
  constructor
  case kind =>
    intro j s hs
    rcases scope?_newScope_cases hparent hs with ⟨_, rfl⟩ | ⟨r, hr, rfl⟩
    · exact hkind
    · split
      · exact h.kind j r hr
      · exact h.kind j r hr
  case parent =>
    intro j s hs hp
    rcases scope?_newScope_cases hparent hs with ⟨rfl, rfl⟩ | ⟨r, hr, rfl⟩
    · rcases hparent with h0 | hsome
      · exact absurd h0 hp
      · obtain ⟨p, hpar⟩ := Option.isSome_iff_exists.mp hsome
        refine ⟨hne hpar, _, hold hpar, ?_⟩
        rw [if_pos rfl]
        exact List.mem_append_right _ (List.mem_singleton.mpr rfl)
    · have hpr : (if j = parent then
          { r with children := r.children ++ [t.scopes.length + 1] } else r).parent =
          r.parent := by split <;> rfl
      rw [hpr] at hp ⊢
      obtain ⟨hjne, p, hpar, hmem⟩ := h.parent j r hr hp
      refine ⟨hjne, _, hold hpar, ?_⟩
      split
      · exact List.mem_append_left _ hmem
      · exact hmem
  case child =>
    intro j s c hs hc
    rcases scope?_newScope_cases hparent hs with ⟨_, rfl⟩ | ⟨r, hr, rfl⟩
    · simp at hc
    · have hcase : c ∈ r.children ∨ (j = parent ∧ c = t.scopes.length + 1) := by
        split at hc
        · rename_i hj
          rcases List.mem_append.mp hc with hc | hc
          · exact Or.inl hc
          · exact Or.inr ⟨hj, List.mem_singleton.mp hc⟩
        · exact Or.inl hc
      rcases hcase with hc | ⟨rfl, rfl⟩
      · obtain ⟨hcne, q, hq, hqp⟩ := h.child j r c hr hc
        refine ⟨hcne, _, hold hq, ?_⟩
        split
        · exact hqp
        · exact hqp
      · exact ⟨(hne hr).symm, _, hself, rfl⟩
  case name =>
    intro j s p hs hp
    rw [hsymbols]
    rcases scope?_newScope_cases hparent hs with ⟨_, rfl⟩ | ⟨r, hr, rfl⟩
    · simp at hp
    · split at hp
      · rename_i hj
        rw [if_pos hj]
        exact h.name j r p hr hp
      · rename_i hj
        rw [if_neg hj]
        exact h.name j r p hr hp
  case symbol =>
    intro j s i hs hi
    rcases scope?_newScope_cases hparent hs with ⟨_, rfl⟩ | ⟨r, hr, rfl⟩
    · simp at hi
    · split at hi
      · rename_i hj
        rw [if_pos hj]
        exact h.symbol j r i hr hi
      · rename_i hj
        rw [if_neg hj]
        exact h.symbol j r i hr hi
  case owner =>
    intro i sym hsym
    rw [hsymbols] at hsym
    obtain ⟨r, hr, hmem⟩ := h.owner i sym hsym
    refine ⟨_, hold hr, ?_⟩
    split
    · exact hmem
    · exact hmem

/-! ### Binding a name -/

theorem symbol?_append (t : ScopeTable) (sym : Symbol) (i : SymbolId) (scopes : List Scope)
    (taken : List String) :
    (⟨scopes, t.symbols ++ [sym], taken⟩ : ScopeTable).symbol? i =
      if index? i = some t.symbols.length then some sym else t.symbol? i := by
  cases hi : index? i with
  | none => simp only [symbol?, hi, Option.bind_none, reduceCtorEq, if_false]
  | some k =>
    simp only [symbol?, hi, Option.bind_some, Option.some.injEq]
    by_cases hk : k = t.symbols.length
    · rw [if_pos hk, hk]
      simp
    · rw [if_neg hk]
      rcases Nat.lt_or_gt_of_ne hk with hlt | hgt
      · exact List.getElem?_append_left hlt
      · rw [List.getElem?_eq_none (by simp; omega), List.getElem?_eq_none (by omega)]

theorem symbol?_withName (t : ScopeTable) (id : ScopeId) (name : String) (kind : SymbolKind)
    (span : Span) (i : SymbolId) :
    (t.withName id name kind span).symbol? i =
      if index? i = some t.symbols.length then some ⟨name, kind, id, span⟩ else t.symbol? i := by
  rw [← symbol?_append t ⟨name, kind, id, span⟩ i (t.withName id name kind span).scopes
    (t.withName id name kind span).taken, ← symbols_withName]

section Named

variable {t : ScopeTable} {id : ScopeId} {name : String} {kind : SymbolKind} {span : Span}

theorem symbol?_withName_of_some {i : SymbolId} {sym : Symbol} (h : t.symbol? i = some sym) :
    (t.withName id name kind span).symbol? i = some sym := by
  have hne : index? i ≠ some t.symbols.length := by
    intro hi
    rw [symbol?, hi, Option.bind_some, List.getElem?_eq_none (Nat.le_refl _)] at h
    simp at h
  rw [symbol?_withName, if_neg hne, h]

/-- A scope of the grown table is an old one with the same place in the tree. -/
theorem scope?_withName_cases {j : ScopeId} {s : Scope}
    (hs : (t.withName id name kind span).scope? j = some s) :
    ∃ r, t.scope? j = some r ∧ s.kind = r.kind ∧ s.parent = r.parent ∧ s.children = r.children ∧
      ((j = id ∧ s.names = r.names ++ [(name, t.symbols.length + 1)] ∧
          s.symbols = r.symbols ++ [t.symbols.length + 1]) ∨
        (j ≠ id ∧ s.names = r.names ∧ s.symbols = r.symbols)) := by
  rw [scope?_withName] at hs
  split at hs
  · rename_i hj
    obtain ⟨r, hr, rfl⟩ := Option.map_eq_some_iff.mp hs
    exact ⟨r, hr, rfl, rfl, rfl, Or.inl ⟨hj, rfl, rfl⟩⟩
  · rename_i hj
    exact ⟨s, hs, rfl, rfl, rfl, Or.inr ⟨hj, rfl, rfl⟩⟩

/-- Old scopes keep their places and lose no symbol. -/
theorem exists_scope?_withName {j : ScopeId} {r : Scope} (hr : t.scope? j = some r) :
    ∃ s, (t.withName id name kind span).scope? j = some s ∧ s.children = r.children ∧
      s.parent = r.parent ∧ r.symbols ⊆ s.symbols := by
  rw [scope?_withName, hr]
  split
  · exact ⟨_, rfl, rfl, rfl, List.subset_append_left _ _⟩
  · exact ⟨_, rfl, rfl, rfl, List.Subset.refl _⟩

theorem Consistent.withName (h : t.Consistent) (hid : (t.scope? id).isSome = true) :
    (t.withName id name kind span).Consistent := by
  -- the new symbol takes the next number
  have hnew : index? (t.symbols.length + 1) = some t.symbols.length := rfl
  constructor
  case kind =>
    intro j s hs
    obtain ⟨r, hr, hk, _⟩ := scope?_withName_cases hs
    rw [hk]
    exact h.kind j r hr
  case parent =>
    intro j s hs hp
    obtain ⟨r, hr, _, hpar, _⟩ := scope?_withName_cases hs
    rw [hpar] at hp ⊢
    obtain ⟨hne, p, hpp, hmem⟩ := h.parent j r hr hp
    obtain ⟨q, hq, hqc, _⟩ := exists_scope?_withName hpp
    exact ⟨hne, q, hq, hqc ▸ hmem⟩
  case child =>
    intro j s c hs hc
    obtain ⟨r, hr, _, _, hch, _⟩ := scope?_withName_cases hs
    rw [hch] at hc
    obtain ⟨hne, q, hq, hqp⟩ := h.child j r c hr hc
    obtain ⟨q', hq', _, hpar, _⟩ := exists_scope?_withName hq
    exact ⟨hne, q', hq', hpar.trans hqp⟩
  case name =>
    intro j s p hs hp
    obtain ⟨r, hr, _, _, _, hcase⟩ := scope?_withName_cases hs
    rcases hcase with ⟨_, hn, hsy⟩ | ⟨_, hn, hsy⟩
    · rw [hn] at hp
      rw [hsy]
      rcases List.mem_append.mp hp with hp | hp
      · obtain ⟨hmem, sym, hsymb, hname⟩ := h.name j r p hr hp
        exact ⟨List.mem_append_left _ hmem, sym, symbol?_withName_of_some hsymb, hname⟩
      · rw [List.mem_singleton.mp hp]
        refine ⟨List.mem_append_right _ (List.mem_singleton.mpr rfl), ⟨name, kind, id, span⟩, ?_, rfl⟩
        rw [symbol?_withName, if_pos hnew]
    · rw [hn] at hp
      rw [hsy]
      obtain ⟨hmem, sym, hsymb, hname⟩ := h.name j r p hr hp
      exact ⟨hmem, sym, symbol?_withName_of_some hsymb, hname⟩
  case symbol =>
    intro j s i hs hi
    obtain ⟨r, hr, _, _, _, hcase⟩ := scope?_withName_cases hs
    rcases hcase with ⟨_, hn, hsy⟩ | ⟨_, hn, hsy⟩
    · rw [hsy] at hi
      rw [hn, List.map_append]
      rcases List.mem_append.mp hi with hi | hi
      · exact List.mem_append_left _ (h.symbol j r i hr hi)
      · rw [List.mem_singleton.mp hi]
        exact List.mem_append_right _ (List.mem_singleton.mpr rfl)
    · rw [hsy] at hi
      rw [hn]
      exact h.symbol j r i hr hi
  case owner =>
    intro i sym hi
    rw [symbol?_withName] at hi
    split at hi
    · rename_i hix
      have hinew : i = t.symbols.length + 1 := index?_injective hix hnew
      rw [← Option.some.inj hi]
      obtain ⟨r, hr⟩ := Option.isSome_iff_exists.mp hid
      rw [scope?_withName, if_pos rfl, hr]
      refine ⟨_, rfl, ?_⟩
      rw [hinew]
      exact List.mem_append_right _ (List.mem_singleton.mpr rfl)
    · obtain ⟨r, hr, hmem⟩ := h.owner i sym hi
      obtain ⟨s, hs, _, _, hsub⟩ := exists_scope?_withName hr
      exact ⟨s, hs, hsub hmem⟩

end Named

end Phrasebook.ScopeTable
