import Phrasebook.Proofs.ConsistentTables
import Phrasebook.Proofs.Floats
import Phrasebook.Proofs.Meaning
import Phrasebook.Proofs.Reads

/-!
What every step of compiling keeps. Names of shared constants and of the locals of a message stay
apart, shared constants and their keys stay side by side in one order, and every derived constant is
the one its key stands for. A step refines a pure check: it succeeds or fails as the check says, asks
the module for constants, and only ever adds to the state, also where it fails.
-/
namespace Phrasebook

namespace ScopeTable

/-- What holds of the scope table of a module at any time. -/
structure Tidy (t : ScopeTable) (root : ScopeId) : Prop where
  rooted : t.Rooted root
  taken : t.NamesTaken
  consistent : t.Consistent

/-- More names are bound, in the same scopes. -/
structure Extends (t t' : ScopeTable) : Prop where
  bound : ∀ id, t.bound id ⊆ t'.bound id
  taken : t.taken ⊆ t'.taken
  length_scopes : t'.scopes.length = t.scopes.length
  isSome_scope? : ∀ id, (t'.scope? id).isSome = (t.scope? id).isSome

theorem Extends.refl (t : ScopeTable) : t.Extends t :=
  ⟨fun _ => List.Subset.refl _, List.Subset.refl _, rfl, fun _ => rfl⟩

theorem Extends.trans {t₁ t₂ t₃ : ScopeTable} (h : t₁.Extends t₂) (h' : t₂.Extends t₃) :
    t₁.Extends t₃ where
  bound id := List.Subset.trans (h.bound id) (h'.bound id)
  taken := List.Subset.trans h.taken h'.taken
  length_scopes := h'.length_scopes.trans h.length_scopes
  isSome_scope? id := (h'.isSome_scope? id).trans (h.isSome_scope? id)

theorem extends_withName (t : ScopeTable) (id : ScopeId) (name : String) (kind : SymbolKind)
    (span : Span) : t.Extends (t.withName id name kind span) where
  bound := t.bound_subset_withName id name kind span
  taken x hx := (t.mem_taken_withName id name kind span x).mpr (Or.inl hx)
  length_scopes := t.length_scopes_withName id name kind span
  isSome_scope? := t.isSome_scope?_withName id name kind span

theorem Tidy.withName {t : ScopeTable} {root id : ScopeId} (h : t.Tidy root) (name : String)
    (kind : SymbolKind) (span : Span) (hid : (t.scope? id).isSome = true) :
    (t.withName id name kind span).Tidy root where
  rooted := h.rooted.withName id name kind span
  taken := h.taken.withName id name kind span
  consistent := h.consistent.withName hid

theorem Tidy.newScope {t : ScopeTable} {root : ScopeId} (h : t.Tidy root) {kind : ScopeKind}
    (hkind : kind ≠ .invalid) (span : Span) : (t.newScope kind root span).1.Tidy root where
  rooted := h.rooted.newScope kind span
  taken := h.taken.newScope kind root span
  consistent := h.consistent.newScope span hkind (.inr h.rooted.exists_root)

end ScopeTable

namespace Compile

open ScopeTable (Tidy Extends)

/-! ### Binding names -/

/-- A name that was bound: it can be, and neither the scope nor the root had it. -/
theorem bindName_inv {t t' : ScopeTable} {root id : ScopeId} {name? : Option String}
    {base : List Char} {kind : SymbolKind} {name : String} (h : t.Tidy root)
    (hb : bindName t id name? base kind = .ok (t', name)) :
    (t.scope? id).isSome = true ∧ name ∉ t.bound id ∧ name ∉ t.bound root ∧
      Name.isBindable name = true ∧ t' = t.withName id name kind .zero := by
  rw [bindName] at hb
  split at hb
  · rename_i n hn
    obtain ⟨_, hcond⟩ := Option.filter_eq_some_iff.mp hn
    simp only [Bool.and_eq_true, Bool.not_eq_true'] at hcond
    cases hbind : t.bind id n kind with
    | error e =>
      simp only [hbind, Except.map, reduceCtorEq] at hb
    | ok t₁ =>
      rw [hbind] at hb
      simp only [Except.map, Except.ok.injEq, Prod.mk.injEq] at hb
      obtain ⟨rfl, rfl⟩ := hb
      obtain ⟨hs, hfree, ht⟩ := ScopeTable.bind_inv hbind
      exact ⟨hs, hfree, (ScopeTable.not_mem_bound_of_hasBinding h.rooted hs hcond.2).2, hcond.1, ht⟩
  · obtain ⟨hs, rfl, ht⟩ := ScopeTable.bindFresh_inv hb
    refine ⟨hs, ?_, ?_, t.freshName_isBindable id base, ht⟩
    · exact fun hmem => t.freshName_not_taken id base (h.taken id _ hmem)
    · exact fun hmem => t.freshName_not_taken id base (h.taken root _ hmem)

/-- A scope that exists takes a name in any case. -/
theorem bindName_ok {t : ScopeTable} {root id : ScopeId} (name? : Option String)
    (base : List Char) (kind : SymbolKind) (h : t.Tidy root)
    (hid : (t.scope? id).isSome = true) : ∃ r, bindName t id name? base kind = .ok r := by
  rw [bindName]
  split
  · rename_i n hn
    obtain ⟨_, hcond⟩ := Option.filter_eq_some_iff.mp hn
    simp only [Bool.and_eq_true, Bool.not_eq_true'] at hcond
    have hfree := (ScopeTable.not_mem_bound_of_hasBinding h.rooted hid hcond.2).1
    rw [ScopeTable.bind_eq_withName kind hid hfree]
    exact ⟨_, rfl⟩
  · exact ⟨_, ScopeTable.bindFresh_eq base kind h.taken hid⟩

/-! ### States -/

namespace State

/-- The names that a message binds in its own scope. -/
def locals (s : State) : List String :=
  s.arguments.map (·.binding) ++ s.body.map (·.1)

def constantNames (s : State) : List String :=
  s.constants.map (·.1)

def uses (s : State) : List Use :=
  s.arguments.map fun a => ⟨a.name, a.type, a.span⟩

/-- The requests that the shared constants were made for. -/
def granted (s : State) : List Request :=
  List.zipWith (fun key constant => (key.1, constant.2)) s.shared s.constants

/-- The names that an expression of the message may read. -/
def visible (ctx : Context) (s : State) : List String :=
  s.locals ++ s.constantNames ++ "undefined" :: if ctx.target = .tree then [markupName] else []

end State

/-- What the key of a derived constant refers to: a formatter with the right method, and an offset
that is not zero. -/
def LocalKey.Refers (shared : List (SharedKey × String)) : LocalKey → Prop
  | .formatted formatter _ => ∃ kind c, (.formatter kind c, formatter) ∈ shared
  | .offset _ x => (x == 0) = false
  | .category rules _ => ∃ kind, (.pluralRules kind, rules) ∈ shared

/-- Every constant reads names of a list and earlier constants only. -/
def Closed : List String → List (String × Expr) → Prop
  | _, [] => True
  | names, (n, e) :: r => ReadsOnly names e ∧ Closed (n :: names) r

/-- What every step of compiling keeps. `outer` are the other names of the module. -/
structure Sound (ctx : Context) (outer : List String) (s : State) : Prop where
  tidy : s.table.Tidy ctx.root
  outer_bound : ∀ x ∈ outer, x ∈ s.table.bound ctx.root
  constants_bound : ∀ x ∈ s.constantNames, x ∈ s.table.bound ctx.root
  locals_bound : ∀ x ∈ s.locals, x ∈ s.table.bound ctx.scope
  distinct : (outer ++ s.constantNames ++ s.locals).Nodup
  bindable : ∀ x ∈ s.constantNames ++ s.locals, Name.isBindable x = true
  arguments_distinct : (s.arguments.map (·.name)).Nodup
  aligned : s.shared.map (·.2) = s.constantNames
  keys_distinct : (s.shared.map (·.1)).Nodup
  ordered : s.sharedOrder = s.shared.map (·.1)
  body_eq : s.body = s.derived.map fun p => (p.2, p.1.init)
  refers : ∀ p ∈ s.derived, p.1.Refers s.shared
  closed : Closed (s.arguments.map (·.binding) ++ s.constantNames) s.body

/-- What a step may do to a state: it adds, and the constants it adds have names that were not in
use anywhere. -/
structure Grows (s s' : State) : Prop where
  table : s.table.Extends s'.table
  constants : s.constants <+: s'.constants
  shared : s.shared <+: s'.shared
  sharedOrder : s.sharedOrder <+: s'.sharedOrder
  arguments : s.arguments.map (fun a => (a.name, a.binding)) <+:
    s'.arguments.map fun a => (a.name, a.binding)
  derived : s.derived <+: s'.derived
  body : s.body <+: s'.body
  fresh : ∀ x ∈ s'.constantNames, x ∉ s.constantNames → x ∉ s.table.taken

namespace Grows

theorem refl (s : State) : Grows s s :=
  ⟨.refl _, List.prefix_rfl, List.prefix_rfl, List.prefix_rfl, List.prefix_rfl, List.prefix_rfl,
    List.prefix_rfl, fun _ h h' => absurd h h'⟩

theorem trans {s₁ s₂ s₃ : State} (h : Grows s₁ s₂) (h' : Grows s₂ s₃) : Grows s₁ s₃ := by
  refine ⟨h.table.trans h'.table, h.constants.trans h'.constants, h.shared.trans h'.shared,
    h.sharedOrder.trans h'.sharedOrder, h.arguments.trans h'.arguments,
    h.derived.trans h'.derived, h.body.trans h'.body, ?_⟩
  intro x hx hx₁
  by_cases hx₂ : x ∈ s₂.constantNames
  · exact h.fresh x hx₂ hx₁
  · exact fun htaken => h'.fresh x hx hx₂ (h.table.taken htaken)

variable {s s' : State}

theorem constantNames_subset (h : Grows s s') : s.constantNames ⊆ s'.constantNames :=
  (h.constants.map _).subset

theorem argument_of_mem (h : Grows s s') {a : FoundArgument} (ha : a ∈ s.arguments) :
    ∃ a' ∈ s'.arguments, a'.name = a.name ∧ a'.binding = a.binding := by
  have hmem := h.arguments.subset (List.mem_map.mpr ⟨a, ha, rfl⟩)
  obtain ⟨a', ha', heq⟩ := List.mem_map.mp hmem
  simp only [Prod.mk.injEq] at heq
  exact ⟨a', ha', heq⟩

theorem locals_subset (h : Grows s s') : s.locals ⊆ s'.locals := by
  intro x hx
  rcases List.mem_append.mp hx with hx | hx
  · obtain ⟨a, ha, rfl⟩ := List.mem_map.mp hx
    obtain ⟨a', ha', _, hb⟩ := h.argument_of_mem ha
    exact List.mem_append_left _ (List.mem_map.mpr ⟨a', ha', hb⟩)
  · exact List.mem_append_right _ ((h.body.map _).subset hx)

theorem visible_subset (h : Grows s s') (ctx : Context) : s.visible ctx ⊆ s'.visible ctx := by
  intro x hx
  rw [State.visible, List.append_assoc, List.mem_append, List.mem_append] at hx ⊢
  rcases hx with hx | hx | hx
  · exact Or.inl (h.locals_subset hx)
  · exact Or.inr (Or.inl (h.constantNames_subset hx))
  · exact Or.inr (Or.inr hx)

end Grows

end Compile

end Phrasebook
