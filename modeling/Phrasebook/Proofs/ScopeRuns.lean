import Phrasebook.Proofs.ConsistentTables

/-!
Runs of operations on a scope table. Whatever is opened, declared and bound, one after the other,
the table stays in order: validation finds no flaw, the taken names are those that some scope binds,
no scope binds a name twice, and what is visible from a scope is what it and its ancestors bind.
-/
namespace Phrasebook.ScopeTable

/-! ### Operations -/

inductive Operation where
  | newScope (kind : ScopeKind) (parent : ScopeId) (span : Span)
  | declare (scope : ScopeId) (name : String) (kind : SymbolKind) (span : Span)
  | bind (scope : ScopeId) (name : String) (kind : SymbolKind)
  | bindFresh (scope : ScopeId) (base : List Char) (kind : SymbolKind)
  | freshName (scope : ScopeId) (base : List Char)

/-- The table after an operation, and why the operation failed. -/
def perform (t : ScopeTable) : Operation → ScopeTable × Option BindError
  | .newScope kind parent span => ((t.newScope kind parent span).1, none)
  | .declare scope name kind span =>
    match t.declare scope name kind span with
    | .ok (t, _) => (t, none)
    | .error e => (t, some e)
  | .bind scope name kind =>
    match t.bind scope name kind with
    | .ok t => (t, none)
    | .error e => (t, some e)
  | .bindFresh scope base kind =>
    match t.bindFresh scope base kind with
    | .ok (t, _) => (t, none)
    | .error e => (t, some e)
  | .freshName _ _ => (t, none)

def run (t : ScopeTable) : List Operation → ScopeTable
  | [] => t
  | op :: ops => (t.perform op).1.run ops

/-- What callers promise: a scope is opened at the root or below a scope that there is, and fresh
names are bound in scopes that there are. -/
def Allows (t : ScopeTable) : Operation → Prop
  | .newScope kind parent _ => (kind = .module ∨ kind = .message) ∧
      (parent = 0 ∨ (t.scope? parent).isSome = true)
  | .bindFresh scope _ _ => (t.scope? scope).isSome = true
  | .declare .. | .bind .. | .freshName _ _ => True

/-- Every operation of a run is allowed when its turn comes. -/
def AllowsAll (t : ScopeTable) : List Operation → Prop
  | [] => True
  | op :: ops => t.Allows op ∧ (t.perform op).1.AllowsAll ops

instance decidableAllows (t : ScopeTable) : (op : Operation) → Decidable (t.Allows op)
  | .newScope kind parent _ => inferInstanceAs (Decidable ((kind = .module ∨ kind = .message) ∧
      (parent = 0 ∨ (t.scope? parent).isSome = true)))
  | .bindFresh scope _ _ => inferInstanceAs (Decidable ((t.scope? scope).isSome = true))
  | .declare .. | .bind .. | .freshName _ _ => inferInstanceAs (Decidable True)

instance decidableAllowsAll : (t : ScopeTable) → (ops : List Operation) → Decidable (t.AllowsAll ops)
  | _, [] => inferInstanceAs (Decidable True)
  | t, op :: ops =>
    have := decidableAllowsAll (t.perform op).1 ops
    inferInstanceAs (Decidable (t.Allows op ∧ (t.perform op).1.AllowsAll ops))

/-- What fresh names rely on: that scopes which are referred to are there. -/
def Permits (t : ScopeTable) : Operation → Prop
  | .newScope _ parent _ => parent = 0 ∨ (t.scope? parent).isSome = true
  | .bindFresh scope _ _ => (t.scope? scope).isSome = true
  | .declare .. | .bind .. | .freshName _ _ => True

def PermitsAll (t : ScopeTable) : List Operation → Prop
  | [] => True
  | op :: ops => t.Permits op ∧ (t.perform op).1.PermitsAll ops

theorem Allows.permits {t : ScopeTable} {op : Operation} (h : t.Allows op) : t.Permits op := by
  cases op with
  | newScope => exact h.2
  | bindFresh => exact h
  | declare | bind | freshName => exact trivial

theorem AllowsAll.permitsAll {t : ScopeTable} {ops : List Operation} (h : t.AllowsAll ops) :
    t.PermitsAll ops := by
  induction ops generalizing t with
  | nil => exact trivial
  | cons op ops ih => exact ⟨h.1.permits, ih h.2⟩

/-- All that an operation can do to a table in which every bound name is taken: nothing, bind one
name, or open one scope. -/
theorem perform_shape {t : ScopeTable} {op : Operation} (htaken : t.NamesTaken)
    (h : t.Permits op) :
    (t.perform op).1 = t ∨
    (∃ id name kind span, (t.scope? id).isSome = true ∧ name ∉ t.bound id ∧
      (t.perform op).1 = t.withName id name kind span) ∨
    ∃ kind parent span, op = .newScope kind parent span ∧
      (parent = 0 ∨ (t.scope? parent).isSome = true) ∧
      (t.perform op).1 = (t.newScope kind parent span).1 := by
  -- a name that is given is bound by declaring it
  have hdeclare (id : ScopeId) (name : String) (kind : SymbolKind) (span : Span) :
      (∃ e, t.declare id name kind span = .error e) ∨
      (t.scope? id).isSome = true ∧ name ∉ t.bound id ∧ ∃ symbol,
        t.declare id name kind span = .ok (t.withName id name kind span, symbol) := by
    by_cases hs : (t.scope? id).isSome = true
    · by_cases hn : name ∈ t.bound id
      · exact .inl ((declare_eq_error_iff _ _).mpr fun _ => hn)
      · exact .inr ⟨hs, hn, _, declare_eq_withName kind span hs hn⟩
    · exact .inl ((declare_eq_error_iff _ _).mpr fun hsome => absurd hsome hs)
  cases op with
  | newScope kind parent span => exact .inr (.inr ⟨kind, parent, span, rfl, h, rfl⟩)
  | declare id name kind span =>
    rcases hdeclare id name kind span with ⟨e, he⟩ | ⟨hs, hn, symbol, hok⟩
    · exact .inl (by rw [perform, he])
    · exact .inr (.inl ⟨id, name, kind, span, hs, hn, by rw [perform, hok]⟩)
  | bind id name kind =>
    rcases hdeclare id name kind .zero with ⟨e, he⟩ | ⟨hs, hn, symbol, hok⟩
    · exact .inl (by rw [perform, ScopeTable.bind, he])
    · exact .inr (.inl ⟨id, name, kind, .zero, hs, hn, by rw [perform, ScopeTable.bind, hok]⟩)
  | bindFresh id base kind =>
    -- a fresh name is bound nowhere, so it is not bound here
    have hfree : t.freshName id base ∉ t.bound id := fun hmem =>
      t.freshName_not_taken id base (htaken id _ hmem)
    exact .inr (.inl ⟨id, _, kind, .zero, h, hfree, by
      rw [perform, bindFresh_eq base kind htaken h]⟩)
  | freshName id base => exact .inl rfl

/-- An allowed operation opens no scope of an unknown kind. -/
theorem perform_cases {t : ScopeTable} {op : Operation} (htaken : t.NamesTaken)
    (h : t.Allows op) :
    (t.perform op).1 = t ∨
    (∃ id name kind span, (t.scope? id).isSome = true ∧ name ∉ t.bound id ∧
      (t.perform op).1 = t.withName id name kind span) ∨
    ∃ kind parent span, kind ≠ .invalid ∧ (parent = 0 ∨ (t.scope? parent).isSome = true) ∧
      (t.perform op).1 = (t.newScope kind parent span).1 := by
  rcases perform_shape htaken h.permits with
    hsame | hbound | ⟨kind, parent, span, rfl, hparent, hopened⟩
  · exact .inl hsame
  · exact .inr (.inl hbound)
  · have hvalid : kind ≠ .invalid := by
      rcases h.1 with rfl | rfl <;> decide
    exact .inr (.inr ⟨kind, parent, span, hvalid, hparent, hopened⟩)

/-- A binding is refused where a scope is unknown or has the name, and then nothing changes. -/
theorem perform_refused {t : ScopeTable} {id : ScopeId} {name : String} {kind : SymbolKind}
    {span : Span} {op : Operation} (hop : op = .declare id name kind span ∨ op = .bind id name kind) :
    ((t.perform op).2.isSome = true ↔ ((t.scope? id).isSome = true → name ∈ t.bound id)) ∧
      ((t.perform op).2.isSome = true → (t.perform op).1 = t) := by
  obtain ⟨place, hok, herror⟩ : ∃ place,
      (∀ t' symbol, t.declare id name kind place = .ok (t', symbol) → t.perform op = (t', none)) ∧
      ∀ e, t.declare id name kind place = .error e → t.perform op = (t, some e) := by
    rcases hop with rfl | rfl
    · exact ⟨span, fun _ _ h => by rw [perform, h], fun _ h => by rw [perform, h]⟩
    · refine ⟨.zero, fun _ _ h => ?_, fun _ h => ?_⟩
      · rw [perform, ScopeTable.bind, h]
      · rw [perform, ScopeTable.bind, h]
  rw [← declare_eq_error_iff kind place]
  cases hdeclared : t.declare id name kind place with
  | ok r =>
    rw [hok _ _ hdeclared]
    exact ⟨iff_of_false Bool.false_ne_true (by simp), fun h => absurd h Bool.false_ne_true⟩
  | error e =>
    rw [herror _ hdeclared]
    exact ⟨iff_of_true rfl ⟨e, rfl⟩, fun _ => rfl⟩

/-! ### Order -/

/-- The taken names are those that some scope binds. -/
def TakenBound (t : ScopeTable) : Prop :=
  ∀ x, x ∈ t.taken ↔ ∃ id, x ∈ t.bound id

/-- Parents are older than their children. -/
def ParentsOlder (t : ScopeTable) : Prop :=
  ∀ id s, t.scope? id = some s → s.parent < id

section

variable {t : ScopeTable}

theorem TakenBound.namesTaken (h : t.TakenBound) : t.NamesTaken :=
  fun id x hx => (h x).mpr ⟨id, hx⟩

theorem TakenBound.withName (h : t.TakenBound) {id : ScopeId} (name : String) (kind : SymbolKind)
    (span : Span) (hs : (t.scope? id).isSome = true) :
    (t.withName id name kind span).TakenBound := by
  intro x
  rw [mem_taken_withName, h x]
  constructor
  · rintro (⟨j, hj⟩ | rfl)
    · exact ⟨j, t.bound_subset_withName id name kind span j hj⟩
    · refine ⟨id, ?_⟩
      rw [bound_withName_self t id x kind span hs]
      exact List.mem_append_right _ (List.mem_singleton.mpr rfl)
  · rintro ⟨j, hj⟩
    by_cases hid : j = id
    · subst hid
      rw [bound_withName_self t j name kind span hs] at hj
      rcases List.mem_append.mp hj with hj | hj
      · exact .inl ⟨j, hj⟩
      · exact .inr (List.mem_singleton.mp hj)
    · rw [bound_withName_other t id name kind span hid] at hj
      exact .inl ⟨j, hj⟩

theorem TakenBound.newScope (h : t.TakenBound) (kind : ScopeKind) (parent : ScopeId)
    (span : Span) : (t.newScope kind parent span).1.TakenBound := by
  intro x
  simp only [taken_newScope, bound_newScope]
  exact h x

theorem ParentsOlder.withName (h : t.ParentsOlder) (id : ScopeId) (name : String)
    (kind : SymbolKind) (span : Span) : (t.withName id name kind span).ParentsOlder := by
  intro j s hj
  obtain ⟨r, hr, hparent⟩ := t.parent_withName id name kind span hj
  rw [hparent]
  exact h j r hr

/-- The id of a scope is its place, counted from one. -/
theorem le_length_scopes {id : ScopeId} (hs : (t.scope? id).isSome = true) :
    id ≤ t.scopes.length := by
  obtain ⟨s, hs⟩ := Option.isSome_iff_exists.mp hs
  obtain ⟨i, hi, hget⟩ := scope?_eq_some hs
  obtain ⟨hlt, -⟩ := List.getElem?_eq_some_iff.mp hget
  rw [index?_eq_some_iff.mp hi]
  exact hlt

theorem ParentsOlder.newScope (h : t.ParentsOlder) (kind : ScopeKind) {parent : ScopeId}
    (span : Span) (hparent : parent = 0 ∨ (t.scope? parent).isSome = true) :
    (t.newScope kind parent span).1.ParentsOlder := by
  intro j s hj
  rw [scope?_newScope] at hj
  obtain ⟨r, hr, rfl⟩ := Option.map_eq_some_iff.mp hj
  have hsame : (if j = parent then
      { r with children := r.children ++ [t.scopes.length + 1] } else r).parent =
      r.parent := by split <;> rfl
  rw [hsame]
  split at hr
  · rename_i hplace
    rw [← Option.some.inj hr, index?_eq_some_iff.mp hplace]
    rcases hparent with rfl | hsome
    · exact Nat.succ_pos _
    · exact Nat.lt_succ_of_le (le_length_scopes hsome)
  · exact h j r hr

end

/-- A table in order: its links and names agree, the taken names are the bound ones, no scope binds a
name twice, and parents are older than their children. -/
structure Orderly (t : ScopeTable) : Prop where
  consistent : t.Consistent
  mem_taken_iff : ∀ x, x ∈ t.taken ↔ ∃ id, x ∈ t.bound id
  nodup : ∀ id, (t.bound id).Nodup
  parent_lt : ∀ id s, t.scope? id = some s → s.parent < id

theorem orderly_empty : empty.Orderly := by
  have hscope (id : ScopeId) : empty.scope? id = none := by
    rw [scope?]
    cases index? id <;> rfl
  have hbound (id : ScopeId) : empty.bound id = [] := by
    rw [bound, hscope]
    rfl
  refine ⟨consistent_empty, fun x => ?_, fun id => ?_, fun id s hs => ?_⟩
  · simp only [hbound, List.not_mem_nil, exists_false, iff_false]
    exact List.not_mem_nil
  · rw [hbound]
    exact List.nodup_nil
  · rw [hscope] at hs
    cases hs

namespace Orderly

variable {t : ScopeTable}

theorem takenBound (h : t.Orderly) : t.TakenBound :=
  h.mem_taken_iff

theorem parentsOlder (h : t.Orderly) : t.ParentsOlder :=
  h.parent_lt

theorem namesTaken (h : t.Orderly) : t.NamesTaken :=
  h.takenBound.namesTaken

theorem withName (h : t.Orderly) {id : ScopeId} {name : String} (kind : SymbolKind) (span : Span)
    (hs : (t.scope? id).isSome = true) (hn : name ∉ t.bound id) :
    (t.withName id name kind span).Orderly := by
  constructor
  case consistent => exact h.consistent.withName hs
  case mem_taken_iff => exact h.takenBound.withName name kind span hs
  case nodup =>
    intro j
    by_cases hid : j = id
    · subst hid
      rw [bound_withName_self t j name kind span hs, List.nodup_append]
      refine ⟨h.nodup j, List.nodup_singleton name, fun x hx y hy hxy => ?_⟩
      rw [hxy, List.mem_singleton.mp hy] at hx
      exact hn hx
    · rw [bound_withName_other t id name kind span hid]
      exact h.nodup j
  case parent_lt => exact h.parentsOlder.withName id name kind span

theorem newScope (h : t.Orderly) {kind : ScopeKind} {parent : ScopeId} (span : Span)
    (hkind : kind ≠ .invalid) (hparent : parent = 0 ∨ (t.scope? parent).isSome = true) :
    (t.newScope kind parent span).1.Orderly := by
  constructor
  case consistent => exact h.consistent.newScope span hkind hparent
  case mem_taken_iff => exact h.takenBound.newScope kind parent span
  case nodup =>
    intro j
    rw [bound_newScope]
    exact h.nodup j
  case parent_lt => exact h.parentsOlder.newScope kind span hparent

theorem perform (h : t.Orderly) {op : Operation} (hop : t.Allows op) :
    (t.perform op).1.Orderly := by
  rcases perform_cases h.namesTaken hop with hsame | ⟨id, name, kind, span, hs, hn, hbound⟩ |
    ⟨kind, parent, span, hkind, hparent, hopened⟩
  · rw [hsame]
    exact h
  · rw [hbound]
    exact h.withName kind span hs hn
  · rw [hopened]
    exact h.newScope span hkind hparent

theorem run (h : t.Orderly) {ops : List Operation} (hops : t.AllowsAll ops) :
    (t.run ops).Orderly := by
  induction ops generalizing t with
  | nil => exact h
  | cons op ops ih => exact ih (h.perform hops.1) hops.2

/-- No two symbols of a scope have one name. -/
theorem symbol_unique (h : t.Orderly) {i j : SymbolId} {a b : Symbol} (ha : t.symbol? i = some a)
    (hb : t.symbol? j = some b) (hscope : a.scope = b.scope) (hname : a.name = b.name) : i = j := by
  -- a symbol stands in the index of its scope under its name
  have hindexed {k : SymbolId} {c : Symbol} (hc : t.symbol? k = some c) :
      ∃ s, t.scope? c.scope = some s ∧ (c.name, k) ∈ s.names := by
    obtain ⟨s, hs, hmem⟩ := h.consistent.owner k c hc
    obtain ⟨p, hp, hpk⟩ := List.mem_map.mp (h.consistent.symbol c.scope s k hs hmem)
    obtain ⟨-, sym, hsym, hpname⟩ := h.consistent.name c.scope s p hs hp
    rw [hpk, hc] at hsym
    obtain rfl := Option.some.inj hsym
    exact ⟨s, hs, by rw [hpname, ← hpk]; exact hp⟩
  obtain ⟨s, hs, hi⟩ := hindexed ha
  obtain ⟨s', hs', hj⟩ := hindexed hb
  rw [hscope, hs'] at hs
  obtain rfl := Option.some.inj hs
  have hnodup := h.nodup b.scope
  rw [bound_of_scope? hs'] at hnodup
  exact (Prod.mk.inj (List.inj_on_of_nodup_map hnodup hi hj hname)).2

end Orderly

/-! ### Visible names -/

/-- Going outwards from the scope `id` one comes to `a`. -/
inductive Outwards (t : ScopeTable) (a : ScopeId) : ScopeId → Prop where
  | here : Outwards t a a
  | parent {id : ScopeId} {s : Scope} : t.scope? id = some s → Outwards t a s.parent →
      Outwards t a id

/-- A search with fuel for all older scopes finds what an ancestor binds. -/
theorem ParentsOlder.lookupWithin_isSome_iff {t : ScopeTable} (h : t.ParentsOlder) {name : String}
    {fuel : Nat} {id : ScopeId} (hfuel : (t.scope? id).isSome = true → id < fuel) :
    (t.lookupWithin name fuel id).isSome = true ↔ ∃ a, Outwards t a id ∧ name ∈ t.bound a := by
  -- from an unknown scope one goes nowhere, and it binds nothing
  have hunknown (j : ScopeId) (hj : t.scope? j = none) :
      ¬∃ a, Outwards t a j ∧ name ∈ t.bound a := by
    rintro ⟨a, hout, hmem⟩
    cases hout with
    | here =>
      rw [bound, hj] at hmem
      exact absurd hmem List.not_mem_nil
    | parent hs =>
      rw [hj] at hs
      cases hs
  induction fuel generalizing id with
  | zero =>
    have hnone : t.scope? id = none := by
      rw [← Option.not_isSome_iff_eq_none]
      exact fun hsome => absurd (hfuel hsome) (Nat.not_lt_zero _)
    exact iff_of_false Bool.false_ne_true (hunknown id hnone)
  | succ fuel ih =>
    cases hs : t.scope? id with
    | none =>
      simp only [lookupWithin, hs]
      exact iff_of_false Bool.false_ne_true (hunknown id hs)
    | some s =>
      by_cases hmem : name ∈ t.bound id
      · exact iff_of_true (lookupWithin_succ_isSome hmem) ⟨id, .here, hmem⟩
      · have hfind : s.find? name = none := by
          rw [← Option.not_isSome_iff_eq_none, find?_isSome_iff, ← bound_of_scope? hs]
          exact hmem
        have hlt := h id s hs
        have hid := hfuel (by rw [hs]; rfl)
        have hparent : s.parent < fuel := hlt.trans_le (Nat.le_of_lt_succ hid)
        have houter : (t.lookupWithin name fuel s.parent).isSome = true ↔
            ∃ a, Outwards t a s.parent ∧ name ∈ t.bound a := ih fun _ => hparent
        rw [lookupWithin_parent hs hfind, houter]
        constructor
        · rintro ⟨a, hout, ha⟩
          exact ⟨a, .parent hs hout, ha⟩
        · rintro ⟨a, hout, ha⟩
          cases hout with
          | here => exact absurd ha hmem
          | parent hs' hout =>
            rw [hs] at hs'
            obtain rfl := Option.some.inj hs'
            exact ⟨a, hout, ha⟩

/-- What is visible from a scope: the global names, and what it and its ancestors bind. -/
theorem ParentsOlder.hasBinding_iff {t : ScopeTable} (h : t.ParentsOlder) (id : ScopeId)
    (name : String) :
    t.hasBinding id name = true ↔
      Name.isGlobal name = true ∨ ∃ a, Outwards t a id ∧ name ∈ t.bound a := by
  rw [hasBinding, Bool.or_eq_true, lookup?,
    h.lookupWithin_isSome_iff fun hs => Nat.lt_succ_of_le (le_length_scopes hs)]

theorem Orderly.hasBinding_iff {t : ScopeTable} (h : t.Orderly) (id : ScopeId) (name : String) :
    t.hasBinding id name = true ↔
      Name.isGlobal name = true ∨ ∃ a, Outwards t a id ∧ name ∈ t.bound a :=
  h.parentsOlder.hasBinding_iff id name

/-! ### Runs -/

/-- A table stays in order whatever is done to it. Validation finds nothing, the taken names are
those that scopes bind, no name is bound twice in a scope, a binding is refused just where it cannot
be made and then changes nothing, and what is visible is what ancestors bind. -/
theorem orderly_run (ops : List Operation) (h : empty.AllowsAll ops) :
    let t := empty.run ops
    t.flaws = [] ∧
    (∀ x, x ∈ t.taken ↔ ∃ id, x ∈ t.bound id) ∧
    ((∀ id, (t.bound id).Nodup) ∧ ∀ i j a b, t.symbol? i = some a → t.symbol? j = some b →
      a.scope = b.scope → a.name = b.name → i = j) ∧
    (∀ id name kind span op, op = .declare id name kind span ∨ op = .bind id name kind →
      ((t.perform op).2.isSome = true ↔ ((t.scope? id).isSome = true → name ∈ t.bound id)) ∧
      ((t.perform op).2.isSome = true → (t.perform op).1 = t)) ∧
    (∀ id base kind, (t.scope? id).isSome = true →
      (t.perform (.bindFresh id base kind)).2 = none) ∧
    ∀ id name, t.hasBinding id name = true ↔
      Name.isGlobal name = true ∨ ∃ a, Outwards t a id ∧ name ∈ t.bound a := by
  intro t
  have horder : t.Orderly := orderly_empty.run h
  refine ⟨flaws_eq_nil horder.consistent, horder.mem_taken_iff,
    ⟨horder.nodup, fun i j a b ha hb => horder.symbol_unique ha hb⟩,
    fun id name kind span op => perform_refused, fun id base kind hs => ?_, horder.hasBinding_iff⟩
  · rw [perform, bindFresh_eq base kind horder.namesTaken hs]

/-- A module with two messages that use one name; binding it again in one of them is refused. -/
def siblings : List Operation := [
  .newScope .module 0 .zero, .declare 1 "a" .global .zero, .newScope .message 1 .zero,
  .bind 2 "x" .param, .newScope .message 1 .zero, .bind 3 "x" .param, .bind 3 "x" .param,
  .bindFresh 3 "x".toList .constant, .freshName 2 "x".toList]

theorem orderly_run_siblings :
    empty.AllowsAll siblings ∧ (empty.run siblings).flaws = [] ∧
      ((empty.run siblings).perform (.bind 3 "x" .param)).1 = empty.run siblings ∧
      (empty.run siblings).hasBinding 3 "a" = true := by
  have hallowed : empty.AllowsAll siblings := by decide +kernel
  obtain ⟨hflaws, -, -, hrefused, -, hvisible⟩ := orderly_run siblings hallowed
  obtain ⟨hiff, hsame⟩ := hrefused 3 "x" .param .zero _ (.inr rfl)
  have hhas : "x" ∈ (empty.run siblings).bound 3 := by decide +kernel
  refine ⟨hallowed, hflaws, hsame (hiff.mpr fun _ => hhas), (hvisible 3 "a").mpr (.inr ?_)⟩
  have hparent : ((empty.run siblings).scope? 3).map (·.parent) = some 1 := by decide +kernel
  obtain ⟨s, hs, hone⟩ := Option.map_eq_some_iff.mp hparent
  exact ⟨1, .parent hs (hone ▸ .here), by decide +kernel⟩

end Phrasebook.ScopeTable
