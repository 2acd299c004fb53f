import Phrasebook.Proofs.Loading

/-!
Calling an exported function of a module gives the meaning of the message it was compiled from.
-/
namespace Phrasebook

open Evaluate (Eval)

namespace Loaded

/-! ### Parameters -/

section Parameters

variable {args : List (String × Value)} {params : List Param}

theorem bindParams_cons (p : Param) (scope : Evaluate.Scope) :
    bindParams args (p :: params) scope = bindParams args params
      ((paramName p, (Evaluate.option? args p.name).getD .undefined) :: scope) := rfl

theorem find?_bindParams_of_not_mem {x : String} (hx : x ∉ params.map paramName)
    (scope : Evaluate.Scope) : (bindParams args params scope).find? x = scope.find? x := by
  induction params generalizing scope with
  | nil => rfl
  | cons p r ih =>
    rw [List.map_cons, List.mem_cons, not_or] at hx
    rw [bindParams_cons, ih hx.2, Evaluate.find?_cons_of_ne _ _ (Ne.symm hx.1)]

theorem find?_bindParams {p : Param} (hp : p ∈ params) (hdistinct : (params.map paramName).Nodup)
    (scope : Evaluate.Scope) : (bindParams args params scope).find? (paramName p) =
      some ((Evaluate.option? args p.name).getD .undefined) := by
  induction params generalizing scope with
  | nil => exact absurd hp List.not_mem_nil
  | cons q r ih =>
    rw [List.map_cons, List.nodup_cons] at hdistinct
    rw [bindParams_cons]
    rcases List.mem_cons.mp hp with rfl | hp
    · rw [find?_bindParams_of_not_mem hdistinct.1, Evaluate.find?_cons_self]
    · exact ih hp hdistinct.2 _

end Parameters

/-! ### Constants of a function -/

variable [LocaleData]

/-- Constants that evaluate one after the other, without failing and without making objects. -/
inductive Settles : Evaluate.Scope → List (String × Expr) → Evaluate.Scope → Prop where
  | nil {scope} : Settles scope [] scope
  | cons {scope scope' name init v rest} : Evaluate.expr scope init = pure v →
      Settles ((name, v) :: scope) rest scope' → Settles scope ((name, init) :: rest) scope'

theorem Settles.append {scope scope' : Evaluate.Scope} {consts : List (String × Expr)}
    (h : Settles scope consts scope') {name : String} {init : Expr} {v : Value}
    (hv : Evaluate.expr scope' init = pure v) :
    Settles scope (consts ++ [(name, init)]) ((name, v) :: scope') := by
  induction h with
  | nil => exact .cons hv .nil
  | cons hinit _ ih => exact .cons hinit (ih hv)

theorem runBody_settles {name : Bytes} {scope scope' : Evaluate.Scope}
    {consts : List (String × Expr)} (h : Settles scope consts scope') (made : Nat)
    (rest : List Stmt) :
    runBody name scope made (consts.map (fun (n, e) => Stmt.const n e) ++ rest) =
      runBody name scope' made rest := by
  induction h with
  | nil => rfl
  | cons hinit _ ih =>
    rw [List.map_cons, List.cons_append, runBody, hinit]
    exact ih

end Loaded

namespace Compile

/-! ### Derived constants -/

theorem Closed.left {names : List String} {l r : List (String × Expr)} (h : Closed names (l ++ r)) :
    Closed names l := by
  induction l generalizing names with
  | nil => trivial
  | cons c l ih => exact ⟨h.1, ih h.2⟩

/-- A constant reads names of the list and constants in front of it. -/
theorem Closed.reads {names : List String} {l : List (String × Expr)} {c : String × Expr}
    (h : Closed names (l ++ [c])) : ReadsOnly (names ++ l.map (·.1)) c.2 := by
  induction l generalizing names with
  | nil =>
    rw [List.map_nil, List.append_nil]
    exact h.1
  | cons d l ih =>
    refine (ih h.2).mono ?_
    intro x hx
    simp only [List.map_cons, List.mem_append, List.mem_cons] at hx ⊢
    tauto

/-- No constant reads more than the list and the constants. -/
theorem Closed.reads_of_mem {names : List String} {l : List (String × Expr)} (h : Closed names l)
    {c : String × Expr} (hc : c ∈ l) : ReadsOnly (names ++ l.map (·.1)) c.2 := by
  induction l generalizing names with
  | nil => exact absurd hc List.not_mem_nil
  | cons d l ih =>
    rcases List.mem_cons.mp hc with rfl | hc
    · exact h.1.mono (List.subset_append_left _ _)
    · refine (ih h.2 hc).mono ?_
      intro x hx
      simp only [List.map_cons, List.mem_append, List.mem_cons] at hx ⊢
      tauto

section Derived

variable {ctx : Context} {outer : List String} {s : State} {w : Surroundings}
  {scope : Evaluate.Scope}

/-- Names that a message can read before its constants. -/
def State.given (s : State) : List String :=
  s.arguments.map (·.binding) ++ s.constantNames

/-- A scope with the arguments of a message and the formatters. -/
structure Provides (w : Surroundings) (s : State) (scope : Evaluate.Scope) : Prop where
  argument : ∀ a ∈ s.arguments, scope.find? a.binding = some (w.argument a.name)
  shared : ∀ p ∈ s.shared, ∃ ref, scope.find? p.2 = some (.formatter ref (w.formatter p.1))

theorem Provides.find (h : Provides w s scope) (hs : Sound ctx outer s) {x : String}
    (hx : x ∈ s.given) : ∃ v, scope.find? x = some v := by
  rcases List.mem_append.mp hx with hx | hx
  · obtain ⟨a, ha, rfl⟩ := List.mem_map.mp hx
    exact ⟨_, h.argument a ha⟩
  · rw [← hs.aligned] at hx
    obtain ⟨p, hp, rfl⟩ := List.mem_map.mp hx
    obtain ⟨ref, href⟩ := h.shared p hp
    exact ⟨_, href⟩

/-- Names of derived constants are new ones. -/
theorem Sound.derived_distinct (hs : Sound ctx outer s) :
    (s.derived.map (·.2)).Nodup ∧ ∀ x ∈ s.derived.map (·.2), x ∉ s.given := by
  have hbody : s.body.map (·.1) = s.derived.map (·.2) := by
    rw [hs.body_eq, List.map_map]
    rfl
  have hdistinct := hs.distinct
  rw [State.locals, hbody, ← List.append_assoc] at hdistinct
  obtain ⟨_, hnames, hapart⟩ := List.nodup_append.mp hdistinct
  refine ⟨hnames, ?_⟩
  intro x hx hgiven
  refine hapart x ?_ x hx rfl
  rcases List.mem_append.mp hgiven with hgiven | hgiven
  · exact List.mem_append_right _ hgiven
  · exact List.mem_append_left _ (List.mem_append_right _ hgiven)

variable [LocaleData]

/-- A derived constant evaluates where its names are bound and its formatter is at hand. -/
theorem LocalKey.evaluates {key : LocalKey} (hrefers : key.Refers s.shared)
    (hbound : ∀ x ∈ key.init.reads, ∃ v, scope.find? x = some v)
    (hshared : ∀ p ∈ s.shared, ∃ ref, scope.find? p.2 = some (.formatter ref (w.formatter p.1))) :
    ∃ v, Evaluate.expr scope key.init = pure v := by
  cases key with
  | formatted formatter value =>
    obtain ⟨kind, c, hmem⟩ := hrefers
    obtain ⟨ref, hformatter⟩ := hshared _ hmem
    obtain ⟨v, hv⟩ := hbound value (by simp [LocalKey.init, Expr.reads, readsAll])
    exact ⟨_, expr_method hformatter (w.format_method kind c) hv⟩
  | offset value x =>
    obtain ⟨v, hv⟩ := hbound value (by simp [LocalKey.init, Expr.reads])
    exact ⟨_, expr_minus x hv⟩
  | category rules value =>
    obtain ⟨kind, hmem⟩ := hrefers
    obtain ⟨ref, hformatter⟩ := hshared _ hmem
    obtain ⟨v, hv⟩ := hbound value (by simp [LocalKey.init, Expr.reads, readsAll])
    exact ⟨_, expr_method hformatter (w.select_method kind) hv⟩

/-- What holds in a scope after some of the derived constants. -/
structure Settled (scope scope' : Evaluate.Scope) (done : List (LocalKey × String)) : Prop where
  settles : Loaded.Settles scope (done.map fun p => (p.2, p.1.init)) scope'
  frame : ∀ x, x ∉ done.map (·.2) → scope'.find? x = scope.find? x
  derived : ∀ p ∈ done, ∃ v, Evaluate.expr scope' p.1.init = pure v ∧ scope'.find? p.2 = some v

/-- One more constant: it reads what is bound, and nothing in front of it reads it. -/
theorem Settled.append (hs : Sound ctx outer s) (h : Provides w s scope)
    {scope' : Evaluate.Scope} {done rest : List (LocalKey × String)} {p : LocalKey × String}
    (hderived : s.derived = done ++ p :: rest) (hdone : Settled scope scope' done) :
    ∃ v, Settled scope ((p.2, v) :: scope') (done ++ [p]) := by
  obtain ⟨hdistinct, hapart⟩ := hs.derived_distinct
  have hnames : (done.map fun p => ((p.2, p.1.init) : String × Expr)).map (·.1) =
      done.map (·.2) := by
    rw [List.map_map]
    rfl
  have hclosed : Closed s.given
      (done.map (fun p => ((p.2, p.1.init) : String × Expr)) ++ [(p.2, p.1.init)]) := by
    have hbody := hs.closed
    rw [hs.body_eq, hderived, List.append_cons, List.map_append, List.map_append] at hbody
    exact hbody.left
  have hreads : ReadsOnly (s.given ++ done.map (·.2)) p.1.init := hnames ▸ hclosed.reads
  have hnew : p.2 ∉ s.given ++ done.map (·.2) := by
    rw [hderived, List.map_append, List.map_cons] at hdistinct
    intro hmem
    rcases List.mem_append.mp hmem with hmem | hmem
    · refine hapart p.2 ?_ hmem
      rw [hderived]
      exact List.mem_map_of_mem (List.mem_append_right _ List.mem_cons_self)
    · exact (List.nodup_append.mp hdistinct).2.2 p.2 hmem p.2 List.mem_cons_self rfl
  have hgiven {x : String} (hx : x ∈ s.given) : scope'.find? x = scope.find? x := by
    refine hdone.frame x fun hmem => hapart x ?_ hx
    rw [hderived, List.map_append]
    exact List.mem_append_left _ hmem
  -- what was bound before is still there, so the initializer evaluates
  have hbound : ∀ x ∈ p.1.init.reads, ∃ v, scope'.find? x = some v := by
    intro x hx
    rcases List.mem_append.mp (hreads x hx) with hx | hx
    · rw [hgiven hx]
      exact h.find hs hx
    · obtain ⟨q, hq, rfl⟩ := List.mem_map.mp hx
      obtain ⟨v, _, hv⟩ := hdone.derived q hq
      exact ⟨v, hv⟩
  have hshared : ∀ q ∈ s.shared, ∃ ref,
      scope'.find? q.2 = some (.formatter ref (w.formatter q.1)) := by
    intro q hq
    rw [hgiven (List.mem_append_right _ (mem_constantNames hs hq))]
    exact h.shared q hq
  have hrefers := hs.refers p (hderived ▸ List.mem_append_right _ List.mem_cons_self)
  obtain ⟨v, hv⟩ := LocalKey.evaluates hrefers hbound hshared
  -- the new name is read by none of the constants so far
  have hcongr {e : Expr} (he : ReadsOnly (s.given ++ done.map (·.2)) e) :
      Evaluate.expr ((p.2, v) :: scope') e = Evaluate.expr scope' e := by
    refine Evaluate.expr_congr e fun x hx => Evaluate.find?_cons_of_ne _ _ ?_
    rintro rfl
    exact hnew (he _ hx)
  refine ⟨v, ?_, ?_, ?_⟩
  · rw [List.map_append]
    exact hdone.settles.append hv
  · intro x hx
    rw [List.map_append, List.mem_append, not_or] at hx
    have hne : p.2 ≠ x := fun heq => hx.2 (List.mem_singleton.mpr heq.symm)
    rw [Evaluate.find?_cons_of_ne _ _ hne]
    exact hdone.frame x hx.1
  · intro q hq
    rcases List.mem_append.mp hq with hq | hq
    · obtain ⟨u, hu, hfind⟩ := hdone.derived q hq
      have hread : ReadsOnly (s.given ++ done.map (·.2)) q.1.init :=
        hnames ▸ hclosed.left.reads_of_mem (List.mem_map_of_mem hq)
      refine ⟨u, (hcongr hread).trans hu, ?_⟩
      rw [Evaluate.find?_cons_of_ne _ _ ?_]
      · exact hfind
      · intro heq
        exact hnew (heq ▸ List.mem_append_right _ (List.mem_map_of_mem hq))
    · rw [List.mem_singleton.mp hq]
      exact ⟨v, (hcongr hreads).trans hv, Evaluate.find?_cons_self _ _ _⟩

/-- All derived constants settle, one after the other. -/
theorem Sound.settled (hs : Sound ctx outer s) (h : Provides w s scope) :
    ∃ scope', Settled scope scope' s.derived := by
  have hsettled : ∀ done rest, s.derived = done ++ rest → ∃ scope', Settled scope scope' done := by
    intro done
    -- from the front to the back: a constant reads only what was settled before it
    induction done using List.reverseRecOn with
    | nil =>
      intro _ _
      exact ⟨scope, .nil, fun _ _ => rfl, fun p hp => absurd hp List.not_mem_nil⟩
    | append_singleton done p ih =>
      intro rest hderived
      rw [← List.append_cons] at hderived
      obtain ⟨scope', hdone⟩ := ih (p :: rest) hderived
      obtain ⟨v, hnext⟩ := Settled.append hs h hderived hdone
      exact ⟨_, hnext⟩
  exact hsettled s.derived [] (List.append_nil _).symm

end Derived

/-! ### Calls -/

/-- A key is found where it is the only one of its kind. -/
theorem find?_of_nodup {α κ : Type} [BEq κ] [LawfulBEq κ] {k : α → κ} {l : List α} {a : α}
    (ha : a ∈ l) (hdistinct : (l.map k).Nodup) : l.find? (k · == k a) = some a := by
  induction l with
  | nil => exact absurd ha List.not_mem_nil
  | cons b r ih =>
    rw [List.map_cons, List.nodup_cons] at hdistinct
    rcases List.mem_cons.mp ha with rfl | ha
    · rw [List.find?_cons_of_pos (by simp)]
    · have hne : k b ≠ k a := fun heq => hdistinct.1 (heq ▸ List.mem_map_of_mem ha)
      rw [List.find?_cons_of_neg (by simpa using hne)]
      exact ih ha hdistinct.2

namespace Module

/-- The surroundings of a call: its arguments, and the formatters that the module has. -/
structure Serves (m : Module) (l : Locale) (args : List (String × Value)) (w : Surroundings) :
    Prop where
  argument : ∀ name, w.argument name = (Evaluate.option? args name).getD .undefined
  formatter : ∀ r ∈ m.idle.granted, w.formatter r.1 = r.formatter l

/-- The surroundings that what a module was asked for makes. -/
def surroundings (l : Locale) (granted : List Request) (args : List (String × Value)) :
    Surroundings where
  argument name := (Evaluate.option? args name).getD .undefined
  formatter key := Evaluate.construct key.formatterClass l
    (((granted.find? (·.1 == key)).map fun r => initEntries r.2).getD [])
  format_method kind c := by cases kind <;> rfl
  select_method _ := rfl

section Calls

variable {m : Module} {es : List Entry} {e : Entry} {l : Locale} {args : List (String × Value)}
  {w : Surroundings}

theorem Keeps.serves (h : m.Keeps es) (l : Locale) (args : List (String × Value)) :
    m.Serves l args (surroundings l m.idle.granted args) := by
  refine ⟨fun _ => rfl, ?_⟩
  intro r hr
  have hkeys : (m.idle.granted.map (·.1)).Nodup := by
    rw [map_fst_granted (h.sound m.root)]
    exact (h.sound m.root).keys_distinct
  have hfind : m.idle.granted.find? (·.1 == r.1) = some r := find?_of_nodup hr hkeys
  simp only [surroundings, hfind, Option.map_some, Option.getD_some, Request.formatter]

theorem Keeps.bindings_distinct (h : m.Keeps es) : (es.map (·.binding)).Nodup := by
  have houter := (List.nodup_append.mp (List.nodup_append.mp (h.sound m.root).distinct).1).1
  exact (List.nodup_append.mp houter).2.1

/-- A name that is neither a local nor a constant keeps its value. -/
theorem Keeps.find?_base (h : m.Keeps es) {x : String} {params : List Param}
    (hconstant : x ∉ m.constants.map (·.1)) (hparams : x ∉ params.map Loaded.paramName) :
    (Loaded.bindParams args params (m.loadedWith es l).scope).find? x =
      (baseScope m.options.target).find? x := by
  have hslots : x ∉ m.slots.map (·.1) := by
    rw [h.names_slots]
    exact hconstant
  rw [Loaded.find?_bindParams_of_not_mem hparams, loadedWith, find?_bindSlots_of_not_mem hslots]

/-- A parameter is bound to the local of its argument. -/
theorem Keeps.paramName_argument (h : m.Keeps es) (he : e ∈ es) {a : FoundArgument}
    (ha : a ∈ e.state.arguments) (type : String) :
    Loaded.paramName ⟨a.name, a.binding, type⟩ = a.binding := by
  have hbindable := ((h.locals_of_entry he).2 a.binding
    (List.mem_append_left _ (List.mem_map_of_mem ha))).1
  rw [Loaded.paramName, if_neg]
  intro hempty
  simp only at hempty
  rw [hempty] at hbindable
  exact absurd hbindable (by decide)

theorem Keeps.paramNames (h : m.Keeps es) (he : e ∈ es) :
    (loadedFunction e).params.map Loaded.paramName = e.state.arguments.map (·.binding) := by
  rw [loadedFunction, List.map_map]
  exact List.map_congr_left fun a ha => h.paramName_argument he ha _

/-- The parameters of a function and the constants of the module are what its message was compiled
for. -/
theorem Keeps.provides (h : m.Keeps es) (he : e ∈ es) (hw : m.Serves l args w) :
    Provides w e.state
      (Loaded.bindParams args (loadedFunction e).params (m.loadedWith es l).scope) := by
  obtain ⟨scope, outer, _, hsound, _⟩ := (h.compiled e he).sound
  have hparams := h.paramNames he
  have hdistinct : ((loadedFunction e).params.map Loaded.paramName).Nodup := by
    rw [hparams]
    exact (List.nodup_append.mp (h.locals_of_entry he).1).1
  constructor
  case argument =>
    intro a ha
    have hp : (⟨a.name, a.binding, a.type.declared⟩ : Param) ∈ (loadedFunction e).params :=
      List.mem_map.mpr ⟨a, ha, rfl⟩
    rw [← h.paramName_argument he ha a.type.declared, Loaded.find?_bindParams hp hdistinct,
      hw.argument]
  case shared =>
    intro p hp
    have hmem : p ∈ m.shared := (h.compiled e he).shared.subset hp
    obtain ⟨slot, hslot, hname, hkey⟩ := h.exists_slot hmem
    -- no parameter has the name of a constant, so none is hidden
    have hlocal : p.2 ∉ (loadedFunction e).params.map Loaded.paramName := by
      rw [hparams]
      intro hlocal
      refine (h.compiled e he).locals_apart p.2 (List.mem_append_left _ hlocal) ?_
      exact mem_constantNames (h.sound m.root) hmem
    obtain ⟨ref, href⟩ := find?_bindSlots (l := l) hslot h.names_slots_distinct.1
      (baseScope m.options.target) 0
    have hgranted : slot.2 ∈ m.idle.granted := by
      rw [← map_snd_slots]
      exact List.mem_map_of_mem hslot
    refine ⟨ref, ?_⟩
    rw [Loaded.find?_bindParams_of_not_mem hlocal, loadedWith, ← hname, href, ← hkey,
      hw.formatter _ hgranted]

variable [LocaleData]

/-- The scope in which a function returns holds what its message was compiled for. -/
theorem Keeps.holds (h : m.Keeps es) (he : e ∈ es) (hw : m.Serves l args w) {scope : ScopeId}
    {outer : List String} (hsound : Sound (m.context scope) outer e.state) :
    ∃ scope', Loaded.Settles
        (Loaded.bindParams args (loadedFunction e).params (m.loadedWith es l).scope)
        e.state.body scope' ∧ Holds (m.context scope) w e.state scope' := by
  have hprovides := h.provides he hw
  obtain ⟨scope', hsettled⟩ := hsound.settled hprovides
  obtain ⟨_, hapart⟩ := hsound.derived_distinct
  have hgiven {x : String} (hx : x ∈ e.state.given) :=
    hsettled.frame x fun hmem => hapart x hmem hx
  -- names that are no locals and no constants are found at the top level
  have hbase {x : String} (hlocal : x ∉ e.state.locals) (hconstant : x ∉ m.constants.map (·.1)) :
      scope'.find? x = (baseScope m.options.target).find? x := by
    rw [hsettled.frame x ?_, h.find?_base hconstant ?_]
    · rw [h.paramNames he]
      exact fun hmem => hlocal (List.mem_append_left _ hmem)
    · intro hmem
      refine hlocal (List.mem_append_right _ ?_)
      rw [hsound.body_eq, List.map_map]
      exact hmem
  refine ⟨scope', ?_, ?_, ?_, hsettled.derived, ?_, ?_⟩
  · rw [hsound.body_eq]
    exact hsettled.settles
  · intro a ha
    rw [hgiven (List.mem_append_left _ (List.mem_map_of_mem ha))]
    exact hprovides.argument a ha
  · intro p hp
    rw [hgiven (List.mem_append_right _ (mem_constantNames hsound hp))]
    exact hprovides.shared p hp
  · have hbindable {x : String} (hx : Name.isBindable x = true) : x ≠ "undefined" := by
      rintro rfl
      exact absurd hx (by decide)
    rw [hbase ?_ ?_]
    · cases m.options.target <;> rfl
    · exact fun hmem => hbindable ((h.locals_of_entry he).2 _ hmem).1 rfl
    · intro hmem
      exact hbindable ((h.sound m.root).bindable _ (List.mem_append_left _ hmem)) rfl
  · intro htree
    have htarget : m.options.target = .tree := htree
    have hfixed : markupName ∈ fixedNames m.options.target := by
      rw [fixedNames, if_pos htarget]
      exact List.mem_cons_of_mem _ (List.mem_singleton.mpr rfl)
    rw [hbase ?_ ?_, htarget]
    · rfl
    · exact fun hmem => ((h.locals_of_entry he).2 _ hmem).2.2 hfixed
    · intro hmem
      refine h.names_slots_distinct.2 markupName ?_ hfixed
      rw [h.names_slots]
      exact hmem

/-- A call of an export evaluates what its message was compiled to, in a scope that holds what the
message was compiled for. -/
theorem Keeps.call_evaluates (h : m.Keeps es) (he : e ∈ es) (hw : m.Serves l args w) :
    ∃ scope scope', ExprMeans (m.context scope) e.state e.value (m.meaning e.nodes) ∧
      Holds (m.context scope) w e.state scope' ∧
      (m.loadedWith es l).call e.name args =
        ((Evaluate.expr scope' e.value).run (m.loadedWith es l).made).map (·.1) := by
  have hexport : (m.loadedWith es l).exports.find? (·.name == e.name) =
      some ⟨e.binding, e.name⟩ := by
    have hmem : (⟨e.binding, e.name⟩ : Export) ∈ m.exports.reverse := by
      rw [h.exports, List.mem_reverse]
      exact List.mem_map.mpr ⟨e, he, rfl⟩
    refine find?_of_nodup (k := Export.name) hmem ?_
    rw [List.map_reverse, List.nodup_reverse, h.exports, List.map_map]
    exact h.names
  have hfunction : (m.loadedWith es l).functions.find? (·.name == e.binding) =
      some (loadedFunction e) := by
    have hmem : loadedFunction e ∈ (es.map loadedFunction).reverse :=
      List.mem_reverse.mpr (List.mem_map_of_mem he)
    refine find?_of_nodup (k := LoadedFunction.name) hmem ?_
    rw [List.map_reverse, List.nodup_reverse, List.map_map]
    exact h.bindings_distinct
  obtain ⟨scope, outer, _, hsound, hmeans⟩ := (h.compiled e he).sound
  obtain ⟨scope', hsettles, hholds⟩ := h.holds he hw hsound
  refine ⟨scope, scope', hmeans, hholds, ?_⟩
  rw [Loaded.call, hexport]
  simp only [hfunction]
  exact Loaded.runBody_settles hsettles _ [.return e.value]

/-- A call of an export is the meaning of its message. -/
theorem Keeps.call_eq (h : m.Keeps es) (he : e ∈ es) (hw : m.Serves l args w) :
    (m.loadedWith es l).call e.name args =
      ((m.meaning e.nodes w).run (m.loadedWith es l).made).map (·.1) := by
  obtain ⟨_, scope', hmeans, hholds, hcall⟩ := h.call_evaluates he hw
  rw [hcall, hmeans.eval w scope' hholds]

end Calls

end Module

end Compile

end Phrasebook
