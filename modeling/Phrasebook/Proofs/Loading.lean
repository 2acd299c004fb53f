import Phrasebook.Proofs.WellScoped

/-!
Loading the program of a module. Its constants become formatters, each under its own name, if
there are none or the locale can be read; how many objects that makes depends on what was asked for.
-/
namespace Phrasebook

namespace Evaluate

/-! ### Scopes -/

theorem find?_cons_self (scope : Scope) (x : String) (v : Value) :
    Scope.find? ((x, v) :: scope) x = some v := by
  rw [Scope.find?, List.find?_cons_of_pos (by simp)]
  rfl

theorem find?_cons_of_ne (scope : Scope) {x y : String} (v : Value) (h : y ≠ x) :
    Scope.find? ((y, v) :: scope) x = scope.find? x := by
  rw [Scope.find?, List.find?_cons_of_neg (by simpa using h), Scope.find?]

end Evaluate

namespace Compile

open Evaluate (Eval)

/-! ### Initializers -/

/-- What `new` constructs for a key. -/
def SharedKey.formatterClass : SharedKey → FormatterClass
  | .formatter .number _ => .number
  | .formatter _ _ => .date
  | .pluralRules _ => .plural

def literalValue : Expr → Value
  | .string s => .text s
  | .number x => .number x
  | .bool b => .flag b
  | _ => .undefined

/-- The options object of an initializer. -/
def initEntries : Expr → List (String × Value)
  | .new _ [_, .object props] =>
    props.foldl (fun done p => Evaluate.setEntry p.1 (literalValue p.2) done) []
  | _ => []

/-- How many objects an initializer makes: the formatter, and the options if there are some. -/
def initObjects : Expr → Nat
  | .new _ [_, .object _] => 2
  | _ => 1

/-- A request that a message can make. -/
def Request.Proper (locale : String) (r : Request) : Prop :=
  (∃ kind o, r = formatterRequest locale kind o) ∨ ∃ kind, r = rulesRequest locale kind

/-- The value of an initializer whose locale can be read, when `made` objects were made before. -/
def Request.formatter (l : Locale) (r : Request) : Formatter :=
  Evaluate.construct r.1.formatterClass l (initEntries r.2)

theorem requests_proper (locale : String) (formats : Formats) (n : Node) :
    ∀ r ∈ requests locale formats n, Request.Proper locale r := by
  refine requests_forall ?_ ?_ n ?_
  · exact fun kind => Or.inr ⟨kind, rfl⟩
  · exact Or.inl ⟨_, _, rfl⟩
  · intro k _
    cases k with
    | format => exact Or.inl ⟨_, _, rfl⟩
    | _ => trivial

section Initializers

variable [LocaleData] {scope : Evaluate.Scope}

theorem entries_literals {props : List (String × Expr)}
    (h : ∀ p ∈ props, Evaluate.expr scope p.2 = pure (literalValue p.2))
    (done : List (String × Value)) :
    Evaluate.entries scope done props =
      pure (props.foldl (fun done p => Evaluate.setEntry p.1 (literalValue p.2) done) done) := by
  induction props generalizing done with
  | nil => rw [Evaluate.entries]; rfl
  | cons p r ih =>
    obtain ⟨k, e⟩ := p
    rw [Evaluate.entries, h (k, e) List.mem_cons_self, pure_bind,
      ih fun q hq => h q (List.mem_cons_of_mem _ hq)]
    rfl

theorem callNew_eq (c : FormatterClass) (locale : String) (rest : List Value) (made : Nat) :
    (Evaluate.callNew (.formatterClass c) (.text locale :: rest)).run made =
      match LocaleData.parse locale with
      | .ok l => .ok (.formatter (.made made) (Evaluate.construct c l
          (Evaluate.optionEntries (.text locale :: rest))), made + 1)
      | .error f => .error (.locale f) := by
  rw [Evaluate.callNew, Evaluate.localeArg]
  cases LocaleData.parse locale with
  | ok l => rfl
  | error f => rfl

theorem expr_class {property : String} {c : FormatterClass}
    (hintl : scope.find? intlName = some (.nameSpace .formatters))
    (hclass : Evaluate.member (.nameSpace .formatters) property = .ok (.formatterClass c)) :
    Evaluate.expr scope (.member (.ident intlName) property) = pure (.formatterClass c) := by
  simp only [Evaluate.expr, hintl, pure_bind, hclass]
  rfl

/-- Constructing a formatter without options. -/
theorem run_new {callee : Expr} {c : FormatterClass} (locale : String)
    (hcallee : Evaluate.expr scope callee = pure (.formatterClass c)) (made : Nat) :
    (Evaluate.expr scope (.new callee [.string locale])).run made =
      match LocaleData.parse locale with
      | .ok l => .ok (.formatter (.made made) (Evaluate.construct c l []), made + 1)
      | .error f => .error (.locale f) := by
  simp only [Evaluate.expr, Evaluate.exprs, hcallee, pure_bind]
  exact callNew_eq c locale [] made

/-- Constructing a formatter with options. -/
theorem run_new_object {callee : Expr} {c : FormatterClass} (locale : String)
    (hcallee : Evaluate.expr scope callee = pure (.formatterClass c))
    {props : List (String × Expr)}
    (hprops : ∀ p ∈ props, Evaluate.expr scope p.2 = pure (literalValue p.2)) (made : Nat) :
    (Evaluate.expr scope (.new callee [.string locale, .object props])).run made =
      match LocaleData.parse locale with
      | .ok l => .ok (.formatter (.made (made + 1)) (Evaluate.construct c l
          (initEntries (.new callee [.string locale, .object props]))), made + 2)
      | .error f => .error (.locale f) := by
  simp only [Evaluate.expr, Evaluate.exprs, hcallee, pure_bind, entries_literals hprops]
  exact callNew_eq c locale _ (made + 1)

/-- The initializer of a request makes the formatter of the request, if the locale can be read. -/
theorem run_request {locale : String} {r : Request} (hr : r.Proper locale)
    (hintl : scope.find? intlName = some (.nameSpace .formatters)) (made : Nat) :
    (Evaluate.expr scope r.2).run made =
      match LocaleData.parse locale with
      | .ok l => .ok (.formatter (.made (made + initObjects r.2 - 1)) (r.formatter l),
          made + initObjects r.2)
      | .error f => .error (.locale f) := by
  rcases hr with ⟨kind, o, rfl⟩ | ⟨kind, rfl⟩
  · have hclass : Evaluate.expr scope (.member (.ident intlName) (constructorName kind)) =
        pure (.formatterClass (SharedKey.formatter kind o.canonical).formatterClass) := by
      cases kind <;> exact expr_class hintl rfl
    cases o with
    | nil => exact run_new locale hclass made
    | cons p r =>
      refine run_new_object locale hclass ?_ made
      intro q hq
      obtain ⟨⟨key, value⟩, _, rfl⟩ := List.mem_map.mp hq
      cases value <;> simp only [valueExpr, Evaluate.expr, literalValue]
  · have hclass : Evaluate.expr scope (.member (.ident intlName) "PluralRules") =
        pure (.formatterClass .plural) := expr_class hintl rfl
    cases kind with
    | cardinal => exact run_new locale hclass made
    | ordinal =>
      refine run_new_object locale hclass ?_ made
      intro q hq
      rw [List.mem_singleton.mp hq, Evaluate.expr]
      rfl

end Initializers

/-! ### Constants -/

/-- A constant with its request. -/
abbrev Slot := String × Request

def Slot.stmt (slot : Slot) : Stmt :=
  .const slot.1 slot.2.2

/-- Scope and number of objects after the constants of slots. -/
def bindSlots (l : Locale) (scope : Evaluate.Scope) (made : Nat) :
    List Slot → Evaluate.Scope × Nat
  | [] => (scope, made)
  | slot :: r =>
    let objects := made + initObjects slot.2.2
    bindSlots l ((slot.1, .formatter (.made (objects - 1)) (slot.2.formatter l)) :: scope) objects r

section Slots

variable {l : Locale} {locale : String} {slots : List Slot}

theorem find?_bindSlots_of_not_mem {x : String} (hx : x ∉ slots.map (·.1))
    (scope : Evaluate.Scope) (made : Nat) :
    (bindSlots l scope made slots).1.find? x = scope.find? x := by
  induction slots generalizing scope made with
  | nil => rfl
  | cons slot r ih =>
    rw [List.map_cons, List.mem_cons, not_or] at hx
    rw [bindSlots, ih hx.2, Evaluate.find?_cons_of_ne _ _ (Ne.symm hx.1)]

theorem find?_bindSlots {slot : Slot} (hslot : slot ∈ slots) (hdistinct : (slots.map (·.1)).Nodup)
    (scope : Evaluate.Scope) (made : Nat) :
    ∃ ref, (bindSlots l scope made slots).1.find? slot.1 =
      some (.formatter ref (slot.2.formatter l)) := by
  induction slots generalizing scope made with
  | nil => exact absurd hslot List.not_mem_nil
  | cons first r ih =>
    rw [List.map_cons, List.nodup_cons] at hdistinct
    rw [bindSlots]
    rcases List.mem_cons.mp hslot with rfl | hslot
    · rw [find?_bindSlots_of_not_mem hdistinct.1, Evaluate.find?_cons_self]
      exact ⟨_, rfl⟩
    · exact ih hslot hdistinct.2 _ _

/-- The number of objects made depends on the requests only. -/
theorem made_bindSlots (scope : Evaluate.Scope) (made : Nat) :
    (bindSlots l scope made slots).2 = made + ((slots.map (·.2)).map fun r => initObjects r.2).sum := by
  induction slots generalizing scope made with
  | nil => rfl
  | cons slot r ih =>
    rw [bindSlots, ih]
    simp only [List.map_cons, List.sum_cons]
    omega

variable [LocaleData] (hproper : ∀ slot ∈ slots, slot.2.Proper locale) (hnames : intlName ∉ slots.map (·.1))

include hproper hnames

theorem foldlM_slots (hlocale : LocaleData.parse locale = .ok l) (p : Loaded)
    (hintl : p.scope.find? intlName = some (.nameSpace .formatters)) :
    (slots.map Slot.stmt).foldlM Loaded.addStmt p =
      .ok { p with
        scope := (bindSlots l p.scope p.made slots).1
        made := (bindSlots l p.scope p.made slots).2 } := by
  induction slots generalizing p with
  | nil => rfl
  | cons slot r ih =>
    have hrun := run_request (hproper slot List.mem_cons_self) hintl p.made
    rw [hlocale] at hrun
    rw [List.map_cons, List.mem_cons, not_or] at hnames
    rw [List.map_cons, List.foldlM_cons, Slot.stmt, Loaded.addStmt, hrun]
    refine (ih (fun s hs => hproper s (List.mem_cons_of_mem _ hs)) hnames.2 _ ?_).trans rfl
    rw [Evaluate.find?_cons_of_ne _ _ (Ne.symm hnames.1)]
    exact hintl

/-- Without a locale no constant can be made. -/
theorem slots_eq_nil_of_foldlM {f : String} (hlocale : LocaleData.parse locale = .error f)
    {p loaded : Loaded} (hintl : p.scope.find? intlName = some (.nameSpace .formatters))
    (hload : (slots.map Slot.stmt).foldlM Loaded.addStmt p = .ok loaded) : slots = [] := by
  cases slots with
  | nil => rfl
  | cons slot r =>
    have hrun := run_request (hproper slot List.mem_cons_self) hintl p.made
    rw [hlocale] at hrun
    rw [List.map_cons, List.foldlM_cons, Slot.stmt, Loaded.addStmt, hrun] at hload
    exact nomatch hload

end Slots

/-- The locale of formatters; any will do for a module that has none. -/
def Options.loadedLocale [LocaleData] (o : Options) : Locale :=
  match LocaleData.parse o.effectiveLocale with
  | .ok l => l
  | .error _ => .english

/-- What the constants of a program find around them. -/
def baseScope (target : Target) : Evaluate.Scope :=
  (if target = .tree then [(markupName, .nameSpace .markup)] else []) ++ Evaluate.globals

namespace Module

def slots (m : Module) : List Slot :=
  List.zipWith (fun key constant => (constant.1, key.1, constant.2)) m.shared m.constants

section Loading

variable {m : Module} {es : List Entry}

theorem Keeps.length_shared (h : m.Keeps es) : m.shared.length = m.constants.length :=
  Compile.length_shared (h.sound m.root)

theorem Keeps.map_slots {β : Type} (h : m.Keeps es) (f : Slot → β) {g : String × Expr → β}
    (hf : ∀ key name e, f (name, key, e) = g (name, e)) : m.slots.map f = m.constants.map g := by
  have hlength := h.length_shared
  rw [slots, List.map_zipWith]
  -- keys and constants are two lists of one length, and the induction is on both
  generalize m.shared = shared at hlength
  generalize m.constants = constants at hlength
  induction constants generalizing shared with
  | nil => rw [List.zipWith_nil_right, List.map_nil]
  | cons c r ih =>
    cases shared with
    | nil => exact absurd hlength (by simp)
    | cons p q =>
      rw [List.zipWith_cons_cons, hf, ih q (by simpa using hlength), List.map_cons]

theorem map_snd_slots (m : Module) : m.slots.map (·.2) = m.idle.granted := by
  rw [slots, List.map_zipWith, State.granted]
  rfl

theorem Keeps.names_slots (h : m.Keeps es) : m.slots.map (·.1) = m.idle.constantNames :=
  h.map_slots _ fun _ _ _ => rfl

/-- Every shared name has its slot. -/
theorem Keeps.exists_slot (h : m.Keeps es) {p : SharedKey × String} (hp : p ∈ m.shared) :
    ∃ slot ∈ m.slots, slot.1 = p.2 ∧ slot.2.1 = p.1 := by
  have haligned : m.shared.map (·.2) = m.constants.map (·.1) := (h.sound m.root).aligned
  rw [slots]
  generalize m.shared = shared at haligned hp
  generalize m.constants = constants at haligned
  induction shared generalizing constants with
  | nil => exact absurd hp List.not_mem_nil
  | cons q r ih =>
    cases constants with
    | nil => exact nomatch haligned
    | cons c d =>
      rw [List.map_cons, List.map_cons, List.cons.injEq] at haligned
      rw [List.zipWith_cons_cons]
      rcases List.mem_cons.mp hp with rfl | hp
      · exact ⟨_, List.mem_cons_self, haligned.1.symm, rfl⟩
      · obtain ⟨slot, hslot, hname⟩ := ih hp d haligned.2
        exact ⟨slot, List.mem_cons_of_mem _ hslot, hname⟩

theorem Keeps.proper_slots (h : m.Keeps es) :
    ∀ slot ∈ m.slots, slot.2.Proper m.options.effectiveLocale := by
  intro slot hslot
  have hgranted : slot.2 ∈ m.idle.granted := by
    rw [← map_snd_slots]
    exact List.mem_map_of_mem hslot
  rw [h.granted] at hgranted
  rcases mem_share hgranted with hr | hr
  · exact absurd hr List.not_mem_nil
  · obtain ⟨e, _, hr⟩ := List.mem_flatMap.mp hr
    obtain ⟨list, hlist, hr⟩ := List.mem_flatten.mp hr
    obtain ⟨n, _, rfl⟩ := List.mem_map.mp hlist
    exact requests_proper _ _ n _ hr

/-- Names of constants are none of the fixed names, and no two are the same. -/
theorem Keeps.names_slots_distinct (h : m.Keeps es) :
    (m.slots.map (·.1)).Nodup ∧ ∀ x ∈ m.slots.map (·.1), x ∉ fixedNames m.options.target := by
  rw [h.names_slots]
  have hdistinct := (List.nodup_append.mp (h.sound m.root).distinct).1
  obtain ⟨_, hnames, hapart⟩ := List.nodup_append.mp hdistinct
  refine ⟨hnames, ?_⟩
  intro x hx hfixed
  exact hapart x (List.mem_append_left _ hfixed) x hx rfl

/-- The program of a module as it is loaded with a locale. -/
def loadedWith (m : Module) (es : List Entry) (l : Locale) : Loaded :=
  ⟨(bindSlots l (baseScope m.options.target) 0 m.slots).1, (es.map loadedFunction).reverse,
    m.exports.reverse, (bindSlots l (baseScope m.options.target) 0 m.slots).2⟩

theorem foldlM_functions [LocaleData] (list : List Entry) (p : Loaded) :
    (list.map m.function).foldlM Loaded.addStmt p =
      .ok { p with functions := (list.map loadedFunction).reverse ++ p.functions } := by
  induction list generalizing p with
  | nil => rfl
  | cons e r ih =>
    rw [List.map_cons, List.foldlM_cons, function, Loaded.addStmt]
    refine (ih _).trans ?_
    rw [List.map_cons, List.reverse_cons, List.append_assoc]
    rfl

/-- Loading: the import, then the constants; functions and exports are only noted. -/
theorem Keeps.constants_eq (h : m.Keeps es) :
    m.constants.map (fun (n, e) => Stmt.const n e) = m.slots.map Slot.stmt :=
  (h.map_slots Slot.stmt fun _ _ _ => rfl).symm

theorem Keeps.load_eq [LocaleData] (h : m.Keeps es) :
    m.program.load = do
      let p ← (m.slots.map Slot.stmt).foldlM Loaded.addStmt
        { Loaded.empty with scope := baseScope m.options.target }
      return { p with
        functions := (es.map loadedFunction).reverse ++ p.functions
        exports := m.exports.reverse ++ p.exports } := by
  have himports : (if m.options.target = .tree then [Stmt.importAll markupName markupSource]
      else []).foldlM Loaded.addStmt Loaded.empty =
      .ok { Loaded.empty with scope := baseScope m.options.target } := by
    rw [baseScope]
    split <;> rfl
  rw [Program.load, program, List.foldlM_append, List.foldlM_append, List.foldlM_append,
    h.constants_eq, himports, h.functions]
  generalize hstart : ({ Loaded.empty with scope := baseScope m.options.target } : Loaded) = start
  have hbind : (Except.ok start >>= fun p => (m.slots.map Slot.stmt).foldlM Loaded.addStmt p) =
      (m.slots.map Slot.stmt).foldlM Loaded.addStmt start := rfl
  rw [hbind]
  cases (m.slots.map Slot.stmt).foldlM Loaded.addStmt start with
  | error e => rfl
  | ok p =>
    have hfunctions := foldlM_functions (m := m) es p
    simp only [bind, Except.bind] at hfunctions ⊢
    rw [hfunctions]
    rfl

theorem find?_intl_baseScope (target : Target) :
    (baseScope target).find? intlName = some (.nameSpace .formatters) := by
  cases target <;> rfl

/-- A module whose locale can be read, or that has no constants, is loaded. -/
theorem Keeps.load_ok [LocaleData] (h : m.Keeps es) {l : Locale}
    (hlocale : LocaleData.parse m.options.effectiveLocale = .ok l ∨ m.slots = []) :
    m.program.load = .ok (m.loadedWith es l) := by
  have hintl : intlName ∉ m.slots.map (·.1) :=
    fun hmem => h.names_slots_distinct.2 intlName hmem List.mem_cons_self
  rw [h.load_eq, loadedWith]
  rcases hlocale with hlocale | hnone
  · rw [foldlM_slots h.proper_slots hintl hlocale _ (find?_intl_baseScope _)]
    simp only [bind, Except.bind, Loaded.empty, List.append_nil]
    rfl
  · rw [hnone]
    simp only [List.map_nil, List.foldlM_nil, bindSlots, Loaded.empty, pure_bind, List.append_nil]
    rfl

/-- Whatever is loaded was loaded so. -/
theorem Keeps.load_inv [LocaleData] (h : m.Keeps es) {loaded : Loaded} (hload : m.program.load = .ok loaded) :
    loaded = m.loadedWith es m.options.loadedLocale ∧
      (m.slots ≠ [] → ∃ l, LocaleData.parse m.options.effectiveLocale = .ok l) := by
  have hready : LocaleData.parse m.options.effectiveLocale = .ok m.options.loadedLocale ∨
      m.slots = [] := by
    rw [Options.loadedLocale]
    cases hparse : LocaleData.parse m.options.effectiveLocale with
    | ok l => exact Or.inl rfl
    | error f =>
      refine Or.inr ?_
      have hintl : intlName ∉ m.slots.map (·.1) :=
        fun hmem => h.names_slots_distinct.2 intlName hmem List.mem_cons_self
      rw [h.load_eq] at hload
      cases hfold : (m.slots.map Slot.stmt).foldlM Loaded.addStmt
          { Loaded.empty with scope := baseScope m.options.target } with
      | error e =>
        rw [hfold] at hload
        exact nomatch hload
      | ok p =>
        exact slots_eq_nil_of_foldlM h.proper_slots hintl hparse (find?_intl_baseScope _) hfold
  refine ⟨?_, fun hne => ⟨_, hready.resolve_right hne⟩⟩
  rw [h.load_ok hready] at hload
  exact (Except.ok.inj hload).symm

end Loading

end Module

end Compile

end Phrasebook
