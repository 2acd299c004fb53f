import Phrasebook.Locale.Common
import Phrasebook.Proofs.Grammar
import Phrasebook.Proofs.Simulation
import Phrasebook.Proofs.Verdicts

/-!
What holds of a module while messages are added to it. Every message that was accepted has an
entry; the functions, exports and arguments of the module are those of its entries, and its
constants are those that the entries ask for. Rolling back what a failed message has added restores
the module, but for the names in use.
-/
namespace Phrasebook.Compile

/-- A message that a module has accepted: its tree, and what it was compiled to. -/
structure Entry where
  name : Bytes
  text : Bytes
  binding : String
  nodes : List Node
  value : Expr
  state : State

/-- The names that every module of a target finds or imports. -/
def fixedNames (target : Target) : List String :=
  intlName :: if target = .tree then [markupName] else []

/-! ### Sound states without a message -/

/-- The state between two messages. -/
def State.idle (s : State) : State :=
  { s with
    arguments := []
    body := []
    derived := [] }

namespace Sound

variable {ctx : Context} {outer : List String} {s : State}

/-- Another table that has the names in use. -/
theorem retable (hs : Sound ctx outer s) {t : ScopeTable} (htidy : t.Tidy ctx.root)
    (hroot : s.table.bound ctx.root ⊆ t.bound ctx.root)
    (hscope : s.table.bound ctx.scope ⊆ t.bound ctx.scope) :
    Sound ctx outer { s with table := t } where
  tidy := htidy
  outer_bound x hx := hroot (hs.outer_bound x hx)
  constants_bound x hx := hroot (hs.constants_bound x hx)
  locals_bound x hx := hscope (hs.locals_bound x hx)
  distinct := hs.distinct
  bindable := hs.bindable
  arguments_distinct := hs.arguments_distinct
  aligned := hs.aligned
  keys_distinct := hs.keys_distinct
  ordered := hs.ordered
  body_eq := hs.body_eq
  refers := hs.refers
  closed := hs.closed

/-- Without the message any scope may be next. -/
theorem idle (hs : Sound ctx outer s) (scope : ScopeId) :
    Sound { ctx with scope } outer s.idle where
  tidy := hs.tidy
  outer_bound := hs.outer_bound
  constants_bound := hs.constants_bound
  locals_bound := fun x hx => absurd hx List.not_mem_nil
  distinct := by
    have hleft := (List.nodup_append.mp hs.distinct).1
    simpa only [State.idle, State.locals, State.constantNames, List.map_nil, List.append_nil]
      using hleft
  bindable x hx := by
    simp only [State.idle, State.locals, State.constantNames, List.map_nil, List.append_nil] at hx
    exact hs.bindable x (List.mem_append_left _ hx)
  arguments_distinct := List.nodup_nil
  aligned := hs.aligned
  keys_distinct := hs.keys_distinct
  ordered := hs.ordered
  body_eq := rfl
  refers := fun p hp => absurd hp List.not_mem_nil
  closed := trivial

/-- One more name of the module, between two messages. -/
theorem addOuter (hs : Sound ctx outer s) (hidle : s.idle = s) {n : String} (kind : SymbolKind)
    (hfree : n ∉ s.table.bound ctx.root) :
    Sound ctx (outer ++ [n])
      { s with table := s.table.withName ctx.root n kind .zero } := by
  have hid := hs.tidy.rooted.exists_root
  have hext := s.table.extends_withName ctx.root n kind .zero
  have hnolocals : s.locals = [] := by
    rw [← hidle]
    rfl
  have hmoved := hs.retable (hs.tidy.withName n kind .zero hid) (hext.bound _) (hext.bound _)
  refine { hmoved with outer_bound := ?_, distinct := ?_ }
  · intro x hx
    rcases List.mem_append.mp hx with hx | hx
    · exact hmoved.outer_bound x hx
    · rw [ScopeTable.bound_withName_self _ _ _ _ _ hid]
      exact List.mem_append_right _ hx
  · have hold := hs.distinct
    have hnew : n ∉ outer ++ s.constantNames := by
      intro hmem
      rcases List.mem_append.mp hmem with hmem | hmem
      · exact hfree (hs.outer_bound n hmem)
      · exact hfree (hs.constants_bound n hmem)
    have hlocals : State.locals { s with table := s.table.withName ctx.root n kind .zero } = [] :=
      hnolocals
    rw [hlocals, List.append_nil]
    rw [hnolocals, List.append_nil] at hold
    rw [List.append_assoc, List.singleton_append, List.nodup_middle]
    exact List.nodup_cons.mpr ⟨hnew, hold⟩

end Sound

/-! ### Rolling back -/

section RollingBack

variable {ctx : Context} {outer outer' : List String} {s s' : State}

/-- The keys since a state are those of the pairs since then. -/
theorem Sound.dropped_keys (hs : Sound ctx outer s) (hs' : Sound ctx outer' s')
    {added : List (SharedKey × String)} (hadded : s.shared ++ added = s'.shared) :
    s'.sharedOrder.drop s.sharedOrder.length = added.map (·.1) := by
  rw [hs'.ordered, hs.ordered, ← hadded, List.map_append, List.drop_left]

/-- Dropping the keys recorded since a state leaves the pairs of that state. -/
theorem Grows.filter_shared (h : Grows s s') (hs : Sound ctx outer s)
    (hs' : Sound ctx outer' s') :
    (s'.shared.filter fun p => !(s'.sharedOrder.drop s.sharedOrder.length).contains p.1) =
      s.shared := by
  obtain ⟨added, hadded⟩ := h.shared
  have hdistinct := hs'.keys_distinct
  rw [← hadded, List.map_append] at hdistinct
  have hapart := (List.nodup_append.mp hdistinct).2.2
  rw [hs.dropped_keys hs' hadded, ← hadded, List.filter_append]
  -- no key is recorded twice, so the earlier pairs stay
  have hkept : s.shared.filter (fun p => !(added.map (·.1)).contains p.1) = s.shared := by
    refine List.filter_eq_self.mpr fun p hp => ?_
    rw [Bool.not_eq_true', List.contains_eq_mem, decide_eq_false_iff_not]
    exact fun hmem => hapart p.1 (List.mem_map_of_mem hp) p.1 hmem rfl
  have hdropped : added.filter (fun p => !(added.map (·.1)).contains p.1) = [] := by
    refine List.filter_eq_nil_iff.mpr fun p hp => ?_
    rw [List.contains_eq_mem, decide_eq_true (List.mem_map_of_mem hp)]
    exact Bool.false_ne_true
  rw [hkept, hdropped, List.append_nil]

/-- Going back to the mark of a module undoes whatever compiling a message has added, but for the
names it has used up. -/
theorem Module.rollback_mark {m : Module} (hconstants : m.constants = s.constants)
    (hshared : m.shared = s.shared) (hkeys : m.sharedOrder = s.sharedOrder) (h : Grows s s')
    (hs : Sound ctx outer s) (hs' : Sound ctx outer' s') :
    (m.withState s').rollback m.mark = { m with table := s'.table } := by
  have hconstants' := (List.prefix_iff_eq_take.mp h.constants).symm
  have horder' := (List.prefix_iff_eq_take.mp h.sharedOrder).symm
  have hpairs := h.filter_shared hs hs'
  rw [← hconstants] at hconstants'
  rw [← hkeys] at horder' hpairs
  rw [← hshared] at hpairs
  rw [Module.rollback, Module.mark, Module.withState]
  simp only [hconstants', horder', hpairs]

end RollingBack

namespace Module

/-! ### Entries -/

def context (m : Module) (scope : ScopeId) : Context :=
  ⟨m.options.target, m.options.effectiveLocale, m.formats, m.root, scope⟩

/-- The state that the next message starts from. -/
def idle (m : Module) : State :=
  ⟨m.table, m.constants, m.shared, m.sharedOrder, [], [], []⟩

/-- The names of a module besides its constants. -/
def outer (m : Module) (es : List Entry) : List String :=
  fixedNames m.options.target ++ es.map (·.binding)

/-- What the entries ask the module for. -/
def asked (m : Module) (es : List Entry) : List Request :=
  es.flatMap fun e => (e.nodes.map (requests m.options.effectiveLocale m.formats)).flatten

/-- The meaning of a tree in a module. -/
def meaning [LocaleData] (m : Module) (ns : List Node) (w : Surroundings) : Evaluate.Eval Value :=
  (joinParts (ns.map (part m.options.target m.formats w none))).1

/-- An entry holds what its text was compiled to, whatever data of locales it is run with, with
constants that the module still has and locals that no constant of the module hides. -/
structure Compiled (m : Module) (e : Entry) : Prop where
  read : ∃ file, Message.parse file Message.defaultLimit (registeredText e.text) = .ok e.nodes
  checked : Check.all (e.nodes.map (check m.options.target m.formats false)) [] = .ok e.state.uses
  sound : ∃ scope outer, fixedNames m.options.target ⊆ outer ∧
    Sound (m.context scope) outer e.state ∧
    ∀ [LocaleData], ExprMeans (m.context scope) e.state e.value (m.meaning e.nodes)
  ran : ∃ scope outer start pieces, Sound (m.context scope) outer start ∧ start.idle = start ∧
    (nodes (m.context scope) none e.nodes).exec start = (.ok pieces, e.state) ∧
    e.value = (joinPieces pieces).1
  constants : e.state.constants <+: m.constants
  shared : e.state.shared <+: m.shared
  locals_taken : ∀ x ∈ e.state.locals, x ∈ m.table.taken
  locals_apart : ∀ x ∈ e.state.locals, x ∉ m.constants.map (·.1)

/-- The function of an entry. -/
def function (m : Module) (e : Entry) : Stmt :=
  .function e.binding (e.state.arguments.map fun a => ⟨a.name, a.binding, a.type.declared⟩)
    (e.state.body.map (fun (n, e) => Stmt.const n e) ++ [.return e.value]) m.returnType

/-- What holds of a module that has accepted messages. -/
structure Keeps (m : Module) (es : List Entry) : Prop where
  sound : ∀ scope, Sound (m.context scope) (m.outer es) m.idle
  names : (es.map (·.name)).Nodup
  formats : m.formats = Formats.standard.overlay m.options.formats
  functions : m.functions = es.map m.function
  exports : m.exports = es.map fun e => ⟨e.binding, e.name⟩
  arguments : m.arguments = es.map fun e =>
    (e.name, e.state.arguments.map fun a => ⟨a.name, a.binding, a.type⟩)
  granted : m.idle.granted = share [] (m.asked es)
  compiled : ∀ e ∈ es, m.Compiled e

/-- What adding a message may change of a module, accepted or not. -/
structure Advances (m m' : Module) : Prop where
  options : m'.options = m.options
  formats : m'.formats = m.formats
  root : m'.root = m.root
  finalized : m'.finalized = m.finalized
  taken : m.table.taken ⊆ m'.table.taken
  constants : m.constants <+: m'.constants
  shared : m.shared <+: m'.shared
  fresh : ∀ x ∈ m'.constants.map (·.1), x ∉ m.constants.map (·.1) → x ∉ m.table.taken

theorem Advances.context {m m' : Module} (h : m.Advances m') (scope : ScopeId) :
    m'.context scope = m.context scope := by
  rw [Module.context, Module.context, h.options, h.formats, h.root]

theorem Advances.meaning [LocaleData] {m m' : Module} (h : m.Advances m') : m'.meaning = m.meaning := by
  funext ns w
  rw [Module.meaning, Module.meaning, h.options, h.formats]

/-- The texts in the file set do not matter. -/
theorem Advances.of_files {m m' : Module} {files : FileSet}
    (h : Advances { m with files } m') : m.Advances m' :=
  ⟨h.options, h.formats, h.root, h.finalized, h.taken, h.constants, h.shared, h.fresh⟩

/-- Later messages leave an entry as it is. -/
theorem Compiled.of_advances {m m' : Module} {e : Entry} (he : m.Compiled e)
    (h : m.Advances m') : m'.Compiled e := by
  constructor
  case read => exact he.read
  case checked =>
    rw [h.options, h.formats]
    exact he.checked
  case sound =>
    obtain ⟨scope, outer, hfixed, hs, hmeans⟩ := he.sound
    refine ⟨scope, outer, ?_, ?_, ?_⟩
    · rw [h.options]
      exact hfixed
    · rw [h.context]
      exact hs
    · intro _
      rw [h.context, h.meaning]
      exact hmeans
  case ran =>
    obtain ⟨scope, outer, start, pieces, hran⟩ := he.ran
    refine ⟨scope, outer, start, pieces, ?_⟩
    rw [h.context]
    exact hran
  case constants => exact he.constants.trans h.constants
  case shared => exact he.shared.trans h.shared
  case locals_taken => exact fun x hx => h.taken (he.locals_taken x hx)
  case locals_apart =>
    intro x hx hmem
    -- a constant added since then has a name that was not taken
    exact h.fresh x hmem (he.locals_apart x hx) (he.locals_taken x hx)

/-! ### Fresh modules -/

/-- The table with a module scope and nothing in it. -/
theorem tidy_moduleScope :
    (ScopeTable.empty.newScope .module 0 .zero).1.Tidy
      (ScopeTable.empty.newScope .module 0 .zero).2 := by
  refine ⟨⟨by decide, ?_⟩, ?_, ?_⟩
  · -- the only scope is the root
    intro id s hs hne
    have hindex : ¬ScopeTable.index? id = some ScopeTable.empty.scopes.length :=
      fun h => hne (ScopeTable.index?_eq_some_iff.mp h)
    rw [ScopeTable.scope?_newScope, if_neg hindex, ScopeTable.scope?, ScopeTable.empty] at hs
    cases hid : ScopeTable.index? id with
    | none => simp [hid] at hs
    | some i => simp [hid] at hs
  · intro id x hx
    rw [ScopeTable.bound_newScope, ScopeTable.bound, ScopeTable.scope?, ScopeTable.empty] at hx
    cases hindex : ScopeTable.index? id with
    | none => simp [hindex] at hx
    | some i => simp [hindex] at hx
  · exact ScopeTable.consistent_empty.newScope .zero (by decide) (Or.inl rfl)

/-- The start table has the fixed names of its target. -/
theorem sound_start (files : FileSet) (o : Options) (scope : ScopeId) :
    Sound ((Module.new files o).context scope) (fixedNames o.target) (Module.new files o).idle := by
  let t := ScopeTable.empty.newScope .module 0 .zero
  have hroot : (t.1.scope? t.2).isSome = true := tidy_moduleScope.rooted.exists_root
  have hnone : t.1.bound t.2 = [] := by decide
  -- before the fixed names are bound a module holds nothing
  have hbase : Sound ⟨o.target, o.effectiveLocale, Formats.standard.overlay o.formats, t.2, scope⟩
      [] ⟨t.1, [], [], [], [], [], []⟩ := by
    constructor
    case tidy => exact tidy_moduleScope
    case body_eq => rfl
    case aligned | ordered => rfl
    case closed => trivial
    case distinct | arguments_distinct | keys_distinct => exact List.nodup_nil
    all_goals exact fun x hx => absurd hx List.not_mem_nil
  have hintlFree : intlName ∉ t.1.bound t.2 := by
    rw [hnone]
    exact List.not_mem_nil
  have hintl := hbase.addOuter rfl .global hintlFree
  have hbind := ScopeTable.bind_eq_withName .global hroot hintlFree
  cases htarget : o.target with
  | string =>
    have htable : startTable o.target = (t.1.withName t.2 intlName .global .zero, t.2) := by
      rw [htarget]
      simp only [startTable, List.foldl_cons, List.foldl_nil, reduceCtorEq, if_false]
      rw [hbind]
      rfl
    rw [Module.new, htable]
    exact hintl
  | tree =>
    have hfree : markupName ∉ (t.1.withName t.2 intlName .global .zero).bound t.2 := by
      rw [ScopeTable.bound_withName_self _ _ _ _ _ hroot, hnone]
      decide
    have hmarkup := hintl.addOuter rfl .imported hfree
    have hbind' := ScopeTable.bind_eq_withName .imported hintl.tidy.rooted.exists_root hfree
    have htable : startTable o.target =
        ((t.1.withName t.2 intlName .global .zero).withName t.2 markupName .imported .zero,
          t.2) := by
      rw [htarget]
      simp only [startTable, List.foldl_cons, List.foldl_nil, if_true]
      rw [hbind]
      simp only [Except.toOption, Option.getD_some]
      rw [hbind']
      rfl
    rw [Module.new, htable]
    exact hmarkup

theorem keeps_new (files : FileSet) (o : Options) : (Module.new files o).Keeps [] := by
  refine ⟨?_, List.nodup_nil, rfl, rfl, rfl, rfl, rfl, ?_⟩
  · intro scope
    rw [Module.outer, List.map_nil, List.append_nil]
    exact sound_start files o scope
  · exact fun e he => absurd he List.not_mem_nil

/-! ### One message -/

section OneMessage

variable {m : Module} {es : List Entry}

/-- Nothing but the file set or the table has changed. -/
theorem Keeps.of_table (h : m.Keeps es) (files : FileSet) {t : ScopeTable} (htidy : t.Tidy m.root)
    (hroot : m.table.bound m.root ⊆ t.bound m.root) (htaken : m.table.taken ⊆ t.taken) :
    Keeps { m with files, table := t } es ∧ m.Advances { m with files, table := t } := by
  have hadvances : m.Advances { m with files, table := t } :=
    ⟨rfl, rfl, rfl, rfl, htaken, List.prefix_rfl, List.prefix_rfl,
      fun _ hx hx' => absurd hx hx'⟩
  refine ⟨⟨?_, h.names, h.formats, h.functions, h.exports, h.arguments, h.granted, ?_⟩, hadvances⟩
  · intro scope
    have hidle := ((h.sound m.root).retable htidy hroot hroot).idle scope
    exact hidle
  · exact fun e he => (h.compiled e he).of_advances hadvances

/-- The table and the scope in which a message is compiled. -/
def messageTable (m : Module) (span : Span) : ScopeTable × ScopeId :=
  m.table.newScope .message m.root span

def messageStart (m : Module) (span : Span) : State :=
  ⟨(m.messageTable span).1, m.constants, m.shared, m.sharedOrder, [], [], []⟩

theorem Keeps.sound_messageStart (h : m.Keeps es) (span : Span) (scope : ScopeId) :
    Sound (m.context scope) (m.outer es) (m.messageStart span) := by
  refine (h.sound scope).retable ((h.sound scope).tidy.newScope (by decide) span) ?_ ?_
  · rw [messageTable, ScopeTable.bound_newScope]
    exact List.Subset.refl _
  · rw [messageTable, ScopeTable.bound_newScope]
    exact List.Subset.refl _

/-- Compiling a message refines its check and gives an expression of its meaning. -/
theorem Keeps.runMessage_refines [LocaleData] (h : m.Keeps es) (span : Span) (ns : List Node) :
    Refines (m.context (m.messageTable span).2) (m.outer es) (m.messageStart span)
      (do return joinPieces (← nodes (m.context (m.messageTable span).2) none ns))
      (Check.all (ns.map (check m.options.target m.formats false)) [])
      (ns.map (requests m.options.effectiveLocale m.formats)).flatten
      fun s r => ExprMeans (m.context (m.messageTable span).2) s r.1 (m.meaning ns) := by
  have hnodes := @nodes_refines _ _ _ none (fun _ => none) ns (fun n _ => simulates n) _
    (h.sound_messageStart span (m.messageTable span).2) nofun
  exact hnodes.map fun s ps _ _ hps => hps.join.1

theorem mem_exportedNames (h : m.Keeps es) (name : Bytes) :
    m.exportedNames.contains name = decide (name ∈ es.map (·.name)) := by
  rw [exportedNames, h.exports, List.map_map, List.contains_eq_mem]
  rfl

/-- The entry of a message that was compiled. -/
theorem Keeps.withFunction (h : m.Keeps es) {name text : Bytes} {ns : List Node} {file : UInt32}
    (hread : Message.parse file Message.defaultLimit (registeredText text) = .ok ns)
    (hnew : name ∉ es.map (·.name)) {span : Span} {s : State} {value : Expr} {binding : String}
    (hcheck : Check.all (ns.map (check m.options.target m.formats false)) [] = .ok s.uses)
    (hgranted : s.granted = share (m.messageStart span).granted
      (ns.map (requests m.options.effectiveLocale m.formats)).flatten)
    (hgrows : Grows (m.messageStart span) s)
    (hsound : Sound (m.context (m.messageTable span).2) (m.outer es) s)
    (hmeans : ∀ [LocaleData],
      ExprMeans (m.context (m.messageTable span).2) s value (m.meaning ns))
    {pieces : List (Piece Expr)} (hran : Step.exec (nodes (m.context (m.messageTable span).2) none ns)
      (m.messageStart span) = (.ok pieces, s)) (hvalue : value = (joinPieces pieces).1)
    (hfree : binding ∉ s.table.bound m.root) :
    let m' := m.withFunction name binding s value
      (s.table.withName m.root binding .function .zero)
    m'.Keeps (es ++ [⟨name, text, binding, ns, value, s⟩]) ∧ m.Advances m' := by
  intro m'
  have hlocals : ∀ x ∈ s.locals, x ∉ s.constantNames := by
    intro x hx hx'
    exact (List.nodup_append.mp hsound.distinct).2.2 x (List.mem_append_right _ hx') x hx rfl
  have hadvances : m.Advances m' := by
    constructor
    case options | formats | root | finalized => rfl
    case taken =>
      intro x hx
      refine (ScopeTable.mem_taken_withName ..).mpr (Or.inl (hgrows.table.taken ?_))
      rw [messageStart, messageTable, ScopeTable.taken_newScope]
      exact hx
    case constants => exact hgrows.constants
    case shared => exact hgrows.shared
    case fresh =>
      intro x hx hx'
      have hfresh := hgrows.fresh x hx hx'
      rw [messageStart, messageTable, ScopeTable.taken_newScope] at hfresh
      exact hfresh
  refine ⟨?_, hadvances⟩
  constructor
  case sound =>
    intro scope
    -- the function is bound outside of its own scope, as the last name of the message
    have hnext := (hsound.idle scope).addOuter rfl .function hfree
    rw [outer, List.map_append, ← List.append_assoc]
    exact hnext
  case names =>
    rw [List.map_append]
    refine List.nodup_append.mpr ⟨h.names, List.nodup_singleton _, ?_⟩
    rintro x hx y hy rfl
    obtain rfl : x = name := List.mem_singleton.mp hy
    exact hnew hx
  case formats => exact h.formats
  case functions =>
    have hfunctions : es.map m'.function = m.functions := h.functions.symm
    rw [List.map_append, hfunctions]
    rfl
  case exports =>
    rw [List.map_append, ← h.exports]
    rfl
  case arguments =>
    rw [List.map_append, ← h.arguments]
    rfl
  case granted =>
    have hasked : m'.asked (es ++ [⟨name, text, binding, ns, value, s⟩]) =
        m.asked es ++ (ns.map (requests m.options.effectiveLocale m.formats)).flatten := by
      rw [asked, List.flatMap_append, List.flatMap_singleton]
      rfl
    rw [hasked, share_append, ← h.granted]
    exact hgranted
  case compiled =>
    intro e he
    rcases List.mem_append.mp he with he | he
    · exact (h.compiled e he).of_advances hadvances
    · rw [List.mem_singleton.mp he]
      refine ⟨⟨file, hread⟩, hcheck, ⟨_, _, List.subset_append_left _ _, hsound, hmeans⟩,
        ⟨_, _, _, _, h.sound_messageStart span _, rfl, hran, hvalue⟩, List.prefix_rfl, List.prefix_rfl, ?_, hlocals⟩
      intro x hx
      refine (ScopeTable.mem_taken_withName ..).mpr (Or.inl ?_)
      exact hsound.tidy.taken _ x (hsound.locals_bound x hx)

/-- The file set with the text of a message, and the file it is in. -/
def register (m : Module) (name text : Bytes) : FileSet × UInt32 :=
  m.files.add (m.messagePath name) (registeredText text) File.virtualFlag

/-- What adding a message to an open module does. -/
inductive Added (m : Module) (es : List Entry) (name text : Bytes) :
    Module × Option ModuleError → Prop where
  /-- The message is accepted as an entry of its own. -/
  | accepted {m' : Module} {e : Entry} (hname : e.name = name) (htext : e.text = text)
      (hnew : name ∉ es.map (·.name)) (hkeeps : m'.Keeps (es ++ [e])) (hadvances : m.Advances m')
      (hfiles : m'.files = (m.register name text).1)
      (hsize : (registeredText text).length < 2 ^ 32)
      (hverdict : verdict m.options.target m.formats false name text (m.register name text).2 =
        none) : Added m es name text (m', none)
  /-- The message is refused, and nothing changes but the texts and the names in use. -/
  | refused {t : ScopeTable} {d : Diagnostic} {m' : Module}
      (hsame : m' = { m with files := (m.register name text).1, table := t })
      (hkeeps : m'.Keeps es) (hadvances : m.Advances m')
      (hsize : (registeredText text).length < 2 ^ 32)
      (hverdict : verdict m.options.target m.formats (decide (name ∈ es.map (·.name))) name text
        (m.register name text).2 = some d) :
      Added m es name text (m', some (.compile (.of m'.files name d)))
  /-- The text is too long for the offsets of the file set. -/
  | overflowed {m' : Module}
      (hsame : m' = m ∨ m' = { m with files := (m.register name text).1 })
      (hkeeps : m'.Keeps es) (hadvances : m.Advances m')
      (hsize : 2 ^ 32 ≤ (registeredText text).length) :
      Added m es name text (m', some (.overflow (.of (registeredText text))))

theorem addCompiled_known (h : m.Keeps es) {name : Bytes} (hknown : name ∈ es.map (·.name))
    (ns : List Node) (span : Span) : m.addCompiled name ns span =
      (m, some (.compile (.of m.files name (alreadyDefined name span)))) := by
  rw [addCompiled, mem_exportedNames h, if_pos (decide_eq_true hknown)]
  rfl

/-- A message that fails to compile fails with the diagnostic of its check, and what it has added
is rolled back. -/
theorem addCompiled_failed (h : m.Keeps es) {name : Bytes} (hnew : name ∉ es.map (·.name))
    {ns : List Node} (hread : Message.AllReadable ns) {span : Span} {f : Failure} {s : State}
    (hrun : m.runMessage span ns = (.error f, s)) :
    ∃ d, m.addCompiled name ns span =
        ({ m with table := s.table }, some (.compile (.of m.files name d))) ∧
      Keeps { m with table := s.table } es ∧ m.Advances { m with table := s.table } ∧
      Check.all (ns.map (check m.options.target m.formats false)) [] = .error (.diagnostic d) := by
  -- how a message fails depends on no locale data, so any will do
  let _ : LocaleData := default
  have hrefines := h.runMessage_refines span ns
  have hexec : Step.exec (do return joinPieces (← nodes (m.context (m.messageTable span).2) none ns))
      (m.messageStart span) = (.error f, s) := hrun
  rw [Refines, hexec] at hrefines
  obtain ⟨hgrows, hsound, hfound⟩ := hrefines
  have hcheck := hfound (ScopeTable.isSome_scope?_newScope_self ..)
  -- trees that were read fail with diagnostics only
  obtain ⟨d, rfl⟩ : ∃ d, f = .diagnostic d := by
    have hchecks : Check.Diagnoses
        (Check.all (ns.map (check m.options.target m.formats false))) := by
      refine Check.FailsBy.all fun c hc => ?_
      obtain ⟨n, hn, rfl⟩ := List.mem_map.mp hc
      exact check_diagnoses _ _ n (hread n hn) false
    have hdiagnostic := hchecks [] f hcheck
    cases f with
    | diagnostic d => exact ⟨d, rfl⟩
    | unknownNode | hole => exact Bool.noConfusion hdiagnostic
  have hroot : m.table.bound m.root ⊆ s.table.bound m.root := by
    have hbound := hgrows.table.bound m.root
    rw [messageStart, messageTable, ScopeTable.bound_newScope] at hbound
    exact hbound
  have htaken : m.table.taken ⊆ s.table.taken := by
    have htaken := hgrows.table.taken
    rw [messageStart, messageTable, ScopeTable.taken_newScope] at htaken
    exact htaken
  obtain ⟨hkeeps, hadvances⟩ := h.of_table m.files hsound.tidy hroot htaken
  refine ⟨d, ?_, hkeeps, hadvances, hcheck⟩
  have hrestored : (m.withState s).rollback m.mark = { m with table := s.table } :=
    rollback_mark rfl rfl rfl hgrows (h.sound_messageStart span _) hsound
  rw [addCompiled, mem_exportedNames h, if_neg (by simpa using hnew), hrun]
  simp only [afterFailure, hrestored, failureError]

/-- A message that compiles is added under a name of its own. -/
theorem addCompiled_succeeded (h : m.Keeps es) {name text : Bytes}
    (hnew : name ∉ es.map (·.name)) {ns : List Node} {file : UInt32}
    (hread : Message.parse file Message.defaultLimit (registeredText text) = .ok ns) {span : Span}
    {r : Expr × Bool} {s : State} (hrun : m.runMessage span ns = (.ok r, s)) :
    ∃ m' e, m.addCompiled name ns span = (m', none) ∧ e.name = name ∧ e.text = text ∧
      m'.Keeps (es ++ [e]) ∧ m.Advances m' ∧ m'.files = m.files ∧
      Check.all (ns.map (check m.options.target m.formats false)) [] = .ok s.uses := by
  have hexec : Step.exec (do return joinPieces (← nodes (m.context (m.messageTable span).2) none ns))
      (m.messageStart span) = (.ok r, s) := hrun
  have hrefines [LocaleData] := h.runMessage_refines span ns
  simp only [Refines, hexec] at hrefines
  obtain ⟨hcheck, hgranted, hgrows, hsound, _⟩ := @hrefines default
  have hmeans [LocaleData] := hrefines.2.2.2.2
  obtain ⟨⟨table, binding⟩, hbind⟩ := bindName_ok ((Utf8.decode? name).map String.ofList)
    (Utf8.shown name) .function hsound.tidy hsound.tidy.rooted.exists_root
  obtain ⟨_, hfree, _, _, rfl⟩ := bindName_inv hsound.tidy hbind
  obtain ⟨pieces, s₁, hran, hjoined⟩ := Step.exec_bind_inv hexec
  obtain ⟨hresult, hstate⟩ := Prod.mk.inj hjoined
  rw [hstate] at hran
  have hvalue : r.1 = (joinPieces pieces).1 := congrArg Prod.fst (Except.ok.inj hresult).symm
  obtain ⟨hkeeps, hadvances⟩ :=
    h.withFunction hread hnew hcheck hgranted hgrows hsound hmeans hran hvalue hfree
  refine ⟨_, _, ?_, rfl, rfl, hkeeps, hadvances, rfl, hcheck⟩
  rw [addCompiled, mem_exportedNames h, if_neg (by simpa using hnew), hrun]
  obtain ⟨value, isMarkup⟩ := r
  have hbind' : bindName s.table m.root ((Utf8.decode? name).map String.ofList) (Utf8.shown name)
      .function = .ok (s.table.withName m.root binding .function .zero, binding) := hbind
  simp only [hbind']

theorem addMessage_open (hopen : m.finalized = false) (name text : Bytes) :
    m.addMessage name text =
      match Message.parse (m.register name text).2 Message.defaultLimit (registeredText text) with
      | .error .overflow =>
        (if Overflow.of (registeredText text) = .lineBreak then m
          else { m with files := (m.register name text).1 },
          some (.overflow (Overflow.of (registeredText text))))
      | .error (.fault fault) =>
        ({ m with files := (m.register name text).1 },
          some (.compile (.of (m.register name text).1 name fault.diagnostic)))
      | .ok ns => addCompiled { m with files := (m.register name text).1 } name ns
          (Span.between (m.register name text).2 0 (registeredText text).length) := by
  rw [addMessage, hopen]
  rfl

/-- One step: every message is accepted or refused, unless its text is too long. -/
theorem Keeps.added (h : m.Keeps es) (hopen : m.finalized = false) (name text : Bytes) :
    Added m es name text (m.addMessage name text) := by
  let files := (m.register name text).1
  let file := (m.register name text).2
  let content := registeredText text
  have hroot : m.table.Tidy m.root := (h.sound m.root).tidy
  -- a text that is too long stops the call before its file is registered or behind that
  obtain ⟨hsame, hsameAdvances⟩ :=
    h.of_table m.files hroot (List.Subset.refl _) (List.Subset.refl _)
  obtain ⟨hkeeps, hadvances⟩ := h.of_table files hroot (List.Subset.refl _) (List.Subset.refl _)
  rw [addMessage_open hopen]
  cases hparse : Message.parse file Message.defaultLimit content with
  | error refusal =>
    cases refusal with
    | overflow =>
      have hsize := Message.parse_eq_overflow_iff.mp hparse
      simp only
      split
      · exact .overflowed (.inl rfl) hsame hsameAdvances hsize
      · exact .overflowed (.inr rfl) hkeeps hadvances hsize
    | fault fault =>
      refine .refused rfl hkeeps hadvances (Message.length_lt_of_fault hparse) ?_
      rw [verdict, hparse]
  | ok ns =>
    have hsize := (Message.parse_eq_ok_iff.mp hparse).1
    have hverdict (known : Bool) :=
      @verdict_of_read m.options.target m.formats known name text file ns hparse
    -- a name that is known is refused before anything is compiled
    by_cases hknown : name ∈ es.map (·.name)
    · simp only
      rw [addCompiled_known hkeeps hknown]
      refine .refused rfl hkeeps hadvances hsize ?_
      rw [hverdict, if_pos (decide_eq_true hknown)]
    · cases hrun : runMessage { m with files } (Span.between file 0 content.length) ns with
      | mk r s =>
        cases r with
        | error f =>
          obtain ⟨d, hfailed, hkeeps', hadvances', hcheck⟩ :=
            addCompiled_failed hkeeps hknown (Message.parse_readable hparse) hrun
          simp only
          rw [hfailed]
          refine .refused rfl hkeeps' hadvances'.of_files hsize ?_
          rw [hverdict, if_neg (by simpa using hknown)]
          simp only [hcheck]
        | ok r =>
          obtain ⟨m', e, hadded, hname, htext, hkeeps', hadvances', hfiles, hcheck⟩ :=
            addCompiled_succeeded hkeeps hknown hparse hrun
          simp only
          rw [hadded]
          refine .accepted hname htext hknown hkeeps' hadvances'.of_files hfiles hsize ?_
          rw [hverdict, if_neg Bool.false_ne_true]
          simp only [hcheck]

end OneMessage

/-! ### Many messages -/

/-- The module after so many calls, some of which may have failed. -/
def addAll (m : Module) (calls : List SourceMessage) : Module :=
  calls.foldl (fun m c => (m.addMessage c.name c.text).1) m

/-- The calls that succeed, one after the other. -/
def accepted (m : Module) : List SourceMessage → List SourceMessage
  | [] => []
  | c :: r =>
    let next := m.addMessage c.name c.text
    if next.2.isNone then c :: accepted next.1 r else accepted next.1 r

/-- What holds of a module from which another was reached by adding messages. -/
structure Reaches (m m' : Module) : Prop where
  options : m'.options = m.options
  formats : m'.formats = m.formats
  finalized : m'.finalized = m.finalized

theorem Advances.reaches {m m' m'' : Module} (h : m.Advances m') (hr : m'.Reaches m'') :
    m.Reaches m'' :=
  ⟨hr.options.trans h.options, hr.formats.trans h.formats, hr.finalized.trans h.finalized⟩

/-- A whole run: the entries are those of the calls that succeeded. -/
theorem Keeps.addAll {m : Module} {es : List Entry} (h : m.Keeps es) (hopen : m.finalized = false)
    (calls : List SourceMessage) :
    ∃ new, (m.addAll calls).Keeps (es ++ new) ∧
      new.map (fun e => (⟨e.name, e.text⟩ : SourceMessage)) = m.accepted calls ∧
      m.Reaches (m.addAll calls) := by
  induction calls generalizing m es with
  | nil => exact ⟨[], by rw [List.append_nil]; exact h, rfl, rfl, rfl, rfl⟩
  | cons c r ih =>
    have hadded := h.added hopen c.name c.text
    rw [Module.addAll, List.foldl_cons, accepted]
    generalize m.addMessage c.name c.text = next at hadded ⊢
    -- whichever way a call ends, what the rest of the run needs is kept
    cases hadded with
    | @accepted m' e hname htext _ hkeeps hadvances =>
      obtain ⟨new, hnew, hcalls, hreaches⟩ := ih hkeeps (hadvances.finalized.trans hopen)
      refine ⟨e :: new, ?_, ?_, hadvances.reaches hreaches⟩
      · rw [List.append_cons]
        exact hnew
      · rw [List.map_cons, hcalls, hname, htext]
        rfl
    | refused _ hkeeps hadvances | overflowed _ hkeeps hadvances =>
      obtain ⟨new, hnew, hcalls, hreaches⟩ := ih hkeeps (hadvances.finalized.trans hopen)
      exact ⟨new, hnew, hcalls, hadvances.reaches hreaches⟩

end Module

end Phrasebook.Compile
