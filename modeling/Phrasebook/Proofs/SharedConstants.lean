import Phrasebook.Proofs.References

/-!
Programs share exactly. A program has one constant for each need of its messages, however the styles
are spelled, and every function is its message spelled with these constants, with constants of its
own of which no two are derived alike.
-/
namespace Phrasebook.Compile

/-! ### Derived constants -/

/-- Constants with different keys are derived by different expressions. -/
theorem LocalKey.init_injective : Function.Injective LocalKey.init := by
  intro k k' h
  cases k <;> cases k' <;> simp only [init] at h
  case formatted.formatted | category.category | offset.offset => simpa using h
  all_goals simp at h

/-! ### Entries -/

/-- Trees that were read are plain. -/
theorem plain_of_parse {formats : Formats} (hformats : formats.Regular) {file : UInt32} {limit : Nat}
    {content : Bytes} {ns : List Node} (h : Message.parse file limit content = .ok ns) :
    ∀ n ∈ ns, n.All (Plain formats) := by
  intro n hn m hm
  have hread := Message.parse_readable h n hn m hm
  have hfinite := Message.finite_of_parse h n hn m hm
  cases m with
  | format => exact regular_styleOptions hformats hread
  | plural => exact Floats.beq_self_of_isFinite hfinite
  | _ => trivial

namespace Module

variable {m : Module} {es : List Entry} {e : Entry}

/-- What an entry returns is its text spelled with the names that were bound. -/
theorem Compiled.spelled (he : m.Compiled e) (hformats : m.formats.Regular) :
    (e.state.derived.map (·.1)).Nodup ∧ ∃ pieces, e.value = (joinPieces pieces).1 ∧
      ∀ names, Knows names e.state → (messageNodes e.text).mapM
        (spelled? m.options.target m.formats names none) = some pieces := by
  obtain ⟨scope, outer, start, pieces, hsound, hidle, hrun, hvalue⟩ := he.ran
  obtain ⟨readFile, hread⟩ := he.read
  obtain ⟨file, hnodes⟩ := he.nodes_eq
  have hstart : Neat (m.context scope) outer start := by
    refine ⟨hsound, ?_⟩
    rw [← hidle]
    exact List.nodup_nil
  have hplain : ∀ n ∈ e.nodes, n.All (Plain (m.context scope).formats) :=
    plain_of_parse hformats hread
  have hcounted : Counted none start := nofun
  obtain ⟨-, hneat, hspelled⟩ :=
    nodes_ends (fun n _ => spells n) hplain hstart hcounted pieces e.state hrun
  refine ⟨hneat.derived_distinct, pieces, hvalue, fun names hknows => ?_⟩
  -- the text was read in a file of the module, which the spelling does not tell
  have hmoved := hspelled names hknows
  have hsame : spelled? m.options.target m.formats names none ∘ Node.inFile file =
      spelled? m.options.target m.formats names none := by
    funext n
    exact spelled?_inFile file _ _ names n none
  rw [hnodes, List.mapM_map] at hmoved
  rw [← hmoved]
  exact congrArg (fun f => (messageNodes e.text).mapM f) hsame.symm

end Module

/-! ### Programs -/

/-- A function is a text spelled with the names of its parameters, of the shared constants and of its
own constants. No two of its names are the same and none hides a shared constant, and no two of its
constants have the same initializer. -/
def IsSpelled (target : Target) (formats : Formats) (supplies : List Supply) (text : Bytes)
    (f : Stmt) : Prop :=
  ∃ (binding : String) (params : List Param) (derived : List (LocalKey × String))
    (pieces : List (Piece Expr)) (returnType : String) (names : Names),
    f = .function binding params
      (derived.map (fun d => Stmt.const d.2 d.1.init) ++ [.return (joinPieces pieces).1])
      returnType ∧
    (params.map (·.binding) ++ derived.map (·.2)).Nodup ∧
    (∀ x ∈ params.map (·.binding) ++ derived.map (·.2), x ∉ supplies.map (·.name)) ∧
    (derived.map fun d => d.1.init).Nodup ∧
    (∀ x b, names.argument? x = some b ↔ (x, b) ∈ params.map fun p => (p.name, p.binding)) ∧
    (∀ need name, names.constant? need = some name ↔
      (need, name) ∈ supplies.map fun p => (p.need, p.name)) ∧
    (∀ key name, names.derived? key = some name ↔ (key, name) ∈ derived) ∧
    (messageNodes text).mapM (spelled? target formats names none) = some pieces

namespace Module

variable {m : Module} {es : List Entry} {e : Entry}

/-- The function of an entry is spelled with the constants of the module. -/
theorem Keeps.isSpelled (h : m.Keeps es) (hformats : m.formats.Regular) (he : e ∈ es)
    {supplies : List Supply}
    (hconstants : supplies.map (fun p => (p.name, p.init)) = m.constants)
    (hdistinct : (supplies.map (·.need)).Nodup)
    (hkeys : ∀ need key name, need.HasKey key → (key, name) ∈ m.shared →
      (need, name) ∈ supplies.map fun p => (p.need, p.name)) :
    IsSpelled m.options.target m.formats supplies e.text (m.function e) := by
  have hcompiled := h.compiled e he
  obtain ⟨scope, outer, -, hsound, -⟩ := hcompiled.sound
  obtain ⟨hderived, pieces, hvalue, hspelled⟩ := hcompiled.spelled hformats
  obtain ⟨hnodup, hlocals⟩ := h.locals_of_entry he
  have hnames : supplies.map (·.name) = m.constants.map (·.1) := by
    rw [← hconstants, List.map_map]
    rfl
  have hbody : e.state.body.map (·.1) = e.state.derived.map (·.2) := by
    rw [hsound.body_eq, List.map_map]
    rfl
  let params : List Param := e.state.arguments.map fun a => ⟨a.name, a.binding, a.type.declared⟩
  have hbindings : params.map (·.binding) ++ e.state.derived.map (·.2) = e.state.locals := by
    rw [State.locals, hbody, List.map_map]
    rfl
  have hparams : params.map (fun p => (p.name, p.binding)) =
      e.state.arguments.map fun a => (a.name, a.binding) := by
    rw [List.map_map]
    rfl
  obtain ⟨argument?, hargument⟩ := exists_lookup
    (l := e.state.arguments.map fun a => (a.name, a.binding))
    (by rw [List.map_map]; exact hsound.arguments_distinct)
  obtain ⟨constant?, hconstant⟩ := exists_lookup
    (l := supplies.map fun p => (p.need, p.name)) (by rw [List.map_map]; exact hdistinct)
  obtain ⟨derived?, hderived?⟩ := exists_lookup hderived
  -- the constants that the message used are still those of the module
  have hknows : Knows ⟨argument?, constant?, derived?⟩ e.state := by
    constructor
    case argument =>
      intro a ha
      exact (hargument a.name a.binding).mpr (List.mem_map_of_mem ha)
    case constant =>
      intro p hp need hkey
      exact (hconstant need p.2).mpr (hkeys need p.1 p.2 hkey (hcompiled.shared.subset hp))
    case derived =>
      intro p hp
      exact (hderived? p.1 p.2).mpr hp
  refine ⟨e.binding, params, e.state.derived, pieces, m.returnType,
    ⟨argument?, constant?, derived?⟩, ?_, ?_, ?_, ?_, ?_, hconstant, hderived?, hspelled _ hknows⟩
  · rw [function, hsound.body_eq, List.map_map, hvalue]
    rfl
  · rw [hbindings]
    exact hnodup
  · rw [hbindings, hnames]
    exact fun x hx => (hlocals x hx).2.1
  · have hinits := hderived.map LocalKey.init_injective
    rw [List.map_map] at hinits
    exact hinits
  · rw [hparams]
    exact hargument

end Module

/-- Formatters and derived values are shared exactly. The constants of a program are those that its
messages need: a formatter for each kind and each map of options of a number, a date, a time or a
number sign, and plural rules for each kind of plural with a category; there is one of each. Every
function is its message spelled with them, so that whatever needs the same refers to one constant,
and its own constants have distinct initializers. -/
theorem constants_shared {messages : List SourceMessage} {o : Options}
    (hformats : o.formats.Regular) {built : Module.Built} (hbuilt : compile messages o = .ok built) :
    let formats := Formats.standard.overlay o.formats
    ∃ (supplies : List Supply) (functions : List Stmt) (exports : List Export),
      built.program = (if o.target = .tree then [.importAll markupName markupSource] else []) ++
        supplies.map (fun p => .const p.name p.init) ++ functions ++ [.exports exports] ∧
      (supplies.map (·.name)).Nodup ∧ (supplies.map (·.need)).Nodup ∧
      (∀ need, need ∈ supplies.map (·.need) ↔
        ∃ msg ∈ messages, need ∈ messageNeeds formats msg.text) ∧
      (∀ p ∈ supplies, p.need.MadeBy o.effectiveLocale p.init) ∧
      List.Forall₂ (fun msg f => IsSpelled o.target formats supplies msg.text f) messages
        functions := by
  intro formats
  obtain ⟨m, es, hkeeps, hcalls, hoptions, hprogram⟩ := exists_keeps_of_compile hbuilt
  have hmformats : m.formats = formats := by
    rw [hkeeps.formats, hoptions]
  have hregular : m.formats.Regular := hmformats ▸ Formats.Regular.standard.overlay hformats
  obtain ⟨supplies, hconstants, hdistinct, hneeds, hmade, hkeys⟩ :=
    hkeeps.exists_supplies hregular
  have hstatements : supplies.map (fun p => Stmt.const p.name p.init) =
      m.constants.map fun c => Stmt.const c.1 c.2 := by
    rw [← hconstants, List.map_map]
    rfl
  have hnames : supplies.map (·.name) = m.slots.map (·.1) := by
    rw [hkeeps.names_slots, State.constantNames, Module.idle, ← hconstants, List.map_map]
    rfl
  -- The names are those of the slots of the module, and no two slots share one.
  refine ⟨supplies, m.functions, m.exports, ?_, ?_, hdistinct, fun need => ?_, ?_, ?_⟩
  · rw [← hprogram, Module.program, hstatements, hoptions]
  · rw [hnames]
    exact hkeeps.names_slots_distinct.1
  · rw [hneeds need, ← hcalls, ← hmformats]
    constructor
    · rintro ⟨e, he, hneed⟩
      exact ⟨e.call, List.mem_map_of_mem he, hneed⟩
    · rintro ⟨msg, hmsg, hneed⟩
      obtain ⟨e, he, rfl⟩ := List.mem_map.mp hmsg
      exact ⟨e, he, hneed⟩
  · rw [← hoptions]
    exact hmade
  · rw [hkeeps.functions, ← hcalls, ← hmformats, ← hoptions, List.forall₂_map_left_iff,
      List.forall₂_map_right_iff, List.forall₂_same]
    exact fun e he => hkeeps.isSpelled hregular he hconstants hdistinct hkeys

/-- A style of the options that percentages have. -/
def shareFormats : Formats where
  number := [("share", Formats.texts [("style", "percent")])]
  date := []
  time := []

/-- A preset, a skeleton and a style of one map of options, and a plural that counts in the
formatter of a number without a style. -/
def spellings : List SourceMessage := [
  ⟨"a".toUTF8.toList, "\x7bp, number, percent\x7d \x7bq, number, ::percent\x7d".toUTF8.toList⟩,
  ⟨"b".toUTF8.toList, ("\x7bn, plural, offset:1 one \x7b#\x7d other \x7b# \x7bp, number, share\x7d" ++
    "\x7d\x7d \x7bn, number\x7d").toUTF8.toList⟩]

/-- Three constants serve the two messages. -/
theorem constants_shared_spellings :
    ∃ built, compile spellings { Module.plainOptions with formats := shareFormats } = .ok built ∧
      built.program.constantNames.length = 3 ∧
      ∃ (supplies : List Supply) (functions : List Stmt) (exports : List Export),
        built.program = supplies.map (fun p => .const p.name p.init) ++ functions ++
          [.exports exports] ∧
        (supplies.map (·.need)).Nodup ∧
        List.Forall₂ (fun msg f => IsSpelled .string (Formats.standard.overlay shareFormats) supplies
          msg.text f) spellings functions := by
  have hcompiles :
      (compile spellings { Module.plainOptions with formats := shareFormats }).toOption.any
        (fun built => built.program.constantNames.length == 3) = true := by
    decide +kernel
  cases hbuilt : compile spellings { Module.plainOptions with formats := shareFormats } with
  | error e =>
    rw [hbuilt] at hcompiles
    exact Bool.noConfusion hcompiles
  | ok built =>
    rw [hbuilt] at hcompiles
    have hregular : shareFormats.Regular := by
      intro kind
      cases kind <;> decide
    obtain ⟨supplies, functions, exports, hprogram, -, hneeds, -, -, hspelled⟩ :=
      constants_shared (o := { Module.plainOptions with formats := shareFormats }) hregular hbuilt
    exact ⟨built, rfl, eq_of_beq hcompiles, supplies, functions, exports, hprogram, hneeds, hspelled⟩

end Phrasebook.Compile
