import Phrasebook.Proofs.Calls

/-!
Messages are isolated from each other. What a module makes of a message depends on the text of the
message and the options of the module, and a message that is refused leaves no trace.
-/
namespace Phrasebook.Compile

/-! ### Texts -/

/-- The tree of a text; a text with a fault has none. -/
def messageNodes (text : Bytes) : List Node :=
  match Message.parse 0 Message.defaultLimit (Module.registeredText text) with
  | .ok ns => ns
  | .error _ => []

/-- The arguments of a text with their types. -/
def messageArguments (target : Target) (formats : Formats) (text : Bytes) :
    List (String × ArgType) :=
  match Check.all ((messageNodes text).map (check target formats false)) [] with
  | .ok uses => uses.map fun u => (u.name, u.type)
  | .error _ => []

/-- What a text asks a module for. -/
def messageRequests (locale : String) (formats : Formats) (text : Bytes) : List Request :=
  ((messageNodes text).map (requests locale formats)).flatten

def Entry.call (e : Entry) : SourceMessage :=
  ⟨e.name, e.text⟩

namespace Module

section Entries

variable {m : Module} {es : List Entry} {e : Entry}

theorem Compiled.parse_eq (he : m.Compiled e) :
    Message.parse 0 Message.defaultLimit (registeredText e.text) = .ok (messageNodes e.text) := by
  obtain ⟨file, hread⟩ := he.read
  have hmoved := Message.parse_inFile 0 file Message.defaultLimit (registeredText e.text)
  rw [hread] at hmoved
  rw [messageNodes, hmoved]
  rfl

/-- The tree of an entry is that of its text, in the file of the entry. -/
theorem Compiled.nodes_eq (he : m.Compiled e) :
    ∃ file, e.nodes = (messageNodes e.text).map (Node.inFile file) := by
  obtain ⟨file, hread⟩ := he.read
  have hmoved := Message.parse_inFile file 0 Message.defaultLimit (registeredText e.text)
  rw [hread, he.parse_eq] at hmoved
  exact ⟨file, Except.ok.inj hmoved⟩

theorem Compiled.meaning_eq [LocaleData] (he : m.Compiled e) :
    m.meaning e.nodes = m.meaning (messageNodes e.text) := by
  obtain ⟨file, hnodes⟩ := he.nodes_eq
  funext w
  rw [meaning, meaning, hnodes, map_inFile file fun n _ => part_inFile file _ _ w n none]

theorem Compiled.requests_eq (he : m.Compiled e) :
    (e.nodes.map (requests m.options.effectiveLocale m.formats)).flatten =
      messageRequests m.options.effectiveLocale m.formats e.text := by
  obtain ⟨file, hnodes⟩ := he.nodes_eq
  rw [messageRequests, hnodes, map_inFile file fun n _ => requests_inFile file _ _ n]

/-- The check of a text finds the arguments of its entry. -/
theorem Compiled.exists_uses (he : m.Compiled e) : ∃ uses,
    Check.all ((messageNodes e.text).map (check m.options.target m.formats false)) [] = .ok uses ∧
      uses.map (fun u => (u.name, u.type)) = e.state.arguments.map fun a => (a.name, a.type) := by
  obtain ⟨file, hnodes⟩ := he.nodes_eq
  have hfollows := Check.Follows.all (l := messageNodes e.text)
    (fun n _ => @check_inFile file m.options.target m.formats n false) []
  have hchecked := he.checked
  rw [hnodes, List.map_map] at hchecked
  rw [List.map_nil] at hfollows
  have hverdict := hfollows.symm.trans hchecked
  cases hcheck : Check.all ((messageNodes e.text).map (check m.options.target m.formats false)) []
    with
  | error f =>
    rw [hcheck] at hverdict
    cases hverdict
  | ok uses =>
    rw [hcheck] at hverdict
    have huses : uses.map (Use.inFile file) = e.state.uses := Except.ok.inj hverdict
    have hpairs := congrArg (List.map fun u : Use => (u.name, u.type)) huses
    rw [State.uses, List.map_map, List.map_map] at hpairs
    exact ⟨uses, rfl, hpairs⟩

theorem Compiled.arguments_eq (he : m.Compiled e) :
    e.state.arguments.map (fun a => (a.name, a.type)) =
      messageArguments m.options.target m.formats e.text := by
  obtain ⟨uses, hcheck, hpairs⟩ := he.exists_uses
  rw [messageArguments, hcheck]
  exact hpairs.symm

/-- What a module grants depends on the accepted texts. -/
theorem Keeps.granted_eq (h : m.Keeps es) :
    m.idle.granted = share [] ((es.map Entry.call).flatMap fun c =>
      messageRequests m.options.effectiveLocale m.formats c.text) := by
  have hasked : m.asked es = (es.map Entry.call).flatMap fun c =>
      messageRequests m.options.effectiveLocale m.formats c.text := by
    rw [List.flatMap_map, asked]
    exact List.flatMap_congr fun e he => (h.compiled e he).requests_eq
  rw [h.granted, hasked]

theorem Keeps.arguments_eq (h : m.Keeps es) :
    m.arguments.map (fun a => (a.1, a.2.map fun x => (x.name, x.type))) =
      (es.map Entry.call).map fun c =>
        (c.name, messageArguments m.options.target m.formats c.text) := by
  rw [h.arguments, List.map_map, List.map_map]
  refine List.map_congr_left fun e he => ?_
  simp only [Function.comp_apply, List.map_map, Entry.call]
  rw [← (h.compiled e he).arguments_eq]
  rfl

theorem Keeps.exportedNames_eq (h : m.Keeps es) :
    m.exportedNames = (es.map Entry.call).map (·.name) := by
  rw [exportedNames, h.exports, List.map_map, List.map_map]
  rfl

theorem Keeps.call_unknown [LocaleData] (h : m.Keeps es) {l : Locale} {name : Bytes}
    {args : List (String × Value)} (hname : name ∉ es.map (·.name)) :
    (m.loadedWith es l).call name args = .error (.unknownExport name) := by
  have hfind : (m.loadedWith es l).exports.find? (·.name == name) = none := by
    rw [List.find?_eq_none]
    intro x hx hxn
    refine hname ?_
    rw [loadedWith, List.mem_reverse, h.exports] at hx
    obtain ⟨e, he, rfl⟩ := List.mem_map.mp hx
    exact List.mem_map.mpr ⟨e, he, by simpa using hxn⟩
  rw [Loaded.call, hfind]

end Entries

/-! ### Modules with the same messages -/

section Same

variable {m m' : Module} {es es' : List Entry}

/-- Two modules of one locale and one table of formats that have accepted the same messages. -/
structure Akin (m m' : Module) (es es' : List Entry) : Prop where
  keeps : m.Keeps es
  keeps' : m'.Keeps es'
  locale : m'.options.locale = m.options.locale
  overrides : m'.options.formats = m.options.formats
  calls : es'.map Entry.call = es.map Entry.call

namespace Akin

theorem formats (h : Akin m m' es es') : m'.formats = m.formats := by
  rw [h.keeps'.formats, h.keeps.formats, h.overrides]

theorem effectiveLocale (h : Akin m m' es es') :
    m'.options.effectiveLocale = m.options.effectiveLocale := by
  rw [Options.effectiveLocale, Options.effectiveLocale, h.locale]

theorem names (h : Akin m m' es es') : es'.map (·.name) = es.map (·.name) := by
  have hcalls := congrArg (List.map SourceMessage.name) h.calls
  rw [List.map_map, List.map_map] at hcalls
  exact hcalls

theorem granted (h : Akin m m' es es') : m'.idle.granted = m.idle.granted := by
  rw [h.keeps'.granted_eq, h.keeps.granted_eq, h.calls, h.effectiveLocale, h.formats]

theorem exportedNames (h : Akin m m' es es') : m'.exportedNames = m.exportedNames := by
  rw [h.keeps'.exportedNames_eq, h.keeps.exportedNames_eq, h.calls]

theorem slots_eq_nil (h : Akin m m' es es') (hslots : m.slots = []) : m'.slots = [] := by
  have hgranted := h.granted
  rw [← map_snd_slots, ← map_snd_slots, hslots] at hgranted
  exact List.map_eq_nil_iff.mp hgranted

theorem made (h : Akin m m' es es') (l : Locale) :
    (m'.loadedWith es' l).made = (m.loadedWith es l).made := by
  rw [loadedWith, loadedWith, made_bindSlots, made_bindSlots, map_snd_slots, map_snd_slots,
    h.granted]

/-- If one program can be loaded the other can. -/
theorem load [LocaleData] (h : Akin m m' es es') {loaded : Loaded} (hload : m.program.load = .ok loaded) :
    loaded = m.loadedWith es m.options.loadedLocale ∧
      m'.program.load = .ok (m'.loadedWith es' m.options.loadedLocale) := by
  obtain ⟨rfl, hlocale⟩ := h.keeps.load_inv hload
  refine ⟨rfl, h.keeps'.load_ok ?_⟩
  by_cases hslots : m.slots = []
  · exact Or.inr (h.slots_eq_nil hslots)
  · obtain ⟨l, hl⟩ := hlocale hslots
    rw [h.effectiveLocale, Options.loadedLocale, hl]
    exact Or.inl rfl

/-- The entry of the same message in the other module. -/
theorem exists_entry (h : Akin m m' es es') {e : Entry} (he : e ∈ es) :
    ∃ e' ∈ es', e'.name = e.name ∧ e'.text = e.text := by
  have hcall : e.call ∈ es'.map Entry.call := by
    rw [h.calls]
    exact List.mem_map_of_mem he
  obtain ⟨e', he', heq⟩ := List.mem_map.mp hcall
  exact ⟨e', he', congrArg SourceMessage.name heq, congrArg SourceMessage.text heq⟩

end Akin

/-- Two such modules of one target. -/
structure Matches (m m' : Module) (es es' : List Entry) : Prop extends Akin m m' es es' where
  target : m'.options.target = m.options.target

namespace Matches

theorem arguments (h : Matches m m' es es') :
    m'.arguments.map (fun a => (a.1, a.2.map fun x => (x.name, x.type))) =
      m.arguments.map fun a => (a.1, a.2.map fun x => (x.name, x.type)) := by
  rw [h.keeps'.arguments_eq, h.keeps.arguments_eq, h.calls, h.target, h.formats]

theorem meaning [LocaleData] (h : Matches m m' es es') : m'.meaning = m.meaning := by
  funext ns w
  rw [Module.meaning, Module.meaning, h.target, h.formats]

/-- Calls give the same values, and fail alike. -/
theorem call [LocaleData] (h : Matches m m' es es') (l : Locale) (name : Bytes)
    (args : List (String × Value)) :
    (m'.loadedWith es' l).call name args = (m.loadedWith es l).call name args := by
  by_cases hname : name ∈ es.map (·.name)
  · obtain ⟨e, he, rfl⟩ := List.mem_map.mp hname
    obtain ⟨e', he', hsame, htext⟩ := h.exists_entry he
    have hcall' := h.keeps'.call_eq he' (h.keeps'.serves l args)
    rw [(h.keeps'.compiled e' he').meaning_eq, h.granted, h.made, h.meaning, hsame, htext] at hcall'
    rw [hcall', h.keeps.call_eq he (h.keeps.serves l args), (h.keeps.compiled e he).meaning_eq]
  · have hname' : name ∉ es'.map (·.name) := by
      rw [h.names]
      exact hname
    rw [h.keeps'.call_unknown hname', h.keeps.call_unknown hname]

end Matches

end Same

/-! ### Accepted calls -/

/-- Calls that are accepted one after the other are accepted again by a module with the same
messages. -/
theorem Matches.accepted {m m' : Module} {es es' : List Entry} (h : Matches m m' es es')
    (hopen : m.finalized = false) (hopen' : m'.finalized = false) (calls : List SourceMessage) :
    ∃ new new', Matches (m.addAll calls) (m'.addAll (m.accepted calls)) (es ++ new) (es' ++ new') := by
  induction calls generalizing m m' es es' with
  | nil =>
    refine ⟨[], [], ?_⟩
    rw [List.append_nil, List.append_nil]
    exact h
  | cons c r ih =>
    have hadded := h.keeps.added hopen c.name c.text
    rw [Module.addAll, List.foldl_cons, Module.accepted]
    generalize m.addMessage c.name c.text = next at hadded ⊢
    cases hadded with
    | @accepted m₁ e hname htext hnew hkeeps hadvances _ hsize hverdict =>
      have hadded' := h.keeps'.added hopen' c.name c.text
      have hcall (l : List SourceMessage) : m'.addAll (c :: l) =
          ((m'.addMessage c.name c.text).1).addAll l := rfl
      simp only [Option.isNone_none, if_true, hcall]
      generalize m'.addMessage c.name c.text = next' at hadded' ⊢
      cases hadded' with
      | @accepted m₁' e' hname' htext' _ hkeeps' hadvances' =>
        have hmatches : Matches m₁ m₁' (es ++ [e]) (es' ++ [e']) := by
          refine ⟨⟨hkeeps, hkeeps', ?_, ?_, ?_⟩, ?_⟩
          · rw [hadvances'.options, hadvances.options, h.locale]
          · rw [hadvances'.options, hadvances.options, h.overrides]
          · rw [List.map_append, List.map_append, h.calls, List.map_singleton, List.map_singleton,
              Entry.call, Entry.call, hname, htext, hname', htext']
          · rw [hadvances'.options, hadvances.options, h.target]
        obtain ⟨new, new', hrest⟩ := ih hmatches (hadvances.finalized.trans hopen)
          (hadvances'.finalized.trans hopen')
        refine ⟨e :: new, e' :: new', ?_⟩
        rw [List.append_cons es e new, List.append_cons es' e' new']
        exact hrest
      | @refused t d m₁' _ _ _ _ hverdict' =>
        -- the verdict is the same in both modules
        have hnot : c.name ∉ es'.map (·.name) := by
          rw [h.names]
          exact hnew
        rw [decide_eq_false hnot, h.target, h.formats,
          verdict_inFile _ _ _ _ _ _ (m.register c.name c.text).2, hverdict] at hverdict'
        cases hverdict'
      | overflowed _ _ _ hsize' => exact absurd hsize (Nat.not_lt.mpr hsize')
    | @refused _ _ m₁ _ hkeeps hadvances | @overflowed m₁ _ hkeeps hadvances =>
      have hmatches : Matches m₁ m' es es' := by
        refine ⟨⟨hkeeps, h.keeps', ?_, ?_, h.calls⟩, ?_⟩
        · rw [hadvances.options, h.locale]
        · rw [hadvances.options, h.overrides]
        · rw [hadvances.options, h.target]
      exact ih hmatches (hadvances.finalized.trans hopen) hopen'

/-! ### Outcomes -/

/-- Two refusals of one text under two names: one code at one place of the text, and the same words
but for the name that those of a duplicate tell. -/
structure SameRefusal (name name' : Bytes) (d d' : Diagnostic) : Prop where
  code : d'.code = d.code
  start : d'.primary.start = d.primary.start
  stop : d'.primary.stop = d.primary.stop
  words : d'.message = d.message ∨ d.code = .duplicateExport ∧
    d.message = (alreadyDefined name .zero).message ∧
    d'.message = (alreadyDefined name' .zero).message

/-- Two outcomes of adding one text under two names. -/
def SameOutcome (name name' : Bytes) : Option ModuleError → Option ModuleError → Prop
  | none, none => True
  | some (.compile e), some (.compile e') => SameRefusal name name' e.diagnostic e'.diagnostic
  | some (.overflow o), some (.overflow o') => o' = o
  | _, _ => False

theorem verdict_sameRefusal (target : Target) (formats : Formats) (known : Bool)
    (name name' text : Bytes) (file file' : UInt32) :
    Option.Rel (SameRefusal name name') (verdict target formats known name text file)
      (verdict target formats known name' text file') := by
  have hmoved (d : Diagnostic) : SameRefusal name name' d (d.inFile file') :=
    ⟨rfl, rfl, rfl, Or.inl rfl⟩
  rw [verdict_inFile target formats known name' text file' file]
  unfold verdict
  simp only
  cases Message.parse file Message.defaultLimit (registeredText text) with
  | error refusal =>
    cases refusal with
    | fault fault => exact .some (hmoved _)
    | overflow => exact .none
  | ok ns =>
    cases known with
    | true =>
      refine .some ?_
      exact ⟨rfl, rfl, rfl, Or.inr ⟨rfl, rfl, rfl⟩⟩
    | false =>
      simp only [Bool.false_eq_true, if_false]
      -- the name is not looked at again
      cases Check.all (ns.map (check target formats false)) [] with
      | ok uses => exact .none
      | error f =>
        cases f with
        | diagnostic d => exact .some (hmoved d)
        | unknownNode | hole => exact .none

/-- An outcome tells a verdict: there is no diagnostic, or the outcome has it. -/
def Tells : Option Diagnostic → Option ModuleError → Prop :=
  Option.Rel fun d e => ∃ c : CompileError, e = .compile c ∧ c.diagnostic = d

theorem SameOutcome.of_tells {name name' : Bytes} {v v' : Option Diagnostic}
    {r r' : Option ModuleError} (h : Tells v r) (h' : Tells v' r')
    (hsame : Option.Rel (SameRefusal name name') v v') : SameOutcome name name' r r' := by
  cases hsame with
  | none =>
    cases h
    cases h'
    trivial
  | some hd =>
    cases h with
    | some hc =>
      obtain ⟨c, rfl, rfl⟩ := hc
      cases h' with
      | some hc' =>
        obtain ⟨c', rfl, rfl⟩ := hc'
        exact hd

/-- The outcome of a call is the verdict on its text, if it is one that can be read. -/
theorem Keeps.outcome {m : Module} {es : List Entry} (h : m.Keeps es) (hopen : m.finalized = false)
    (name : Bytes) {text : Bytes} (hsize : (registeredText text).length < 2 ^ 32) :
    Tells (verdict m.options.target m.formats (decide (name ∈ es.map (·.name))) name text
      (m.register name text).2) (m.addMessage name text).2 := by
  have hadded := h.added hopen name text
  generalize m.addMessage name text = next at hadded ⊢
  cases hadded with
  | accepted _ _ hnew _ _ _ _ hverdict =>
    rw [decide_eq_false hnew, hverdict]
    exact .none
  | refused _ _ _ _ hverdict =>
    rw [hverdict]
    exact .some ⟨_, rfl, rfl⟩
  | overflowed _ _ _ hlong => exact absurd hsize (Nat.not_lt.mpr hlong)

theorem Keeps.overflows {m : Module} {es : List Entry} (h : m.Keeps es)
    (hopen : m.finalized = false) (name : Bytes) {text : Bytes}
    (hsize : 2 ^ 32 ≤ (registeredText text).length) :
    (m.addMessage name text).2 = some (.overflow (.of (registeredText text))) := by
  have hadded := h.added hopen name text
  generalize m.addMessage name text = next at hadded ⊢
  cases hadded with
  | accepted _ _ _ _ _ _ hshort | refused _ _ _ hshort => exact absurd hshort (Nat.not_lt.mpr hsize)
  | overflowed => rfl

/-- Modules of the same options agree on a text if they agree on whether there is a message of its
name. -/
theorem Keeps.sameOutcome {m m' : Module} {es es' : List Entry} (h : m.Keeps es)
    (h' : m'.Keeps es') (hopen : m.finalized = false) (hopen' : m'.finalized = false)
    (hoptions : m'.options = m.options) {name name' : Bytes} (text : Bytes)
    (hknown : name' ∈ es'.map (·.name) ↔ name ∈ es.map (·.name)) :
    SameOutcome name name' (m.addMessage name text).2 (m'.addMessage name' text).2 := by
  rcases Nat.lt_or_ge (registeredText text).length (2 ^ 32) with hsize | hsize
  · have houtcome := h.outcome hopen name hsize
    have houtcome' := h'.outcome hopen' name' hsize
    have hformats : m'.formats = m.formats := by
      rw [h'.formats, h.formats, hoptions]
    rw [hoptions, hformats, decide_eq_decide.mpr hknown] at houtcome'
    exact .of_tells houtcome houtcome' (verdict_sameRefusal _ _ _ name name' text _ _)
  · rw [h.overflows hopen name hsize, h'.overflows hopen' name' hsize]
    rfl

/-- Nothing that is built from changes with a refused message. -/
theorem Keeps.of_refused {m : Module} {es : List Entry} (h : m.Keeps es)
    (hopen : m.finalized = false) {name text : Bytes} (hrefused : (m.addMessage name text).2 ≠ none) :
    ∃ files table, (m.addMessage name text).1 = { m with files, table } := by
  have hadded := h.added hopen name text
  generalize m.addMessage name text = next at hadded hrefused ⊢
  cases hadded with
  | accepted => exact absurd rfl hrefused
  | refused hsame => exact ⟨_, _, hsame⟩
  | overflowed hsame =>
    rcases hsame with rfl | rfl
    · exact ⟨_, _, rfl⟩
    · exact ⟨_, _, rfl⟩

/-! ### Builds -/

/-- A module can be built once. -/
theorem Keeps.build {m : Module} {es : List Entry} (h : m.Keeps es) (hopen : m.finalized = false) :
    m.build.2 = .ok ⟨m.program, m.arguments, m.exportedNames⟩ := by
  have hconsistent : m.table.Consistent := (h.sound m.root).tidy.consistent
  rw [Module.build, hopen, ScopeTable.flaws_eq_nil hconsistent]
  rfl

/-- Results with the same exports, the same arguments and, whatever the data of locales, the same
values of all calls. -/
structure SameResult (built built' : Built) : Prop where
  exports : built'.exports = built.exports
  arguments : built'.arguments.map (fun a => (a.1, a.2.map fun x => (x.name, x.type))) =
    built.arguments.map fun a => (a.1, a.2.map fun x => (x.name, x.type))
  calls : ∀ [LocaleData] loaded, built.program.load = .ok loaded →
    ∃ loaded', built'.program.load = .ok loaded' ∧
      ∀ name args, loaded'.call name args = loaded.call name args

theorem Matches.sameResult {m m' : Module} {es es' : List Entry} (h : Matches m m' es es') :
    SameResult ⟨m.program, m.arguments, m.exportedNames⟩
      ⟨m'.program, m'.arguments, m'.exportedNames⟩ := by
  refine ⟨h.exportedNames, h.arguments, ?_⟩
  intro _ loaded hload
  obtain ⟨rfl, hload'⟩ := h.load hload
  exact ⟨_, hload', h.call _⟩

/-- Messages are isolated, whatever was added before. A refused message changes nothing that is
built from. Whether a text is refused and how depends on the text, the options and whether there is
a message of its name; the words of a duplicate tell that name besides. And a module gives the same
results as one that was never given the refused messages. -/
theorem isolated (o : Options) :
    (∀ files calls name text,
      let m := (Module.new files o).addAll calls
      let next := m.addMessage name text
      next.2 ≠ none → next.1.constants = m.constants ∧ next.1.shared = m.shared ∧
        next.1.sharedOrder = m.sharedOrder ∧ next.1.functions = m.functions ∧ next.1.exports = m.exports ∧
        next.1.exportedNames = m.exportedNames ∧ next.1.arguments = m.arguments) ∧
    (∀ files files' calls calls' name name' text,
      (name' ∈ ((Module.new files' o).accepted calls').map (·.name) ↔
        name ∈ ((Module.new files o).accepted calls).map (·.name)) →
      SameOutcome name name' (((Module.new files o).addAll calls).addMessage name text).2
        (((Module.new files' o).addAll calls').addMessage name' text).2) ∧
    ∀ files files' calls,
      let m := (Module.new files o).addAll calls
      let m' := (Module.new files' o).addAll ((Module.new files o).accepted calls)
      ∃ built built', m.build.2 = .ok built ∧ m'.build.2 = .ok built' ∧
        SameResult built built' := by
  have hrun (files : FileSet) (calls : List SourceMessage) :=
    (keeps_new files o).addAll rfl calls
  refine ⟨?_, ?_, ?_⟩
  -- a refused call changes the files and the names that are taken, and nothing else
  · intro files calls name text m next hrefused
    obtain ⟨es, hkeeps, _, hreaches⟩ := hrun files calls
    obtain ⟨files', table, hsame⟩ := hkeeps.of_refused hreaches.finalized hrefused
    have hnext : next.1 = { m with files := files', table } := hsame
    rw [hnext]
    exact ⟨rfl, rfl, rfl, rfl, rfl, rfl, rfl⟩
  · intro files files' calls calls' name name' text hknown
    obtain ⟨es, hkeeps, haccepted, hreaches⟩ := hrun files calls
    obtain ⟨es', hkeeps', haccepted', hreaches'⟩ := hrun files' calls'
    rw [← haccepted, ← haccepted', List.map_map, List.map_map] at hknown
    exact hkeeps.sameOutcome hkeeps' hreaches.finalized hreaches'.finalized
      (hreaches'.options.trans hreaches.options.symm) text hknown
  · intro files files' calls m m'
    -- both runs start from empty modules, and go on entry by entry
    have hstart : Matches (Module.new files o) (Module.new files' o) [] [] :=
      ⟨⟨keeps_new files o, keeps_new files' o, rfl, rfl, rfl⟩, rfl⟩
    obtain ⟨new, new', hmatches⟩ := hstart.accepted rfl rfl calls
    obtain ⟨_, _, _, hreaches⟩ := hrun files calls
    obtain ⟨_, _, _, hreaches'⟩ := hrun files' ((Module.new files o).accepted calls)
    exact ⟨_, _, hmatches.keeps.build hreaches.finalized,
      hmatches.keeps'.build hreaches'.finalized, hmatches.sameResult⟩

def plainOptions : Options :=
  ⟨"en", .empty, .string, ""⟩

/-- Messages of which the first and the last share a formatter, with a refused one in between. -/
def interrupted : List SourceMessage := [
  ⟨"a".toUTF8.toList, "\x7bn, number\x7d".toUTF8.toList⟩,
  ⟨"b".toUTF8.toList, "\x7bd, date\x7d \x7bx, number\x7d \x7bx, select, other \x7b\x7d\x7d".toUTF8.toList⟩,
  ⟨"c".toUTF8.toList, "<i>\x7bd, date\x7d</i> \x7bx, number\x7d".toUTF8.toList⟩]

theorem isolated_interrupted :
    let m := (Module.new .empty plainOptions).addAll interrupted
    let m' := (Module.new .empty plainOptions).addAll
      ((Module.new .empty plainOptions).accepted interrupted)
    let name := "a".toUTF8.toList
    (m.addMessage name []).1.exports = m.exports ∧
      SameOutcome name name (m.addMessage name []).2 (m'.addMessage name []).2 ∧
      ∃ built built', m.build.2 = .ok built ∧ m'.build.2 = .ok built' ∧
        SameResult built built' := by
  intro m m' name
  obtain ⟨hsame, houtcome, hresult⟩ := isolated plainOptions
  refine ⟨?_, ?_, ?_⟩
  · have hrefused : (m.addMessage name []).2.isSome = true := by
      decide +kernel
    refine (hsame .empty interrupted name [] ?_).2.2.2.2.1
    intro hnone
    have hnone' : (m.addMessage name []).2 = none := hnone
    rw [hnone'] at hrefused
    exact Bool.noConfusion hrefused
  · exact houtcome .empty .empty interrupted _ name name [] (by decide +kernel)
  · exact hresult .empty .empty interrupted

/-- What the diagnostic of a refused message says. -/
def words : Option ModuleError → Option String
  | some (.compile e) => some e.diagnostic.message
  | _ => none

/-- Two duplicates of one text are told apart. -/
theorem words_of_duplicates :
    let a := "a".toUTF8.toList
    let b := "b".toUTF8.toList
    let m := (Module.new .empty plainOptions).addAll [⟨a, a⟩, ⟨b, a⟩]
    a ∈ m.exportedNames ∧ b ∈ m.exportedNames ∧
      words (m.addMessage a a).2 ≠ words (m.addMessage b a).2 := by
  decide +kernel

end Module

end Phrasebook.Compile
