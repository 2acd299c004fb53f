import Mathlib.Data.Option.Basic
import Phrasebook.Proofs.Modules

/-!
Compiling with other styles. Where two format tables answer every name with options that make one
key, compiling takes one course: the modules are the same but for the options that their formatters
are made with. Where the texts of messages are registered makes no difference either.
-/
namespace Phrasebook.Compile

/-! ### Styles that stand for each other -/

/-- Options that stand for each other make one key, and a formatter is made without options for both
of them or for none. -/
structure Interchange (R : FormatOptions → FormatOptions → Prop) : Prop where
  refl : ∀ o, R o o
  canonical : ∀ {o o'}, R o o' → o.canonical = o'.canonical
  isEmpty : ∀ {o o'}, R o o' → o.isEmpty = o'.isEmpty

/-- Initializers that are the same but for the options that a formatter is made with. -/
inductive Restyled (R : FormatOptions → FormatOptions → Prop) : Expr → Expr → Prop
  | same (e : Expr) : Restyled R e e
  | formatter {o o' : FormatOptions} (locale : String) (kind : FormatKind) : R o o' →
      Restyled R (formatterInit locale kind o) (formatterInit locale kind o')

/-- Constants of the same names, their initializers restyled. -/
def ConstantsRestyled (R : FormatOptions → FormatOptions → Prop) :
    List (String × Expr) → List (String × Expr) → Prop :=
  List.Forall₂ fun c c' => c.1 = c'.1 ∧ Restyled R c.2 c'.2

/-- Tables that answer every name alike. -/
def FormatsRestyled (R : FormatOptions → FormatOptions → Prop) (f f' : Formats) : Prop :=
  ∀ kind name, Option.Rel R (f.lookup? kind name) (f'.lookup? kind name)

/-- Initializers restyled with options that are equal are equal. -/
theorem Restyled.eq {e e' : Expr} (h : Restyled Eq e e') : e = e' := by
  cases h with
  | same => rfl
  | formatter locale kind ho => rw [ho]

/-- There is nothing on either side, or there are related things on both. -/
theorem rel_cases {α : Type} {R : α → α → Prop} {x x' : Option α} (h : Option.Rel R x x') :
    (x = none ∧ x' = none) ∨ ∃ a a', R a a' ∧ x = some a ∧ x' = some a' := by
  cases h with
  | none => exact .inl ⟨rfl, rfl⟩
  | some ha => exact .inr ⟨_, _, ha, rfl, rfl⟩

theorem ConstantsRestyled.eq {cs cs' : List (String × Expr)} (h : ConstantsRestyled Eq cs cs') :
    cs = cs' := by
  induction h with
  | nil => rfl
  | cons hc _ ih => rw [Prod.ext hc.1 hc.2.eq, ih]

section Steps

variable {R : FormatOptions → FormatOptions → Prop}

theorem ConstantsRestyled.append {cs cs' ds ds' : List (String × Expr)}
    (h : ConstantsRestyled R cs cs') (h' : ConstantsRestyled R ds ds') :
    ConstantsRestyled R (cs ++ ds) (cs' ++ ds') :=
  List.rel_append h h'

/-! ### Steps in parallel -/

/-- From states that differ in the constants only, which are restyled, two steps come to the same
result and to states that again differ in restyled constants only. -/
def InParallel (R : FormatOptions → FormatOptions → Prop) {α : Type} (x x' : Step α) : Prop :=
  ∀ s cs, ConstantsRestyled R s.constants cs →
    ∃ cs', x'.exec { s with constants := cs } =
        ((x.exec s).1, { (x.exec s).2 with constants := cs' }) ∧
      ConstantsRestyled R (x.exec s).2.constants cs'

namespace InParallel

variable {α β : Type}

theorem pure (a : α) : InParallel R (Pure.pure a) (Pure.pure a) :=
  fun _ cs h => ⟨cs, rfl, h⟩

theorem throw (f : Failure) :
    InParallel R (MonadExcept.throw f : Step α) (MonadExcept.throw f) :=
  fun _ cs h => ⟨cs, rfl, h⟩

theorem lift (e : Except Failure α) : InParallel R (liftM e : Step α) (liftM e) :=
  fun _ cs h => ⟨cs, rfl, h⟩

theorem bind {x x' : Step α} {f f' : α → Step β} (hx : InParallel R x x')
    (hf : ∀ a, InParallel R (f a) (f' a)) : InParallel R (x >>= f) (x' >>= f') := by
  intro s cs h
  obtain ⟨cs₁, hrun, h₁⟩ := hx s cs h
  rcases hfirst : x.exec s with ⟨_ | a, s₁⟩
  · rw [hfirst] at hrun h₁
    rw [Step.exec_bind_error hfirst, Step.exec_bind_error hrun]
    exact ⟨cs₁, rfl, h₁⟩
  · rw [hfirst] at hrun h₁
    rw [Step.exec_bind_ok hfirst, Step.exec_bind_ok hrun]
    exact hf a s₁ cs₁ h₁

/-- A step that starts with a look at the state. -/
theorem get {f f' : State → Step α} (h : ∀ s cs, ConstantsRestyled R s.constants cs →
    ∃ cs', (f' { s with constants := cs }).exec { s with constants := cs } =
        (((f s).exec s).1, { ((f s).exec s).2 with constants := cs' }) ∧
      ConstantsRestyled R ((f s).exec s).2.constants cs') :
    InParallel R (MonadState.get >>= f) (MonadState.get >>= f') :=
  h

end InParallel

variable {ctx ctx' : Context}

/-- Binding an argument has nothing to do with constants. -/
theorem useArgument_inParallel (hscope : ctx.scope = ctx'.scope) (name : String) (type : ArgType)
    (span : Span) :
    InParallel R (useArgument ctx name type span) (useArgument ctx' name type span) := by
  unfold useArgument
  refine .get fun s cs h => ?_
  simp only [hscope]
  cases s.arguments.find? (·.name == name) with
  | some a =>
    simp only
    cases a.type.join? type with
    | none => exact ⟨cs, rfl, h⟩
    | some joined => exact ⟨cs, rfl, h⟩
  | none =>
    simp only
    cases bindName s.table ctx'.scope (some name) name.toList .param with
    | error e => exact ⟨cs, rfl, h⟩
    | ok r => exact ⟨cs, rfl, h⟩

theorem bindConstant_inParallel (scope : ScopeId) (base : String) :
    InParallel R (bindConstant scope base) (bindConstant scope base) := by
  unfold bindConstant
  refine .get fun s cs h => ?_
  simp only
  cases s.table.bindFresh scope base.toList .constant with
  | error e => exact ⟨cs, rfl, h⟩
  | ok r => exact ⟨cs, rfl, h⟩

theorem shareConstant_inParallel (hroot : ctx.root = ctx'.root) (key : SharedKey) (base : String)
    {init init' : Expr} (hinit : Restyled R init init') :
    InParallel R (shareConstant ctx key base init) (shareConstant ctx' key base init') := by
  unfold shareConstant
  refine .get fun s cs h => ?_
  simp only [hroot]
  cases s.shared.find? (·.1 == key) with
  | some p => exact ⟨cs, rfl, h⟩
  | none =>
    -- the only place where constants are added
    refine InParallel.bind (bindConstant_inParallel ctx'.root base) (fun name => ?_) s cs h
    refine .bind (fun s cs h => ?_) fun _ => .pure name
    exact ⟨_, rfl, h.append (.cons ⟨rfl, hinit⟩ .nil)⟩

theorem deriveConstant_inParallel (hscope : ctx.scope = ctx'.scope) (key : LocalKey)
    (base : String) : InParallel R (deriveConstant ctx key base) (deriveConstant ctx' key base) := by
  unfold deriveConstant
  refine .get fun s cs h => ?_
  simp only [hscope]
  cases s.derived.find? (·.1.same key) with
  | some p => exact ⟨cs, rfl, h⟩
  | none =>
    refine InParallel.bind (bindConstant_inParallel ctx'.scope base) (fun name => ?_) s cs h
    exact .bind (fun s cs h => ⟨cs, rfl, h⟩) fun _ => .pure name

/-! ### Formatters -/

/-- What does not change while a message is compiled is the same but for the styles. -/
structure ContextRestyled (R : FormatOptions → FormatOptions → Prop) (ctx ctx' : Context) :
    Prop where
  target : ctx.target = ctx'.target
  locale : ctx.locale = ctx'.locale
  formats : FormatsRestyled R ctx.formats ctx'.formats
  root : ctx.root = ctx'.root
  scope : ctx.scope = ctx'.scope

variable (hR : Interchange R) (hctx : ContextRestyled R ctx ctx')

include hR hctx

/-- The one key of both options is shared, and the constant is made with either. -/
theorem useFormatted_inParallel (v : ValueRef) (kind : FormatKind) (preset : String)
    {o o' : FormatOptions} (ho : R o o') :
    InParallel R (useFormatted ctx v kind preset o) (useFormatted ctx' v kind preset o') := by
  unfold useFormatted useFormatter
  rw [hR.canonical ho, hctx.locale]
  refine .bind (shareConstant_inParallel hctx.root _ _ (.formatter _ kind ho)) fun formatter => ?_
  exact .bind (deriveConstant_inParallel hctx.scope _ _) fun name => .pure _

omit hR in
theorem useCategory_inParallel (v : ValueRef) (kind : PluralKind) :
    InParallel R (useCategory ctx v kind) (useCategory ctx' v kind) := by
  unfold useCategory usePluralRules
  rw [hctx.locale]
  refine .bind (shareConstant_inParallel hctx.root _ _ (.same _)) fun rules => ?_
  exact .bind (deriveConstant_inParallel hctx.scope _ _) fun name => .pure _

omit hR in
theorem useOffset_inParallel (v : ValueRef) (offset : Float) :
    InParallel R (useOffset ctx v offset) (useOffset ctx' v offset) := by
  unfold useOffset
  split
  · exact .pure v
  · exact .bind (deriveConstant_inParallel hctx.scope _ _) fun name => .pure _

/-- A style stands for options of one preset in both tables, or for none in either. -/
theorem resolveStyle_restyled (span : Span) (kind : FormatKind) (style : Style) :
    (∃ f, resolveStyle ctx.formats span kind style = .error f ∧
      resolveStyle ctx'.formats span kind style = .error f) ∨
    ∃ preset o o', R o o' ∧ resolveStyle ctx.formats span kind style = .ok (preset, o) ∧
      resolveStyle ctx'.formats span kind style = .ok (preset, o') := by
  cases style with
  | skeleton text o styleSpan => exact .inr ⟨"", o, o, hR.refl o, rfl, rfl⟩
  | named name styleSpan =>
    unfold resolveStyle
    rcases rel_cases (hctx.formats kind name) with ⟨hleft, hright⟩ | ⟨o, o', ho, hleft, hright⟩
    · simp only [hleft, hright]
      exact .inl ⟨_, rfl, rfl⟩
    · -- the plain number format is told by its name and by having no options
      simp only [hleft, hright, hR.isEmpty ho]
      split
      · exact .inr ⟨"", [], [], hR.refl [], rfl, rfl⟩
      · exact .inr ⟨name, o, o', ho, rfl, rfl⟩
  | default =>
    unfold resolveStyle
    by_cases htime : kind = .time
    · simp only [if_pos htime]
      rcases rel_cases (hctx.formats kind "medium") with ⟨hleft, hright⟩ | ⟨o, o', ho, hleft, hright⟩
      · simp only [hleft, hright]
        exact .inr ⟨"", [], [], hR.refl [], rfl, rfl⟩
      · simp only [hleft, hright]
        exact .inr ⟨"medium", o, o', ho, rfl, rfl⟩
    · simp only [if_neg htime]
      exact .inr ⟨"", [], [], hR.refl [], rfl, rfl⟩

/-! ### Elements -/

/-- An element is compiled in parallel, whatever `#` stands for around it. -/
def NodeInParallel (R : FormatOptions → FormatOptions → Prop) (ctx ctx' : Context) (n : Node) :
    Prop :=
  ∀ plural, InParallel R (node ctx plural n) (node ctx' plural n)

omit hR hctx in
theorem nodes_inParallel {ns : List Node} (h : ∀ n ∈ ns, NodeInParallel R ctx ctx' n)
    (plural : Option ValueRef) : InParallel R (nodes ctx plural ns) (nodes ctx' plural ns) := by
  induction ns with
  | nil =>
    rw [nodes, nodes]
    exact .pure []
  | cons n r ih =>
    obtain ⟨hn, hr⟩ := List.forall_mem_cons.mp h
    rw [nodes, nodes]
    exact .bind (hn plural) fun p => .bind (ih hr) fun ps => .pure (p :: ps)

omit hR hctx in
theorem branch_inParallel {b : Branch Node} (h : ∀ n ∈ b.body, NodeInParallel R ctx ctx' n)
    (plural : Option ValueRef) (selector : Selector) (test : String → Option Float → Expr) :
    InParallel R (branch ctx plural selector test b) (branch ctx' plural selector test b) := by
  obtain ⟨key, keySpan, span, body⟩ := b
  rw [branch, branch]
  exact .bind (.lift _) fun exact => .bind (nodes_inParallel h plural) fun ps => .pure _

omit hR hctx in
theorem branches_inParallel {cases : List (Branch Node)}
    (h : ∀ b ∈ cases, ∀ n ∈ b.body, NodeInParallel R ctx ctx' n) (plural : Option ValueRef)
    (selector : Selector) (test : String → Option Float → Expr) (seen : List String) :
    InParallel R (branches ctx plural selector test seen cases)
      (branches ctx' plural selector test seen cases) := by
  induction cases generalizing seen with
  | nil =>
    rw [branches, branches]
    exact .pure []
  | cons b r ih =>
    obtain ⟨hb, hr⟩ := List.forall_mem_cons.mp h
    rw [branches, branches]
    split
    · exact ih hr seen
    · exact .bind (branch_inParallel hb plural selector test) fun c =>
        .bind (ih hr _) fun cs => .pure (c :: cs)

omit hR hctx in
theorem defaultBranch_inParallel {cases : List (Branch Node)}
    (h : ∀ b ∈ cases, ∀ n ∈ b.body, NodeInParallel R ctx ctx' n) (plural : Option ValueRef) :
    InParallel R (defaultBranch ctx plural cases) (defaultBranch ctx' plural cases) := by
  induction cases with
  | nil =>
    rw [defaultBranch, defaultBranch]
    exact .pure _
  | cons b r ih =>
    obtain ⟨hb, hr⟩ := List.forall_mem_cons.mp h
    rw [defaultBranch, defaultBranch]
    split
    · obtain ⟨key, keySpan, span, body⟩ := b
      rw [defaultBody, defaultBody]
      exact .bind (nodes_inParallel hb plural) fun ps => .pure _
    · exact ih hr

theorem hereditary_inParallel : Node.Hereditary (NodeInParallel R ctx ctx') where
  literal span text plural := by
    rw [node, node]
    exact .pure _
  argument span name nameSpan plural := by
    rw [node, node, hctx.target]
    exact .bind (useArgument_inParallel hctx.scope _ _ _) fun v => .pure _
  select span name nameSpan cases h plural := by
    rw [node, node]
    refine .bind (useArgument_inParallel hctx.scope _ _ _) fun v => ?_
    refine .bind (.lift _) fun _ => ?_
    exact .bind (branches_inParallel h plural _ _ _) fun compiled =>
      .bind (defaultBranch_inParallel h plural) fun fallback => .pure _
  plural span name nameSpan offset kind cases h plural := by
    rw [node, node]
    refine .bind (useArgument_inParallel hctx.scope _ _ _) fun v => ?_
    refine .bind (.lift _) fun _ => ?_
    refine .bind (useOffset_inParallel hctx v offset) fun shifted => ?_
    refine .bind ?_ fun category => ?_
    · split
      · exact useCategory_inParallel hctx shifted kind
      · exact .pure _
    · exact .bind (branches_inParallel h (some shifted) _ _ _) fun compiled =>
        .bind (defaultBranch_inParallel h (some shifted)) fun fallback => .pure _
  format span kind name nameSpan style plural := by
    rw [node, node]
    refine .bind (useArgument_inParallel hctx.scope _ _ _) fun v => ?_
    rcases resolveStyle_restyled hR hctx span kind style with
      ⟨f, hleft, hright⟩ | ⟨preset, o, o', ho, hleft, hright⟩
    · rw [hleft, hright]
      exact .throw f
    · rw [hleft, hright]
      exact useFormatted_inParallel hR hctx v kind preset ho |>.bind fun e => .pure _
  pound span plural := by
    cases plural with
    | none =>
      rw [node, node]
      exact .lift _
    | some v =>
      rw [node, node]
      exact .bind (useFormatted_inParallel hR hctx v .number "" (hR.refl [])) fun e => .pure _
  tag span name nameSpan selfClosing children h plural := by
    rw [node, node, hctx.target]
    refine .bind (.lift _) fun _ => ?_
    refine .bind (useArgument_inParallel hctx.scope _ _ _) fun v => ?_
    refine .bind ?_ fun inside => .pure _
    split
    · exact .pure _
    · exact nodes_inParallel h plural
  unknown span plural := by
    rw [node, node]
    exact .throw _
  hole plural := by
    rw [node, node]
    exact .throw _

theorem nodes_restyled (plural : Option ValueRef) (ns : List Node) :
    InParallel R (nodes ctx plural ns) (nodes ctx' plural ns) :=
  nodes_inParallel (fun n _ => (hereditary_inParallel hR hctx).holds n) plural

end Steps

/-! ### Modules -/

namespace Module

variable {R : FormatOptions → FormatOptions → Prop} {m m' : Module}

/-- Modules that are the same but for the styles, and for what their texts are registered under. -/
structure Parallel (R : FormatOptions → FormatOptions → Prop) (m m' : Module) : Prop where
  target : m.options.target = m'.options.target
  locale : m.options.effectiveLocale = m'.options.effectiveLocale
  formats : FormatsRestyled R m.formats m'.formats
  files : m.files.size = m'.files.size
  table : m.table = m'.table
  root : m.root = m'.root
  constants : ConstantsRestyled R m.constants m'.constants
  shared : m.shared = m'.shared
  sharedOrder : m.sharedOrder = m'.sharedOrder
  functions : m.functions = m'.functions
  exports : m.exports = m'.exports
  arguments : m.arguments = m'.arguments
  finalized : m.finalized = m'.finalized

theorem Parallel.of_files (h : Parallel R m m') {files files' : FileSet}
    (hfiles : files.size = files'.size) :
    Parallel R { m with files } { m' with files := files' } :=
  ⟨h.target, h.locale, h.formats, hfiles, h.table, h.root, h.constants, h.shared,
    h.sharedOrder, h.functions, h.exports, h.arguments, h.finalized⟩

theorem Parallel.runMessage (hR : Interchange R) (h : Parallel R m m') (span : Span)
    (ns : List Node) : ∃ cs, m'.runMessage span ns = ((m.runMessage span ns).1,
        { (m.runMessage span ns).2 with constants := cs }) ∧
      ConstantsRestyled R (m.runMessage span ns).2.constants cs := by
  have hctx : ContextRestyled R (m.context (m.messageTable span).2)
      (m'.context (m.messageTable span).2) :=
    ⟨h.target, h.locale, h.formats, h.root, rfl⟩
  have hstep := (nodes_restyled hR hctx none ns).bind fun ps => .pure (joinPieces ps)
  obtain ⟨cs, hrun, hcs⟩ := hstep (m.messageStart span) m'.constants h.constants
  refine ⟨cs, ?_, hcs⟩
  have htable : m'.messageTable span = m.messageTable span := by
    rw [messageTable, messageTable, h.table, h.root]
  have hstart : m'.messageStart span =
      { m.messageStart span with constants := m'.constants } := by
    rw [messageStart, messageStart, htable, h.shared, h.sharedOrder]
  have hrunMessage (m : Module) : m.runMessage span ns =
      ((nodes (m.context (m.messageTable span).2) none ns) >>= fun ps =>
        pure (joinPieces ps)).exec (m.messageStart span) := rfl
  rw [hrunMessage m', hrunMessage m, hstart, htable]
  exact hrun

theorem Parallel.addCompiled (hR : Interchange R) (h : Parallel R m m') {name : Bytes}
    {ns : List Node} {span : Span} {m₁ : Module} (hadd : m.addCompiled name ns span = (m₁, none)) :
    ∃ m₁', m'.addCompiled name ns span = (m₁', none) ∧ Parallel R m₁ m₁' := by
  have hnames : m'.exportedNames = m.exportedNames := by
    rw [exportedNames, exportedNames, h.exports]
  have hreturn : m'.returnType = m.returnType := by
    rw [returnType, returnType, h.target]
  obtain ⟨cs, hrun, hcs⟩ := h.runMessage hR span ns
  unfold Module.addCompiled at hadd ⊢
  rw [hnames, hrun, ← h.root]
  -- Whether the name was added before depends on the exports, which the two share.
  split at hadd
  · exact absurd (Prod.mk.inj hadd).2 (Option.some_ne_none _)
  · rename_i hnew
    rw [if_neg hnew]
    rcases hfirst : m.runMessage span ns with ⟨_ | ⟨value, markup⟩, s⟩
    · rw [hfirst] at hadd
      exact absurd (Prod.mk.inj hadd).2 (Option.some_ne_none _)
    · rw [hfirst] at hadd hcs
      simp only at hadd hcs ⊢
      split at hadd
      · exact absurd (Prod.mk.inj hadd).2 (Option.some_ne_none _)
      · refine ⟨_, rfl, ?_⟩
        rw [← (Prod.mk.inj hadd).1]
        exact {
          target := h.target
          locale := h.locale
          formats := h.formats
          files := h.files
          table := rfl
          root := h.root
          constants := hcs
          shared := rfl
          sharedOrder := rfl
          functions := by rw [withFunction, withFunction, h.functions, hreturn]
          exports := by rw [withFunction, withFunction, h.exports]
          arguments := by rw [withFunction, withFunction, h.arguments]
          finalized := h.finalized }

theorem Parallel.addMessage (hR : Interchange R) (h : Parallel R m m') {name text : Bytes}
    {m₁ : Module} (hadd : m.addMessage name text = (m₁, none)) :
    ∃ m₁', m'.addMessage name text = (m₁', none) ∧ Parallel R m₁ m₁' := by
  have hsize (path path' : String) (content : Bytes) (flags : UInt8) :
      (m.files.add path content flags).1.size = (m'.files.add path' content flags).1.size := by
    have hfiles := h.files
    simp only [FileSet.size, FileSet.add, List.length_append, List.length_singleton] at hfiles ⊢
    rw [hfiles]
  have hid (path path' : String) (content : Bytes) (flags : UInt8) :
      (m'.files.add path' content flags).2 = (m.files.add path content flags).2 :=
    congrArg Nat.toUInt32 h.files.symm
  unfold Module.addMessage at hadd ⊢
  split at hadd
  · exact absurd (Prod.mk.inj hadd).2 (Option.some_ne_none _)
  · rename_i hopen
    rw [h.finalized] at hopen
    rw [if_neg hopen]
    simp only [hid (m.messagePath name) (m'.messagePath name)] at hadd ⊢
    split at hadd
    · exact absurd (Prod.mk.inj hadd).2 (Option.some_ne_none _)
    · exact absurd (Prod.mk.inj hadd).2 (Option.some_ne_none _)
    · exact (h.of_files (hsize _ _ _ _)).addCompiled hR hadd

end Module

/-- The programs are the same but for the initializers of their constants, which are restyled. -/
def ProgramRestyled (R : FormatOptions → FormatOptions → Prop) (p p' : Program) : Prop :=
  ∃ before cs cs' behind, ConstantsRestyled R cs cs' ∧
    p = before ++ cs.map (fun c => Stmt.const c.1 c.2) ++ behind ∧
    p' = before ++ cs'.map (fun c => Stmt.const c.1 c.2) ++ behind

/-- What messages are built to, if they all are good. -/
def Builds (files : FileSet) (o : Options) (messages : List SourceMessage) (b : Module.Built) :
    Prop :=
  ∃ m, addMessages (Module.new files o) messages = .ok m ∧ m.build.2 = .ok b

/-- What is built to have the same interface, whatever the styles. -/
structure BuiltAlike (R : FormatOptions → FormatOptions → Prop) (b b' : Module.Built) : Prop where
  program : ProgramRestyled R b.program b'.program
  arguments : b.arguments = b'.arguments
  exports : b.exports = b'.exports

variable {R : FormatOptions → FormatOptions → Prop}

theorem Module.Parallel.addMessages (hR : Interchange R) {m m' m₁ : Module} (h : Parallel R m m')
    {messages : List SourceMessage} (hadd : Compile.addMessages m messages = .ok m₁) :
    ∃ m₁', Compile.addMessages m' messages = .ok m₁' ∧ Parallel R m₁ m₁' := by
  induction messages generalizing m m' with
  | nil =>
    cases hadd
    exact ⟨m', rfl, h⟩
  | cons msg rest ih =>
    unfold Compile.addMessages at hadd ⊢
    rcases hfirst : m.addMessage msg.name msg.text with ⟨m₂, _ | e⟩
    · obtain ⟨m₂', hsecond, h₂⟩ := h.addMessage hR hfirst
      rw [hfirst] at hadd
      rw [hsecond]
      exact ih h₂ hadd
    · rw [hfirst] at hadd
      cases hadd

theorem Module.Parallel.build {m m' : Module} (h : Parallel R m m') {b : Module.Built}
    (hbuild : m.build.2 = .ok b) : ∃ b', m'.build.2 = .ok b' ∧ BuiltAlike R b b' := by
  unfold Module.build at hbuild ⊢
  rw [← h.finalized, ← h.table]
  split at hbuild
  · cases hbuild
  · rename_i hopen
    rw [if_neg hopen]
    cases hflaws : m.table.flaws with
    | cons flaw flaws =>
      rw [hflaws] at hbuild
      cases hbuild
    | nil =>
      rw [hflaws] at hbuild
      cases hbuild
      have hprogram : ProgramRestyled R m.program m'.program := by
        refine ⟨if m.options.target = .tree then [.importAll markupName markupSource] else [],
          m.constants, m'.constants, m.functions ++ [.exports m.exports], h.constants, ?_, ?_⟩
        · rw [Module.program, List.append_assoc _ m.functions]
        · rw [Module.program, List.append_assoc _ m'.functions, h.target, h.functions, h.exports]
      refine ⟨_, rfl, hprogram, h.arguments, ?_⟩
      rw [exportedNames, exportedNames, h.exports]

/-- The same messages are built to the same, with restyled constants. -/
theorem Builds.restyled (hR : Interchange R) {files files' : FileSet} {o o' : Options}
    {messages : List SourceMessage} {b : Module.Built} (hfiles : files.size = files'.size)
    (htarget : o.target = o'.target) (hlocale : o.locale = o'.locale)
    (hformats : FormatsRestyled R (Formats.standard.overlay o.formats)
      (Formats.standard.overlay o'.formats))
    (h : Builds files o messages b) : ∃ b', Builds files' o' messages b' ∧ BuiltAlike R b b' := by
  obtain ⟨m, hadd, hbuild⟩ := h
  have hnew : Module.Parallel R (Module.new files o) (Module.new files' o') := {
    target := htarget
    locale := by rw [Module.new, Module.new, Options.effectiveLocale, Options.effectiveLocale, hlocale]
    formats := hformats
    files := hfiles
    table := by rw [Module.new, Module.new, htarget]
    root := by rw [Module.new, Module.new, htarget]
    constants := .nil
    shared := rfl
    sharedOrder := rfl
    functions := rfl
    exports := rfl
    arguments := rfl
    finalized := rfl }
  obtain ⟨m', hadd', hm'⟩ := hnew.addMessages hR hadd
  obtain ⟨b', hbuild', hb'⟩ := hm'.build hbuild
  exact ⟨b', ⟨m', hadd', hbuild'⟩, hb'⟩

end Phrasebook.Compile
