import Phrasebook.Proofs.Modules

/-!
The programs of modules are well scoped: names of the module are distinct, locals of a function
hide none of the names that functions read, and every name is bound before it is read.
-/
namespace Phrasebook

open Compile (ReadsOnly intlName markupName)

/-! ### Names of a program -/

def Stmt.imported? : Stmt → Option String
  | .importAll binding _ => some binding
  | _ => none

def Stmt.constant? : Stmt → Option String
  | .const name _ => some name
  | _ => none

def Stmt.function? : Stmt → Option LoadedFunction
  | .function name params body _ => some ⟨name, params, body⟩
  | _ => none

/-- The names that a function binds: the locals of its parameters, and its constants. -/
def LoadedFunction.locals (f : LoadedFunction) : List String :=
  f.params.map (·.binding) ++ f.body.filterMap Stmt.constant?

namespace Program

def constantNames (p : Program) : List String :=
  p.filterMap Stmt.constant?

def functions (p : Program) : List LoadedFunction :=
  p.filterMap Stmt.function?

/-- The names that a program binds at its top level: imports, constants and functions. -/
def names (p : Program) : List String :=
  p.filterMap Stmt.imported? ++ p.constantNames ++ p.functions.map (·.name)

/-- The statements of a function read names of a list and earlier constants only. -/
def BodyReads (visible : List String) : List Stmt → Prop
  | [] => True
  | .const name init :: r => ReadsOnly visible init ∧ BodyReads (name :: visible) r
  | .return value :: r => ReadsOnly visible value ∧ BodyReads visible r
  | _ :: _ => False

/-- The statements of a program read names of a list, and earlier imports and constants only. -/
def Reads (visible : List String) : Program → Prop
  | [] => True
  | .importAll binding _ :: r => Reads (binding :: visible) r
  | .const name init :: r => ReadsOnly visible init ∧ Reads (name :: visible) r
  | .function _ params body _ :: r =>
    BodyReads (params.map (·.binding) ++ visible) body ∧ Reads visible r
  | .exports _ :: r => Reads visible r
  | .return _ :: _ => False

/-- A well-scoped program for a target. -/
structure WellScoped (target : Compile.Target) (p : Program) : Prop where
  names_distinct : (intlName :: p.names).Nodup
  locals_distinct : ∀ f ∈ p.functions, f.locals.Nodup
  locals_bindable : ∀ f ∈ p.functions, ∀ x ∈ f.locals, Name.isBindable x = true
  locals_apart : ∀ f ∈ p.functions, ∀ x ∈ f.locals,
    x ∉ p.constantNames ∧ x ≠ intlName ∧ x ≠ "undefined" ∧ (target = .tree → x ≠ markupName)
  reads : p.Reads [intlName, "undefined"]

end Program

namespace Compile

/-! ### Initializers -/

theorem readsOnly_new {names : List String} {callee : Expr} {args : List Expr}
    (hc : ReadsOnly names callee) (ha : ∀ e ∈ args, ReadsOnly names e) :
    ReadsOnly names (.new callee args) := by
  intro x hx
  simp only [Expr.reads, List.mem_append] at hx
  exact hx.elim (hc x) (readsOnly_readsAll ha x)

theorem readsOnly_object {names : List String} {props : List (String × Expr)}
    (h : ∀ p ∈ props, ReadsOnly names p.2) : ReadsOnly names (.object props) := by
  intro x hx
  rw [Expr.reads] at hx
  induction props with
  | nil => exact absurd hx List.not_mem_nil
  | cons p r ih =>
    rw [propReads] at hx
    rcases List.mem_append.mp hx with hx | hx
    · exact h p List.mem_cons_self x hx
    · exact ih (fun q hq => h q (List.mem_cons_of_mem _ hq)) hx

/-- A class of the global object that formatters come from. -/
theorem readsOnly_intl (property : String) :
    ReadsOnly [intlName] (.member (.ident intlName) property) :=
  readsOnly_member (readsOnly_ident.mpr (List.mem_singleton.mpr rfl))

theorem readsOnly_formatterInit (locale : String) (kind : FormatKind) (o : FormatOptions) :
    ReadsOnly [intlName] (formatterInit locale kind o) := by
  refine readsOnly_new (readsOnly_intl _) ?_
  intro e he
  rcases List.mem_cons.mp he with rfl | he
  · exact readsOnly_string locale
  · split at he
    · exact absurd he List.not_mem_nil
    · rw [List.mem_singleton.mp he]
      refine readsOnly_object ?_
      intro p hp
      obtain ⟨⟨key, value⟩, _, rfl⟩ := List.mem_map.mp hp
      intro x hx
      cases value <;> simp only [valueExpr, Expr.reads, List.not_mem_nil] at hx

theorem readsOnly_rulesInit (locale : String) (kind : PluralKind) :
    ReadsOnly [intlName] (rulesInit locale kind) := by
  refine readsOnly_new (readsOnly_intl _) ?_
  intro e he
  rcases List.mem_cons.mp he with rfl | he
  · exact readsOnly_string locale
  · split at he
    · rw [List.mem_singleton.mp he]
      refine readsOnly_object ?_
      intro p hp
      rw [List.mem_singleton.mp hp]
      exact readsOnly_string _
    · exact absurd he List.not_mem_nil

/-- Every constant has its request. -/
theorem exists_mem_granted {ctx : Context} {outer : List String} {s : State}
    (hs : Sound ctx outer s) {c : String × Expr} (hc : c ∈ s.constants) :
    ∃ key, (key, c.2) ∈ s.granted := by
  have hlength := length_shared hs
  rw [State.granted]
  -- keys and constants are two lists of one length, and the induction is on both
  generalize s.shared = shared at hlength
  generalize s.constants = constants at hlength hc
  induction constants generalizing shared with
  | nil => exact absurd hc List.not_mem_nil
  | cons d r ih =>
    cases shared with
    | nil => exact absurd hlength (by simp)
    | cons p q =>
      rw [List.zipWith_cons_cons]
      rcases List.mem_cons.mp hc with rfl | hc
      · exact ⟨p.1, List.mem_cons_self⟩
      · obtain ⟨key, hkey⟩ := ih q (by simpa using hlength) hc
        exact ⟨key, List.mem_cons_of_mem _ hkey⟩

namespace Module

/-- Every constant was asked for by some entry. -/
theorem Keeps.exists_request {m : Module} {es : List Entry} (h : m.Keeps es) {c : String × Expr}
    (hc : c ∈ m.constants) : ∃ e ∈ es, ∃ n ∈ e.nodes,
      ∃ r ∈ requests m.options.effectiveLocale m.formats n, r.2 = c.2 := by
  obtain ⟨key, hgranted⟩ := exists_mem_granted (h.sound m.root) hc
  rw [h.granted] at hgranted
  rcases mem_share hgranted with hr | hr
  · exact absurd hr List.not_mem_nil
  · obtain ⟨e, he, hr⟩ := List.mem_flatMap.mp hr
    obtain ⟨l, hl, hr⟩ := List.mem_flatten.mp hr
    obtain ⟨n, hn, rfl⟩ := List.mem_map.mp hl
    exact ⟨e, he, n, hn, _, hr, rfl⟩

theorem Keeps.constant_reads {m : Module} {es : List Entry} (h : m.Keeps es) {c : String × Expr}
    (hc : c ∈ m.constants) : ReadsOnly [intlName] c.2 := by
  obtain ⟨e, _, n, _, r, hr, heq⟩ := h.exists_request hc
  rw [← heq]
  refine requests_forall (P := fun r => ReadsOnly [intlName] r.2) ?_ ?_ n ?_ r hr
  · exact readsOnly_rulesInit _
  · exact readsOnly_formatterInit _ _ _
  · intro k _
    cases k with
    | format => exact readsOnly_formatterInit _ _ _
    | _ => trivial

/-! ### Programs of modules -/

section Programs

variable {m : Module} {es : List Entry}

def imports (m : Module) : List Stmt :=
  if m.options.target = .tree then [.importAll markupName markupSource] else []

/-- What a module declares: its import, its constants and its functions. -/
theorem filterMap_program {β : Type} (m : Module) {f : Stmt → Option β}
    (hexports : ∀ l, f (.exports l) = none) :
    m.program.filterMap f = m.imports.filterMap f ++
      m.constants.filterMap (fun c => f (.const c.1 c.2)) ++ m.functions.filterMap f := by
  simp only [program, imports, List.filterMap_append, List.filterMap_map, List.filterMap_cons,
    List.filterMap_nil, hexports, List.append_nil]
  rfl

/-- The function of an entry as it is loaded. -/
def loadedFunction (e : Entry) : LoadedFunction :=
  ⟨e.binding, e.state.arguments.map fun a => ⟨a.name, a.binding, a.type.declared⟩,
    e.state.body.map (fun (n, e) => Stmt.const n e) ++ [.return e.value]⟩

theorem constantNames_program (h : m.Keeps es) :
    m.program.constantNames = m.constants.map (·.1) := by
  have himports : m.imports.filterMap Stmt.constant? = [] := by
    rw [imports]
    split <;> rfl
  have hfunctions : m.functions.filterMap Stmt.constant? = [] := by
    rw [h.functions, List.filterMap_map]
    exact List.filterMap_eq_nil_iff.mpr fun _ _ => rfl
  rw [Program.constantNames, filterMap_program m fun _ => rfl, himports, hfunctions,
    List.nil_append, List.append_nil]
  exact congrFun List.filterMap_eq_map m.constants

theorem functions_program (h : m.Keeps es) : m.program.functions = es.map loadedFunction := by
  have himports : m.imports.filterMap Stmt.function? = [] := by
    rw [imports]
    split <;> rfl
  have hconstants : m.constants.filterMap (fun c => Stmt.function? (.const c.1 c.2)) = [] :=
    List.filterMap_eq_nil_iff.mpr fun _ _ => rfl
  rw [Program.functions, filterMap_program m fun _ => rfl, himports, hconstants, List.nil_append,
    List.nil_append, h.functions, List.filterMap_map]
  exact congrFun List.filterMap_eq_map es

theorem imported_program (h : m.Keeps es) :
    intlName :: m.program.filterMap Stmt.imported? = fixedNames m.options.target := by
  have hconstants : m.constants.filterMap (fun c => Stmt.imported? (.const c.1 c.2)) = [] :=
    List.filterMap_eq_nil_iff.mpr fun _ _ => rfl
  have hfunctions : m.functions.filterMap Stmt.imported? = [] := by
    rw [h.functions, List.filterMap_map]
    exact List.filterMap_eq_nil_iff.mpr fun _ _ => rfl
  rw [filterMap_program m fun _ => rfl, hconstants, hfunctions, List.append_nil, List.append_nil,
    imports, fixedNames]
  split <;> rfl

theorem locals_loadedFunction (e : Entry) : (loadedFunction e).locals = e.state.locals := by
  have hbody : (loadedFunction e).body.filterMap Stmt.constant? = e.state.body.map (·.1) := by
    rw [loadedFunction, List.filterMap_append, List.filterMap_map]
    exact (List.append_nil _).trans (congrFun List.filterMap_eq_map e.state.body)
  rw [LoadedFunction.locals, hbody, loadedFunction, List.map_map]
  rfl

/-- Names of the module are told apart by the table. -/
theorem Keeps.names_distinct (h : m.Keeps es) : (intlName :: m.program.names).Nodup := by
  have hfunctions : m.program.functions.map (·.name) = es.map (·.binding) := by
    rw [functions_program h, List.map_map]
    rfl
  have hdistinct := (h.sound m.root).distinct
  have hnames : intlName :: m.program.names =
      fixedNames m.options.target ++ (m.constants.map (·.1) ++ es.map (·.binding)) := by
    rw [Program.names, hfunctions, constantNames_program h, ← imported_program h,
      List.append_assoc, List.cons_append]
  have hperm : (intlName :: m.program.names).Perm
      (m.outer es ++ m.idle.constantNames ++ m.idle.locals) := by
    have hlocals : m.idle.locals = [] := rfl
    rw [hnames, hlocals, List.append_nil, outer, List.append_assoc]
    exact List.Perm.append_left _ List.perm_append_comm
  exact hperm.nodup_iff.mpr hdistinct

/-- Locals are told apart from each other and from what functions read. -/
theorem Keeps.locals_of_entry (h : m.Keeps es) {e : Entry} (he : e ∈ es) :
    e.state.locals.Nodup ∧ ∀ x ∈ e.state.locals, Name.isBindable x = true ∧
      x ∉ m.constants.map (·.1) ∧ x ∉ fixedNames m.options.target := by
  obtain ⟨scope, outer, hfixed, hsound, _⟩ := (h.compiled e he).sound
  obtain ⟨_, hlocals, hapart⟩ := List.nodup_append.mp hsound.distinct
  refine ⟨hlocals, ?_⟩
  intro x hx
  refine ⟨hsound.bindable x (List.mem_append_right _ hx), (h.compiled e he).locals_apart x hx, ?_⟩
  intro hmem
  exact hapart x (List.mem_append_left _ (hfixed hmem)) x hx rfl

theorem bodyReads_consts {visible : List String} {consts : List (String × Expr)} {value : Expr}
    (hclosed : Closed visible consts) (hvalue : ReadsOnly (visible ++ consts.map (·.1)) value) :
    Program.BodyReads visible (consts.map (fun (n, e) => Stmt.const n e) ++ [.return value]) := by
  induction consts generalizing visible with
  | nil =>
    rw [List.map_nil, List.append_nil] at hvalue
    exact ⟨hvalue, trivial⟩
  | cons c r ih =>
    obtain ⟨hinit, hrest⟩ := hclosed
    refine ⟨hinit, ih hrest (hvalue.mono ?_)⟩
    intro x hx
    simp only [List.map_cons, List.mem_append, List.mem_cons] at hx ⊢
    tauto

/-- What the function of an entry reads is bound. -/
theorem Keeps.bodyReads (h : m.Keeps es) {e : Entry} (he : e ∈ es) {visible : List String}
    (hconstants : m.constants.map (·.1) ⊆ visible) (hundefined : "undefined" ∈ visible)
    (hmarkup : m.options.target = .tree → markupName ∈ visible) :
    Program.BodyReads ((loadedFunction e).params.map (·.binding) ++ visible)
      (loadedFunction e).body := by
  -- what is read depends on no locale data, so any will do
  let _ : LocaleData := default
  obtain ⟨scope, outer, _, hsound, hmeans⟩ := (h.compiled e he).sound
  have hparams : (loadedFunction e).params.map (·.binding) =
      e.state.arguments.map (·.binding) := by
    rw [loadedFunction, List.map_map]
    rfl
  have hnames : e.state.constantNames ⊆ visible :=
    fun x hx => hconstants (((h.compiled e he).constants.map _).subset hx)
  rw [hparams]
  refine bodyReads_consts (hsound.closed.mono ?_) (hmeans.reads.mono ?_)
  · intro x hx
    rw [List.mem_append] at hx ⊢
    exact hx.imp_right (hnames ·)
  · intro x hx
    simp only [State.visible, State.locals, List.mem_append, List.mem_cons] at hx ⊢
    rcases hx with ((hx | hx) | hx) | hx | hx
    · exact Or.inl (Or.inl hx)
    · exact Or.inr hx
    · exact Or.inl (Or.inr (hnames hx))
    · exact Or.inl (Or.inr (hx ▸ hundefined))
    · split at hx
      · rename_i htree
        rw [List.mem_singleton.mp hx]
        exact Or.inl (Or.inr (hmarkup htree))
      · exact absurd hx List.not_mem_nil

theorem reads_consts {visible : List String} {consts : List (String × Expr)} {rest : Program}
    (h : ∀ c ∈ consts, ReadsOnly visible c.2)
    (hrest : Program.Reads ((consts.map (·.1)).reverse ++ visible) rest) :
    Program.Reads visible (consts.map (fun (n, e) => Stmt.const n e) ++ rest) := by
  induction consts generalizing visible with
  | nil => exact hrest
  | cons c r ih =>
    refine ⟨h c List.mem_cons_self, ih ?_ ?_⟩
    · exact fun d hd => (h d (List.mem_cons_of_mem _ hd)).mono (List.subset_cons_self _ _)
    · rw [List.map_cons, List.reverse_cons, List.append_assoc] at hrest
      exact hrest

theorem reads_functions {visible : List String} {list : List Entry} {rest : Program}
    (h : ∀ e ∈ list, Program.BodyReads ((loadedFunction e).params.map (·.binding) ++ visible)
      (loadedFunction e).body) (hrest : Program.Reads visible rest) :
    Program.Reads visible (list.map m.function ++ rest) := by
  induction list with
  | nil => exact hrest
  | cons e r ih =>
    exact ⟨h e List.mem_cons_self, ih fun d hd => h d (List.mem_cons_of_mem _ hd)⟩

theorem Keeps.reads (h : m.Keeps es) : m.program.Reads [intlName, "undefined"] := by
  -- the names in front of the functions
  have hrest (visible : List String) (hintl : intlName ∈ visible) (hundefined : "undefined" ∈ visible)
      (hmarkup : m.options.target = .tree → markupName ∈ visible) :
      Program.Reads visible (m.constants.map (fun (n, e) => Stmt.const n e) ++
        (m.functions ++ [.exports m.exports])) := by
    refine reads_consts ?_ ?_
    · intro c hc
      exact (h.constant_reads hc).mono (List.cons_subset.mpr ⟨hintl, List.nil_subset _⟩)
    · rw [h.functions]
      refine reads_functions ?_ trivial
      intro e he
      refine h.bodyReads he ?_ (List.mem_append_right _ hundefined)
        fun ht => List.mem_append_right _ (hmarkup ht)
      exact fun x hx => List.mem_append_left _ (List.mem_reverse.mpr hx)
  rw [program, List.append_assoc, List.append_assoc]
  split
  · exact hrest _ (by simp) (by simp) fun _ => List.mem_cons_self
  · rename_i htarget
    exact hrest _ (by simp) (by simp) fun ht => absurd ht htarget

theorem Keeps.wellScoped (h : m.Keeps es) : m.program.WellScoped m.options.target := by
  have hlocals : ∀ f ∈ m.program.functions, ∃ e ∈ es, f.locals = e.state.locals := by
    intro f hf
    rw [functions_program h] at hf
    obtain ⟨e, he, rfl⟩ := List.mem_map.mp hf
    exact ⟨e, he, locals_loadedFunction e⟩
  constructor
  case names_distinct => exact h.names_distinct
  case reads => exact h.reads
  case locals_distinct =>
    intro f hf
    obtain ⟨e, he, heq⟩ := hlocals f hf
    rw [heq]
    exact (h.locals_of_entry he).1
  case locals_bindable =>
    intro f hf x hx
    obtain ⟨e, he, heq⟩ := hlocals f hf
    rw [heq] at hx
    exact ((h.locals_of_entry he).2 x hx).1
  case locals_apart =>
    intro f hf x hx
    obtain ⟨e, he, heq⟩ := hlocals f hf
    rw [heq] at hx
    obtain ⟨hbindable, hconstant, hfixed⟩ := (h.locals_of_entry he).2 x hx
    rw [constantNames_program h]
    refine ⟨hconstant, ?_, ?_, ?_⟩
    · rintro rfl
      exact hfixed List.mem_cons_self
    · rintro rfl
      exact absurd hbindable (by decide)
    · rintro htree rfl
      refine hfixed ?_
      rw [fixedNames, if_pos htree]
      exact List.mem_cons_of_mem _ (List.mem_singleton.mpr rfl)

end Programs

/-- What a module is built to, if it is. -/
theorem eq_of_build {m : Module} {built : Built} (h : m.build.2 = .ok built) :
    built = ⟨m.program, m.arguments, m.exportedNames⟩ := by
  rw [build] at h
  split at h
  · exact nomatch h
  · simp only at h
    split at h
    · exact (Except.ok.inj h).symm
    · exact nomatch h

theorem program_of_build {m : Module} {built : Built} (h : m.build.2 = .ok built) :
    m.program = built.program := by
  rw [eq_of_build h]

/-- Whatever is added, accepted or refused, what is built is well scoped. -/
theorem wellScoped_of_build (files : FileSet) (o : Options) (calls : List SourceMessage)
    {built : Built} (hbuilt : ((Module.new files o).addAll calls).build.2 = .ok built) :
    built.program.WellScoped o.target := by
  obtain ⟨es, hkeeps, _, hreaches⟩ := (keeps_new files o).addAll rfl calls
  have hoptions : ((Module.new files o).addAll calls).options = o := hreaches.options
  have hscoped := hkeeps.wellScoped
  rw [hoptions] at hscoped
  rw [← program_of_build hbuilt]
  exact hscoped

/-- Messages named after what functions read, with arguments named like generated names; the second
one is refused. -/
def lookalikes : List SourceMessage := [
  ⟨"Intl".toUTF8.toList, "\x7bIntl, plural, one \x7b<b>#</b>\x7d other \x7b\x7d\x7d".toUTF8.toList⟩,
  ⟨"b".toUTF8.toList, "\x7bx, number\x7d \x7bx, select, other \x7b\x7d\x7d".toUTF8.toList⟩,
  ⟨"React".toUTF8.toList, "\x7b_number\x7d \x7bundefined, number\x7d".toUTF8.toList⟩]

theorem wellScoped_lookalikes :
    ∃ built, ((Module.new .empty ⟨"en", .empty, .tree, ""⟩).addAll lookalikes).build.2 =
        .ok built ∧ built.program.WellScoped .tree := by
  have hok : ((Module.new .empty ⟨"en", .empty, .tree, ""⟩).addAll
      lookalikes).build.2.toOption.isSome = true := by
    decide +kernel
  cases hbuild : ((Module.new .empty ⟨"en", .empty, .tree, ""⟩).addAll lookalikes).build.2 with
  | ok built => exact ⟨built, rfl, wellScoped_of_build _ _ _ hbuild⟩
  | error e =>
    rw [hbuild] at hok
    exact Bool.noConfusion hok

end Module

end Compile

end Phrasebook
