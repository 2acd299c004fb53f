import Mathlib
import Phrasebook.Proofs.CacheKeys
import Phrasebook.Proofs.Phases

/-!
What is generated for a catalog depends on its content and the options alone. Options that agree in
all that is part of a key generate the same declarations, exports and arguments, and code that
differs at most in how formatters are given their options.
-/
namespace Phrasebook

/-! ### Interfaces of programs -/

namespace Compile

variable {R : FormatOptions → FormatOptions → Prop}

theorem hasFragment_formatterInit (locale : String) (kind : FormatKind) (o : FormatOptions) :
    (formatterInit locale kind o).hasFragment = false := by
  have hprops (ps : FormatOptions) :
      anyPropFragment (ps.map fun p => (p.1, valueExpr p.2)) = false := by
    induction ps with
    | nil => rfl
    | cons p ps ih =>
      have hvalue : (valueExpr p.2).hasFragment = false := by
        cases p.2 <;> rfl
      rw [List.map_cons, anyPropFragment, hvalue, ih]
      rfl
  cases o with
  | nil => rfl
  | cons p ps =>
    simp only [formatterInit, List.isEmpty_cons, Bool.false_eq_true, if_false, Expr.hasFragment,
      anyFragment, optionsExpr, hprops, Bool.or_false]

theorem Restyled.hasFragment {e e' : Expr} (h : Restyled R e e') :
    e.hasFragment = e'.hasFragment := by
  cases h with
  | same => rfl
  | formatter locale kind _ => rw [hasFragment_formatterInit, hasFragment_formatterInit]

theorem anyHasFragment_append (p p' : Program) :
    Stmt.anyHasFragment (p ++ p') = (Stmt.anyHasFragment p || Stmt.anyHasFragment p') := by
  induction p with
  | nil => rw [List.nil_append, Stmt.anyHasFragment, Bool.false_or]
  | cons s p ih => rw [List.cons_append, Stmt.anyHasFragment, ih, Stmt.anyHasFragment, Bool.or_assoc]

/-- Restyled programs have markup in them alike. -/
theorem ProgramRestyled.extension {p p' : Program} (h : ProgramRestyled R p p')
    (style : Program.PrintStyle) : Program.extension style p = Program.extension style p' := by
  obtain ⟨before, cs, cs', behind, hcs, rfl, rfl⟩ := h
  have hconstants : Stmt.anyHasFragment (cs.map fun c => .const c.1 c.2) =
      Stmt.anyHasFragment (cs'.map fun c => .const c.1 c.2) := by
    induction hcs with
    | nil => rfl
    | cons hc _ ih =>
      rw [List.map_cons, List.map_cons, Stmt.anyHasFragment, Stmt.anyHasFragment,
        Stmt.hasFragment, Stmt.hasFragment, hc.2.hasFragment, ih]
  simp only [Program.extension, Program.hasFragment, anyHasFragment_append, hconstants]

/-- Constants are not declared. -/
theorem ProgramRestyled.declarations {p p' : Program} (h : ProgramRestyled R p p') :
    Program.declarations p = Program.declarations p' := by
  obtain ⟨before, cs, cs', behind, -, rfl, rfl⟩ := h
  have hnothing {f : Stmt → List String} (hf : ∀ n e, f (.const n e) = [])
      (cs : List (String × Expr)) : (cs.map fun c => Stmt.const c.1 c.2).flatMap f = [] := by
    rw [List.flatMap_map]
    exact List.flatMap_eq_nil_iff.mpr fun c _ => hf c.1 c.2
  simp only [Program.declarations, List.flatMap_append,
    hnothing (f := Program.typeImport) (fun _ _ => rfl),
    hnothing (f := Program.declaration) (fun _ _ => rfl),
    hnothing (f := Program.exportDeclaration) (fun _ _ => rfl)]

theorem ProgramRestyled.eq {p p' : Program} (h : ProgramRestyled Eq p p') : p = p' := by
  obtain ⟨before, cs, cs', behind, hcs, rfl, rfl⟩ := h
  rw [hcs.eq]

end Compile

namespace Build

open Compile (Builds BuiltAlike ProgramRestyled SameCanonical Module SourceMessage)

/-! ### Adding messages -/

theorem failed_fail (r : FileReport) (f : Failure) : (r.fail f).failed = true := by
  rw [FileReport.failed, FileReport.fail, Option.isSome_or, Option.isSome_some, Bool.or_true]

/-- What has failed stays so. -/
theorem addMessages_failed {keepGoing : Bool} {m : Module} {r : FileReport} (h : r.failed = true)
    (messages : List SourceMessage) :
    (addMessages keepGoing false m r messages).report.failed = true := by
  induction messages generalizing m r with
  | nil => exact h
  | cons msg rest ih =>
    unfold Build.addMessages
    rw [if_neg Bool.false_ne_true]
    split
    · exact ih h
    · simp only
      split
      · exact ih (failed_fail _ _)
      · exact failed_fail _ _
    · exact h

/-- All messages are added, or something went wrong and is on record. -/
theorem addMessages_cases (keepGoing : Bool) (m : Module) (r : FileReport)
    (messages : List SourceMessage) :
    (∃ m', Compile.addMessages m messages = .ok m' ∧
      addMessages keepGoing false m r messages = ⟨m', r, none⟩) ∨
    (∃ e, Compile.addMessages m messages = .error e) ∧
      ((addMessages keepGoing false m r messages).stopped ≠ none ∨
        (addMessages keepGoing false m r messages).report.failed = true) := by
  induction messages generalizing m with
  | nil => exact .inl ⟨m, rfl, rfl⟩
  | cons msg rest ih =>
    unfold Build.addMessages Compile.addMessages
    rw [if_neg Bool.false_ne_true]
    rcases m.addMessage msg.name msg.text with ⟨m', _ | e⟩
    · exact ih m'
    · refine .inr ⟨⟨e, rfl⟩, ?_⟩
      -- A compile error is reported and sets the report to failed; all others stop the file.
      cases e with
      | compile e =>
        simp only
        split
        · exact .inr (addMessages_failed (failed_fail _ _) rest)
        · exact .inr (failed_fail _ _)
      | finalized => exact .inl (Option.some_ne_none _)
      | unknownNode kind => exact .inl (Option.some_ne_none _)
      | hole => exact .inl (Option.some_ne_none _)
      | overflow o => exact .inl (Option.some_ne_none _)
      | binding e => exact .inl (Option.some_ne_none _)
      | inconsistent flaws => exact .inl (Option.some_ne_none _)

/-! ### Generating -/

/-- Nothing is generated once anything went wrong. -/
theorem concluded_failed (o : Options) (messages : List SourceMessage) {added : Adding}
    (h : added.stopped ≠ none ∨ added.report.failed = true) :
    (concluded o messages added).2 = none := by
  unfold concluded
  cases hstopped : added.stopped with
  | some why => rfl
  | none =>
    rcases h with h | h
    · exact absurd hstopped h
    · -- the step of compiling changes nothing about failures
      have hstep (note : String) (error : Option String) : (FileReport.step { added.report with
          files := added.module.files } .compile note error).failed = true := h
      simp only [hstep, if_true]

/-- Text is generated for a catalog without faults, and only if all of its messages are good. -/
theorem compileLoaded_eq_some {o : Options} {r : FileReport} (hr : r.failed = false) {id : UInt32}
    {out : Output} : (compileLoaded o false r id).2 = some out ↔
      (Catalog.read r.files id).2 = [] ∧ ∃ b, Builds r.files { o.compile with file := r.display }
        (Catalog.read r.files id).1 b ∧ out = emit o b := by
  rw [compileLoaded_eq]
  rcases Catalog.read r.files id with ⟨messages, _ | ⟨d, ds⟩⟩
  · have hopen : ((parsedReport messages [] r).failed && !o.keepGoing) = false := by
      have hparsed : (parsedReport messages [] r).failed = r.failed := rfl
      rw [hparsed, hr, Bool.false_and]
    simp only [hopen, Bool.false_eq_true, if_false, true_and]
    -- Without faults in the catalog, the messages decide; with one, nothing is generated.
    rcases addMessages_cases o.keepGoing
      (Module.new (parsedReport messages [] r).files
        { o.compile with file := (parsedReport messages [] r).display })
      (parsedReport messages [] r) messages with ⟨m, hadd, hadded⟩ | ⟨⟨e, hadd⟩, hwrong⟩
    · have hstep (note : String) (error : Option String) : (FileReport.step
          { parsedReport messages [] r with files := m.files } .compile note error).failed =
            false := hr
      rw [hadded, concluded]
      simp only [hstep, Bool.false_eq_true, if_false]
      constructor
      · intro hout
        rcases hbuild : m.build with ⟨m', e | b⟩
        · rw [hbuild] at hout
          cases hout
        · rw [hbuild] at hout
          exact ⟨b, ⟨m, hadd, congrArg Prod.snd hbuild⟩, (Option.some.inj hout).symm⟩
      · rintro ⟨b, ⟨m₁, hadd₁, hbuild⟩, rfl⟩
        cases hadd.symm.trans hadd₁
        rcases hdone : m.build with ⟨m', e | b'⟩
        · rw [hdone] at hbuild
          cases hbuild
        · rw [hdone] at hbuild
          cases hbuild
          rfl
    · rw [concluded_failed o messages hwrong]
      constructor
      · intro hout
        cases hout
      · rintro ⟨b, ⟨m, hadd₁, -⟩, -⟩
        cases hadd.symm.trans hadd₁
  · have hfailed : (parsedReport messages (d :: ds) r).failed = true := failed_fail _ _
    simp only [hfailed, Bool.true_and]
    constructor
    · intro hout
      split at hout
      · cases hout
      · rw [concluded_failed o messages (.inr (addMessages_failed hfailed messages))] at hout
        cases hout
    · rintro ⟨hnil, -⟩
      cases hnil

/-- The name that a catalog is reported under does not matter either. -/
theorem builds_restyled {R : FormatOptions → FormatOptions → Prop} (hR : Compile.Interchange R)
    {files files' : FileSet} (hfiles : files.size = files'.size) {o o' : Options}
    (display display' : String) (htarget : o.compile.target = o'.compile.target)
    (hlocale : o.compile.locale = o'.compile.locale)
    (hformats : Compile.FormatsRestyled R (Formats.standard.overlay o.compile.formats)
      (Formats.standard.overlay o'.compile.formats))
    {messages : List SourceMessage} {b : Module.Built}
    (h : Builds files { o.compile with file := display } messages b) :
    ∃ b', Builds files' { o'.compile with file := display' } messages b' ∧ BuiltAlike R b b' := by
  refine Builds.restyled hR hfiles ?_ ?_ ?_ h
  · exact htarget
  · exact hlocale
  · exact hformats

/-- What the content of a catalog holds. -/
theorem read_singleton (f f' : File) (base base' : String) (h : f.content = f'.content) :
    Catalog.read ⟨[f], base⟩ 0 = Catalog.read ⟨[f'], base'⟩ 0 := by
  have hget (f : File) (base : String) : FileSet.get? ⟨[f], base⟩ 0 = some f := rfl
  rw [Catalog.read, Catalog.read, hget, hget]
  simp only [h]

/-- What is generated for a content on its own. -/
def generate? (content : Bytes) (o : Options) : Option Output :=
  (compileLoaded o false
    { FileReport.start "" o "" with files := ⟨[⟨0, "", content, 0⟩], ""⟩ } 0).2

theorem generate?_eq_some {content : Bytes} {o : Options} {out : Output} :
    generate? content o = some out ↔ (Catalog.read ⟨[⟨0, "", content, 0⟩], ""⟩ 0).2 = [] ∧
      ∃ b, Builds ⟨[⟨0, "", content, 0⟩], ""⟩ { o.compile with
          file := (FileReport.start "" o "").display }
        (Catalog.read ⟨[⟨0, "", content, 0⟩], ""⟩ 0).1 b ∧ out = emit o b := by
  have hnew : (FileReport.start "" o "").failed = false := rfl
  unfold generate?
  generalize FileReport.start "" o "" = r at hnew ⊢
  exact compileLoaded_eq_some (r := { r with files := ⟨[⟨0, "", content, 0⟩], ""⟩ }) hnew

/-- Where a catalog stands does not matter to what is generated for it. -/
theorem compileLoaded_eq_generate? {o : Options} {r : FileReport} (hr : r.failed = false) {f : File}
    {base : String} (hfiles : r.files = ⟨[f], base⟩) :
    (compileLoaded o false r 0).2 = generate? f.content o := by
  have hread : Catalog.read r.files 0 = Catalog.read ⟨[⟨0, "", f.content, 0⟩], ""⟩ 0 := by
    rw [hfiles]
    exact read_singleton _ _ _ _ rfl
  have hsize : r.files.size = FileSet.size ⟨[⟨0, "", f.content, 0⟩], ""⟩ := by
    rw [hfiles]
    rfl
  -- nothing is restyled if the options are the same
  have hsame : Compile.FormatsRestyled Eq (Formats.standard.overlay o.compile.formats)
      (Formats.standard.overlay o.compile.formats) := by
    refine Compile.FormatsRestyled.overlay (fun _ => rfl) fun kind name => ?_
    cases (o.compile.formats.table kind).get? name with
    | none => exact .none
    | some found => exact .some rfl
  have halike {b b' : Module.Built} (h : BuiltAlike Eq b b') : b = b' := by
    rw [Module.Built.mk.injEq]
    exact ⟨h.program.eq, h.arguments, h.exports⟩
  refine Option.ext fun out => ?_
  rw [compileLoaded_eq_some hr, generate?_eq_some, hread]
  refine and_congr_right fun _ => ⟨?_, ?_⟩
  · rintro ⟨b, hb, rfl⟩
    obtain ⟨b', hb', heq⟩ := builds_restyled Compile.interchange_eq hsize r.display
      (FileReport.start "" o "").display rfl rfl hsame hb
    exact ⟨b', hb', congrArg (emit o) (halike heq)⟩
  · rintro ⟨b, hb, rfl⟩
    obtain ⟨b', hb', heq⟩ := builds_restyled Compile.interchange_eq hsize.symm
      (FileReport.start "" o "").display r.display rfl rfl hsame hb
    exact ⟨b', hb', congrArg (emit o) (halike heq)⟩

/-- The text was generated for the same interface, and its code differs at most in the options that
formatters are made with. -/
structure OutputAlike (style : Program.PrintStyle) (out out' : Output) : Prop where
  extension : out.extension = out'.extension
  declarations : out.declarations = out'.declarations
  exports : out.exports = out'.exports
  arguments : out.arguments = out'.arguments
  code : ∃ p p', ProgramRestyled SameCanonical p p' ∧
    out.code = Program.print style p ∧ out'.code = Program.print style p'

/-- Options that are alike generate text alike. -/
theorem generate?_alike {content : Bytes} {o o' : Options} (h : o.Alike o') {out : Output}
    (hout : generate? content o = some out) :
    ∃ out', generate? content o' = some out' ∧ OutputAlike o'.print out out' := by
  obtain ⟨hgood, b, hb, rfl⟩ := generate?_eq_some.mp hout
  obtain ⟨b', hb', halike⟩ := builds_restyled Compile.interchange_sameCanonical rfl _
    (FileReport.start "" o' "").display h.target h.locale
    (Compile.FormatsRestyled.of_listing h.styles) hb
  refine ⟨emit o' b', generate?_eq_some.mpr ⟨hgood, b', hb', rfl⟩, ?_⟩
  have hwants : o.wantsDeclarations = o'.wantsDeclarations := by
    rw [Options.wantsDeclarations, Options.wantsDeclarations, h.print, h.declarations]
  exact {
    extension := by
      rw [emit, emit, h.print]
      exact halike.program.extension _
    declarations := by rw [emit, emit, hwants, halike.program.declarations]
    exports := halike.exports
    arguments := halike.arguments
    code := ⟨b.program, b'.program, halike.program, by rw [emit, h.print], rfl⟩ }

/-- If styles of one name list their options in one order as well, the text is the same. -/
theorem generate?_sameOrder {content : Bytes} {o o' : Options} (h : o.Alike o')
    (hordinary : o.compile.formats.Ordinary) (hordinary' : o'.compile.formats.Ordinary)
    (horder : o.compile.formats.SameOrder o'.compile.formats) {out : Output}
    (hout : generate? content o = some out) : generate? content o' = some out := by
  obtain ⟨hgood, b, hb, rfl⟩ := generate?_eq_some.mp hout
  obtain ⟨b', hb', halike⟩ := builds_restyled Compile.interchange_eq rfl _
    (FileReport.start "" o' "").display h.target h.locale
    (Compile.FormatsRestyled.of_sameOrder h.styles hordinary hordinary' horder) hb
  refine generate?_eq_some.mpr ⟨hgood, b', hb', ?_⟩
  rw [emit, emit, h.print, halike.program.eq, halike.exports, halike.arguments,
    Options.wantsDeclarations, Options.wantsDeclarations, h.print, h.declarations]

end Build

end Phrasebook
