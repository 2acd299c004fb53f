import Phrasebook.Proofs.Encoding
import Phrasebook.Proofs.PrintedTokens
import Phrasebook.Proofs.WellScoped

/-!
What printed export lists export. Every message of a module has one specifier: it says which
function is exported, and as what. A message with the empty name is an exception, as a specifier
without a second name exports the function under its own name.
-/
namespace Phrasebook

/-! ### The grammar of export lists -/

namespace Script

/-- The name of a local that may be exported, and the name it is exported as: its own one, an
identifier, or a text. -/
inductive Specifier : Phrase (String × String)
  | plain {binding : String} : isReserved binding = false →
      Specifier [.name binding] (binding, binding)
  | named {binding : String} (name : String) : isReserved binding = false →
      Specifier [.name binding, .name "as", .name name] (binding, name)
  | quoted {binding : String} (name : String) : isReserved binding = false →
      Specifier [.name binding, .name "as", .text name] (binding, name)

/-- A text that is a list of specifiers in braces. -/
def ReadsExports (s : String) (specs : List (String × String)) : Prop :=
  ∃ ts, Lexes s.toList (.mark "\x7b" :: ts ++ [.mark "\x7d"]) ∧ Items Specifier ts specs

theorem opens_specifier : Opens Specifier := by
  intro ts t h
  cases h <;> exact ⟨_, _, rfl, rfl⟩

theorem specifier_parted : Parted Specifier Specifier := by
  constructor
  intro ts ts' rest rest' t t' m m' h h' _ _ heq
  -- a mark, or a name or text behind the second name, tells the three forms apart
  cases h <;> cases h' <;> simp_all

/-- A text lists one sequence of exports at most. -/
theorem ReadsExports.eq {s : String} {specs specs' : List (String × String)}
    (h : ReadsExports s specs) (h' : ReadsExports s specs') : specs = specs' := by
  obtain ⟨ts, hlex, hitems⟩ := h
  obtain ⟨us, hlex', hitems'⟩ := h'
  have htokens := (List.cons.inj (hlex.eq hlex')).2
  exact (items_determined specifier_parted opens_specifier opens_specifier (by decide) (by decide)
    (by decide) hitems hitems' htokens).2.1

end Script

/-! ### Printed export lists -/

/-- The text of the name that a binding is exported by. -/
def Export.text (e : Export) : String :=
  String.ofList ((Utf8.decode? e.name).getD [])

/-- What the specifier of an export says: a local, and the name that it is exported as. -/
def Export.spec (e : Export) : String × String :=
  (e.binding, if e.text = "" then e.binding else e.text)

namespace Program

open Script

def exportTokens (e : Export) : List Token :=
  if e.text = "" ∨ e.text = e.binding then [.name e.binding]
  else [.name e.binding, .name "as", keyToken e.text]

/-- An export whose local may be bound, by a name that is a text. None of them holds the vertical
tilde. -/
structure Exportable (e : Export) : Prop where
  bindable : Name.isBindable e.binding = true
  decodes : (Utf8.decode? e.name).isSome = true
  bare : verticalTilde ∉ e.binding.toList
  writable : Writable e.text

section Scanning

variable {ms : List Mode} {rest : List Char} {e : Export}

theorem Exportable.binding (h : Exportable e) :
    isName e.binding = true ∧ isReserved e.binding = false := by
  have hbindable := h.bindable
  simp only [Name.isBindable, Bool.and_eq_true, Bool.not_eq_true'] at hbindable
  obtain ⟨⟨hidentifier, hreserved⟩, -⟩ := hbindable
  exact ⟨(isName_iff_of_isIdentifier hidentifier).mpr h.bare, isReserved_of_name hreserved⟩

theorem Exportable.decode?_eq (h : Exportable e) : Utf8.decode? e.name = some e.text.toList := by
  obtain ⟨cs, hcs⟩ := Option.isSome_iff_exists.mp h.decodes
  rw [Export.text, hcs, Option.getD_some, String.toList_ofList]

theorem Exportable.exportText_eq (h : Exportable e) : exportText e =
    if e.text = "" ∨ e.text = e.binding then e.binding
    else e.binding ++ " as " ++ propertyKey e.text := by
  rw [exportText, h.decode?_eq]
  simp only [String.ofList_toList, Bool.or_eq_true, decide_eq_true_eq]

/-- The exported name is the name of the export, unless that is empty. -/
theorem Exportable.encode_spec (h : Exportable e) : Utf8.encode e.spec.2.toList =
    if e.name = [] then Utf8.encode e.spec.1.toList else e.name := by
  have hname : Utf8.encode e.text.toList = e.name := Utf8.encode_of_decode? h.decode?_eq
  have hempty : e.text = "" ↔ e.name = [] := by
    constructor
    · intro htext
      rw [← hname, htext]
      rfl
    · intro hnil
      rw [Export.text, hnil]
      rfl
  rw [Export.spec]
  simp only [hempty]
  split
  · rfl
  · exact hname

theorem specifier_exportTokens (h : Exportable e) : Specifier (exportTokens e) e.spec := by
  have hreserved := h.binding.2
  rw [exportTokens, Export.spec]
  by_cases hempty : e.text = ""
  · rw [if_pos (.inl hempty), if_pos hempty]
    exact .plain hreserved
  by_cases hsame : e.text = e.binding
  · rw [if_pos (.inr hsame), if_neg hempty, hsame]
    exact .plain hreserved
  rw [if_neg (not_or.mpr ⟨hempty, hsame⟩), if_neg hempty, keyToken]
  split
  · exact .named _ hreserved
  · exact .quoted _ hreserved

theorem scans_as : Scans (.code :: ms) " as " [.name "as"] (.code :: ms) rest := by
  have hname : Scans (.code :: ms) "as" [.name "as"] (.code :: ms) (" ".toList ++ rest) :=
    scans_name (by decide) (ends_cons (c := ' ') (by decide) _)
  exact (scans_blank.append hname).append scans_blank

theorem scans_export (h : Exportable e) (hrest : Ends rest) :
    Scans (.code :: ms) (exportText e) (exportTokens e) (.code :: ms) rest := by
  have hname := h.binding.1
  rw [h.exportText_eq, exportTokens]
  by_cases hplain : e.text = "" ∨ e.text = e.binding
  · rw [if_pos hplain, if_pos hplain]
    exact scans_name hname hrest
  · rw [if_neg hplain, if_neg hplain]
    have hlocal : Scans (.code :: ms) e.binding [.name e.binding] (.code :: ms)
        (" as ".toList ++ ((propertyKey e.text).toList ++ rest)) :=
      scans_name hname (ends_cons (c := ' ') (by decide) _)
    exact (hlocal.append scans_as).append (scans_key h.writable hrest)

/-- Specifiers with commas between them, up to the closing brace. -/
theorem scans_exports (ms : List Mode) (rest : List Char) {list : List Export}
    (h : ∀ e ∈ list, Exportable e) : ∃ ts,
    Scans (.code :: ms) (", ".intercalate (list.map exportText)) ts (.code :: ms) (' ' :: rest) ∧
    Items Specifier ts (list.map Export.spec) := by
  induction list with
  | nil => exact ⟨[], .done _ _, .nil⟩
  | cons e r ih =>
    obtain ⟨he, hr⟩ := List.forall_mem_cons.mp h
    obtain ⟨ts, hscans, hitems⟩ := ih hr
    have hspec := specifier_exportTokens he
    -- The last specifier stands in front of the blank, the others in front of a comma.
    cases r with
    | nil =>
      refine ⟨_, ?_, .one hspec⟩
      rw [List.map_singleton, String.intercalate_singleton]
      exact scans_export he (ends_cons (by decide) _)
    | cons e' r =>
      refine ⟨_, ?_, .cons hspec hitems⟩
      have hfirst : Scans (.code :: ms) (exportText e) (exportTokens e) (.code :: ms)
          (", ".toList ++ ((", ".intercalate ((e' :: r).map exportText)).toList ++
            (' ' :: rest))) := scans_export he (ends_cons (c := ',') (by decide) _)
      rw [List.map_cons, List.map_cons, String.intercalate_cons_cons, ← List.map_cons]
      have hall := (hfirst.append scans_comma).append hscans
      rwa [List.append_assoc] at hall

/-- The clause of an export list exports what its entries say, and nothing else. -/
theorem readsExports_clause {list : List Export} (h : ∀ e ∈ list, Exportable e)
    (specs : List (String × String)) :
    ReadsExports (exportClause list) specs ↔ specs = list.map Export.spec := by
  have hreads : ReadsExports (exportClause list) (list.map Export.spec) := by
    rw [exportClause]
    cases list with
    | nil =>
      refine ⟨[], ?_, .nil⟩
      have hopen : Scans [.code] "\x7b" [.mark "\x7b"] [.code, .code] ("\x7d".toList ++ []) :=
        scans_brace
      exact hopen.append scans_unbrace
    | cons e r =>
      obtain ⟨ts, hscans, hitems⟩ := scans_exports [.code] ['}'] h
      refine ⟨ts, ?_, hitems⟩
      have hclause := scans_braces hscans
      rw [Scans, List.append_nil] at hclause
      exact hclause
  constructor
  · exact fun h => h.eq hreads
  · rintro rfl
    exact hreads

end Scanning

/-! ### Where export lists stand -/

section Texts

variable {style : PrintStyle}

theorem programLines_append (g : Group) (p q : Program) : programLines style g (p ++ q) =
    programLines style g p ++ programLines style (p.foldl (fun _ s => groupOf s) g) q := by
  induction p generalizing g with
  | nil => rfl
  | cons s r ih =>
    rw [List.cons_append, programLines, programLines, ih, List.foldl_cons]
    simp only [List.append_assoc]

theorem render_of_ne {s : String} (h : s ≠ "") : (Line.mk 0 s).render = s ++ "\n" := by
  have hindent : String.join (List.replicate 0 "  ") = "" := rfl
  rw [Line.render, if_neg h, hindent, String.empty_append]

/-- A program that ends with an export list is printed with its clause behind all the rest. -/
theorem print_exports (body : Program) (list : List Export) :
    ∃ gap, (gap = "" ∨ gap = "\n") ∧ print style (body ++ [.exports list]) =
      print style body ++ gap ++ "export " ++ exportClause list ++ ";\n" := by
  have hne : "export " ++ exportClause list ++ ";" ≠ "" := by
    intro h
    have hlist := congrArg String.toList h
    simp only [String.toList_append] at hlist
    exact List.cons_ne_nil _ _ (List.append_eq_nil_iff.mp hlist).1
  have hline : ∀ s : String, s ++ ";" ++ "\n" = s ++ ";\n" := fun _ => String.append_assoc
  rw [print, programLines_append, List.map_append, String.join_append, ← print]
  simp only [programLines, stmtLines, List.append_nil, List.map_append, List.map_singleton,
    String.join_append, String.join_cons, String.join_nil, String.append_empty,
    render_of_ne hne, hline]
  split
  · exact ⟨"\n", .inr rfl, by simp only [String.append_assoc]; rfl⟩
  · exact ⟨"", .inl rfl, by simp only [String.append_assoc]; rfl⟩

theorem flatMap_exports {body : Program} (h : ∀ s ∈ body, groupOf s ≠ .exports) :
    body.flatMap exportDeclaration = [] := by
  refine List.flatMap_eq_nil_iff.mpr fun s hs => ?_
  cases s with
  | exports list => exact absurd rfl (h _ hs)
  | _ => rfl

theorem declarations_exports {body : Program} (h : ∀ s ∈ body, groupOf s ≠ .exports)
    (list : List Export) : declarations (body ++ [.exports list]) =
      declarations body ++ "\nexport " ++ exportClause list ++ ";\n" := by
  have hline : "" ++ "\n" ++ ("export " ++ exportClause list ++ ";" ++ "\n") =
      "\nexport " ++ exportClause list ++ ";\n" := by
    rw [← String.toList_inj]
    simp
  simp only [declarations, List.flatMap_append, flatMap_exports h, List.flatMap_singleton,
    typeImport, declaration, exportDeclaration, List.append_nil, List.nil_append, List.map_append,
    String.join_append, List.map_cons, List.map_nil, String.join_cons, String.join_nil,
    String.append_empty, hline]
  simp only [String.append_assoc]

end Texts

end Program

/-! ### Exports of modules -/

namespace Compile

open Program

/-- A local for the export of a name: it may be bound, and holds the vertical tilde only if the
name does. -/
structure Binds (binding : String) (name : Bytes) : Prop where
  bindable : Name.isBindable binding = true
  tilde : Script.verticalTilde ∈ binding.toList → Script.verticalTilde ∈ Utf8.shown name

theorem shown_of_decode? {bs : Bytes} {cs : List Char} (h : Utf8.decode? bs = some cs) :
    Utf8.shown bs = cs := by
  rw [← Utf8.encode_of_decode? h, Utf8.shown_encode]

theorem bindName_binds {t t' : ScopeTable} {id : ScopeId} {name : Bytes} {kind : SymbolKind}
    {binding : String}
    (h : bindName t id ((Utf8.decode? name).map String.ofList) (Utf8.shown name) kind =
      .ok (t', binding)) : Binds binding name := by
  rw [bindName] at h
  split at h
  · rename_i n hn
    obtain ⟨hname, hcond⟩ := Option.filter_eq_some_iff.mp hn
    obtain ⟨cs, hcs, rfl⟩ := Option.map_eq_some_iff.mp hname
    simp only [Bool.and_eq_true] at hcond
    cases hbind : t.bind id (String.ofList cs) kind with
    | error e => simp only [hbind, Except.map, reduceCtorEq] at h
    | ok t₁ =>
      simp only [hbind, Except.map, Except.ok.injEq, Prod.mk.injEq] at h
      refine h.2 ▸ ⟨hcond.1, fun htilde => ?_⟩
      rwa [String.toList_ofList, ← shown_of_decode? hcs] at htilde
  · obtain ⟨_, rfl, _⟩ := ScopeTable.bindFresh_inv h
    refine ⟨t.freshName_isBindable id _, fun htilde => ?_⟩
    rcases ScopeTable.mem_of_mem_freshName htilde with hbase | href | hdigit
    · exact hbase
    · exact absurd href (by decide)
    · exact absurd hdigit (by decide)

namespace Module

variable {m : Module}

/-- Whether every export of a module has a local that may be bound. -/
def Bound (m : Module) : Prop :=
  ∀ e ∈ m.exports, Binds e.binding e.name

theorem Bound.addCompiled (h : m.Bound) (name : Bytes) (ns : List Node) (span : Span) :
    (m.addCompiled name ns span).1.Bound := by
  rw [Module.addCompiled]
  split
  · exact h
  split
  · rename_i f s _
    cases f <;> exact h
  · split
    · exact h
    · rename_i hbind
      intro e he
      rcases List.mem_append.mp he with he | he
      · exact h e he
      · rw [List.mem_singleton.mp he]
        exact bindName_binds hbind

theorem Bound.addMessage (h : m.Bound) (name text : Bytes) : (m.addMessage name text).1.Bound := by
  rw [Module.addMessage]
  split
  · exact h
  · simp only
    have hfiles : Bound { m with files := (m.register name text).1 } := h
    split
    · split
      · exact h
      · exact hfiles
    · exact hfiles
    · exact hfiles.addCompiled name _ _

theorem Bound.addAll (h : m.Bound) (calls : List SourceMessage) : (m.addAll calls).Bound := by
  induction calls generalizing m with
  | nil => exact h
  | cons c r ih => exact ih (h.addMessage c.name c.text)

/-- What a program says before its exports. -/
def declared (m : Module) : Program :=
  m.imports ++ m.constants.map (fun c => .const c.1 c.2) ++ m.functions

/-- Nothing of that is an export list. -/
theorem Keeps.groupOf_declared {es : List Entry} (h : m.Keeps es) :
    ∀ s ∈ m.declared, groupOf s ≠ .exports := by
  have himport : Group.imports ≠ .exports := by decide
  have hconstant : Group.constants ≠ .exports := by decide
  have hfunction : Group.functions ≠ .exports := by decide
  intro s hs
  rw [declared, h.functions, imports] at hs
  rcases List.mem_append.mp hs with hs | hs
  · rcases List.mem_append.mp hs with hs | hs
    · split at hs
      · rw [List.mem_singleton.mp hs]
        exact himport
      · exact absurd hs List.not_mem_nil
    · obtain ⟨c, _, rfl⟩ := List.mem_map.mp hs
      exact hconstant
  · obtain ⟨e, _, rfl⟩ := List.mem_map.mp hs
    exact hfunction

/-- What an export list has to say of a message: its name, or the name of its function if it has
none. -/
def ExportsAs (spec : String × String) (name : Bytes) : Prop :=
  Utf8.encode spec.2.toList = if name = [] then Utf8.encode spec.1.toList else name

/-- The texts of a module end with one export list. It exports the functions of the messages that
were accepted, in their order, each under the name of its message; only a message with the empty
name is exported under the name of its function. Without such a message the names are distinct. A
name with the vertical tilde would be written as if it were one of scripts. -/
theorem exports_read_back (files : FileSet) (o : Options) (calls : List SourceMessage)
    {built : Built} (hbuilt : ((Module.new files o).addAll calls).build.2 = .ok built)
    (hnames : ∀ name ∈ built.exports, (Utf8.decode? name).isSome = true)
    (htilde : ∀ name ∈ built.exports, Script.verticalTilde ∉ Utf8.shown name) :
    ∃ body clause specs, (∀ s ∈ body, groupOf s ≠ .exports) ∧
      (∀ style, ∃ gap, (gap = "" ∨ gap = "\n") ∧ print style built.program =
        print style body ++ gap ++ "export " ++ clause ++ ";\n") ∧
      declarations built.program = declarations body ++ "\nexport " ++ clause ++ ";\n" ∧
      (∀ l, Script.ReadsExports clause l ↔ l = specs) ∧
      specs.map (·.1) = built.program.functions.map (·.name) ∧
      List.Forall₂ ExportsAs specs (((Module.new files o).accepted calls).map (·.name)) ∧
      ([] ∉ built.exports → (specs.map (·.2)).Nodup) := by
  obtain ⟨es, hkeeps, haccepted, -⟩ := (keeps_new files o).addAll rfl calls
  have hbound : ((Module.new files o).addAll calls).Bound :=
    Bound.addAll (fun e he => absurd he List.not_mem_nil) calls
  rw [List.nil_append] at hkeeps
  generalize (Module.new files o).addAll calls = m at hbuilt hkeeps hbound
  obtain rfl := eq_of_build hbuilt
  have hexportable : ∀ e ∈ m.exports, Exportable e := by
    intro e he
    have hdecodes := hnames _ (List.mem_map_of_mem he)
    have hshown := htilde _ (List.mem_map_of_mem he)
    obtain ⟨cs, hcs⟩ := Option.isSome_iff_exists.mp hdecodes
    refine ⟨(hbound e he).bindable, hdecodes, fun h => hshown ((hbound e he).tilde h), fun _ => ?_⟩
    rwa [Export.text, hcs, Option.getD_some, String.toList_ofList, ← shown_of_decode? hcs]
  have hdeclared := hkeeps.groupOf_declared
  refine ⟨m.declared, exportClause m.exports, m.exports.map Export.spec, hdeclared,
    fun _ => print_exports _ _, declarations_exports hdeclared _,
    readsExports_clause hexportable, ?_, ?_, ?_⟩
  · rw [functions_program hkeeps, hkeeps.exports]
    simp only [List.map_map]
    rfl
  · have hcalls : ((Module.new files o).accepted calls).map (·.name) = m.exports.map (·.name) := by
      rw [← haccepted, hkeeps.exports]
      simp only [List.map_map]
      rfl
    rw [hcalls, List.forall₂_map_left_iff, List.forall₂_map_right_iff, List.forall₂_same]
    exact fun e he => (hexportable e he).encode_spec
  · -- the exported names are told apart by the names of the messages
    intro hempty
    have hencoded : ((m.exports.map Export.spec).map (·.2)).map (fun s => Utf8.encode s.toList) =
        m.exports.map (·.name) := by
      rw [List.map_map, List.map_map]
      refine List.map_congr_left fun e he => ?_
      have hmem : e.name ∈ m.exportedNames := List.mem_map_of_mem he
      have hne : e.name ≠ [] := fun h => hempty (h ▸ hmem)
      rw [Function.comp_apply, Function.comp_apply, (hexportable e he).encode_spec, if_neg hne]
    have hdistinct : (m.exports.map (·.name)).Nodup := by
      rw [hkeeps.exports, List.map_map]
      exact hkeeps.names
    exact .of_map _ (hencoded ▸ hdistinct)

/-- A message without a name, and one with the name that its function has. -/
def namelessCalls : List SourceMessage := [
  ⟨[], "x".toUTF8.toList⟩,
  ⟨"_ref".toUTF8.toList, "y".toUTF8.toList⟩]

/-- Both of them are exported under one name. -/
theorem exports_read_back_nameless : ∃ built,
    ((Module.new .empty ⟨"en", .empty, .string, ""⟩).addAll namelessCalls).build.2 = .ok built ∧
    (∀ name ∈ built.exports, (Utf8.decode? name).isSome = true) ∧
    (∀ name ∈ built.exports, Script.verticalTilde ∉ Utf8.shown name) ∧
    ∃ clause, (∃ front, declarations built.program = front ++ "\nexport " ++ clause ++ ";\n") ∧
      ∀ l, Script.ReadsExports clause l ↔ l = [("_ref", "_ref"), ("_ref_1", "_ref")] := by
  let m := (Module.new .empty ⟨"en", .empty, .string, ""⟩).addAll namelessCalls
  have hok : m.build.2.toOption.map (fun built =>
      (built.exports, built.program.functions.map (·.name))) =
        some ([[], "_ref".toUTF8.toList], ["_ref", "_ref_1"]) := by
    decide +kernel
  have haccepted : ((Module.new .empty ⟨"en", .empty, .string, ""⟩).accepted namelessCalls).map
      (·.name) = [[], "_ref".toUTF8.toList] := by
    decide +kernel
  have hvalid : ∀ name ∈ [[], "_ref".toUTF8.toList], (Utf8.decode? name).isSome = true := by
    decide +kernel
  have hbare : ∀ name ∈ [[], "_ref".toUTF8.toList], Script.verticalTilde ∉ Utf8.shown name := by
    decide +kernel
  cases hbuild : m.build.2 with
  | error e =>
    rw [hbuild] at hok
    cases hok
  | ok built =>
    rw [hbuild] at hok
    obtain ⟨hexports, hfunctions⟩ := Prod.mk.inj (Option.some.inj hok)
    rw [← hexports] at hvalid hbare
    obtain ⟨body, clause, specs, _, _, hdeclared, hreads, hlocals, hspecs, _⟩ :=
      exports_read_back _ _ _ hbuild hvalid hbare
    refine ⟨built, rfl, hvalid, hbare, clause, ⟨_, hdeclared⟩, ?_⟩
    have hencode {s t : String} (h : Utf8.encode s.toList = Utf8.encode t.toList) : s = t := by
      have hlist := congrArg Utf8.decode? h
      rw [Utf8.decode?_encode, Utf8.decode?_encode] at hlist
      exact String.toList_inj.mp (Option.some.inj hlist)
    -- the locals are the functions, and the names are told by what they are written as
    rw [hfunctions] at hlocals
    rw [haccepted] at hspecs
    obtain _ | @⟨⟨binding, name⟩, _, _, _, hfirst, hspecs⟩ := hspecs
    obtain _ | @⟨⟨binding', name'⟩, _, _, _, hsecond, hrest⟩ := hspecs
    obtain rfl := List.forall₂_nil_right_iff.mp hrest
    obtain ⟨rfl, rfl⟩ : binding = "_ref" ∧ binding' = "_ref_1" := by simpa using hlocals
    obtain rfl : name = "_ref" := hencode (Eq.trans hfirst (if_pos rfl))
    have hnamed : Utf8.encode name'.toList = "_ref".toUTF8.toList :=
      hsecond.trans (if_neg (by decide +kernel))
    obtain rfl : name' = "_ref" := hencode (hnamed.trans (by decide +kernel))
    exact hreads

end Module

end Compile

end Phrasebook
