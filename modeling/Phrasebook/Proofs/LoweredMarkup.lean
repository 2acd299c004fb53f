import Phrasebook.Locale.Common
import Phrasebook.Proofs.Calls
import Phrasebook.Proofs.PrintedTokens

/-!
Fragments as calls. A program with the calls that build its fragments in place of them is printed as
the program is in the classic mode, and it runs as the program does.
-/
namespace Phrasebook

open Program

/-! ### Programs without fragments -/

mutual

/-- An expression with the call that builds it in the place of each fragment. -/
def Expr.lowered (builder : String) : Expr → Expr
  | .string s => .string s
  | .number x => .number x
  | .bool b => .bool b
  | .ident name => .ident name
  | .member object property => .member (object.lowered builder) property
  | .call callee args => .call (callee.lowered builder) (loweredItems builder args)
  | .new callee args => .new (callee.lowered builder) (loweredItems builder args)
  | .binary op left right => .binary op (left.lowered builder) (right.lowered builder)
  | .conditional test yes no =>
    .conditional (test.lowered builder) (yes.lowered builder) (no.lowered builder)
  | .object props => .object (loweredProps builder props)
  | .fragment children =>
    .call (.member (.ident builder) "createElement")
      (.member (.ident builder) "Fragment" :: .ident "null" :: loweredChildren builder children)
  | .unknown => .unknown
  | .absent => .absent

def loweredItems (builder : String) : List Expr → List Expr
  | [] => []
  | e :: r => e.lowered builder :: loweredItems builder r

def loweredProps (builder : String) : List (String × Expr) → List (String × Expr)
  | [] => []
  | (k, e) :: r => (k, e.lowered builder) :: loweredProps builder r

/-- The children of a fragment as arguments. -/
def loweredChildren (builder : String) : List (Child Expr) → List Expr
  | [] => []
  | .text s :: r => .string s :: loweredChildren builder r
  | .container e :: r => e.lowered builder :: loweredChildren builder r

end

mutual

def Stmt.lowered (builder : String) : Stmt → Stmt
  | .importAll binding source => .importAll binding source
  | .const name init => .const name (init.lowered builder)
  | .return value => .return (value.lowered builder)
  | .function name params body returnType =>
    .function name params (loweredBody builder body) returnType
  | .exports list => .exports list

def loweredBody (builder : String) : List Stmt → List Stmt
  | [] => []
  | s :: r => s.lowered builder :: loweredBody builder r

end

def Program.lowered (builder : String) (p : Program) : Program :=
  loweredBody builder p

mutual

/-- The names that a statement binds to values, as constants and as parameters. -/
def Stmt.variables : Stmt → List String
  | .const name _ => [name]
  | .function _ params body _ => params.map Loaded.paramName ++ bodyVariables body
  | .importAll .. | .return _ | .exports _ => []

def bodyVariables : List Stmt → List String
  | [] => []
  | s :: r => s.variables ++ bodyVariables r

end

def Program.variables (p : Program) : List String :=
  bodyVariables p

mutual

/-- A property of all expressions in a statement. -/
def Stmt.Everywhere (p : Expr → Prop) : Stmt → Prop
  | .const _ init => Program.Everywhere p init
  | .return value => Program.Everywhere p value
  | .function _ _ body _ => EverywhereInBody p body
  | .importAll .. | .exports _ => True

def EverywhereInBody (p : Expr → Prop) : List Stmt → Prop
  | [] => True
  | s :: r => s.Everywhere p ∧ EverywhereInBody p r

end

/-- A fragment is nothing that `new` is written in front of. -/
def Expr.ConstructsNoFragment : Expr → Prop
  | .new (.fragment _) _ => False
  | _ => True

/-! ### No fragment is left -/

section Lowered

variable (builder : String)

mutual

theorem hasFragment_lowered : ∀ e : Expr, (e.lowered builder).hasFragment = false
  | .string _ | .number _ | .bool _ | .ident _ | .unknown | .absent => rfl
  | .member object _ => hasFragment_lowered object
  | .call callee args => by
    rw [Expr.lowered, Expr.hasFragment, hasFragment_lowered callee, anyFragment_loweredItems args]
    rfl
  | .new callee args => by
    rw [Expr.lowered, Expr.hasFragment, hasFragment_lowered callee, anyFragment_loweredItems args]
    rfl
  | .binary _ left right => by
    rw [Expr.lowered, Expr.hasFragment, hasFragment_lowered left, hasFragment_lowered right]
    rfl
  | .conditional test yes no => by
    rw [Expr.lowered, Expr.hasFragment, hasFragment_lowered test, hasFragment_lowered yes,
      hasFragment_lowered no]
    rfl
  | .object props => anyPropFragment_loweredProps props
  | .fragment children => anyFragment_loweredChildren children

theorem anyFragment_loweredItems : ∀ es, anyFragment (loweredItems builder es) = false
  | [] => rfl
  | e :: r => by
    rw [loweredItems, anyFragment, hasFragment_lowered e, anyFragment_loweredItems r]
    rfl

theorem anyPropFragment_loweredProps : ∀ ps, anyPropFragment (loweredProps builder ps) = false
  | [] => rfl
  | (k, e) :: r => by
    rw [loweredProps, anyPropFragment, hasFragment_lowered e, anyPropFragment_loweredProps r]
    rfl

theorem anyFragment_loweredChildren : ∀ cs, anyFragment (loweredChildren builder cs) = false
  | [] => rfl
  | .text _ :: r => anyFragment_loweredChildren r
  | .container e :: r => by
    rw [loweredChildren, anyFragment, hasFragment_lowered e, anyFragment_loweredChildren r]
    rfl

end

mutual

theorem stmt_hasFragment_lowered : ∀ s : Stmt, (s.lowered builder).hasFragment = false
  | .importAll .. | .exports _ => rfl
  | .const _ init => hasFragment_lowered builder init
  | .return value => hasFragment_lowered builder value
  | .function _ _ body _ => anyHasFragment_loweredBody body

theorem anyHasFragment_loweredBody : ∀ b, Stmt.anyHasFragment (loweredBody builder b) = false
  | [] => rfl
  | s :: r => by
    rw [loweredBody, Stmt.anyHasFragment, stmt_hasFragment_lowered s, anyHasFragment_loweredBody r]
    rfl

end

end Lowered

/-! ### Printing -/

namespace Program

section Printing

/-- A call binds looser than a fragment, but no place that asks for more than a call is met. -/
theorem enclose_lowered {builder : String} {least : Nat} (h : least ≤ Level.call) (e : Expr)
    (s : String) : enclose least (e.lowered builder) s = enclose least e s := by
  cases e with
  | fragment children =>
    have hcall : ¬Level.call < least := Nat.not_lt.mpr h
    have hprimary : ¬Level.primary < least := Nat.not_lt.mpr (h.trans (by decide))
    change parens (decide (Level.call < least)) s = parens (decide (Level.primary < least)) s
    rw [decide_eq_false hcall, decide_eq_false hprimary]
  | _ => rfl

theorem isNumber_lowered (builder : String) (e : Expr) :
    isNumber (e.lowered builder) = isNumber e := by
  cases e <;> rfl

/-- The calls that come of fragments are the ones that are new. -/
theorem isCall_lowered {builder : String} {callee : Expr} {args : List Expr}
    (h : (Expr.new callee args).ConstructsNoFragment) :
    isCall (callee.lowered builder) = isCall callee := by
  cases callee with
  | fragment children => exact absurd h id
  | _ => rfl

/-- Arguments behind a first one are written as children are that stand in braces. -/
theorem listText_cons (style : PrintStyle) (e : Expr) (r : List Expr) :
    listText style (e :: r) = exprText style e ++ argumentsText style (r.map .container) := by
  induction r generalizing e with
  | nil => rw [listText, enclose_conditional, List.map_nil, argumentsText, String.append_empty]
  | cons f r ih =>
    rw [listText, enclose_conditional, ih f, List.map_cons, argumentsText, argumentText,
      enclose_conditional]
    · simp only [String.append_assoc]
    · exact List.cons_ne_nil _ _

theorem listText_cons_cons (style : PrintStyle) (e f : Expr) (r : List Expr) :
    listText style (e :: f :: r) = exprText style e ++ ", " ++ listText style (f :: r) := by
  rw [listText, enclose_conditional]
  exact List.cons_ne_nil _ _

theorem propsText_cons_cons (style : PrintStyle) (k : String) (e : Expr) (p : String × Expr)
    (r : List (String × Expr)) :
    propsText style ((k, e) :: p :: r) =
      propertyKey k ++ ": " ++ exprText style e ++ ", " ++ propsText style (p :: r) := by
  rw [propsText, enclose_conditional]
  exact List.cons_ne_nil _ _

/-- The call that a fragment becomes, whatever its children are. -/
theorem exprText_build (style : PrintStyle) (builder : String) (args : List Expr) :
    exprText style (.call (.member (.ident builder) "createElement")
        (.member (.ident builder) "Fragment" :: .ident "null" :: args)) =
      builder ++ ".createElement(" ++ builder ++ ".Fragment, null" ++
        argumentsText style (args.map .container) ++ ")" := by
  have hmember (property : String) : exprText style (.member (.ident builder) property) =
      builder ++ memberAccess property := by
    rw [exprText, exprText]
    rfl
  have hnull : argumentText style (.container (.ident "null")) = ", null" := by
    rw [argumentText, enclose_conditional, exprText]
    rfl
  have hcreate : memberAccess "createElement" ++ "(" = ".createElement(" := by decide
  have hfragment : memberAccess "Fragment" ++ ", null" = ".Fragment, null" := by decide
  have hcallee (s : String) :
      enclose Level.call (.member (.ident builder) "createElement") s = s := rfl
  calc
    _ = builder ++ memberAccess "createElement" ++ "(" ++ (builder ++ memberAccess "Fragment" ++
          (", null" ++ argumentsText style (args.map .container))) ++ ")" := by
      rw [exprText, hmember, hcallee, listText_cons, hmember, List.map_cons, argumentsText, hnull]
    _ = builder ++ (memberAccess "createElement" ++ "(") ++ builder ++
          (memberAccess "Fragment" ++ ", null") ++ argumentsText style (args.map .container) ++
            ")" := by
      simp only [String.append_assoc]
    _ = _ := by rw [hcreate, hfragment]

variable {style style' : PrintStyle}

mutual

/-- The calls are written as the fragments are in the classic mode, in whatever mode. -/
theorem exprText_lowered (hclassic : style.markup = .classic) :
    ∀ e, Everywhere Expr.ConstructsNoFragment e →
      exprText style' (e.lowered style.builder) = exprText style e
  | .string _, _ | .number _, _ | .bool _, _ | .ident _, _ | .unknown, _ | .absent, _ => by
    rw [Expr.lowered, exprText, exprText]
  | .member object property, h => by
    rw [Expr.lowered, exprText, exprText, isNumber_lowered, exprText_lowered hclassic object h.2,
      enclose_lowered (Nat.le_refl _)]
  | .call callee args, h => by
    rw [Expr.lowered, exprText, exprText, exprText_lowered hclassic callee h.2.1,
      enclose_lowered (Nat.le_refl _), listText_lowered hclassic args h.2.2]
  | .new callee args, h => by
    rw [Expr.lowered, exprText, exprText, isCall_lowered h.1,
      exprText_lowered hclassic callee h.2.1, enclose_lowered (Nat.le_refl _),
      listText_lowered hclassic args h.2.2]
  | .binary op left right, h => by
    have hleast : (if op = .strictEq then Level.equality else Level.additive) + 1 ≤ Level.call := by
      cases op <;> decide
    rw [Expr.lowered, exprText, exprText, exprText_lowered hclassic left h.2.1,
      exprText_lowered hclassic right h.2.2]
    simp only [enclose_lowered hleast, enclose_lowered (Nat.le_of_succ_le hleast)]
  | .conditional test yes no, h => by
    rw [Expr.lowered, exprText, exprText, exprText_lowered hclassic test h.2.1,
      exprText_lowered hclassic yes h.2.2.1, exprText_lowered hclassic no h.2.2.2]
    simp only [enclose_lowered (by decide : Level.conditional + 1 ≤ Level.call),
      enclose_conditional]
  | .object props, h => by
    rw [Expr.lowered, exprText, exprText, propsText_lowered hclassic props h.2]
    cases props <;> rfl
  | .fragment children, h => by
    rw [Expr.lowered, exprText_build, argumentsText_lowered hclassic children h.2, exprText,
      hclassic]
termination_by structural e => e

theorem listText_lowered (hclassic : style.markup = .classic) :
    ∀ es, EverywhereItems Expr.ConstructsNoFragment es →
      listText style' (loweredItems style.builder es) = listText style es
  | [], _ => rfl
  | [e], h => by
    rw [loweredItems, loweredItems, listText, listText, enclose_conditional, enclose_conditional,
      exprText_lowered hclassic e h.1]
  | e :: f :: r, h => by
    rw [loweredItems, loweredItems, listText_cons_cons, listText_cons_cons,
      exprText_lowered hclassic e h.1]
    exact congrArg _ (listText_lowered hclassic (f :: r) h.2)
termination_by structural es => es

theorem propsText_lowered (hclassic : style.markup = .classic) :
    ∀ ps, EverywhereProps Expr.ConstructsNoFragment ps →
      propsText style' (loweredProps style.builder ps) = propsText style ps
  | [], _ => rfl
  | [(k, e)], h => by
    rw [loweredProps, loweredProps, propsText, propsText, enclose_conditional, enclose_conditional,
      exprText_lowered hclassic e h.1]
  | (k, e) :: (l, f) :: r, h => by
    rw [loweredProps, loweredProps, propsText_cons_cons, propsText_cons_cons,
      exprText_lowered hclassic e h.1]
    exact congrArg _ (propsText_lowered hclassic ((l, f) :: r) h.2)
termination_by structural ps => ps

theorem argumentsText_lowered (hclassic : style.markup = .classic) :
    ∀ cs, EverywhereChildren Expr.ConstructsNoFragment cs →
      argumentsText style' ((loweredChildren style.builder cs).map .container) =
        argumentsText style cs
  | [], _ => rfl
  | .text s :: r, h => by
    rw [loweredChildren, List.map_cons, argumentsText, argumentsText,
      argumentsText_lowered hclassic r h, argumentText, argumentText, enclose_conditional, exprText]
  | .container e :: r, h => by
    rw [loweredChildren, List.map_cons, argumentsText, argumentsText,
      argumentsText_lowered hclassic r h.2, argumentText, argumentText, enclose_conditional,
      enclose_conditional, exprText_lowered hclassic e h.1]
termination_by structural cs => cs

end

-- behind `new` a call is put in parentheses, but no fragment is
example : exprText ⟨false, .classic, ""⟩ (.new (.fragment []) []) =
    "new React.createElement(React.Fragment, null)()" := by decide +kernel

example : exprText ⟨false, .classic, ""⟩ ((Expr.new (.fragment []) []).lowered "React") =
    "new (React.createElement(React.Fragment, null))()" := by decide +kernel

theorem functionHead_of_types (htypes : style'.types = style.types) (name : String)
    (params : List Param) (returnType : String) :
    functionHead style' name params returnType = functionHead style name params returnType := by
  unfold functionHead
  rw [htypes]

mutual

theorem stmtLines_lowered (hclassic : style.markup = .classic) (htypes : style'.types = style.types) :
    ∀ indent s, s.Everywhere Expr.ConstructsNoFragment →
      stmtLines style' indent (s.lowered style.builder) = stmtLines style indent s
  | _, .importAll .., _ | _, .exports _, _ => rfl
  | _, .const _ init, h => by
    rw [Stmt.lowered, stmtLines, stmtLines, enclose_conditional, enclose_conditional,
      exprText_lowered hclassic init h]
  | _, .return value, h => by
    rw [Stmt.lowered, stmtLines, stmtLines, exprText_lowered hclassic value h]
  | indent, .function name params body returnType, h => by
    rw [Stmt.lowered, stmtLines, stmtLines, bodyLines_lowered hclassic htypes (indent + 1) body h,
      functionHead_of_types htypes]
termination_by structural _ s => s

theorem bodyLines_lowered (hclassic : style.markup = .classic) (htypes : style'.types = style.types) :
    ∀ indent b, EverywhereInBody Expr.ConstructsNoFragment b →
      bodyLines style' indent (loweredBody style.builder b) = bodyLines style indent b
  | _, [], _ => rfl
  | indent, s :: r, h => by
    rw [loweredBody, bodyLines, bodyLines, stmtLines_lowered hclassic htypes indent s h.1,
      bodyLines_lowered hclassic htypes indent r h.2]
termination_by structural _ b => b

end

/-- Statements stay in their groups. -/
theorem groupOf_lowered (builder : String) (s : Stmt) : groupOf (s.lowered builder) = groupOf s := by
  cases s <;> rfl

theorem programLines_lowered (hclassic : style.markup = .classic)
    (htypes : style'.types = style.types) {p : Program}
    (h : EverywhereInBody Expr.ConstructsNoFragment p) (prev : Group) :
    programLines style' prev (p.lowered style.builder) = programLines style prev p := by
  induction p generalizing prev with
  | nil => rfl
  | cons s r ih =>
    change programLines style' prev (s.lowered style.builder :: Program.lowered style.builder r) = _
    rw [programLines, programLines, groupOf_lowered, stmtLines_lowered hclassic htypes 0 s h.1,
      ih h.2]

end Printing

end Program

/-! ### Evaluation -/

namespace Evaluate

/-- A scope in which the calls that build fragments can be evaluated: the builder is at hand, and
what stands for no properties. -/
structure Builds (builder : String) (scope : Scope) : Prop where
  builder : scope.find? builder = some (.nameSpace .markup)
  nothing : ∃ v, scope.find? "null" = some v

section Builds

variable {builder : String} {scope : Scope}

/-- A variable that does not hide the builder, or a builder of its own. -/
theorem Builds.cons (h : Builds builder scope) {name : String} {v : Value}
    (hname : name = builder → v = .nameSpace .markup) : Builds builder ((name, v) :: scope) := by
  constructor
  case builder =>
    by_cases heq : name = builder
    · rw [heq, hname heq, find?_cons_self]
    · rw [find?_cons_of_ne _ _ heq, h.builder]
  case nothing =>
    by_cases heq : name = "null"
    · exact ⟨v, by rw [heq, find?_cons_self]⟩
    · rw [find?_cons_of_ne _ _ heq]
      exact h.nothing

variable [LocaleData]

theorem Builds.expr_member (h : Builds builder scope) {property : String} {v : Value}
    (hmember : member (.nameSpace .markup) property = .ok v) :
    expr scope (.member (.ident builder) property) = pure v := by
  rw [expr, expr, h.builder]
  simp only [pure_bind, hmember]
  rfl

theorem Builds.expr_nothing (h : Builds builder scope) : ∃ v, expr scope (.ident "null") = pure v := by
  obtain ⟨v, hv⟩ := h.nothing
  exact ⟨v, by rw [expr, hv]⟩

/-- A call that builds a fragment makes one element of its arguments, as the fragment does of its
children. -/
theorem Builds.expr_build (h : Builds builder scope) {args : List Expr} {cs : List (Child Expr)}
    (hargs : exprs scope args = children scope cs) :
    expr scope (.call (.member (.ident builder) "createElement")
      (.member (.ident builder) "Fragment" :: .ident "null" :: args)) =
      expr scope (.fragment cs) := by
  obtain ⟨v, hnothing⟩ := h.expr_nothing
  have hcreate : expr scope (.member (.ident builder) "createElement") =
      pure (.function .createElement) := h.expr_member rfl
  have hfragment : expr scope (.member (.ident builder) "Fragment") = pure .fragmentType :=
    h.expr_member rfl
  rw [expr, exprs, exprs, hcreate, hfragment, hnothing, hargs, expr]
  simp only [pure_bind, bind_assoc]
  rfl

mutual

/-- An expression and its lowered one are equal as evaluations: they give the same value and make
the same objects, or they fail alike. -/
theorem expr_lowered (h : Builds builder scope) : ∀ e, expr scope (e.lowered builder) = expr scope e
  | .string _ | .number _ | .bool _ | .ident _ | .unknown | .absent => by rw [Expr.lowered]
  | .member object property => by rw [Expr.lowered, expr, expr, expr_lowered h object]
  | .call callee args => by
    rw [Expr.lowered, expr, expr, expr_lowered h callee, exprs_lowered h args]
  | .new callee args => by
    rw [Expr.lowered, expr, expr, expr_lowered h callee, exprs_lowered h args]
  | .binary op left right => by
    rw [Expr.lowered, expr, expr, expr_lowered h left, expr_lowered h right]
  | .conditional test yes no => by
    rw [Expr.lowered, expr, expr, expr_lowered h test, expr_lowered h yes, expr_lowered h no]
  | .object props => by rw [Expr.lowered, expr, expr, entries_lowered h [] props]
  | .fragment cs => by rw [Expr.lowered, h.expr_build (children_lowered h cs)]
termination_by structural e => e

theorem exprs_lowered (h : Builds builder scope) :
    ∀ es, exprs scope (loweredItems builder es) = exprs scope es
  | [] => rfl
  | e :: r => by rw [loweredItems, exprs, exprs, expr_lowered h e, exprs_lowered h r]
termination_by structural es => es

theorem entries_lowered (h : Builds builder scope) :
    ∀ done ps, entries scope done (loweredProps builder ps) = entries scope done ps
  | _, [] => rfl
  | done, (k, e) :: r => by
    rw [loweredProps, entries, entries, expr_lowered h e]
    congr
    funext v
    exact entries_lowered h _ r
termination_by structural _ ps => ps

theorem children_lowered (h : Builds builder scope) :
    ∀ cs, exprs scope (loweredChildren builder cs) = children scope cs
  | [] => by rw [loweredChildren, exprs, children]
  | .text s :: r => by
    rw [loweredChildren, exprs, children, children_lowered h r, expr, pure_bind]
  | .container e :: r => by
    rw [loweredChildren, exprs, children, expr_lowered h e, children_lowered h r]
termination_by structural cs => cs

end

end Builds

end Evaluate

/-! ### Running -/

def LoadedFunction.lowered (builder : String) (f : LoadedFunction) : LoadedFunction :=
  { f with body := loweredBody builder f.body }

namespace Loaded

def lowered (builder : String) (p : Loaded) : Loaded :=
  { p with functions := p.functions.map (·.lowered builder) }

/-- What a program needs to build fragments: the builder, which its functions leave alone. -/
structure Serves (builder : String) (p : Loaded) : Prop where
  builds : Evaluate.Builds builder p.scope
  free : ∀ f ∈ p.functions,
    builder ∉ f.params.map paramName ∧ builder ∉ bodyVariables f.body

theorem Builds.bindParams {builder : String} {scope : Evaluate.Scope}
    (h : Evaluate.Builds builder scope)
    {params : List Param} (hfree : builder ∉ params.map paramName) (args : List (String × Value)) :
    Evaluate.Builds builder (bindParams args params scope) := by
  induction params generalizing scope with
  | nil => exact h
  | cons q r ih =>
    rw [List.map_cons, List.mem_cons, not_or] at hfree
    rw [bindParams_cons]
    exact ih (h.cons fun heq => absurd heq.symm hfree.1) hfree.2

section Running

variable [LocaleData] {builder : String} {p q : Loaded}

/-- Loading a statement and its lowered one: they fail alike, or the programs go on alike. -/
theorem Serves.addStmt_lowered (h : p.Serves builder) (s : Stmt) :
    (p.lowered builder).addStmt (s.lowered builder) = (p.addStmt s).map (lowered builder) := by
  cases s with
  | importAll binding source =>
    rw [Stmt.lowered, addStmt, addStmt]
    split <;> rfl
  | const name init =>
    have hinit : (Evaluate.expr (p.lowered builder).scope (init.lowered builder)).run
        (p.lowered builder).made = (Evaluate.expr p.scope init).run p.made :=
      congrArg (·.run p.made) (Evaluate.expr_lowered h.builds init)
    rw [Stmt.lowered, addStmt, addStmt, hinit]
    cases (Evaluate.expr p.scope init).run p.made <;> rfl
  | «return» => rfl
  | function => rfl
  | exports => rfl

/-- No statement takes the builder away, unless it binds its name. -/
theorem Serves.after_addStmt (h : p.Serves builder) {s : Stmt} (hfree : builder ∉ s.variables)
    (hadd : p.addStmt s = .ok q) : q.Serves builder := by
  cases s with
  | importAll binding source =>
    rw [addStmt] at hadd
    split at hadd
    · obtain rfl := Except.ok.inj hadd
      exact ⟨h.builds.cons fun _ => rfl, h.free⟩
    · cases hadd
  | const name init =>
    have hname : name ≠ builder := fun heq => hfree (heq ▸ List.mem_singleton.mpr rfl)
    rw [addStmt] at hadd
    split at hadd
    · obtain rfl := Except.ok.inj hadd
      exact ⟨h.builds.cons fun heq => absurd heq hname, h.free⟩
    · cases hadd
  | «return» => cases hadd
  | function name params body returnType =>
    obtain rfl := Except.ok.inj hadd
    rw [Stmt.variables, List.mem_append, not_or] at hfree
    refine ⟨h.builds, ?_⟩
    intro f hf
    rcases List.mem_cons.mp hf with rfl | hf
    · exact hfree
    · exact h.free f hf
  | exports list =>
    obtain rfl := Except.ok.inj hadd
    exact ⟨h.builds, h.free⟩

/-- Loading one statement after the other. -/
theorem Serves.foldlM_lowered (h : p.Serves builder) {rest : List Stmt}
    (hfree : builder ∉ bodyVariables rest) :
    (loweredBody builder rest).foldlM addStmt (p.lowered builder) =
        (rest.foldlM addStmt p).map (lowered builder) ∧
      ∀ q, rest.foldlM addStmt p = .ok q → q.Serves builder := by
  induction rest generalizing p with
  | nil =>
    refine ⟨rfl, ?_⟩
    intro q hq
    obtain rfl := Except.ok.inj hq
    exact h
  | cons s r ih =>
    rw [bodyVariables, List.mem_append, not_or] at hfree
    rw [loweredBody, List.foldlM_cons, List.foldlM_cons, h.addStmt_lowered]
    cases hadd : p.addStmt s with
    | error e =>
      refine ⟨rfl, ?_⟩
      intro q hq
      cases hq
    | ok p' => exact ih (h.after_addStmt hfree.1 hadd) hfree.2

/-- A function runs as its lowered one does, with the same objects made. -/
theorem runBody_lowered {name : Bytes} {scope : Evaluate.Scope} {made : Nat} {body : List Stmt}
    (h : Evaluate.Builds builder scope) (hfree : builder ∉ bodyVariables body) :
    runBody name scope made (loweredBody builder body) = runBody name scope made body := by
  induction body generalizing scope made with
  | nil => rfl
  | cons s r ih =>
    rw [bodyVariables, List.mem_append, not_or] at hfree
    cases s with
    | const binding init =>
      -- nothing that a body binds hides the builder
      have hname : binding ≠ builder := fun heq => hfree.1 (heq ▸ List.mem_singleton.mpr rfl)
      rw [loweredBody, Stmt.lowered, runBody, runBody, Evaluate.expr_lowered h]
      cases (Evaluate.expr scope init).run made with
      | error e => rfl
      | ok result => exact ih (h.cons fun heq => absurd heq hname) hfree.2
    | «return» value =>
      rw [loweredBody, Stmt.lowered, runBody, runBody, Evaluate.expr_lowered h]
    | importAll => rfl
    | function => rfl
    | exports => rfl

theorem Serves.call_lowered (h : p.Serves builder) (name : Bytes) (args : List (String × Value)) :
    (p.lowered builder).call name args = p.call name args := by
  have hexports : (p.lowered builder).exports = p.exports := rfl
  rw [call, call, hexports]
  cases p.exports.find? (·.name == name) with
  | none => rfl
  | some e =>
    have hfind : (p.lowered builder).functions.find? (·.name == e.binding) =
        (p.functions.find? (·.name == e.binding)).map (·.lowered builder) := List.find?_map ..
    simp only [hfind]
    cases hfunction : p.functions.find? (·.name == e.binding) with
    | none => rfl
    | some f =>
      obtain ⟨hparams, hbody⟩ := h.free f (List.mem_of_find?_eq_some hfunction)
      exact runBody_lowered (Builds.bindParams h.builds hparams args) hbody

end Running

end Loaded

namespace Program

/-! ### Programs -/

/-- Where the import of the builder stands in front of a program, the builder is there when anything
else is loaded. -/
theorem load_lowered [LocaleData] {builder source : String} {p : Program}
    (hhead : p.head? = some (.importAll builder source)) (hfree : builder ∉ p.variables) :
    (p.lowered builder).load = p.load.map (Loaded.lowered builder) ∧
      ∀ l, p.load = .ok l → l.Serves builder := by
  obtain ⟨rest, rfl⟩ := List.head?_eq_some_iff.mp hhead
  rw [load, load, lowered, loweredBody, Stmt.lowered, List.foldlM_cons, List.foldlM_cons]
  by_cases hsource : source = "react"
  · have hbuilds : Evaluate.Builds builder ((builder, .nameSpace .markup) :: Evaluate.globals) := by
      constructor
      case builder => exact Evaluate.find?_cons_self _ _ _
      case nothing =>
        by_cases heq : builder = "null"
        · exact ⟨_, by rw [heq]; exact Evaluate.find?_cons_self _ _ _⟩
        · exact ⟨.undefined, by rw [Evaluate.find?_cons_of_ne _ _ heq]; rfl⟩
    have hserves : Loaded.Serves builder
        { Loaded.empty with scope := (builder, .nameSpace .markup) :: Loaded.empty.scope } :=
      ⟨hbuilds, fun f hf => absurd hf List.not_mem_nil⟩
    rw [Loaded.addStmt, if_pos hsource]
    exact hserves.foldlM_lowered hfree
  · rw [Loaded.addStmt, if_neg hsource]
    refine ⟨rfl, ?_⟩
    intro l hl
    cases hl

/-- Fragments mean the calls that they are written as. Behind the import of the builder, and where no
constant and no parameter has its name, these calls can stand for the fragments: the program is
printed the same in the classic mode, exports the same, and gives the same values and errors. -/
theorem lowered_preserves [LocaleData] (style : PrintStyle) (p : Program)
    (hclassic : style.markup = .classic)
    (hnew : EverywhereInBody Expr.ConstructsNoFragment p)
    (himport : ∃ source, p.head? = some (.importAll style.builder source))
    (hfree : style.builder ∉ p.variables) :
    (p.lowered style.builder).hasFragment = false ∧
      (∀ markup, print { style with markup } (p.lowered style.builder) = print style p) ∧
      (p.lowered style.builder).load.map Loaded.exportNames = p.load.map Loaded.exportNames ∧
      ∀ name args, ((p.lowered style.builder).load >>= fun l => l.call name args) =
        p.load >>= fun l => l.call name args := by
  obtain ⟨source, hhead⟩ := himport
  obtain ⟨hload, hserves⟩ := load_lowered hhead hfree
  refine ⟨anyHasFragment_loweredBody _ p, ?_, ?_, ?_⟩
  · intro markup
    have htypes : { style with markup }.types = style.types := rfl
    have hlines : programLines { style with markup } .none (p.lowered style.builder) =
        programLines style .none p := programLines_lowered hclassic htypes hnew .none
    rw [print, print, hlines]
  · rw [hload]
    cases p.load <;> rfl
  · intro name args
    rw [hload]
    cases hp : p.load with
    | error e => rfl
    | ok l => exact (hserves l hp).call_lowered name args

/-- A message whose fragments stand in each other and in a choice between them. -/
def nestedMarkup : Program :=
  [.importAll "React" "react",
    .const "bold" (.fragment [.text "b"]),
    .function "greet" [⟨"name", "", "string"⟩]
      [.const "inner" (.fragment [.text "Hi ", .container (.ident "name")]),
        .return (.conditional (.binary .strictEq (.ident "name") (.string "x"))
          (.fragment [.container (.fragment [.container (.ident "bold")]), .text "!"])
          (.member (.fragment [.container (.ident "inner")]) "size"))] "",
    .exports [⟨"greet", Utf8.encode "hi".toList⟩]]

theorem lowered_preserves_nestedMarkup : letI := LocaleData.common
    EverywhereInBody Expr.ConstructsNoFragment nestedMarkup ∧
      nestedMarkup.head? = some (.importAll "React" "react") ∧ "React" ∉ nestedMarkup.variables ∧
      nestedMarkup.hasFragment = true ∧ (nestedMarkup.lowered "React").hasFragment = false ∧
      (nestedMarkup.load >>= fun l => l.call (Utf8.encode "hi".toList) [("name", .text "x")]).map
        Value.render = .ok "b!" ∧
      print ⟨false, .preserve, ""⟩ (nestedMarkup.lowered "React") =
        print ⟨false, .classic, ""⟩ nestedMarkup ∧
      ∀ name args, ((nestedMarkup.lowered "React").load >>= fun l => l.call name args) =
        nestedMarkup.load >>= fun l => l.call name args := by
  let _ := LocaleData.common
  have hnew : EverywhereInBody Expr.ConstructsNoFragment nestedMarkup := by
    simp [nestedMarkup, EverywhereInBody, Stmt.Everywhere, Everywhere, EverywhereChildren,
      Expr.ConstructsNoFragment]
  have himport : nestedMarkup.head? = some (.importAll "React" "react") := rfl
  have hfree : "React" ∉ nestedMarkup.variables := by decide
  obtain ⟨hnone, hprint, -, hcall⟩ :=
    lowered_preserves ⟨false, .classic, ""⟩ nestedMarkup rfl hnew ⟨_, himport⟩ hfree
  exact ⟨hnew, himport, hfree, rfl, hnone, rfl, hprint .preserve, hcall⟩

end Program

end Phrasebook
