import Phrasebook.Proofs.Dispatches
import Phrasebook.Proofs.Granted
import Phrasebook.Proofs.Interpreter

/-!
Exact cases of plurals. A compiled plural compares its argument with the numbers of its exact cases
in their order, so that a case can be selected exactly if no case in front of it stands for the same
number. Selectors are told apart by their texts when a message is read, and a number has many of
them.
-/
namespace Phrasebook.Compile

open Evaluate (Eval)

/-! ### Selecting -/

namespace Dispatch

variable [LocaleData] (d : Dispatch) (scope : Evaluate.Scope)

/-- The first of some arms whose test passes; tests are evaluated one after the other. -/
def selectedIn : List Arm → Eval (Option Arm)
  | [] => return none
  | a :: r => do
    if (← Evaluate.expr scope (d.test a.branch)).isTruthy then return some a else selectedIn r

/-- A dispatch selects the arm of a case in a scope; its value is that of the arm then. -/
def Selects (b : Branch Node) : Prop :=
  ∃ a ∈ d.arms, a.branch = b ∧ d.selectedIn scope d.arms = pure (some a)

/-- A dispatch evaluates to the arm that is selected. -/
theorem expr_chain : Evaluate.expr scope d.chain = d.selectedIn scope d.arms >>= fun found =>
    Evaluate.expr scope ((found.map (·.value)).getD d.fallback) := by
  rw [chain, expr_ternaryChain, List.map_map]
  generalize d.arms = arms
  induction arms with
  | nil => rfl
  | cons a r ih =>
    rw [List.map_cons, Function.comp, firstTrue, ih, selectedIn, bind_assoc]
    congr 1
    funext v
    cases v.isTruthy with
    | true => rw [if_pos rfl, if_pos rfl, pure_bind, Option.map_some, Option.getD_some]
    | false => rw [if_neg Bool.false_ne_true, if_neg Bool.false_ne_true]

variable {d scope}

theorem Selects.expr_chain {b : Branch Node} (h : d.Selects scope b) :
    ∃ a ∈ d.arms, a.branch = b ∧ Evaluate.expr scope d.chain = Evaluate.expr scope a.value := by
  obtain ⟨a, ha, hb, hselected⟩ := h
  refine ⟨a, ha, hb, ?_⟩
  rw [Dispatch.expr_chain, hselected, pure_bind, Option.map_some, Option.getD_some]

theorem mem_of_selectedIn {arms : List Arm} {a : Arm} {made made' : Nat}
    (h : (d.selectedIn scope arms).run made = .ok (some a, made')) : a ∈ arms := by
  induction arms generalizing made with
  | nil => exact nomatch h
  | cons b r ih =>
    rw [selectedIn, StateT.run_bind] at h
    cases htest : (Evaluate.expr scope (d.test b.branch)).run made with
    | error e =>
      rw [htest] at h
      exact nomatch h
    | ok result =>
      obtain ⟨v, next⟩ := result
      rw [htest] at h
      have hnext : (if v.isTruthy then pure (some b) else d.selectedIn scope r).run next =
          .ok (some a, made') := h
      cases hv : v.isTruthy with
      | true =>
        rw [hv, if_pos rfl] at hnext
        obtain rfl := Option.some.inj (Prod.mk.inj (Except.ok.inj hnext)).1
        exact List.mem_cons_self
      | false =>
        rw [hv, if_neg Bool.false_ne_true] at hnext
        exact List.mem_cons_of_mem _ (ih hnext)

section Numbers

variable {x : Float} (hx : scope.find? d.value.binding = some (.number x))

include hx

/-- A number passes the test of an exact case if it is the number of the case. -/
theorem expr_test {b : Branch Node} (hb : (exactValue? b.key).isSome = true) :
    Evaluate.expr scope (d.test b) = pure (.flag (isExactly (.number x) b.key)) := by
  obtain ⟨y, hy⟩ := Option.isSome_iff_exists.mp hb
  have hident : Evaluate.expr scope d.value.ident = pure (.number x) := by
    rw [ValueRef.ident, Evaluate.expr, hx]
  rw [test, hy, pluralTest, expr_binary, operate, hident, Evaluate.expr, pure_bind, pure_bind,
    isExactly, hy]
  rfl

/-- Exact cases are tried as their numbers are compared. -/
theorem selectedIn_append {arms : List Arm}
    (hexact : ∀ a ∈ arms, (exactValue? a.branch.key).isSome = true) (rest : List Arm) :
    d.selectedIn scope (arms ++ rest) =
      match arms.find? fun a => isExactly (.number x) a.branch.key with
      | some a => pure (some a)
      | none => d.selectedIn scope rest := by
  induction arms with
  | nil => rfl
  | cons a r ih =>
    obtain ⟨ha, hr⟩ := List.forall_mem_cons.mp hexact
    rw [List.cons_append, selectedIn, expr_test hx ha, pure_bind, ih hr, Value.isTruthy]
    cases hmatch : isExactly (.number x) a.branch.key with
    | true => simp only [List.find?_cons, hmatch, if_true]
    | false => simp only [List.find?_cons, hmatch, Bool.false_eq_true, if_false]

/-- Of the exact cases the first one for a number is selected. -/
theorem IsOf.selects_iff {ctx : Context} {cases : List (Branch Node)} (h : d.IsOf ctx cases)
    {b : Branch Node} (hb : (exactValue? b.key).isSome = true) :
    d.Selects scope b ↔ cases.find? (fun c => isExactly (.number x) c.key) = some b := by
  -- exact arms stand in front, so the others come into it only behind all of them
  obtain ⟨exact, rest, harms, hexact, hrest⟩ := List.map_eq_append_iff.mp h.order
  have hnumbers : ∀ a ∈ exact, (exactValue? a.branch.key).isSome = true := by
    intro a ha
    have hmem : a.branch ∈ exact.map (·.branch) := List.mem_map_of_mem ha
    rw [hexact] at hmem
    exact (List.mem_filter.mp hmem).2
  have hplain : ∀ a ∈ rest, (exactValue? a.branch.key).isSome = false := by
    intro a ha
    have hmem : a.branch ∈ rest.map (·.branch) := List.mem_map_of_mem ha
    rw [hrest] at hmem
    simpa using (Bool.and_eq_true_iff.mp (List.mem_filter.mp hmem).2).2
  have hselected := selectedIn_append hx hnumbers rest
  rw [← harms] at hselected
  have hfind : cases.find? (fun c => isExactly (.number x) c.key) =
      (exact.find? fun a => isExactly (.number x) a.branch.key).map (·.branch) := by
    calc cases.find? (fun c => isExactly (.number x) c.key)
        = (cases.filter fun c => (exactValue? c.key).isSome).find?
            (fun c => isExactly (.number x) c.key) := by
          rw [List.find?_filter]
          congr 1
          funext c
          cases hc : exactValue? c.key with
          | none => simp [isExactly, hc]
          | some y => simp
      _ = (exact.map (·.branch)).find? (fun c => isExactly (.number x) c.key) := by rw [hexact]
      _ = (exact.find? fun a => isExactly (.number x) a.branch.key).map (·.branch) := List.find?_map
  rw [hfind]
  cases hfound : exact.find? fun a => isExactly (.number x) a.branch.key with
  | some a =>
    rw [hfound] at hselected
    constructor
    · rintro ⟨a', _, rfl, ha'⟩
      rw [hselected] at ha'
      have hpair := Except.ok.inj (congrFun ha' 0)
      obtain rfl := Option.some.inj (Prod.mk.inj hpair).1
      rfl
    · intro hbranch
      refine ⟨a, ?_, Option.some.inj hbranch, hselected⟩
      rw [harms]
      exact List.mem_append_left _ (List.mem_of_find?_eq_some hfound)
  | none =>
    rw [hfound] at hselected
    refine iff_of_false ?_ nofun
    rintro ⟨a, _, rfl, ha⟩
    rw [hselected] at ha
    have hrun : (d.selectedIn scope rest).run 0 = .ok (some a, 0) := congrFun ha 0
    rw [hplain a (mem_of_selectedIn hrun)] at hb
    exact Bool.noConfusion hb

end Numbers

end Dispatch

/-! ### Numbers of cases -/

theorem isExactly_eq {key : String} {y : Float} (hy : exactValue? key = some y) (v : Value) :
    isExactly v key = equals v (.number y) := by
  rw [isExactly, hy]

theorem equals_number (x y : Float) : equals (.number x) (.number y) = (x == y) := rfl

/-- In a list without repetitions an element is the first to pass if none in front of it does. -/
theorem find?_eq_some_iff_of_nodup {α : Type} {p : α → Bool} {before after : List α} {b : α}
    (hdistinct : (before ++ b :: after).Nodup) :
    (before ++ b :: after).find? p = some b ↔ p b = true ∧ ∀ c ∈ before, p c = false := by
  have hb : b ∉ before := fun hmem =>
    (List.nodup_append.mp hdistinct).2.2 b hmem b List.mem_cons_self rfl
  rw [List.find?_append]
  constructor
  · intro h
    cases hbefore : before.find? p with
    | some c =>
      rw [hbefore] at h
      obtain rfl := Option.some.inj h
      exact absurd (List.mem_of_find?_eq_some hbefore) hb
    | none =>
      rw [hbefore] at h
      exact ⟨List.find?_some h, fun c hc => by simpa using List.find?_eq_none.mp hbefore c hc⟩
  · rintro ⟨hpass, hfail⟩
    rw [List.find?_eq_none.mpr fun c hc => by simp [hfail c hc], List.find?_cons_of_pos hpass]
    rfl

/-- Some number selects a case if no case in front of it stands for its number. -/
theorem exists_find?_iff {before after : List (Branch Node)} {b : Branch Node} {y : Float}
    (hdistinct : ((before ++ b :: after).map (·.key)).Nodup) (hy : exactValue? b.key = some y)
    (hfinite : y.isFinite = true) :
    (∃ x, (before ++ b :: after).find? (fun c => isExactly (.number x) c.key) = some b) ↔
      ∀ c ∈ before, isExactly (.number y) c.key = false := by
  simp only [find?_eq_some_iff_of_nodup hdistinct.of_map]
  constructor
  · rintro ⟨x, hxy, hfirst⟩ c hc
    have hfail := hfirst c hc
    cases hz : exactValue? c.key with
    | none => rw [isExactly, hz]
    | some z =>
      rw [isExactly_eq hy, equals_number] at hxy
      rw [isExactly_eq hz, equals_number] at hfail ⊢
      -- the number that was given is no number of a case in front
      by_contra hyz
      rw [Floats.beq_trans hxy (by simpa using hyz)] at hfail
      exact Bool.noConfusion hfail
  · intro hfirst
    refine ⟨y, ?_, hfirst⟩
    rw [isExactly_eq hy, equals_number]
    exact Floats.beq_self_of_isFinite hfinite

/-! ### Programs -/

/-- What a program exports under a name: a function of some parameters that returns an expression
after its constants. A call of it evaluates the expression where the parameters are the arguments. -/
structure Returns [LocaleData] (program : Program) (name : Bytes) (params : List Param) (value : Expr) :
    Prop where
  declared : ∃ (binding : String) (consts : List (String × Expr)) (returnType : String)
    (exports : List Export),
    .function binding params (consts.map (fun c => Stmt.const c.1 c.2) ++ [.return value])
      returnType ∈ program ∧ .exports exports ∈ program ∧ ⟨binding, name⟩ ∈ exports
  called : ∀ loaded, program.load = .ok loaded → ∀ args, ∃ scope,
    (∀ p ∈ params, scope.find? (Loaded.paramName p) =
      some ((Evaluate.option? args p.name).getD .undefined)) ∧
    loaded.call name args = ((Evaluate.expr scope value).run loaded.made).map (·.1)

namespace Module

variable {m : Module} {es : List Entry} {e : Entry}

theorem Keeps.returns [LocaleData] (h : m.Keeps es) (he : e ∈ es) :
    Returns m.program e.name (loadedFunction e).params e.value := by
  constructor
  case declared =>
    refine ⟨e.binding, e.state.body, m.returnType, m.exports, ?_, ?_, ?_⟩
    · have hmem : m.function e ∈ m.functions := by
        rw [h.functions]
        exact List.mem_map_of_mem he
      exact List.mem_append_left _ (List.mem_append_right _ hmem)
    · exact List.mem_append_right _ (List.mem_singleton.mpr rfl)
    · rw [h.exports]
      exact List.mem_map.mpr ⟨e, he, rfl⟩
  case called =>
    intro loaded hload args
    obtain ⟨rfl, -⟩ := h.load_inv hload
    have hserves := h.serves m.options.loadedLocale args
    obtain ⟨_, scope, -, hholds, hcall⟩ := h.call_evaluates he hserves
    refine ⟨scope, ?_, hcall⟩
    intro p hp
    obtain ⟨a, ha, rfl⟩ := List.mem_map.mp hp
    rw [h.paramName_argument he ha, hholds.argument a ha, hserves.argument]

/-- Every plural of an entry is dispatched in what the entry returns. -/
theorem Compiled.dispatched (he : m.Compiled e) :
    ∃ scope, ∀ n ∈ e.nodes, ∀ span name nameSpan offset kind cases,
      Node.Within (.plural span name nameSpan offset kind cases) n →
      Dispatched (m.context scope) e.state name cases (·.Within e.value) := by
  let _ : LocaleData := default
  obtain ⟨scope, outer, start, pieces, hsound, -, hrun, hvalue⟩ := he.ran
  obtain ⟨file, hread⟩ := he.read
  have hran : Ran (m.context scope) outer none (fun _ => none) e.state e.nodes pieces :=
    ⟨start, e.state, hsound, nofun, hrun, .refl _⟩
  refine ⟨scope, fun n hn span name nameSpan offset kind cases hm => ?_⟩
  rw [hvalue]
  exact hran.dispatched (fun n _ => dispatches n) (Message.clear_of_parse hread) hn hm

end Module

/-- Exact cases are selected by numbers, not by their texts. In what a compiled message returns there
is a dispatch for each of its plurals. Given a number it selects the first exact case for the number,
if there is one, and so there is a number that selects an exact case just if no case in front of it
stands for the same number. Cases of one number in two spellings are compiled nevertheless, and the
second of them is dead. -/
theorem exactCase_selected_iff [LocaleData] {messages : List SourceMessage} {o : Options}
    {built : Module.Built} (hbuilt : compile messages o = .ok built) {msg : SourceMessage}
    (hmsg : msg ∈ messages) :
    ∃ (ctx : Context) (file : UInt32) (ns : List Node) (params : List Param) (value : Expr),
      ctx.target = o.target ∧ ctx.locale = o.effectiveLocale ∧
      ctx.formats = Formats.standard.overlay o.formats ∧
      Message.parse file Message.defaultLimit (Module.registeredText msg.text) = .ok ns ∧
      Returns built.program msg.name params value ∧
      ∀ n ∈ ns, ∀ span name nameSpan offset kind cases,
        Node.Within (.plural span name nameSpan offset kind cases) n →
        ∃ d : Dispatch, d.chain.Within value ∧ d.IsOf ctx cases ∧
          (∃ p ∈ params, p.name = name ∧ Loaded.paramName p = d.value.binding) ∧
          ∀ before b after y, cases = before ++ b :: after → exactValue? b.key = some y →
            (∀ x scope, scope.find? d.value.binding = some (.number x) →
              (d.Selects scope b ↔
                cases.find? (fun c => isExactly (.number x) c.key) = some b)) ∧
            ((∃ x, cases.find? (fun c => isExactly (.number x) c.key) = some b) ↔
              ∀ c ∈ before, isExactly (.number y) c.key = false) := by
  obtain ⟨m, es, hkeeps, hcalls, hoptions, hprogram⟩ := exists_keeps_of_compile hbuilt
  rw [← hcalls] at hmsg
  obtain ⟨e, he, rfl⟩ := List.mem_map.mp hmsg
  have hcompiled := hkeeps.compiled e he
  obtain ⟨file, hread⟩ := hcompiled.read
  obtain ⟨scope, hdispatched⟩ := hcompiled.dispatched
  refine ⟨m.context scope, file, e.nodes, (Module.loadedFunction e).params, e.value, ?_, ?_, ?_,
    hread, hprogram ▸ hkeeps.returns he, ?_⟩
  · rw [← hoptions]
    rfl
  · rw [← hoptions]
    rfl
  · rw [← hoptions]
    exact hkeeps.formats
  · intro n hn span name nameSpan offset kind cases hm
    obtain ⟨d, hwithin, hof, a, ha, hname, hbinding⟩ :=
      hdispatched n hn span name nameSpan offset kind cases hm
    -- what is known of trees that were read: keys are distinct, and of the right form
    have hdistinct := Message.clear_of_parse hread n hn _ hm
    have hkeyed := Message.keyed_of_parse hread n hn _ hm
    refine ⟨d, hwithin, hof, ⟨_, List.mem_map_of_mem ha, hname, ?_⟩, ?_⟩
    · rw [hkeeps.paramName_argument he ha, hbinding]
    · rintro before b after y rfl hy
      have hkey : IsPluralKey b.key := hkeyed b (List.mem_append_right _ List.mem_cons_self)
      have hfinite := hkey.isFinite hy
      refine ⟨fun x scope hx => hof.selects_iff hx ?_, exists_find?_iff hdistinct hy hfinite⟩
      rw [hy]
      rfl

/-- The argument of a plural, and its selectors. -/
def selectors? : Node → Option (String × List String)
  | .plural _ name _ _ _ cases => some (name, cases.map (·.key))
  | _ => none

theorem selectors?_inFile (file : UInt32) (n : Node) :
    selectors? (n.inFile file) = selectors? n := by
  cases n with
  | plural =>
    rw [Node.inFile, selectors?, selectors?, Node.branchesInFile_eq_map, List.map_map]
    rfl
  | _ => rfl

/-- In every file a text is read as plurals with the selectors that it has. -/
theorem selectors?_of_parse {file : UInt32} {text : Bytes} {ns : List Node}
    (h : Message.parse file Message.defaultLimit (Module.registeredText text) = .ok ns) :
    ns.map selectors? = (messageNodes text).map selectors? := by
  have hmoved := Message.parse_inFile 0 file Message.defaultLimit (Module.registeredText text)
  rw [h] at hmoved
  rw [messageNodes, hmoved]
  simp only [Message.outcomeInFile, List.map_map]
  exact List.map_congr_left fun n _ => (selectors?_inFile 0 n).symm

/-- One number in two spellings. -/
def respelled : SourceMessage :=
  ⟨"m".toUTF8.toList,
    "\x7bn, plural, =1 \x7ba\x7d =1.0 \x7bb\x7d other \x7bc\x7d\x7d".toUTF8.toList⟩

/-- The second case for one number is compiled and selected by no number. -/
theorem exactCase_selected_iff_respelled : letI := LocaleData.common
    ∃ built, compile [respelled] Module.plainOptions = .ok built ∧
      ∃ (params : List Param) (value : Expr) (d : Dispatch) (b : Branch Node),
        Returns built.program respelled.name params value ∧ d.chain.Within value ∧
        (∃ p ∈ params, p.name = "n" ∧ Loaded.paramName p = d.value.binding) ∧
        b ∈ d.arms.map (·.branch) ∧ b.key = "=1.0" ∧
        ∀ x scope, scope.find? d.value.binding = some (.number x) → ¬d.Selects scope b := by
  let _ := LocaleData.common
  have hcompiles : (compile [respelled] Module.plainOptions).toOption.isSome = true := by
    decide +kernel
  have hread : (messageNodes respelled.text).map selectors? =
      [some ("n", ["=1", "=1.0", "other"])] := by
    decide +kernel
  have hnumbers : (exactValue? "=1.0").any (fun y => isExactly (.number y) "=1") = true := by
    decide +kernel
  cases hbuilt : compile [respelled] Module.plainOptions with
  | error e =>
    rw [hbuilt] at hcompiles
    exact Bool.noConfusion hcompiles
  | ok built =>
    obtain ⟨ctx, file, ns, params, value, -, -, -, hparse, hreturns, hplurals⟩ :=
      exactCase_selected_iff hbuilt List.mem_cons_self
    have hselectors := (selectors?_of_parse hparse).trans hread
    obtain ⟨n, rfl, hn⟩ := List.map_eq_singleton_iff.mp hselectors
    cases n with
    | plural span name nameSpan offset kind cases =>
      obtain ⟨rfl, hkeys⟩ := Prod.mk.inj (Option.some.inj hn)
      obtain ⟨a, _, rfl, ha, hkeys⟩ := List.map_eq_cons_iff.mp hkeys
      obtain ⟨b, rest, rfl, hb, -⟩ := List.map_eq_cons_iff.mp hkeys
      obtain ⟨y, hy, hsame⟩ := (Option.any_eq_true _ _).mp hnumbers
      obtain ⟨d, hwithin, hof, hparam, hcases⟩ :=
        hplurals _ List.mem_cons_self _ _ _ _ _ _ .refl
      obtain ⟨hselects, hexists⟩ := hcases [a] b rest y rfl (hb ▸ hy)
      refine ⟨built, rfl, params, value, d, b, hreturns, hwithin, hparam, ?_, hb, ?_⟩
      · rw [hof.order]
        refine List.mem_append_left _ (List.mem_filter.mpr ⟨?_, ?_⟩)
        · exact List.mem_cons_of_mem _ List.mem_cons_self
        · rw [hb, hy]
          rfl
      · intro x scope hx hselected
        have hnone := hexists.mp ⟨x, (hselects x scope hx).mp hselected⟩ a List.mem_cons_self
        rw [ha, hsame] at hnone
        exact Bool.noConfusion hnone
    | _ => exact nomatch hn

end Phrasebook.Compile
