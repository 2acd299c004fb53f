import Phrasebook.Proofs.Isolation

/-!
The two targets refuse the same messages. They differ in the types of arguments that stand for
themselves or name a tag; a renaming of types takes one target to the other, and what a check finds
and where does not depend on it.
-/
namespace Phrasebook

/-- The type in markup of an argument that has a type in strings. Strings know no type of a tag in
markup; exchanging the two types of tags keeps different types different. -/
def ArgType.inMarkup : ArgType → ArgType
  | .text => .markupNode
  | .tagFunction => .markupElement
  | .markupElement => .tagFunction
  | t => t

theorem ArgType.join?_inMarkup (a b : ArgType) :
    a.inMarkup.join? b.inMarkup = (a.join? b).map ArgType.inMarkup := by
  cases a <;> cases b <;> rfl

namespace Compile

/-! ### Checks -/

def Use.inMarkup (u : Use) : Use :=
  ⟨u.name, u.type.inMarkup, u.span⟩

/-- Two diagnostics of one kind at one place. -/
structure SameFinding (d d' : Diagnostic) : Prop where
  code : d'.code = d.code
  primary : d'.primary = d.primary

theorem SameFinding.refl (d : Diagnostic) : SameFinding d d :=
  ⟨rfl, rfl⟩

inductive SameFailure : Failure → Failure → Prop where
  | diagnostic {d d' : Diagnostic} (h : SameFinding d d') :
      SameFailure (.diagnostic d) (.diagnostic d')
  | unknownNode (kind : String) : SameFailure (.unknownNode kind) (.unknownNode kind)
  | hole : SameFailure .hole .hole

theorem SameFailure.refl (f : Failure) : SameFailure f f := by
  cases f with
  | diagnostic d => exact .diagnostic (.refl d)
  | unknownNode kind => exact .unknownNode kind
  | hole => exact .hole

/-- Two checks with the same uses, or with the same failure. -/
inductive SameUses : Except Failure (List Use) → Except Failure (List Use) → Prop where
  | ok (uses : List Use) : SameUses (.ok uses) (.ok (uses.map Use.inMarkup))
  | error {f f' : Failure} (h : SameFailure f f') : SameUses (.error f) (.error f')

/-- A check for strings and one for markup that agree on all uses. -/
def Check.Parallels (c c' : Check) : Prop :=
  ∀ uses, SameUses (c uses) (c' (uses.map Use.inMarkup))

namespace Check.Parallels

theorem accept : Parallels (fun uses => .ok uses) fun uses => .ok uses :=
  fun uses => .ok uses

theorem refuse (f : Failure) : Parallels (fun _ => .error f) fun _ => .error f :=
  fun _ => .error (.refl f)

theorem bind {c c' next next' : Check} (h : Parallels c c') (hnext : Parallels next next') :
    Parallels (fun uses => c uses >>= next) fun uses => c' uses >>= next' := by
  intro uses
  have huses := h uses
  revert huses
  simp only
  generalize c uses = r
  generalize c' (uses.map Use.inMarkup) = r'
  intro huses
  cases huses with
  | ok uses' => exact hnext uses'
  | error hf => exact .error hf

/-- A test in front of a check that does not depend on the target. -/
theorem require {α : Type} (test : Except Failure α) {c c' : Check} (h : Parallels c c') :
    Parallels (fun uses => test >>= fun _ => c uses) fun uses => test >>= fun _ => c' uses := by
  intro uses
  cases test with
  | ok a => exact h uses
  | error f => exact .error (.refl f)

theorem all {α : Type} {f g : α → Check} {l : List α} (h : ∀ a ∈ l, Parallels (f a) (g a)) :
    Parallels (Check.all (l.map f)) (Check.all (l.map g)) := by
  induction l with
  | nil => exact .accept
  | cons a r ih =>
    have hrest := ih fun b hb => h b (List.mem_cons_of_mem _ hb)
    exact (h a List.mem_cons_self).bind hrest

end Check.Parallels

theorem typeConflict_sameFinding (name : String) (span firstSpan : Span)
    (type first type' first' : ArgType) :
    SameFinding (typeConflict name type span first firstSpan)
      (typeConflict name type' span first' firstSpan) := by
  constructor
  · simp only [typeConflict, Diagnostic.withNote, Diagnostic.error]
  · simp only [typeConflict, Diagnostic.withNote, Diagnostic.error]

theorem use_parallels (name : String) (type : ArgType) (span : Span) :
    Check.Parallels (use name type span) (use name type.inMarkup span) := by
  intro uses
  have hfind : (uses.map Use.inMarkup).find? (·.name == name) =
      (uses.find? (·.name == name)).map Use.inMarkup := by
    rw [List.find?_map]
    rfl
  rw [use, use, hfind]
  cases uses.find? (·.name == name) with
  | none =>
    have hmap : uses.map Use.inMarkup ++ [(⟨name, type.inMarkup, span⟩ : Use)] =
        (uses ++ [(⟨name, type, span⟩ : Use)]).map Use.inMarkup := by
      rw [List.map_append]
      rfl
    simp only [Option.map_none]
    rw [hmap]
    exact .ok _
  | some first =>
    have hjoin : (first.inMarkup).type.join? type.inMarkup =
        (first.type.join? type).map ArgType.inMarkup :=
      ArgType.join?_inMarkup first.type type
    simp only [Option.map_some, hjoin]
    cases first.type.join? type with
    | none => exact .error (.diagnostic (typeConflict_sameFinding ..))
    | some joined =>
      simp only [Option.map_some, List.map_map]
      -- renaming types and joining them commute at every use
      have hmap : uses.map ((fun u => if u.name == name then { u with type := joined.inMarkup }
            else u) ∘ Use.inMarkup) =
          (uses.map fun u => if u.name == name then { u with type := joined } else u).map
            Use.inMarkup := by
        rw [List.map_map]
        refine List.map_congr_left fun u _ => ?_
        have hname : u.inMarkup.name = u.name := rfl
        simp only [Function.comp_apply, hname]
        by_cases hu : u.name == name
        · rw [if_pos hu, if_pos hu]
          rfl
        · rw [if_neg hu, if_neg hu]
      rw [hmap]
      exact .ok _

theorem choiceCheck_parallels (selector : Selector) {f g : Node → Check}
    {cases : List (Branch Node)} (h : ∀ b ∈ cases, ∀ n ∈ b.body, Check.Parallels (f n) (g n)) :
    Check.Parallels (choiceCheck selector (cases.map (·.mapBody f)))
      (choiceCheck selector (cases.map (·.mapBody g))) := by
  unfold choiceCheck
  rw [keptCases_map, keptCases_map, fallbackBody_map, fallbackBody_map, List.map_map, List.map_map]
  refine Check.Parallels.bind (Check.Parallels.all fun b hb => ?_)
    (Check.Parallels.all fun n hn => ?_)
  · have hmem := mem_of_mem_keptCases hb
    exact Check.Parallels.require _ (Check.Parallels.all fun n hn => h b hmem n hn)
  · obtain ⟨b, hb, hn⟩ := exists_of_mem_fallbackBody hn
    exact h b hb n hn

theorem check_parallels (formats : Formats) :
    ∀ (n : Node) (inPlural : Bool),
      Check.Parallels (check .string formats inPlural n) (check .tree formats inPlural n) := by
  apply Node.Hereditary.holds
  constructor
  case literal =>
    intro span text inPlural
    simp only [check]
    exact .accept
  case argument =>
    intro span name nameSpan inPlural
    simp only [check]
    exact use_parallels name .text nameSpan
  case select =>
    intro span name nameSpan cases ih inPlural
    simp only [check, branchChecks_eq_map]
    refine (use_parallels name .string nameSpan).bind (.require _ ?_)
    exact choiceCheck_parallels textSelector fun b hb n hn => ih b hb n hn inPlural
  case plural =>
    intro span name nameSpan offset kind cases ih inPlural
    simp only [check, branchChecks_eq_map]
    refine (use_parallels name .number nameSpan).bind (.require _ ?_)
    exact choiceCheck_parallels pluralSelector fun b hb n hn => ih b hb n hn true
  case format =>
    intro span kind name nameSpan style inPlural
    simp only [check]
    have htype : (if kind = .number then ArgType.number else .date).inMarkup =
        if kind = .number then .number else .date := by
      split <;> rfl
    have huse := use_parallels name (if kind = .number then .number else .date) nameSpan
    rw [htype] at huse
    exact huse.bind (.require _ .accept)
  case pound =>
    intro span inPlural
    simp only [check]
    cases inPlural with
    | true => exact .accept
    | false => exact .refuse _
  case tag =>
    intro span name nameSpan selfClosing children ih inPlural
    simp only [check, checks_eq_map]
    refine .require _ ((use_parallels name .tagFunction _).bind ?_)
    cases selfClosing with
    | true => exact .accept
    | false => exact .all fun n hn => ih n hn inPlural
  case unknown =>
    intro span inPlural
    simp only [check]
    exact .refuse _
  case hole =>
    intro inPlural
    simp only [check]
    exact .refuse _

/-! ### Verdicts -/

/-- Both targets find the same wrong with a text. -/
theorem verdict_parallels (formats : Formats) (known : Bool) (name text : Bytes) (file : UInt32) :
    Option.Rel SameFinding (verdict .string formats known name text file)
      (verdict .tree formats known name text file) := by
  unfold verdict
  simp only
  cases Message.parse file Message.defaultLimit (Module.registeredText text) with
  | error refusal =>
    cases refusal with
    | fault fault => exact .some (.refl _)
    | overflow => exact .none
  | ok ns =>
    cases known with
    | true => exact .some (.refl _)
    | false =>
      have hchecks := Check.Parallels.all (l := ns) (fun n _ => check_parallels formats n false) []
      rw [List.map_nil] at hchecks
      simp only [Bool.false_eq_true, if_false]
      revert hchecks
      generalize Check.all (ns.map (check .string formats false)) [] = r
      generalize Check.all (ns.map (check .tree formats false)) [] = r'
      intro hchecks
      cases hchecks with
      | ok uses => exact .none
      | error hf =>
        cases hf with
        | diagnostic hd => exact .some hd
        | unknownNode | hole => exact .none

/-! ### Runs -/

/-- Two refusals of one message with one finding. -/
inductive SameError : ModuleError → ModuleError → Prop where
  | compile {c c' : CompileError} (hname : c'.exported = c.exported)
      (h : SameFinding c.diagnostic c'.diagnostic) : SameError (.compile c) (.compile c')
  | overflow (o : Overflow) : SameError (.overflow o) (.overflow o)

namespace Module

/-- A module for strings and one for markup that have been given the same messages. -/
structure Lockstep (m m' : Module) (es es' : List Entry) : Prop extends Akin m m' es es' where
  target : m.options.target = .string
  target' : m'.options.target = .tree
  file : m'.options.file = m.options.file
  files : m'.files = m.files
  isOpen : m.finalized = false
  isOpen' : m'.finalized = false

/-- Messages added to both modules: all of them, or up to the same failure. -/
inductive AddedTogether (es es' : List Entry) (messages : List SourceMessage) :
    Except ModuleError Module → Except ModuleError Module → Prop where
  | ok {m m' : Module} {new new' : List Entry} (hcalls : new.map Entry.call = messages)
      (h : Lockstep m m' (es ++ new) (es' ++ new')) :
      AddedTogether es es' messages (.ok m) (.ok m')
  | error {e e' : ModuleError} (h : SameError e e') :
      AddedTogether es es' messages (.error e) (.error e')

section Together

variable {m m' : Module} {es es' : List Entry}

theorem Lockstep.register (h : Lockstep m m' es es') (name text : Bytes) :
    m'.register name text = m.register name text := by
  rw [Module.register, Module.register, messagePath, messagePath, h.files, h.file]

/-- The message is accepted in both modules. -/
theorem Lockstep.accept (h : Lockstep m m' es es') {k k' : Module} {e e' : Entry}
    (hkeeps : k.Keeps (es ++ [e])) (hkeeps' : k'.Keeps (es' ++ [e'])) (hadvances : m.Advances k)
    (hadvances' : m'.Advances k') (hcall : e'.call = e.call) (hfiles : k'.files = k.files) :
    Lockstep k k' (es ++ [e]) (es' ++ [e']) := by
  refine ⟨⟨hkeeps, hkeeps', ?_, ?_, ?_⟩, ?_, ?_, ?_, hfiles, ?_, ?_⟩
  · rw [hadvances'.options, hadvances.options, h.locale]
  · rw [hadvances'.options, hadvances.options, h.overrides]
  · rw [List.map_append, List.map_append, h.calls, List.map_singleton, List.map_singleton, hcall]
  · rw [hadvances.options, h.target]
  · rw [hadvances'.options, h.target']
  · rw [hadvances'.options, hadvances.options, h.file]
  · rw [hadvances.finalized, h.isOpen]
  · rw [hadvances'.finalized, h.isOpen']

/-- Both modules take a message, or both refuse it for one reason. -/
theorem Lockstep.verdict_rel (h : Lockstep m m' es es') (name text : Bytes) :
    Option.Rel SameFinding
      (verdict m.options.target m.formats (decide (name ∈ es.map (·.name))) name text
        (m.register name text).2)
      (verdict m'.options.target m'.formats (decide (name ∈ es'.map (·.name))) name text
        (m'.register name text).2) := by
  rw [h.names, h.register, h.formats, h.target, h.target']
  exact verdict_parallels m.formats _ name text _

theorem Lockstep.addMessages (h : Lockstep m m' es es') (messages : List SourceMessage) :
    AddedTogether es es' messages (addMessages m messages) (addMessages m' messages) := by
  induction messages generalizing m m' es es' with
  | nil =>
    refine @AddedTogether.ok _ _ _ m m' [] [] rfl ?_
    rw [List.append_nil, List.append_nil]
    exact h
  | cons c r ih =>
    have hadded := h.keeps.added h.isOpen c.name c.text
    have hadded' := h.keeps'.added h.isOpen' c.name c.text
    have hverdict := h.verdict_rel c.name c.text
    rw [Compile.addMessages, Compile.addMessages]
    generalize m.addMessage c.name c.text = next at hadded ⊢
    generalize m'.addMessage c.name c.text = next' at hadded' ⊢
    -- one text under one name has one verdict, so both calls end alike
    cases hadded with
    | @accepted k e hname htext hnew hkeeps hadvances hfiles hsize hnone =>
      rw [decide_eq_false hnew, hnone] at hverdict
      cases hadded' with
      | @accepted k' e' hname' htext' _ hkeeps' hadvances' hfiles' _ _ =>
        have hcall : e'.call = e.call := by
          rw [Entry.call, Entry.call, hname, htext, hname', htext']
        have hnext : Lockstep k k' (es ++ [e]) (es' ++ [e']) := by
          refine h.accept hkeeps hkeeps' hadvances hadvances' hcall ?_
          rw [hfiles', hfiles, h.register]
        have hrest := ih hnext
        revert hrest
        simp only
        generalize Compile.addMessages k r = s
        generalize Compile.addMessages k' r = s'
        intro hrest
        cases hrest with
        | @ok _ _ new new' hcalls hlockstep =>
          refine @AddedTogether.ok _ _ _ _ _ (e :: new) (e' :: new') ?_ ?_
          · rw [List.map_cons, hcalls, Entry.call, hname, htext]
          · rw [List.append_cons es e new, List.append_cons es' e' new']
            exact hlockstep
        | error he => exact .error he
      | refused _ _ _ _ hsome =>
        rw [hsome] at hverdict
        cases hverdict
      | overflowed _ _ _ hlong => exact absurd hsize (Nat.not_lt.mpr hlong)
    | refused _ _ _ hsize hsome =>
      rw [hsome] at hverdict
      cases hadded' with
      | accepted _ _ hnew' _ _ _ _ hnone' =>
        rw [decide_eq_false hnew', hnone'] at hverdict
        cases hverdict
      | refused _ _ _ _ hsome' =>
        rw [hsome'] at hverdict
        cases hverdict with
        | some hd => exact .error (.compile rfl hd)
      | overflowed _ _ _ hlong => exact absurd hsize (Nat.not_lt.mpr hlong)
    | overflowed _ _ _ hlong =>
      cases hadded' with
      | accepted _ _ _ _ _ _ hsize | refused _ _ _ hsize =>
        exact absurd hsize (Nat.not_lt.mpr hlong)
      | overflowed => exact .error (.overflow _)

end Together

end Module

end Compile

end Phrasebook
