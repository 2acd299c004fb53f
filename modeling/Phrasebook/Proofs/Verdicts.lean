import Phrasebook.Compile.Module
import Phrasebook.Proofs.Places
import Phrasebook.Proofs.ReadTrees
import Phrasebook.Proofs.Steps

/-!
What is wrong with a message, told by its text and the options of its module alone: a fault of the
text, a name that is in use already, or a check that fails. Reading leaves no other way to fail.
-/
namespace Phrasebook.Compile

/-- A check that fails in ways of one kind only. -/
def Check.FailsBy (P : Failure → Prop) (c : Check) : Prop :=
  ∀ uses f, c uses = .error f → P f

namespace Check.FailsBy

variable {P : Failure → Prop}

theorem bind {c next : Check} (h : FailsBy P c) (hnext : FailsBy P next) :
    FailsBy P fun uses => c uses >>= next := by
  intro uses f hf
  cases hc : c uses with
  | ok uses' =>
    simp only [hc] at hf
    exact hnext uses' f hf
  | error g =>
    simp only [hc] at hf
    rw [← Except.error.inj hf]
    exact h uses g hc

theorem require {α : Type} {test : Except Failure α} {c : Check}
    (htest : ∀ f, test = .error f → P f) (h : FailsBy P c) :
    FailsBy P fun uses => test >>= fun _ => c uses := by
  intro uses f hf
  cases test with
  | ok a => exact h uses f hf
  | error g =>
    rw [← Except.error.inj hf]
    exact htest g rfl

theorem accept : FailsBy P fun uses => .ok uses := by
  intro uses f hf
  cases hf

theorem all {cs : List Check} (h : ∀ c ∈ cs, FailsBy P c) : FailsBy P (Check.all cs) := by
  induction cs with
  | nil => exact .accept
  | cons c r ih =>
    exact (h c List.mem_cons_self).bind (ih fun d hd => h d (List.mem_cons_of_mem _ hd))

theorem choice {selector : Selector} {g : Node → Check} {cases : List (Branch Node)}
    (hselector : ∀ b ∈ cases, ∀ f, selector b.key b.keySpan = .error f → P f)
    (h : ∀ b ∈ cases, ∀ n ∈ b.body, FailsBy P (g n)) :
    FailsBy P (choiceCheck selector (cases.map (·.mapBody g))) := by
  unfold choiceCheck
  rw [keptCases_map, fallbackBody_map, List.map_map]
  refine FailsBy.bind (.all ?_) (.all ?_)
  · intro c hc
    obtain ⟨b, hb, rfl⟩ := List.mem_map.mp hc
    have hkept := mem_of_mem_keptCases hb
    refine FailsBy.require (hselector b hkept) (.all ?_)
    intro c hc
    obtain ⟨n, hn, rfl⟩ := List.mem_map.mp hc
    exact h b hkept n hn
  · intro c hc
    obtain ⟨n, hn, rfl⟩ := List.mem_map.mp hc
    obtain ⟨b, hb, hn⟩ := exists_of_mem_fallbackBody hn
    exact h b hb n hn

end Check.FailsBy

/-- A check that finds nothing but diagnostics. -/
def Check.Diagnoses : Check → Prop :=
  Check.FailsBy fun f => f.isDiagnostic = true

theorem isDiagnostic_of_stop {α : Type} {d : Diagnostic} {f : Failure}
    (h : (stop d : Except Failure α) = .error f) : f.isDiagnostic = true := by
  rw [← Except.error.inj h]
  rfl

theorem isDiagnostic_of_requireDefault {α : Type} {span : Span} {kind : String}
    {cases : List (Branch α)} {f : Failure} (h : requireDefault span kind cases = .error f) :
    f.isDiagnostic = true := by
  rw [requireDefault] at h
  split at h
  · cases h
  · exact isDiagnostic_of_stop h

theorem use_diagnoses (name : String) (type : ArgType) (span : Span) :
    Check.Diagnoses (use name type span) := by
  intro uses f hf
  rw [use] at hf
  split at hf
  · split at hf
    · exact isDiagnostic_of_stop hf
    · cases hf
  · cases hf

/-- A tree that was read is refused with a diagnostic if at all. -/
theorem check_diagnoses (target : Target) (formats : Formats) :
    ∀ (n : Node), n.All Node.Readable → ∀ inPlural,
      Check.Diagnoses (check target formats inPlural n) := by
  apply Node.Hereditary.holds
  constructor
  case literal =>
    intro span text _ inPlural uses f hf
    rw [check] at hf
    cases hf
  case argument =>
    intro span name nameSpan _ inPlural
    rw [check]
    exact use_diagnoses name _ nameSpan
  -- a choice checks its name, that it has a default, its selectors and its bodies
  case select =>
    intro span name nameSpan cases ih hread inPlural
    rw [check, branchChecks_eq_map]
    refine (use_diagnoses name _ nameSpan).bind (.require ?_ (.choice ?_ ?_))
    · exact fun f hf => isDiagnostic_of_requireDefault hf
    · intro b _ f hf
      cases hf
    · exact fun b hb n hn => ih b hb n hn (hread.of_select b hb n hn) inPlural
  case plural =>
    intro span name nameSpan offset kind cases ih hread inPlural
    rw [check, branchChecks_eq_map]
    refine (use_diagnoses name _ nameSpan).bind (.require ?_ (.choice ?_ ?_))
    · exact fun f hf => isDiagnostic_of_requireDefault hf
    · intro b _ f hf
      rw [pluralSelector] at hf
      split at hf
      · split at hf
        · cases hf
        · exact isDiagnostic_of_stop hf
      · cases hf
    · exact fun b hb n hn => ih b hb n hn (hread.of_plural b hb n hn) true
  case format =>
    intro span kind name nameSpan style _ inPlural
    rw [check]
    refine (use_diagnoses name _ nameSpan).bind (.require ?_ .accept)
    intro f hf
    unfold resolveStyle at hf
    split at hf
    · cases hf
    · split at hf
      · exact isDiagnostic_of_stop hf
      · split at hf
        · cases hf
        · cases hf
    · split at hf
      · cases hf
      · cases hf
  case pound =>
    intro span _ inPlural uses f hf
    rw [check] at hf
    split at hf
    · cases hf
    · exact isDiagnostic_of_stop hf
  case tag =>
    intro span name nameSpan selfClosing children ih hread inPlural
    rw [check, checks_eq_map]
    refine .require ?_ ((use_diagnoses name _ _).bind ?_)
    · intro f hf
      rw [requireIdentifier] at hf
      split at hf
      · cases hf
      · exact isDiagnostic_of_stop hf
    · cases selfClosing with
      | true => exact .accept
      | false =>
        refine Check.FailsBy.all ?_
        intro c hc
        obtain ⟨n, hn, rfl⟩ := List.mem_map.mp hc
        exact ih n hn (hread.of_tag n hn) inPlural
  case unknown => exact fun span hread => absurd hread.self id
  case hole => exact fun hread => absurd hread.self id

/-! ### Verdicts -/

def alreadyDefined (name : Bytes) (span : Span) : Diagnostic :=
  .error .duplicateExport span s!"message {Text.quoteBytes name} is already defined"

/-- The diagnostic of a text that is read as a file, if it has one; `known` tells whether there is
a message of its name. A text that 32 bits do not count has none. -/
def verdict (target : Target) (formats : Formats) (known : Bool) (name text : Bytes)
    (file : UInt32) : Option Diagnostic :=
  let content := Module.registeredText text
  match Message.parse file Message.defaultLimit content with
  | .error .overflow => none
  | .error (.fault fault) => some fault.diagnostic
  | .ok ns =>
    if known then some (alreadyDefined name (Span.between file 0 content.length))
    else
      match Check.all (ns.map (check target formats false)) [] with
      | .error (.diagnostic d) => some d
      | _ => none

theorem verdict_of_read {target : Target} {formats : Formats} (known : Bool) {name text : Bytes}
    {file : UInt32} {ns : List Node}
    (hread : Message.parse file Message.defaultLimit (Module.registeredText text) = .ok ns) :
    verdict target formats known name text file =
      if known then
        some (alreadyDefined name (Span.between file 0 (Module.registeredText text).length))
      else match Check.all (ns.map (check target formats false)) [] with
        | .error (.diagnostic d) => some d
        | _ => none := by
  rw [verdict, hread]

/-- In another file the verdict is the same there. -/
theorem verdict_inFile (target : Target) (formats : Formats) (known : Bool) (name text : Bytes)
    (file file' : UInt32) :
    verdict target formats known name text file =
      (verdict target formats known name text file').map (Diagnostic.inFile file) := by
  unfold verdict
  simp only
  rw [Message.parse_inFile file file']
  cases Message.parse file' Message.defaultLimit (Module.registeredText text) with
  | error refusal =>
    cases refusal with
    | fault fault => exact congrArg some (fault.diagnostic_inFile file)
    | overflow => rfl
  | ok ns =>
    have hchecks := Check.Follows.all (f := fun n => check target formats false (n.inFile file))
      (l := ns) (fun n _ => check_inFile target formats n false) []
    simp only [Message.outcomeInFile, List.map_map]
    cases known with
    | true => rfl
    | false =>
      simp only [Bool.false_eq_true, if_false]
      rw [List.map_nil] at hchecks
      rw [Function.comp_def, hchecks]
      cases Check.all (ns.map (check target formats false)) [] with
      | ok uses => rfl
      | error f => cases f <;> rfl

end Phrasebook.Compile
