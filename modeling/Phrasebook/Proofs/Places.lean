import Phrasebook.Proofs.Meaning
import Phrasebook.Proofs.Relocation

/-!
Where a message stands matters to its diagnostics only. In another file a tree asks for the same
constants, means the same, and is checked with the same verdict, whose places are in that file.
-/
namespace Phrasebook

/-- A place, or another one if it is empty. -/
theorem Span.ite_inFile (file : UInt32) (s t : Span) :
    (if (s.inFile file).isEmpty then t.inFile file else s.inFile file) =
      (if s.isEmpty then t else s).inFile file := by
  have hsame : (s.inFile file).isEmpty = s.isEmpty := rfl
  by_cases h : s.isEmpty
  · rw [if_pos h, if_pos (hsame.trans h)]
  · rw [if_neg h, if_neg (hsame ▸ h)]

/-- The same diagnostic in another file. -/
def Diagnostic.inFile (file : UInt32) (d : Diagnostic) : Diagnostic :=
  ⟨d.severity, d.code, d.message, d.primary.inFile file,
    d.notes.map fun n => ⟨n.span.inFile file, n.message⟩,
    d.fixes.map fun x => ⟨x.title, x.edits.map fun e => ⟨e.span.inFile file, e.newText⟩⟩⟩

theorem Message.Fault.diagnostic_inFile (file : UInt32) (f : Message.Fault) :
    (f.inFile file).diagnostic = f.diagnostic.inFile file := by
  obtain ⟨cause, span⟩ := f
  cases cause <;> rfl

namespace Compile

def Failure.inFile (file : UInt32) : Failure → Failure
  | .diagnostic d => .diagnostic (d.inFile file)
  | f => f

def Use.inFile (file : UInt32) (u : Use) : Use :=
  ⟨u.name, u.type, u.span.inFile file⟩

/-! ### Meanings and requests -/

theorem styleOptions_inFile (file : UInt32) (formats : Formats) (kind : FormatKind)
    (style : Style) : styleOptions formats kind (style.inFile file) =
      styleOptions formats kind style := by
  cases style with
  | default | skeleton => rfl
  | named name span =>
    simp only [styleOptions, Style.inFile, resolveStyle]
    cases formats.lookup? kind name with
    | none => rfl
    | some o => rfl

theorem map_inFile {α : Type} (file : UInt32) {f : Node → α} {ns : List Node}
    (h : ∀ n ∈ ns, f (n.inFile file) = f n) : (ns.map (Node.inFile file)).map f = ns.map f := by
  rw [List.map_map]
  exact List.map_congr_left h

/-- What stands in branches that moved, if it is the same for the elements in them. -/
theorem map_mapBody_inFile {α : Type} (file : UInt32) {f : Node → α} {cases : List (Branch Node)}
    (h : ∀ b ∈ cases, ∀ n ∈ b.body, f (n.inFile file) = f n) :
    (cases.map (·.inFile file (Node.inFile file))).map (·.mapBody f) =
      (cases.map (·.mapBody f)).map (·.inFile file id) := by
  rw [List.map_map, List.map_map]
  refine List.map_congr_left fun b hb => ?_
  simp only [Function.comp_apply, Branch.mapBody, Branch.inFile, map_inFile file (h b hb),
    List.map_id]

theorem choiceRequests_inFile (file : UInt32) (cases : List (Branch (List Request))) :
    choiceRequests (cases.map (·.inFile file id)) = choiceRequests cases := by
  have hkept := keptCases_map_of_key (g := Branch.inFile (β := List Request) file id)
    (fun _ => rfl) [] cases
  have hbody := fallbackBody_map_of_key (g := Branch.inFile (β := List Request) file id)
    (fun _ => rfl) (fun _ => rfl) cases
  rw [choiceRequests, hkept, hbody, List.flatMap_map, List.map_id]
  simp only [choiceRequests, Branch.inFile, List.map_id]

theorem choice_inFile (file : UInt32) (exact : String → Option Float)
    (trial : String → Option Float → Evaluate.Eval Value) (cases : List (Branch Part)) :
    choice exact trial (cases.map (·.inFile file id)) = choice exact trial cases := by
  have hkept := keptCases_map_of_key (g := Branch.inFile (β := Part) file id)
    (fun _ => rfl) [] cases
  have hbody := fallbackBody_map_of_key (g := Branch.inFile (β := Part) file id)
    (fun _ => rfl) (fun _ => rfl) cases
  simp only [choice, hkept, hbody, List.map_map, List.map_id]
  congr 1
  refine List.map_congr_left fun b _ => ?_
  simp only [Function.comp_apply, casePart, Branch.inFile, List.map_id]

theorem hasCategory_inFile (file : UInt32) (cases : List (Branch Node)) :
    hasCategory (cases.map (·.inFile file (Node.inFile file))) = hasCategory cases := by
  rw [hasCategory, hasCategory, List.any_map]
  rfl

theorem requests_inFile (file : UInt32) (locale : String) (formats : Formats) :
    ∀ n : Node, requests locale formats (n.inFile file) = requests locale formats n := by
  apply Node.Hereditary.holds
  constructor
  case select =>
    intro span name nameSpan cases ih
    simp only [Node.inFile, requests, Node.branchesInFile_eq_map, branchRequests_eq_map]
    rw [map_mapBody_inFile file ih, choiceRequests_inFile]
  case plural =>
    intro span name nameSpan offset kind cases ih
    simp only [Node.inFile, requests, Node.branchesInFile_eq_map, branchRequests_eq_map,
      hasCategory_inFile]
    rw [map_mapBody_inFile file ih, choiceRequests_inFile]
  case tag =>
    intro span name nameSpan selfClosing children ih
    simp only [Node.inFile, requests, Node.listInFile_eq_map, listRequests_eq_map,
      map_inFile file ih]
  case format =>
    intro span kind name nameSpan style
    simp only [Node.inFile, requests, styleOptions_inFile]
  all_goals
    intros
    simp only [Node.inFile, requests]

theorem part_inFile [LocaleData] (file : UInt32) (target : Target) (formats : Formats) (w : Surroundings) :
    ∀ (n : Node) (count : Option Value),
      part target formats w count (n.inFile file) = part target formats w count n := by
  apply Node.Hereditary.holds
  constructor
  case select =>
    intro span name nameSpan cases ih count
    simp only [Node.inFile, part, Node.branchesInFile_eq_map, branchParts_eq_map]
    rw [map_mapBody_inFile file fun b hb n hn => ih b hb n hn count, choice_inFile]
  case plural =>
    intro span name nameSpan offset kind cases ih count
    simp only [Node.inFile, part, Node.branchesInFile_eq_map, branchParts_eq_map]
    rw [map_mapBody_inFile file fun b hb n hn => ih b hb n hn _, choice_inFile]
  case tag =>
    intro span name nameSpan selfClosing children ih count
    simp only [Node.inFile, part, Node.listInFile_eq_map, parts_eq_map,
      map_inFile file fun n hn => ih n hn count]
  case format =>
    intro span kind name nameSpan style count
    simp only [Node.inFile, part, styleOptions_inFile]
  all_goals
    intros
    simp only [Node.inFile, part]

/-! ### Checks -/

def verdictInFile (file : UInt32) : Except Failure (List Use) → Except Failure (List Use)
  | .ok uses => .ok (uses.map (Use.inFile file))
  | .error f => .error (f.inFile file)

/-- A check that judges what moved as another judges the original. -/
def Check.Follows (file : UInt32) (moved original : Check) : Prop :=
  ∀ uses, moved (uses.map (Use.inFile file)) = verdictInFile file (original uses)

namespace Check.Follows

variable {file : UInt32}

theorem bind {moved original next next' : Check} (h : Follows file moved original)
    (hnext : Follows file next next') :
    Follows file (fun uses => moved uses >>= next) (fun uses => original uses >>= next') := by
  intro uses
  simp only [h uses]
  cases original uses with
  | ok uses' => exact hnext uses'
  | error f => rfl

/-- A test in front of a check, whose failure moves with it. -/
theorem require {α : Type} {test test' : Except Failure α} {moved original : Check}
    (htest : test = test'.mapError (Failure.inFile file)) (h : Follows file moved original) :
    Follows file (fun uses => test >>= fun _ => moved uses)
      (fun uses => test' >>= fun _ => original uses) := by
  intro uses
  rw [htest]
  cases test' with
  | ok a => exact h uses
  | error f => rfl

theorem all {α : Type} {f g : α → Check} {l : List α} (h : ∀ a ∈ l, Follows file (f a) (g a)) :
    Follows file (Check.all (l.map f)) (Check.all (l.map g)) := by
  induction l with
  | nil => exact fun _ => rfl
  | cons a r ih =>
    have hrest := ih fun b hb => h b (List.mem_cons_of_mem _ hb)
    exact (h a List.mem_cons_self).bind hrest

end Check.Follows

section Checks

variable {file : UInt32}

theorem use_inFile (name : String) (type : ArgType) (span : Span) :
    Check.Follows file (use name type (span.inFile file)) (use name type span) := by
  intro uses
  have hfind : (uses.map (Use.inFile file)).find? (·.name == name) =
      (uses.find? (·.name == name)).map (Use.inFile file) := by
    rw [List.find?_map]
    rfl
  simp only [use, hfind]
  cases uses.find? (·.name == name) with
  | none => simp only [Option.map_none, verdictInFile, List.map_append, List.map_cons, List.map_nil,
      Use.inFile]
  | some first =>
    simp only [Option.map_some, Use.inFile]
    cases first.type.join? type with
    | none => rfl
    | some joined =>
      simp only [verdictInFile, List.map_map]
      congr 1
      refine List.map_congr_left fun u _ => ?_
      have hname : (u.inFile file).name = u.name := rfl
      simp only [Function.comp_apply, hname]
      by_cases hu : u.name == name
      · rw [if_pos hu, if_pos hu]
        rfl
      · rw [if_neg hu, if_neg hu]

theorem requireDefault_inFile (span : Span) (kind : String) (cases : List (Branch Node)) :
    requireDefault (span.inFile file) kind (cases.map (·.inFile file (Node.inFile file))) =
      (requireDefault span kind cases).mapError (Failure.inFile file) := by
  have hany : (cases.map (·.inFile file (Node.inFile file))).any (·.key == defaultKey) =
      cases.any (·.key == defaultKey) := by
    rw [List.any_map]
    rfl
  rw [requireDefault, requireDefault, hany]
  split
  · rfl
  · by_cases hspan : span.isEmpty
    · have hspan' : (span.inFile file).isEmpty = true := hspan
      simp only [stop, missingDefault, if_pos hspan, if_pos hspan']
      rfl
    · have hspan' : ¬(span.inFile file).isEmpty = true := hspan
      simp only [stop, missingDefault, if_neg hspan, if_neg hspan']
      rfl

theorem requireIdentifier_inFile (name : String) (place : Span) :
    requireIdentifier name (place.inFile file) =
      (requireIdentifier name place).mapError (Failure.inFile file) := by
  rw [requireIdentifier, requireIdentifier]
  split <;> rfl

theorem resolveStyle_inFile (formats : Formats) (span : Span) (kind : FormatKind) (style : Style) :
    resolveStyle formats (span.inFile file) kind (style.inFile file) =
      (resolveStyle formats span kind style).mapError (Failure.inFile file) := by
  cases style with
  | skeleton => rfl
  | default =>
    simp only [resolveStyle, Style.inFile]
    split <;> rfl
  | named name styleSpan =>
    simp only [resolveStyle, Style.inFile, Span.ite_inFile]
    cases formats.lookup? kind name with
    | none => rfl
    | some o =>
      simp only
      split <;> rfl

/-- A selector that is told where it stands by its failure only. -/
def Selector.Follows (file : UInt32) (selector : Selector) : Prop :=
  ∀ key keySpan, selector key (keySpan.inFile file) =
    (selector key keySpan).mapError (Failure.inFile file)

theorem textSelector_follows : Selector.Follows file textSelector :=
  fun _ _ => rfl

theorem pluralSelector_follows : Selector.Follows file pluralSelector := by
  intro key keySpan
  rw [pluralSelector, pluralSelector]
  split
  · split <;> rfl
  · rfl

theorem choiceCheck_inFile {selector : Selector} (hselector : selector.Follows file)
    {f g : Node → Check} {cases : List (Branch Node)}
    (h : ∀ b ∈ cases, ∀ n ∈ b.body, Check.Follows file (f (n.inFile file)) (g n)) :
    Check.Follows file
      (choiceCheck selector ((cases.map (·.inFile file (Node.inFile file))).map (·.mapBody f)))
      (choiceCheck selector (cases.map (·.mapBody g))) := by
  have hkept := keptCases_map_of_key (g := Branch.inFile file (Node.inFile file))
    (fun _ => rfl) [] cases
  have hbody := fallbackBody_map_of_key (g := Branch.inFile file (Node.inFile file))
    (fun _ => rfl) (fun _ => rfl) cases
  unfold choiceCheck
  rw [keptCases_map, keptCases_map, fallbackBody_map, fallbackBody_map, hkept, hbody, List.map_map,
    List.map_map, List.map_map, List.map_map]
  refine Check.Follows.bind (Check.Follows.all fun b hb => ?_) (Check.Follows.all fun n hn => ?_)
  · have hmem := mem_of_mem_keptCases hb
    refine Check.Follows.require (hselector b.key b.keySpan) ?_
    simp only [Branch.mapBody, Branch.inFile, List.map_map]
    exact Check.Follows.all fun n hn => h b hmem n hn
  · obtain ⟨b, hb, hn⟩ := exists_of_mem_fallbackBody hn
    exact h b hb n hn

/-- In another file a tree is judged as before, there. -/
theorem check_inFile (target : Target) (formats : Formats) :
    ∀ (n : Node) (inPlural : Bool),
      Check.Follows file (check target formats inPlural (n.inFile file))
        (check target formats inPlural n) := by
  apply Node.Hereditary.holds
  constructor
  case literal =>
    intro span text inPlural uses
    simp only [Node.inFile, check]
    rfl
  case argument =>
    intro span name nameSpan inPlural
    simp only [Node.inFile, check]
    exact use_inFile name _ nameSpan
  case select =>
    intro span name nameSpan cases ih inPlural
    simp only [Node.inFile, check, Node.branchesInFile_eq_map, branchChecks_eq_map]
    refine (use_inFile name _ nameSpan).bind (.require (requireDefault_inFile span _ cases) ?_)
    exact choiceCheck_inFile textSelector_follows fun b hb n hn => ih b hb n hn inPlural
  case plural =>
    intro span name nameSpan offset kind cases ih inPlural
    simp only [Node.inFile, check, Node.branchesInFile_eq_map, branchChecks_eq_map]
    refine (use_inFile name _ nameSpan).bind (.require (requireDefault_inFile span _ cases) ?_)
    exact choiceCheck_inFile pluralSelector_follows fun b hb n hn => ih b hb n hn true
  case format =>
    intro span kind name nameSpan style inPlural
    simp only [Node.inFile, check]
    refine (use_inFile name _ nameSpan).bind (.require (resolveStyle_inFile formats span kind style) ?_)
    exact fun _ => rfl
  case pound =>
    intro span inPlural uses
    simp only [Node.inFile, check]
    cases inPlural with
    | true => rfl
    | false => rfl
  case tag =>
    intro span name nameSpan selfClosing children ih inPlural
    simp only [Node.inFile, check, Node.listInFile_eq_map, checks_eq_map, Span.ite_inFile]
    refine .require (requireIdentifier_inFile name _) ((use_inFile name _ _).bind ?_)
    cases selfClosing with
    | true => exact fun _ => rfl
    | false =>
      simp only [Bool.false_eq_true, if_false, List.map_map]
      exact Check.Follows.all fun n hn => ih n hn inPlural
  case unknown =>
    intro span inPlural uses
    simp only [Node.inFile, check]
    rfl
  case hole =>
    intro inPlural uses
    simp only [Node.inFile, check]
    rfl

end Checks

end Compile

end Phrasebook
