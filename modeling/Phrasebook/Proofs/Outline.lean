import Phrasebook.Compile.Message
import Phrasebook.Proofs.Trees

/-!
What compiling a message does, without the names it chooses. The arguments of a message and its
failure depend on the tree alone (`check`); which constants it asks the module for does too
(`requests`), and a module makes a constant of the first request for each key (`share`).
-/
namespace Phrasebook.Compile

/-! ### Arguments -/

/-- An argument used so far: the join of its types, and the place of its first use. -/
structure Use where
  name : String
  type : ArgType
  span : Span

/-- Adds the uses in a part of a tree to the earlier ones, or finds what is wrong with the part. -/
abbrev Check := List Use → Except Failure (List Use)

def use (name : String) (type : ArgType) (span : Span) : Check := fun uses =>
  match uses.find? (·.name == name) with
  | some first =>
    match first.type.join? type with
    | none => stop (typeConflict name type span first.type first.span)
    | some joined => .ok (uses.map fun u => if u.name == name then { u with type := joined } else u)
  | none => .ok (uses ++ [⟨name, type, span⟩])

/-- One check after the other. -/
def Check.all : List Check → Check
  | [] => .ok
  | c :: r => fun uses => do Check.all r (← c uses)

/-- Checks a branch: its selector, then its body. -/
def caseCheck (selector : Selector) (b : Branch Check) : Check := fun uses => do
  let _ ← selector b.key b.keySpan
  Check.all b.body uses

def choiceCheck (selector : Selector) (cases : List (Branch Check)) : Check := fun uses => do
  let uses ← Check.all ((keptCases [] cases).map (caseCheck selector)) uses
  Check.all (fallbackBody cases) uses

mutual

/-- What compiling one element adds to the uses; `inPlural` tells whether `#` has a meaning. -/
def check (target : Target) (formats : Formats) (inPlural : Bool) : Node → Check
  | .literal _ _ => .ok
  | .argument _ name nameSpan => use name target.interpolation nameSpan
  | .select span name nameSpan cases => fun uses => do
    let uses ← use name .string nameSpan uses
    requireDefault span "select" cases
    choiceCheck textSelector (branchChecks target formats inPlural cases) uses
  | .plural span name nameSpan _ kind cases => fun uses => do
    let uses ← use name .number nameSpan uses
    requireDefault span kind.keyword cases
    choiceCheck pluralSelector (branchChecks target formats true cases) uses
  | .format span kind name nameSpan style => fun uses => do
    let uses ← use name (if kind = .number then .number else .date) nameSpan uses
    let _ ← resolveStyle formats span kind style
    return uses
  | .pound span => fun uses => if inPlural then .ok uses else stop (poundOutside span)
  | .tag span name nameSpan selfClosing children => fun uses => do
    let place := if nameSpan.isEmpty then span else nameSpan
    requireIdentifier name place
    let uses ← use name target.tagType place uses
    if selfClosing then return uses else Check.all (checks target formats inPlural children) uses
  | .unknown _ => fun _ => .error (.unknownNode "Unknown")
  | .hole => fun _ => .error .hole

def checks (target : Target) (formats : Formats) (inPlural : Bool) : List Node → List Check
  | [] => []
  | n :: r => check target formats inPlural n :: checks target formats inPlural r

def branchChecks (target : Target) (formats : Formats) (inPlural : Bool) :
    List (Branch Node) → List (Branch Check)
  | [] => []
  | b :: r => branchCheck target formats inPlural b :: branchChecks target formats inPlural r

def branchCheck (target : Target) (formats : Formats) (inPlural : Bool) :
    Branch Node → Branch Check
  | ⟨key, keySpan, span, body⟩ => ⟨key, keySpan, span, checks target formats inPlural body⟩

end

theorem checks_eq_map (target : Target) (formats : Formats) (inPlural : Bool) (ns : List Node) :
    checks target formats inPlural ns = ns.map (check target formats inPlural) := by
  induction ns with
  | nil => rfl
  | cons n r ih => rw [checks, ih, List.map_cons]

theorem branchChecks_eq_map (target : Target) (formats : Formats) (inPlural : Bool)
    (cases : List (Branch Node)) :
    branchChecks target formats inPlural cases =
      cases.map (·.mapBody (check target formats inPlural)) := by
  induction cases with
  | nil => rfl
  | cons b r ih =>
    rw [branchChecks, ih, List.map_cons, branchCheck.eq_def]
    simp only [checks_eq_map, Branch.mapBody]

/-! ### Shared constants -/

/-- What a message asks a module for: a constant of a key, with this initializer if there is none
yet. -/
abbrev Request := SharedKey × Expr

/-- The constants of a module after more requests. -/
def share (shared : List Request) (asked : List Request) : List Request :=
  asked.foldl (fun l r => if l.any (·.1 == r.1) then l else l ++ [r]) shared

def formatterRequest (locale : String) (kind : FormatKind) (o : FormatOptions) : Request :=
  (.formatter kind o.canonical, formatterInit locale kind o)

def rulesRequest (locale : String) (kind : PluralKind) : Request :=
  (.pluralRules kind, rulesInit locale kind)

/-- The options of a style; only a known style has some. -/
def styleOptions (formats : Formats) (kind : FormatKind) (style : Style) : FormatOptions :=
  match resolveStyle formats .zero kind style with
  | .ok (_, o) => o
  | .error _ => []

/-- The requests in the branches of a choice, those of the default last. -/
def choiceRequests (cases : List (Branch (List Request))) : List Request :=
  (keptCases [] cases).flatMap (·.body.flatten) ++ (fallbackBody cases).flatten

mutual

/-- What one element asks for, in the order of compiling it. -/
def requests (locale : String) (formats : Formats) : Node → List Request
  | .literal .. | .argument .. | .unknown _ | .hole => []
  | .select _ _ _ cases => choiceRequests (branchRequests locale formats cases)
  | .plural _ _ _ _ kind cases =>
    (if hasCategory cases then [rulesRequest locale kind] else []) ++
      choiceRequests (branchRequests locale formats cases)
  | .format _ kind _ _ style => [formatterRequest locale kind (styleOptions formats kind style)]
  | .pound _ => [formatterRequest locale .number []]
  | .tag _ _ _ selfClosing children =>
    if selfClosing then [] else (listRequests locale formats children).flatten

def listRequests (locale : String) (formats : Formats) : List Node → List (List Request)
  | [] => []
  | n :: r => requests locale formats n :: listRequests locale formats r

def branchRequests (locale : String) (formats : Formats) :
    List (Branch Node) → List (Branch (List Request))
  | [] => []
  | b :: r => branchRequest locale formats b :: branchRequests locale formats r

def branchRequest (locale : String) (formats : Formats) : Branch Node → Branch (List Request)
  | ⟨key, keySpan, span, body⟩ => ⟨key, keySpan, span, listRequests locale formats body⟩

end

theorem listRequests_eq_map (locale : String) (formats : Formats) (ns : List Node) :
    listRequests locale formats ns = ns.map (requests locale formats) := by
  induction ns with
  | nil => rfl
  | cons n r ih => rw [listRequests, ih, List.map_cons]

theorem branchRequests_eq_map (locale : String) (formats : Formats) (cases : List (Branch Node)) :
    branchRequests locale formats cases = cases.map (·.mapBody (requests locale formats)) := by
  induction cases with
  | nil => rfl
  | cons b r ih =>
    rw [branchRequests, ih, List.map_cons, branchRequest.eq_def]
    simp only [listRequests_eq_map, Branch.mapBody]

theorem share_append (shared xs ys : List Request) :
    share shared (xs ++ ys) = share (share shared xs) ys :=
  List.foldl_append

/-- Only what is asked for is granted. -/
theorem mem_share {shared asked : List Request} {r : Request} (h : r ∈ share shared asked) :
    r ∈ shared ∨ r ∈ asked := by
  induction asked generalizing shared with
  | nil => exact Or.inl h
  | cons a l ih =>
    rw [share, List.foldl_cons] at h
    rcases ih h with h | h
    · split at h
      · exact Or.inl h
      · rcases List.mem_append.mp h with h | h
        · exact Or.inl h
        · rw [List.mem_singleton.mp h]
          exact Or.inr List.mem_cons_self
    · exact Or.inr (List.mem_cons_of_mem _ h)

/-- What holds of the style of a formatted argument. -/
def Node.Styled (P : FormatKind → Style → Prop) : Node → Prop
  | .format _ kind _ _ style => P kind style
  | _ => True

/-- What holds of the plural rules, of the formatter of `#` and of the formatters of all styles
holds of every request. -/
theorem requests_forall {P : Request → Prop} {locale : String} {formats : Formats}
    (hrules : ∀ kind, P (rulesRequest locale kind)) (hpound : P (formatterRequest locale .number [])) :
    ∀ n : Node, n.All (Node.Styled fun kind style =>
        P (formatterRequest locale kind (styleOptions formats kind style))) →
      ∀ r ∈ requests locale formats n, P r := by
  -- whatever cases are left of a choice are cases of it
  have hchoice {cases : List (Branch Node)}
      (h : ∀ b ∈ cases, ∀ n ∈ b.body, ∀ r ∈ requests locale formats n, P r) :
      ∀ r ∈ choiceRequests (branchRequests locale formats cases), P r := by
    intro r hr
    rw [choiceRequests, branchRequests_eq_map, keptCases_map, fallbackBody_map, List.mem_append,
      List.flatMap_map, List.mem_flatMap] at hr
    rcases hr with ⟨b, hb, hr⟩ | hr
    · obtain ⟨l, hl, hr⟩ := List.mem_flatten.mp hr
      obtain ⟨n, hn, rfl⟩ := List.mem_map.mp hl
      exact h b (mem_of_mem_keptCases hb) n hn r hr
    · obtain ⟨l, hl, hr⟩ := List.mem_flatten.mp hr
      obtain ⟨n, hn, rfl⟩ := List.mem_map.mp hl
      obtain ⟨b, hb, hn⟩ := exists_of_mem_fallbackBody hn
      exact h b hb n hn r hr
  apply Node.Hereditary.holds
  constructor
  case select =>
    intro span name nameSpan cases ih hn
    rw [requests]
    exact hchoice fun b hb n hn' => ih b hb n hn' (hn.of_select b hb n hn')
  case plural =>
    intro span name nameSpan offset kind cases ih hn r hr
    rw [requests] at hr
    rcases List.mem_append.mp hr with hr | hr
    · split at hr
      · rw [List.mem_singleton.mp hr]
        exact hrules kind
      · exact absurd hr List.not_mem_nil
    · exact hchoice (fun b hb n hn' => ih b hb n hn' (hn.of_plural b hb n hn')) r hr
  case format =>
    intro span kind name nameSpan style hn r hr
    rw [requests] at hr
    rw [List.mem_singleton.mp hr]
    exact hn.self
  case pound =>
    intro span _ r hr
    rw [requests] at hr
    rw [List.mem_singleton.mp hr]
    exact hpound
  case tag =>
    intro span name nameSpan selfClosing children ih hn r hr
    rw [requests, listRequests_eq_map] at hr
    split at hr
    · exact absurd hr List.not_mem_nil
    · obtain ⟨l, hl, hr⟩ := List.mem_flatten.mp hr
      obtain ⟨n, hn', rfl⟩ := List.mem_map.mp hl
      exact ih n hn' (hn.of_tag n hn') r hr
  case literal | argument | unknown | hole =>
    intros
    rename_i hr
    rw [requests] at hr
    exact absurd hr List.not_mem_nil

/-- The style's place matters only to its diagnostic. -/
theorem styleOptions_of_resolveStyle {formats : Formats} {span : Span} {kind : FormatKind}
    {style : Style} {preset : String} {o : FormatOptions}
    (h : resolveStyle formats span kind style = .ok (preset, o)) :
    styleOptions formats kind style = o := by
  have hsame : resolveStyle formats .zero kind style = .ok (preset, o) := by
    cases style with
    | default => exact h
    | skeleton text options styleSpan => exact h
    | named name styleSpan =>
      simp only [resolveStyle] at h ⊢
      split at h
      · simp [stop] at h
      · exact h
  rw [styleOptions, hsame]

end Phrasebook.Compile
