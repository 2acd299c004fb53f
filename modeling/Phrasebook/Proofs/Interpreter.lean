import Phrasebook.Proofs.Canonical

/-!
Interpreting messages. A tree is read as a text directly, without a program in between: by its
arguments, the formatters of its styles and the rules of plurals. What is chosen is the first case
that fits.
-/
namespace Phrasebook.Compile

/-- The text of a part of a message, or why there is none. -/
abbrev Outcome := Except RunError String

/-- A text behind another one; the first error counts. -/
def beside (a b : Outcome) : Outcome := do
  let s ← a
  let t ← b
  return s ++ t

def concat : List Outcome → Outcome
  | [] => .ok ""
  | a :: r => beside a (concat r)

/-- What a message is interpreted in: a locale, format styles and its arguments. -/
structure Setting where
  locale : Locale
  formats : Formats
  argument : String → Value

/-- The class of the formatters of a kind. -/
def formatterClass : FormatKind → FormatterClass
  | .number => .number
  | .date | .time => .date

namespace Setting

variable [LocaleData]

/-- A value as the formatter of some options shows it. -/
def formatted (s : Setting) (kind : FormatKind) (o : FormatOptions) (v : Value) : String :=
  (Evaluate.construct (formatterClass kind) s.locale o.entries).apply [v]

/-- The plural category of a number. -/
def category (s : Setting) (kind : PluralKind) (x : Float) : String :=
  (PluralRules.select ⟨s.locale, kind = .ordinal⟩ x).name

end Setting

/-- Strict equality, where values that cannot be compared are not equal. -/
def equals (v w : Value) : Bool :=
  (v.strictEq? w).getD false

/-- Whether a key is exact and stands for the value. -/
def isExactly (v : Value) (key : String) : Bool :=
  match exactValue? key with
  | some x => equals v (.number x)
  | none => false

section Selection

variable {α : Type}

/-- The first case besides the default whose key passes a test. -/
def firstCase? (test : String → Bool) (cases : List (Branch α)) : Option (Branch α) :=
  cases.find? fun b => b.key != defaultKey && test b.key

/-- The body of the case that was found, else that of the default. -/
def bodyOr (found : Option (Branch α)) (cases : List (Branch α)) : List α :=
  match found with
  | some b => b.body
  | none => fallbackBody cases

/-- A select selects the case whose key is the value. -/
def selectBody (v : Value) (cases : List (Branch α)) : List α :=
  bodyOr (firstCase? (fun key => equals v (.text key)) cases) cases

/-- A plural selects an exact case for the value, or else the case of its category. -/
def pluralBody (v : Value) (category : String) (cases : List (Branch α)) : List α :=
  bodyOr ((firstCase? (isExactly v) cases).or (firstCase? (· == category) cases)) cases

end Selection

/-- A tag is a function of the text it encloses. -/
def callTag (v : Value) (inside : String) : Outcome :=
  match v with
  | .function (.given f) => .ok (f inside)
  | v => .error (.notFunction v.typeName)

section

variable [LocaleData]

mutual

/-- The text of one element; `count` is the number that `#` stands for. -/
def interpret (s : Setting) (count : Float) : Node → Outcome
  | .literal _ text => .ok text
  | .argument _ name _ => .ok (s.argument name).toText
  | .select _ name _ cases =>
    concat (selectBody (s.argument name) (interpretBranches s count cases))
  | .plural _ name _ offset kind cases =>
    let x := (s.argument name).toNumber - offset
    concat (pluralBody (s.argument name) (s.category kind x) (interpretBranches s x cases))
  | .format _ kind name _ style =>
    .ok (s.formatted kind (styleOptions s.formats kind style) (s.argument name))
  | .pound _ => .ok (s.formatted .number [] (.number count))
  | .tag _ name _ selfClosing children => do
    let inside ← concat (if selfClosing then [] else interpretAll s count children)
    callTag (s.argument name) inside
  | .unknown _ | .hole => .ok ""

def interpretAll (s : Setting) (count : Float) : List Node → List Outcome
  | [] => []
  | n :: r => interpret s count n :: interpretAll s count r

def interpretBranches (s : Setting) (count : Float) :
    List (Branch Node) → List (Branch Outcome)
  | [] => []
  | b :: r => interpretBranch s count b :: interpretBranches s count r

def interpretBranch (s : Setting) (count : Float) : Branch Node → Branch Outcome
  | ⟨key, keySpan, span, body⟩ => ⟨key, keySpan, span, interpretAll s count body⟩

end

/-- The text of a message. Outside of plurals `#` stands for no number. -/
def interpretMessage (s : Setting) (ns : List Node) : Outcome :=
  concat (ns.map (interpret s Value.notANumber))

theorem interpretAll_eq_map (s : Setting) (count : Float) (ns : List Node) :
    interpretAll s count ns = ns.map (interpret s count) := by
  induction ns with
  | nil => rfl
  | cons n r ih => rw [interpretAll, ih, List.map_cons]

theorem interpretBranches_eq_map (s : Setting) (count : Float) (cases : List (Branch Node)) :
    interpretBranches s count cases = cases.map (·.mapBody (interpret s count)) := by
  induction cases with
  | nil => rfl
  | cons b r ih =>
    rw [interpretBranches, ih, List.map_cons, interpretBranch.eq_def]
    simp only [interpretAll_eq_map, Branch.mapBody]

end

/-! ### Joining -/

theorem empty_beside (a : Outcome) : beside (.ok "") a = a := by
  cases a with
  | ok s => exact congrArg Except.ok String.empty_append
  | error e => rfl

theorem beside_empty (a : Outcome) : beside a (.ok "") = a := by
  cases a with
  | ok s => exact congrArg Except.ok String.append_empty
  | error e => rfl

theorem beside_assoc (a b c : Outcome) : beside (beside a b) c = beside a (beside b c) := by
  cases a with
  | error e => rfl
  | ok s =>
    cases b with
    | error e => rfl
    | ok t =>
      cases c with
      | error e => rfl
      | ok u => exact congrArg Except.ok (String.append_assoc)

/-! ### Selecting -/

section Cases

variable {α β : Type}

theorem firstCase?_map (f : α → β) (test : String → Bool) (cases : List (Branch α)) :
    firstCase? test (cases.map (·.mapBody f)) = (firstCase? test cases).map (·.mapBody f) :=
  List.find?_map

theorem bodyOr_map (f : α → β) (found : Option (Branch α)) (cases : List (Branch α)) :
    bodyOr (found.map (·.mapBody f)) (cases.map (·.mapBody f)) = (bodyOr found cases).map f := by
  cases found with
  | some b => rfl
  | none => exact fallbackBody_map f cases

theorem selectBody_map (f : α → β) (v : Value) (cases : List (Branch α)) :
    selectBody v (cases.map (·.mapBody f)) = (selectBody v cases).map f := by
  rw [selectBody, firstCase?_map, bodyOr_map, selectBody]

theorem pluralBody_map (f : α → β) (v : Value) (category : String) (cases : List (Branch α)) :
    pluralBody v category (cases.map (·.mapBody f)) = (pluralBody v category cases).map f := by
  rw [pluralBody, firstCase?_map, firstCase?_map, ← Option.map_or, bodyOr_map, pluralBody]

/-- Cases that repeat a key are never the first to fit. -/
theorem find?_keptCases (test : String → Bool) (cases : List (Branch α)) :
    (keptCases [] cases).find? (fun b => test b.key) = firstCase? test cases := by
  -- keys that were seen did not fit, so it does not matter that their repetitions are left out
  have hseen (seen : List String) (h : ∀ k ∈ seen, test k = false) :
      (keptCases seen cases).find? (fun b => test b.key) = firstCase? test cases := by
    induction cases generalizing seen with
    | nil => rfl
    | cons b r ih =>
      rw [keptCases, firstCase?]
      split
      · rename_i hskip
        rw [ih seen h, firstCase?, List.find?_cons_of_neg]
        rw [Bool.or_eq_true, decide_eq_true_eq, List.contains_iff_mem] at hskip
        rcases hskip with hdefault | hmem
        · simp [hdefault]
        · simp [h b.key hmem]
      · rename_i hkeep
        rw [Bool.or_eq_true, decide_eq_true_eq, not_or] at hkeep
        cases htest : test b.key with
        | true =>
          rw [List.find?_cons_of_pos (by simp [htest]),
            List.find?_cons_of_pos (by simp [hkeep.1, htest])]
        | false =>
          rw [List.find?_cons_of_neg (by simp [htest]), List.find?_cons_of_neg (by simp [htest])]
          refine ih (b.key :: seen) fun k hk => ?_
          rcases List.mem_cons.mp hk with rfl | hk
          · exact htest
          · exact h k hk
  exact hseen [] fun k hk => absurd hk List.not_mem_nil

/-- Only keys of cases are tested. -/
theorem firstCase?_congr {test test' : String → Bool} {cases : List (Branch α)}
    (h : ∀ b ∈ cases, b.key ≠ defaultKey → test b.key = test' b.key) :
    firstCase? test cases = firstCase? test' cases := by
  induction cases with
  | nil => rfl
  | cons b r ih =>
    have hrest := ih fun c hc => h c (List.mem_cons_of_mem _ hc)
    rw [firstCase?] at hrest ⊢
    rw [firstCase?] at hrest ⊢
    by_cases hdefault : b.key = defaultKey
    · rw [List.find?_cons_of_neg (by simp [hdefault]), List.find?_cons_of_neg (by simp [hdefault]),
        hrest]
    · simp only [List.find?_cons, h b List.mem_cons_self hdefault, hrest]

end Cases

end Phrasebook.Compile
