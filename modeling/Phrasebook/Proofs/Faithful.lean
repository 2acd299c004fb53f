import Phrasebook.Proofs.Granted
import Phrasebook.Proofs.Interpreter
import Phrasebook.Proofs.Rendering

/-!
Programs of messages for strings say what the messages say. Every part of a message evaluates to
what interpreting it gives, a text or an error; so does what is joined and chosen of such parts,
and with it every export of a program, whatever other messages its module has.
-/
namespace Phrasebook.Compile

open Evaluate (Eval)

/-! ### Evaluating without effect -/

/-- Evaluating gives one result whatever was made before, and makes nothing. -/
def Evaluates (e : Eval Value) (r : Except RunError Value) : Prop :=
  ∀ made, e.run made = r.map fun v => (v, made)

namespace Evaluates

variable {e : Eval Value} {r : Except RunError Value}

theorem pure (v : Value) : Evaluates (Pure.pure v) (.ok v) :=
  fun _ => rfl

theorem lift (r : Except RunError Value) : Evaluates (liftM r) r := by
  intro made
  cases r <;> rfl

theorem bind {f : Value → Eval Value} {g : Value → Except RunError Value} (h : Evaluates e r)
    (hf : ∀ v, r = .ok v → Evaluates (f v) (g v)) : Evaluates (e >>= f) (r >>= g) := by
  intro made
  rw [StateT.run_bind, h made]
  cases r with
  | error x => rfl
  | ok v => exact hf v rfl made

end Evaluates

/-! ### Joining -/

/-- A part for strings gives a text or an error. As a string it is the text itself. -/
def Says : Part → Outcome → Prop
  | .literal s, a => a = .ok s
  | .value e isMarkup isString, a => isMarkup = false ∧
    ∃ r, Evaluates e r ∧ r.map Value.toText = a ∧ (isString = true → r = a.map .text)

/-- Parts side by side give their texts side by side. -/
inductive SaysAll : List Part → Outcome → Prop where
  | nil : SaysAll [] (.ok "")
  | cons {p : Part} {r : List Part} {a b : Outcome} (hp : Says p a) (hr : SaysAll r b) :
      SaysAll (p :: r) (beside a b)

theorem saysAll_concat {α : Type} {f : α → Part} {g : α → Outcome} {l : List α}
    (h : ∀ x ∈ l, Says (f x) (g x)) : SaysAll (l.map f) (concat (l.map g)) := by
  induction l with
  | nil => exact .nil
  | cons x r ih =>
    exact .cons (h x List.mem_cons_self) (ih fun y hy => h y (List.mem_cons_of_mem _ hy))

theorem SaysAll.mergeLiterals {ps : List Part} {a : Outcome} (h : SaysAll ps a) :
    SaysAll (mergeLiterals ps) a := by
  induction h with
  | nil => exact .nil
  | @cons p r a b hp hr ih =>
    cases p with
    | value e m s => exact .cons hp ih
    | literal s =>
      obtain rfl : a = .ok s := hp
      rw [Compile.mergeLiterals]
      by_cases hempty : s = ""
      · rw [if_pos hempty, hempty, empty_beside]
        exact ih
      · rw [if_neg hempty]
        -- a literal in front of the merged rest goes on in this one
        generalize Compile.mergeLiterals r = merged at ih
        cases ih with
        | nil => exact .cons rfl .nil
        | @cons q r' x y hq hr' =>
          cases q with
          | value e m s' => exact .cons rfl (.cons hq hr')
          | literal s' =>
            obtain rfl : x = .ok s' := hq
            rw [← beside_assoc]
            exact .cons rfl hr'

theorem Says.partValue {p : Part} {a : Outcome} (h : Says p a) :
    ∃ r, Evaluates (partValue p) r ∧ r.map Value.toText = a := by
  cases p with
  | literal s =>
    obtain rfl : a = .ok s := h
    exact ⟨.ok (.text s), .pure _, rfl⟩
  | value e m s =>
    obtain ⟨_, r, hr, htext, _⟩ := h
    exact ⟨r, hr, htext⟩

theorem Says.isMarkup {p : Part} {a : Outcome} (h : Says p a) : p.isMarkup = false := by
  cases p with
  | literal s => rfl
  | value e m s => exact h.1

theorem SaysAll.isMarkup {ps : List Part} {a : Outcome} (h : SaysAll ps a) :
    ps.any Piece.isMarkup = false := by
  induction h with
  | nil => rfl
  | cons hp _ ih => rw [List.any_cons, hp.isMarkup, ih, Bool.or_false]

/-- Adding to a text what stands behind it. -/
theorem Evaluates.operate {e : Eval Value} {a b : Outcome} {p : Part}
    (he : Evaluates e (a.map .text)) (hp : Says p b) :
    Evaluates (operate .add e (Compile.partValue p)) ((beside a b).map .text) := by
  obtain ⟨r, hr, rfl⟩ := hp.partValue
  have hsum : Evaluates (Compile.operate .add e (Compile.partValue p))
      (a.map .text >>= fun x => r >>= fun y => Evaluate.binary .add x y) :=
    he.bind fun x _ => hr.bind fun y _ => .lift _
  have heq : (a.map Value.text >>= fun x => r >>= fun y => Evaluate.binary .add x y) =
      (beside a (r.map Value.toText)).map .text := by
    cases a with
    | error x => rfl
    | ok s => cases r <;> rfl
  exact heq ▸ hsum

/-- Adding to a text all that stands behind it. -/
theorem SaysAll.foldl_operate {ps : List Part} {b : Outcome} (h : SaysAll ps b) {e : Eval Value}
    {a : Outcome} (he : Evaluates e (a.map .text)) :
    Evaluates ((ps.map Compile.partValue).foldl (operate .add) e) ((beside a b).map .text) := by
  induction h generalizing e a with
  | nil =>
    rw [beside_empty]
    exact he
  | cons hp hr ih =>
    rw [List.map_cons, List.foldl_cons, ← beside_assoc]
    exact ih (he.operate hp)

/-- Operands of a sum: the first is a text, if need be an empty one. -/
theorem SaysAll.sum {p : Part} {r : List Part} {a : Outcome} (h : SaysAll (p :: r) a)
    (hmany : r ≠ [] ∨ ∃ e m, p = .value e m false) :
    Evaluates (Compile.sum (sumOperands (p :: r))) (a.map .text) := by
  -- a first operand that is a text leaves others behind it
  have hlead {first : Eval Value} {x y : Outcome} (hfirst : Evaluates first (x.map .text))
      (hr : SaysAll r y) (hp : ∀ e m, p ≠ .value e m false) :
      Evaluates (Compile.sum (first :: r.map Compile.partValue)) ((beside x y).map .text) := by
    obtain ⟨q, l, rfl⟩ := List.exists_cons_of_ne_nil
      (hmany.resolve_right fun ⟨e, m, heq⟩ => hp e m heq)
    exact hr.foldl_operate hfirst
  cases h with
  | @cons _ _ x y hp hr =>
    cases p with
    | literal s =>
      obtain rfl : x = .ok s := hp
      exact hlead (.pure (.text s)) hr fun e m heq => nomatch heq
    | value e m s =>
      cases s with
      | true =>
        obtain ⟨_, v, hv, _, htext⟩ := id hp
        rw [htext rfl] at hv
        exact hlead hv hr fun e' m' heq => nomatch heq
      | false =>
        have hsum := SaysAll.foldl_operate (.cons hp hr) (a := .ok "") (.pure (.text ""))
        rw [empty_beside] at hsum
        exact hsum

theorem SaysAll.joinParts {ps : List Part} {a : Outcome} (h : SaysAll ps a) :
    Evaluates (joinParts ps).1 (a.map .text) := by
  have hmerged := h.mergeLiterals
  rw [Compile.joinParts]
  generalize Compile.mergeLiterals ps = merged at hmerged
  -- all that is no lone string is added up
  have hgeneral {p : Part} {r : List Part} (hr : SaysAll (p :: r) a)
      (hmany : r ≠ [] ∨ ∃ e m, p = .value e m false) :
      Evaluates (if (p :: r).any Piece.isMarkup then (fragment (p :: r), true)
        else (Compile.sum (sumOperands (p :: r)), false) : Eval Value × Bool).1 (a.map .text) := by
    rw [hr.isMarkup]
    exact hr.sum hmany
  rcases merged with _ | ⟨p, _ | ⟨q, r⟩⟩
  · cases hmerged
    exact .pure (.text "")
  · have hone := hmerged
    cases hmerged with
    | @cons _ _ x y hp hr =>
      cases hr
      rw [beside_empty] at hone hgeneral ⊢
      cases p with
      | literal s =>
        obtain rfl : x = .ok s := hp
        exact .pure (.text s)
      | value e m s =>
        obtain ⟨rfl, v, hv, _, htext⟩ := id hp
        cases s with
        | true => exact htext rfl ▸ hv
        | false => exact hgeneral hone (.inr ⟨e, false, rfl⟩)
  · have hjoined := hgeneral hmerged (.inl (List.cons_ne_nil q r))
    cases p with
    | literal s => exact hjoined
    | value e m s => cases m <;> cases s <;> exact hjoined

/-! ### Choosing -/

/-- The value of the first case that passes its test. -/
theorem firstTrue_eq {α : Type} (l : List α) (test : α → Bool) (value : α → Eval Value)
    (fallback : Eval Value) :
    firstTrue (l.map fun a => (pure (.flag (test a)), value a)) fallback =
      match l.find? test with
      | some a => value a
      | none => fallback := by
  induction l with
  | nil => rfl
  | cons a r ih =>
    rw [List.map_cons, firstTrue, pure_bind, List.find?_cons]
    cases test a with
    | true => rfl
    | false => exact ih

section Choosing

variable {f : Node → Part} {g : Node → Outcome} {exact : String → Option Float}
  {trial : String → Option Float → Eval Value} {cases : List (Branch Node)}

/-- The body of the first tried case whose key passes a test. -/
def triedBody (exact : String → Option Float) (test : String → Bool) (cases : List (Branch Node)) :
    List Node :=
  bodyOr ((triedCases exact cases).find? fun b => test b.key) cases

/-- A choice gives what the case gives that it chooses. -/
theorem says_choice {test : String → Bool}
    (htest : ∀ key, trial key (exact key) = pure (.flag (test key)))
    (hkept : ∀ b ∈ keptCases [] cases, ∀ n ∈ b.body, Says (f n) (g n))
    (hfallback : ∀ n ∈ fallbackBody cases, Says (f n) (g n)) :
    Says (choice exact trial (cases.map (·.mapBody f)))
      (concat ((triedBody exact test cases).map g)) := by
  have hmarkup : choiceIsMarkup f cases = false := by
    rw [choiceIsMarkup, Bool.or_eq_false_iff, List.any_eq_false]
    refine ⟨fun b hb => ?_, ?_⟩
    · rw [joinParts_isMarkup, (saysAll_concat (hkept b hb)).isMarkup]
      exact Bool.false_ne_true
    · rw [joinParts_isMarkup, (saysAll_concat hfallback).isMarkup]
  have hchosen : Evaluates (firstTrue ((triedCases exact cases).map fun b =>
      (trial b.key (exact b.key), (joinParts (b.body.map f)).1))
      (joinParts ((fallbackBody cases).map f)).1)
      ((concat ((triedBody exact test cases).map g)).map .text) := by
    simp only [htest]
    rw [firstTrue_eq (triedCases exact cases) (fun b => test b.key), triedBody]
    cases hfound : (triedCases exact cases).find? fun b => test b.key with
    | some b =>
      have hmem := mem_of_mem_triedCases (List.mem_of_find?_eq_some hfound)
      exact (saysAll_concat (hkept b hmem)).joinParts
    | none => exact (saysAll_concat hfallback).joinParts
  rw [choice_eq, hmarkup]
  refine ⟨rfl, _, hchosen, ?_, fun _ => rfl⟩
  cases concat ((triedBody exact test cases).map g) <;> rfl

/-- Of the tried cases the exact ones come first. -/
theorem find?_triedCases (test : String → Bool) :
    (triedCases exact cases).find? (fun b => test b.key) =
      (firstCase? (fun key => (exact key).isSome && test key) cases).or
        (firstCase? (fun key => !(exact key).isSome && test key) cases) := by
  rw [triedCases, List.find?_append, List.find?_filter, List.find?_filter,
    ← find?_keptCases, ← find?_keptCases]
  simp only [Bool.decide_and, Bool.decide_eq_true]

end Choosing

theorem isSame_text (v : Value) (key : String) :
    isSame v (.text key) = pure (.flag (equals v (.text key))) := by
  cases v <;> rfl

theorem isSame_number (v : Value) (x : Float) :
    isSame v (.number x) = pure (.flag (equals v (.number x))) := by
  cases v <;> rfl

theorem triedBody_select (v : Value) (cases : List (Branch Node)) :
    triedBody (fun _ => none) (fun key => equals v (.text key)) cases = selectBody v cases := by
  have hnone : firstCase? (fun _ => false) cases = none := by
    rw [firstCase?, List.find?_eq_none]
    simp
  rw [triedBody, find?_triedCases fun key => equals v (.text key), selectBody]
  simp only [Option.isSome_none, Bool.false_and, Bool.not_false, Bool.true_and, hnone,
    Option.none_or]

/-- Whether a key of a plural is the value, or else its category. -/
def pluralPasses (v : Value) (category : String) (key : String) : Bool :=
  match exactValue? key with
  | some x => equals v (.number x)
  | none => category == key

theorem pluralTrial_eq (v : Value) (category key : String) :
    pluralTrial v (.text category) key (exactValue? key) =
      pure (.flag (pluralPasses v category key)) := by
  rw [pluralTrial.eq_def, pluralPasses]
  cases exactValue? key with
  | some x => exact isSame_number v x
  | none => rfl

/-- Categories are no exact keys. -/
theorem exactValue?_category (c : Plural.Category) : exactValue? c.name = none := by
  cases c <;> rfl

theorem isExactKey_category (c : Plural.Category) : isExactKey c.name = false := by
  cases c <;> rfl

/-- The category matters only where a case is chosen by it. -/
theorem triedBody_plural (v : Value) {c c' : Plural.Category} {cases : List (Branch Node)}
    (hsame : hasCategory cases = true → c = c') :
    triedBody exactValue? (pluralPasses v c.name) cases = pluralBody v c'.name cases := by
  have hexact : (fun key => (exactValue? key).isSome && pluralPasses v c.name key) =
      isExactly v := by
    funext key
    rw [pluralPasses, isExactly]
    cases exactValue? key <;> rfl
  -- no number is the name of a category, and if all keys are numbers no name is looked at
  have hcategory : firstCase? (fun key => !(exactValue? key).isSome && pluralPasses v c.name key)
      cases = firstCase? (· == c'.name) cases := by
    refine firstCase?_congr fun b hb hdefault => ?_
    rw [pluralPasses]
    cases hkey : exactValue? b.key with
    | some x =>
      have hne : b.key ≠ c'.name := by
        intro heq
        rw [heq, exactValue?_category] at hkey
        cases hkey
      simp [hne]
    | none =>
      cases hhas : hasCategory cases with
      | true => simp [hsame hhas, Bool.beq_comm]
      | false =>
        have hexactKey : isExactKey b.key = true := by
          rw [hasCategory, List.any_eq_false] at hhas
          simpa [hdefault] using hhas b hb
        have hne (c : Plural.Category) : c.name ≠ b.key := by
          intro heq
          rw [← heq, isExactKey_category] at hexactKey
          cases hexactKey
        simp [hne c, (hne c').symm]
  rw [triedBody, find?_triedCases (pluralPasses v c.name), hexact, hcategory, pluralBody]

/-! ### Requests -/

/-- What the branches of a choice that count ask for, the choice asks for. -/
theorem mem_choiceRequests {locale : String} {formats : Formats} {cases : List (Branch Node)}
    {n : Node} {r : Request} (hr : r ∈ requests locale formats n)
    (hn : (∃ b ∈ keptCases [] cases, n ∈ b.body) ∨ n ∈ fallbackBody cases) :
    r ∈ choiceRequests (branchRequests locale formats cases) := by
  rw [choiceRequests, branchRequests_eq_map, keptCases_map, fallbackBody_map, List.mem_append,
    List.flatMap_map, List.mem_flatMap]
  rcases hn with ⟨b, hb, hn⟩ | hn
  · exact .inl ⟨b, hb, List.mem_flatten.mpr ⟨_, List.mem_map_of_mem hn, hr⟩⟩
  · exact .inr (List.mem_flatten.mpr ⟨_, List.mem_map_of_mem hn, hr⟩)

/-- A key names the class of the formatters of its kind. -/
theorem formatterClass_formatter (kind : FormatKind) (canonical : String) :
    (SharedKey.formatter kind canonical).formatterClass = formatterClass kind := by
  cases kind <;> rfl

/-- What has the method of plural rules is plural rules. -/
theorem exists_rules (w : Surroundings) (kind : PluralKind) :
    ∃ rules, w.formatter (.pluralRules kind) = .plural rules := by
  have hmethod := w.select_method kind
  cases hformatter : w.formatter (.pluralRules kind) with
  | plural rules => exact ⟨rules, rfl⟩
  | number f =>
    rw [hformatter, Formatter.methodName] at hmethod
    exact absurd hmethod (by decide)
  | date f =>
    rw [hformatter, Formatter.methodName] at hmethod
    exact absurd hmethod (by decide)

/-! ### Elements -/

/-- What callers pass: of functions only their own. -/
def Passable (argument : String → Value) : Prop :=
  ∀ name f, argument name = .function f → ∃ g, f = .given g

/-- A part that is a text whatever happens. -/
theorem says_text (s : String) : Says (.value (pure (.text s)) false true) (.ok s) :=
  ⟨rfl, _, .pure (.text s), rfl, fun _ => rfl⟩

/-- A tag gives what its function makes of the text that it encloses. -/
theorem says_tag [LocaleData] {v : Value} (hv : ∀ f, v = .function f → ∃ g, f = .given g) (selfClosing : Bool)
    {inside : Eval Value} {a : Outcome} (h : Evaluates inside (a.map .text)) :
    Says (tagPart .string v selfClosing inside) (a >>= callTag v) := by
  have hcall (t : String) : Evaluates (Evaluate.callFunction v [.text t])
      ((callTag v t).map .text) := by
    cases v with
    | function f =>
      obtain ⟨g, rfl⟩ := hv f rfl
      exact .pure _
    | _ => exact fun _ => rfl
  have htag : Evaluates (inside >>= fun x => Evaluate.callFunction v [x])
      ((a >>= callTag v).map .text) := by
    intro made
    rw [StateT.run_bind, h made]
    cases a with
    | error e => rfl
    | ok t => exact hcall t made
  refine ⟨rfl, _, htag, ?_, fun _ => rfl⟩
  cases a >>= callTag v <;> rfl

/-- The number that `#` stands for is what is left of the value. -/
theorem toNumber_shift (v : Value) {offset : Float} (h : (offset == 0) = true → offset = 0) :
    (shift v offset).toNumber = v.toNumber - offset := by
  rw [shift]
  split
  · rename_i hzero
    rw [h hzero, Floats.sub_zero]
  · rfl

section Elements

variable [LocaleData] {w : Surroundings} {s : Setting} {locale : String}

/-- Every element evaluates to what interpreting it gives. -/
theorem says_part (hargument : w.argument = s.argument) (hpassable : Passable s.argument) :
    ∀ n : Node, n.All Node.Readable →
      (∀ r ∈ requests locale s.formats n, w.formatter r.1 = r.formatter s.locale) →
      ∀ (count : Option Value) (x : Float), (count.getD .undefined).toNumber = x →
        Says (part .string s.formats w count n) (interpret s x n) := by
  apply Node.Hereditary.holds
  constructor
  case literal =>
    intro span text _ _ count x _
    rw [part, interpret]
    exact rfl
  case argument =>
    intro span name nameSpan _ _ count x _
    rw [part, interpret, hargument]
    exact ⟨rfl, _, .pure _, rfl, Bool.noConfusion⟩
  case select =>
    intro span name nameSpan cases ih hread hserved count x hcount
    have hnode (n : Node) (hcase : ∃ b ∈ cases, n ∈ b.body)
        (hn : (∃ b ∈ keptCases [] cases, n ∈ b.body) ∨ n ∈ fallbackBody cases) :
        Says (part .string s.formats w count n) (interpret s x n) := by
      obtain ⟨b, hb, hmem⟩ := hcase
      refine ih b hb n hmem (hread.of_select b hb n hmem) (fun r hr => hserved r ?_) count x hcount
      rw [requests]
      exact mem_choiceRequests hr hn
    rw [part, interpret, branchParts_eq_map, interpretBranches_eq_map, selectBody_map, hargument,
      ← triedBody_select]
    exact says_choice (isSame_text _)
      (fun b hb n hn => hnode n ⟨b, mem_of_mem_keptCases hb, hn⟩ (.inl ⟨b, hb, hn⟩))
      fun n hn => hnode n (exists_of_mem_fallbackBody hn) (.inr hn)
  case plural =>
    intro span name nameSpan offset kind cases ih hread hserved count x _
    have hnode (n : Node) (hcase : ∃ b ∈ cases, n ∈ b.body)
        (hn : (∃ b ∈ keptCases [] cases, n ∈ b.body) ∨ n ∈ fallbackBody cases) :
        Says (part .string s.formats w (some (shift (s.argument name) offset)) n)
          (interpret s ((s.argument name).toNumber - offset) n) := by
      obtain ⟨b, hb, hmem⟩ := hcase
      refine ih b hb n hmem (hread.of_plural b hb n hmem) (fun r hr => hserved r ?_) _ _
        (toNumber_shift _ hread.self)
      rw [requests]
      exact List.mem_append_right _ (mem_choiceRequests hr hn)
    have hnumber := toNumber_shift (s.argument name) hread.self
    obtain ⟨rules, hrules⟩ := exists_rules w kind
    have hcategory : w.category kind (shift (s.argument name) offset) =
        .text (rules.select ((s.argument name).toNumber - offset)).name := by
      rw [Surroundings.category, hrules, ← hnumber]
      rfl
    -- if a case is chosen by category the rules were asked for, so the program has made them
    have hsame : hasCategory cases = true →
        rules.select ((s.argument name).toNumber - offset) =
          PluralRules.select ⟨s.locale, kind = .ordinal⟩ ((s.argument name).toNumber - offset) := by
      intro hhas
      have hserves := hserved (rulesRequest locale kind) (by
        rw [requests, if_pos hhas]
        exact List.mem_append_left _ (List.mem_singleton.mpr rfl))
      rw [formatter_rulesRequest] at hserves
      rw [Formatter.plural.inj (hrules.symm.trans hserves)]
    rw [part, interpret, branchParts_eq_map, interpretBranches_eq_map, pluralBody_map, hargument,
      hcategory, Setting.category, ← triedBody_plural _ hsame]
    exact says_choice (pluralTrial_eq _ _)
      (fun b hb n hn => hnode n ⟨b, mem_of_mem_keptCases hb, hn⟩ (.inl ⟨b, hb, hn⟩))
      fun n hn => hnode n (exists_of_mem_fallbackBody hn) (.inr hn)
  case format =>
    intro span kind name nameSpan style _ hserved count x _
    have hformatter := hserved (formatterRequest locale kind (styleOptions s.formats kind style))
      (by rw [requests]; exact List.mem_singleton.mpr rfl)
    rw [formatter_formatterRequest, formatterClass_formatter] at hformatter
    rw [part, interpret, hargument, Setting.formatted, ← hformatter]
    exact says_text _
  case pound =>
    intro span _ hserved count x hcount
    have hformatter := hserved (formatterRequest locale .number [])
      (by rw [requests]; exact List.mem_singleton.mpr rfl)
    rw [formatter_formatterRequest, formatterClass_formatter] at hformatter
    -- the count that is formatted is the number that is interpreted
    have hnumber : (w.formatter (formatterRequest locale .number []).1).apply
        [count.getD .undefined] = s.formatted .number [] (.number x) := by
      rw [hformatter, Setting.formatted, ← hcount]
      rfl
    rw [part, interpret, ← hnumber]
    exact says_text _
  case tag =>
    intro span name nameSpan selfClosing children ih hread hserved count x hcount
    have hinside : Evaluates (joinParts (if selfClosing then []
        else parts .string s.formats w count children)).1
        ((concat (if selfClosing then [] else interpretAll s x children)).map .text) := by
      cases selfClosing with
      | true => exact SaysAll.nil.joinParts
      | false =>
        simp only [Bool.false_eq_true, if_false, parts_eq_map, interpretAll_eq_map]
        refine SaysAll.joinParts (saysAll_concat fun n hn => ?_)
        refine ih n hn (hread.of_tag n hn) (fun r hr => hserved r ?_) count x hcount
        rw [requests, if_neg Bool.false_ne_true, listRequests_eq_map]
        exact List.mem_flatten.mpr ⟨_, List.mem_map_of_mem hn, hr⟩
    rw [part, interpret, hargument]
    exact says_tag (hpassable name) selfClosing hinside
  case unknown =>
    intro span _ _ count x _
    rw [part, interpret]
    exact rfl
  case hole =>
    intro _ _ count x _
    rw [part, interpret]
    exact rfl

end Elements

/-! ### Programs -/

namespace Module

variable {m : Module} {es : List Entry} {e : Entry}

/-- A call of an export for strings gives what interpreting its message gives. -/
theorem Keeps.call_interpreted [LocaleData] (h : m.Keeps es) (htarget : m.options.target = .string)
    (hformats : m.formats.Ordinary) (he : e ∈ es) (l : Locale) {args : List (String × Value)}
    (hargs : Passable (argument args)) :
    (m.loadedWith es l).call e.name args =
      (interpretMessage ⟨l, m.formats, argument args⟩ (messageNodes e.text)).map .text := by
  have hserved := h.serves_requests hformats he l args
  have hread := Message.parse_readable (h.compiled e he).parse_eq
  have hsays : SaysAll ((messageNodes e.text).map
      (part .string m.formats (surroundings l m.idle.granted args) none))
      (interpretMessage ⟨l, m.formats, argument args⟩ (messageNodes e.text)) := by
    refine saysAll_concat fun n hn => ?_
    have hnode : ∀ r ∈ requests m.options.effectiveLocale m.formats n,
        (surroundings l m.idle.granted args).formatter r.1 = r.formatter l :=
      fun r hr => hserved r (List.mem_flatten.mpr ⟨_, List.mem_map_of_mem hn, hr⟩)
    exact @says_part _ (surroundings l m.idle.granted args) ⟨l, m.formats, argument args⟩ _ rfl hargs
      n (hread n hn) hnode none _ rfl
  rw [h.call_eq he (h.serves l args), (h.compiled e he).meaning_eq, Module.meaning, htarget,
    hsays.joinParts]
  cases interpretMessage ⟨l, m.formats, argument args⟩ (messageNodes e.text) <;> rfl

theorem Keeps.mem_exportNames (h : m.Keeps es) (l : Locale) (name : Bytes) :
    name ∈ (m.loadedWith es l).exportNames ↔ name ∈ es.map (·.name) := by
  rw [Loaded.exportNames, List.mem_eraseDups, loadedWith, List.map_reverse, List.mem_reverse,
    h.exports, List.map_map]
  rfl

end Module

/-- Programs for strings are faithful: the program that messages are compiled to exports each of
them, and nothing else, and a call gives the text or the error that interpreting the message by
itself gives, in the locale of the program and with its format styles, whatever the data of locales
are. -/
theorem calls_interpreted [LocaleData] (messages : List SourceMessage) (o : Options)
    (hformats : o.formats.Ordinary) {built : Module.Built} {loaded : Loaded}
    (hbuilt : compile messages { o with target := .string } = .ok built)
    (hload : built.program.load = .ok loaded) :
    (∀ name, name ∈ loaded.exportNames ↔ name ∈ messages.map (·.name)) ∧
    ∀ msg ∈ messages, ∃ ns,
      Message.parse 0 Message.defaultLimit (Module.registeredText msg.text) = .ok ns ∧
      ∀ args, Passable (argument args) → loaded.call msg.name args =
        (interpretMessage ⟨o.loadedLocale, Formats.standard.overlay o.formats, argument args⟩
          ns).map .text := by
  obtain ⟨m, es, hkeeps, hcalls, hoptions, hprogram⟩ := exists_keeps_of_compile hbuilt
  have hmformats : m.formats = Formats.standard.overlay o.formats := by
    rw [hkeeps.formats, hoptions]
  have hlocale : m.options.loadedLocale = o.loadedLocale := by
    rw [hoptions]
    rfl
  rw [← hprogram] at hload
  obtain ⟨rfl, _⟩ := hkeeps.load_inv hload
  refine ⟨fun name => ?_, fun msg hmsg => ?_⟩
  · rw [hkeeps.mem_exportNames, ← hcalls, List.map_map]
    rfl
  · rw [← hcalls] at hmsg
    obtain ⟨e, he, rfl⟩ := List.mem_map.mp hmsg
    refine ⟨messageNodes e.text, (hkeeps.compiled e he).parse_eq, fun args hargs => ?_⟩
    have hordinary : m.formats.Ordinary := hmformats ▸ Formats.Ordinary.standard.overlay hformats
    have htarget : m.options.target = .string := by
      rw [hoptions]
    rw [← hlocale, ← hmformats]
    exact hkeeps.call_interpreted htarget hordinary he _ hargs

/-- A message that counts what is left of a number, also inside of tags. -/
def leftOver : SourceMessage :=
  ⟨"a".toUTF8.toList, ("\x7bn, plural, offset:1 =0 \x7bnone\x7d one \x7b# <b>\x7bwho\x7d</b>\x7d " ++
    "other \x7b<b>#</b>\x7d\x7d").toUTF8.toList⟩

/-- Two messages that use one formatter. -/
def counted : List SourceMessage :=
  [leftOver, ⟨"b".toUTF8.toList, "\x7bn, number\x7d".toUTF8.toList⟩]

/-- Two guests, one of them named, and a tag. -/
def guests : List (String × Value) :=
  [("n", .number 2), ("who", .text "x"), ("b", .function (.given (enclose "i")))]

theorem passable_guests : Passable (argument guests) := by
  intro name f hf
  simp only [argument, Evaluate.option?, guests, List.find?_cons] at hf
  split at hf
  · cases hf
  · split at hf
    · cases hf
    · split at hf
      · exact ⟨_, (Value.function.inj hf).symm⟩
      · cases hf

theorem calls_interpreted_counted : letI := LocaleData.common
    ∃ built loaded ns,
      compile counted { Module.plainOptions with target := .string } = .ok built ∧
      built.program.load = .ok loaded ∧ leftOver.name ∈ loaded.exportNames ∧
      Message.parse 0 Message.defaultLimit (Module.registeredText leftOver.text) = .ok ns ∧
      loaded.call leftOver.name guests = (interpretMessage
        ⟨Module.plainOptions.loadedLocale, Formats.standard.overlay Module.plainOptions.formats,
          argument guests⟩ ns).map .text := by
  let _ := LocaleData.common
  have hloads : (compile counted { Module.plainOptions with target := .string }).toOption.any
      (fun built => built.program.load.toOption.isSome) = true := by
    decide +kernel
  cases hbuilt : compile counted { Module.plainOptions with target := .string } with
  | error e =>
    rw [hbuilt] at hloads
    exact Bool.noConfusion hloads
  | ok built =>
    rw [hbuilt] at hloads
    cases hload : built.program.load with
    | error e =>
      simp only [Except.toOption, Option.any_some, hload] at hloads
      exact Bool.noConfusion hloads
    | ok loaded =>
      have hordinary : Module.plainOptions.formats.Ordinary := by
        intro kind
        cases kind <;> decide
      obtain ⟨hexports, hcalls⟩ :=
        calls_interpreted counted Module.plainOptions hordinary hbuilt hload
      obtain ⟨ns, hread, hcall⟩ := hcalls _ List.mem_cons_self
      exact ⟨built, loaded, ns, rfl, hload, (hexports _).mpr List.mem_cons_self, hread,
        hcall guests passable_guests⟩

end Phrasebook.Compile
