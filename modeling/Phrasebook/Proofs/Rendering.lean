import Phrasebook.Proofs.Targets

/-!
Both targets show the same text. Every part of a message gives a value that is shown as one text,
whether the part is markup or not; joining parts shows their texts side by side, and choosing shows
the text of the same branch.
-/
namespace Phrasebook.Compile

open Evaluate (Eval)

/-! ### Values that are always given -/

/-- Evaluating succeeds, whatever was made before, with a value of a kind. -/
def Gives (e : Eval Value) (P : Value → Prop) : Prop :=
  ∀ made, ∃ v made', e.run made = .ok (v, made') ∧ P v

namespace Gives

variable {e : Eval Value} {P Q : Value → Prop}

theorem pure {v : Value} (h : P v) : Gives (Pure.pure v) P :=
  fun made => ⟨v, made, rfl, h⟩

theorem imp (h : Gives e P) (hpq : ∀ v, P v → Q v) : Gives e Q := by
  intro made
  obtain ⟨v, made', hrun, hv⟩ := h made
  exact ⟨v, made', hrun, hpq v hv⟩

theorem bind {f : Value → Eval Value} (h : Gives e P) (hf : ∀ v, P v → Gives (f v) Q) :
    Gives (e >>= f) Q := by
  intro made
  obtain ⟨v, made', hrun, hv⟩ := h made
  obtain ⟨v', made'', hrun', hv'⟩ := hf v hv made'
  refine ⟨v', made'', ?_, hv'⟩
  rw [StateT.run_bind, hrun]
  exact hrun'

end Gives

/-! ### Joining -/

/-- A part is shown as a text. Outside of markup the text is also what the part adds to a string,
and a string is the text itself. -/
def Renders : Part → String → Prop
  | .literal s, t => s = t
  | .value e isMarkup isString, t => Gives e fun v =>
    v.render = t ∧ (isMarkup = false → v.toText = t) ∧ (isString = true → v = .text t)

/-- Parts side by side are shown as a text. -/
inductive RendersAll : List Part → String → Prop where
  | nil : RendersAll [] ""
  | cons {p : Part} {r : List Part} {t u : String} (hp : Renders p t) (hr : RendersAll r u) :
      RendersAll (p :: r) (t ++ u)

theorem RendersAll.mergeLiterals {ps : List Part} {t : String} (h : RendersAll ps t) :
    RendersAll (mergeLiterals ps) t := by
  induction h with
  | nil => exact .nil
  | @cons p r t u hp hr ih =>
    cases p with
    | value e m s => exact .cons hp ih
    | literal s =>
      obtain rfl : s = t := hp
      rw [Compile.mergeLiterals]
      by_cases hempty : s = ""
      · rw [if_pos hempty, hempty, String.empty_append]
        exact ih
      · rw [if_neg hempty]
        -- a literal in front of the merged rest goes on in this one
        generalize Compile.mergeLiterals r = merged at ih
        cases ih with
        | nil => exact .cons rfl .nil
        | @cons q r' x y hq hr' =>
          cases q with
          | value e m s' => exact .cons rfl (.cons hq hr')
          | literal s' =>
            obtain rfl : s' = x := hq
            rw [← String.append_assoc]
            exact .cons rfl hr'

theorem Renders.partValue {p : Part} {t : String} (h : Renders p t) :
    Gives (partValue p) fun v => v.render = t ∧ (p.isMarkup = false → v.toText = t) := by
  cases p with
  | literal s =>
    obtain rfl : s = t := h
    exact .pure ⟨by rw [Value.render], fun _ => rfl⟩
  | value e m s => exact h.imp fun v hv => ⟨hv.1, hv.2.1⟩

/-- Adding to a string what stands after it. -/
theorem RendersAll.foldl_operate {ps : List Part} {t : String} (h : RendersAll ps t)
    (hmarkup : ps.any Piece.isMarkup = false) {a : Eval Value} {s : String}
    (ha : Gives a (· = .text s)) :
    Gives ((ps.map Compile.partValue).foldl (operate .add) a) (· = .text (s ++ t)) := by
  induction h generalizing a s with
  | nil =>
    rw [String.append_empty]
    exact ha
  | @cons p r t u hp hr ih =>
    rw [List.any_cons, Bool.or_eq_false_iff] at hmarkup
    rw [List.map_cons, List.foldl_cons, ← String.append_assoc]
    -- the sum so far is a string, so adding to it appends
    refine ih hmarkup.2 ?_
    rw [operate]
    refine ha.bind fun x hx => hp.partValue.bind fun y hy => ?_
    rw [hx, Evaluate.binary, hy.2 hmarkup.1]
    exact .pure rfl

/-- A sum of at least two operands of which the first is a string. -/
theorem sum_gives {first : Eval Value} {ps : List Part} {s t : String}
    (hfirst : Gives first (· = .text s)) (hps : RendersAll ps t)
    (hmarkup : ps.any Piece.isMarkup = false) (hne : ps ≠ []) :
    Gives (sum (first :: ps.map partValue)) (· = .text (s ++ t)) := by
  obtain ⟨p, r, rfl⟩ := List.exists_cons_of_ne_nil hne
  exact hps.foldl_operate hmarkup hfirst

theorem RendersAll.inOrder {ps : List Part} {t : String} (h : RendersAll ps t) (made : Nat) :
    ∃ vs made', (inOrder (ps.map Compile.partValue)).run made = .ok (vs, made') ∧
      Value.renderAll vs = t := by
  induction h generalizing made with
  | nil => exact ⟨[], made, rfl, by rw [Value.renderAll]⟩
  | @cons p r t u hp hr ih =>
    obtain ⟨v, made', hrun, hv, _⟩ := hp.partValue made
    obtain ⟨vs, made'', hrest, hvs⟩ := ih made'
    refine ⟨v :: vs, made'', ?_, ?_⟩
    · rw [List.map_cons, Compile.inOrder, StateT.run_bind, hrun]
      change ((Compile.inOrder (r.map Compile.partValue)).run made' >>= fun x =>
        .ok (v :: x.1, x.2)) = _
      rw [hrest]
      rfl
    · rw [Value.renderAll, hv, hvs]

theorem RendersAll.fragment {ps : List Part} {t : String} (h : RendersAll ps t) :
    Gives (fragment ps) fun v => v.render = t := by
  intro made
  obtain ⟨vs, made', hrun, hvs⟩ := h.inOrder made
  refine ⟨.element (.made made') "" vs, made' + 1, ?_, ?_⟩
  · rw [Compile.fragment, StateT.run_bind, hrun]
    rfl
  · simp only [Value.render, if_true]
    exact hvs

/-- Shown as a text, and a text itself unless it is markup. -/
def Shows (t : String) (isMarkup : Bool) (v : Value) : Prop :=
  v.render = t ∧ (isMarkup = false → v = .text t)

theorem shows_text (t : String) (isMarkup : Bool) : Shows t isMarkup (.text t) :=
  ⟨by rw [Value.render], fun _ => rfl⟩

theorem Shows.of_eq {t : String} {isMarkup : Bool} {v : Value} (h : v = .text t) :
    Shows t isMarkup v := by
  rw [h]
  exact shows_text t isMarkup

/-- Operands of a sum: the first is a string, if need be an empty one. -/
theorem RendersAll.sum {p : Part} {r : List Part} {t : String} (h : RendersAll (p :: r) t)
    (hmany : r ≠ [] ∨ ∃ e m, p = .value e m false)
    (hmarkup : (p :: r).any Piece.isMarkup = false) :
    Gives (Compile.sum (sumOperands (p :: r))) (· = .text t) := by
  have hnext := hmarkup
  rw [List.any_cons, Bool.or_eq_false_iff] at hnext
  -- a first operand that is a string leaves others behind it
  have hlead {first : Eval Value} {s u : String} (hfirst : Gives first (· = .text s))
      (hr : RendersAll r u) (hs : ∀ e m, p ≠ .value e m false) :
      Gives (Compile.sum (first :: r.map Compile.partValue)) (· = .text (s ++ u)) := by
    refine sum_gives hfirst hr hnext.2 ?_
    rcases hmany with hr | ⟨e, m, hp⟩
    · exact hr
    · exact absurd hp (hs e m)
  cases h with
  | @cons _ _ t u hp hr =>
    cases p with
    | literal s =>
      obtain rfl : s = t := hp
      refine hlead (.pure rfl) hr fun e m heq => ?_
      cases heq
    | value e m s =>
      cases s with
      | true =>
        refine hlead (Gives.imp hp fun v hv => hv.2.2 rfl) hr fun e' m' heq => ?_
        cases heq
      | false =>
        have hempty : Gives (Pure.pure (.text "")) (· = .text "") := .pure rfl
        have hsum := sum_gives hempty (.cons hp hr) hmarkup (List.cons_ne_nil _ _)
        rw [String.empty_append] at hsum
        exact hsum

/-- Parts side by side are markup if one of them is, else a string. -/
theorem RendersAll.general {p : Part} {r : List Part} {t : String} (h : RendersAll (p :: r) t)
    (hmany : r ≠ [] ∨ ∃ e m, p = .value e m false) :
    Gives (if (p :: r).any Piece.isMarkup then (Compile.fragment (p :: r), true)
        else (Compile.sum (sumOperands (p :: r)), false) : Eval Value × Bool).1
      (Shows t (if (p :: r).any Piece.isMarkup then (Compile.fragment (p :: r), true)
        else (Compile.sum (sumOperands (p :: r)), false) : Eval Value × Bool).2) := by
  cases hmarkup : (p :: r).any Piece.isMarkup with
  | true => exact h.fragment.imp fun v hv => ⟨hv, Bool.noConfusion⟩
  | false => exact (h.sum hmany hmarkup).imp fun v hv => .of_eq hv

theorem RendersAll.joinParts {ps : List Part} {t : String} (h : RendersAll ps t) :
    Gives (joinParts ps).1 (Shows t (joinParts ps).2) := by
  have hmerged := h.mergeLiterals
  rw [Compile.joinParts]
  generalize Compile.mergeLiterals ps = merged at hmerged
  rcases merged with _ | ⟨p, _ | ⟨q, r⟩⟩
  · cases hmerged
    exact .pure (shows_text "" false)
  · cases hmerged with
    | @cons _ _ t u hp hr =>
      cases hr
      rw [String.append_empty]
      cases p with
      | literal s =>
        obtain rfl : s = t := hp
        exact .pure (shows_text s false)
      | value e m s =>
        cases m with
        | true => exact Gives.imp hp fun v hv => ⟨hv.1, Bool.noConfusion⟩
        | false =>
          cases s with
          | true => exact Gives.imp hp fun v hv => .of_eq (hv.2.2 rfl)
          | false =>
            -- a lone value may be no string yet, and is added to an empty one
            have hone : RendersAll [.value e false false] (t ++ "") := .cons hp .nil
            rw [String.append_empty] at hone
            exact hone.general (Or.inr ⟨e, false, rfl⟩)
  · have hgeneral := hmerged.general (Or.inl (List.cons_ne_nil q r))
    cases p with
    | literal s => exact hgeneral
    | value e m s => cases m <;> cases s <;> exact hgeneral

theorem any_isMarkup_mergeLiterals (ps : List Part) :
    (mergeLiterals ps).any Piece.isMarkup = ps.any Piece.isMarkup := by
  induction ps with
  | nil => rfl
  | cons p r ih =>
    cases p with
    | value e m s => simp only [mergeLiterals, List.any_cons, ih]
    | literal t =>
      have hliteral (u : String) : Piece.isMarkup (.literal u : Part) = false := rfl
      rw [mergeLiterals, List.any_cons, hliteral, Bool.false_or, ← ih]
      split
      · rfl
      · generalize mergeLiterals r = merged
        rcases merged with _ | ⟨q, r'⟩
        · rfl
        · cases q with
          | value e m s => rw [List.any_cons, hliteral, Bool.false_or]
          | literal u => rw [List.any_cons, List.any_cons, hliteral, hliteral]

/-- Parts side by side are markup if one of them is. -/
theorem joinParts_isMarkup (ps : List Part) : (joinParts ps).2 = ps.any Piece.isMarkup := by
  rw [← any_isMarkup_mergeLiterals, joinParts]
  generalize mergeLiterals ps = merged
  have hgeneral : (if merged.any Piece.isMarkup then (fragment merged, true)
      else (sum (sumOperands merged), false) : Eval Value × Bool).2 =
        merged.any Piece.isMarkup := by
    cases merged.any Piece.isMarkup <;> rfl
  rcases merged with _ | ⟨p, _ | ⟨q, r⟩⟩
  · rfl
  · cases p with
    | literal t => rfl
    | value e m s => cases m <;> cases s <;> rfl
  · cases p with
    | literal t => exact hgeneral
    | value e m s => cases m <;> cases s <;> exact hgeneral

/-! ### Two meanings of one tree -/

/-- Two parts that are shown as one text. -/
def SameText (p p' : Part) : Prop :=
  ∃ t, Renders p t ∧ Renders p' t

section Choosing

variable {f f' : Node → Part}

theorem rendersAll_of_sameText {ns : List Node} (h : ∀ n ∈ ns, SameText (f n) (f' n)) :
    ∃ t, RendersAll (ns.map f) t ∧ RendersAll (ns.map f') t := by
  induction ns with
  | nil => exact ⟨"", .nil, .nil⟩
  | cons n r ih =>
    obtain ⟨t, hp, hp'⟩ := h n List.mem_cons_self
    obtain ⟨u, hr, hr'⟩ := ih fun m hm => h m (List.mem_cons_of_mem _ hm)
    exact ⟨t ++ u, .cons hp hr, .cons hp' hr'⟩

theorem joinParts_of_sameText {ns : List Node} (h : ∀ n ∈ ns, SameText (f n) (f' n)) :
    ∃ t, Gives (joinParts (ns.map f)).1 (Shows t (joinParts (ns.map f)).2) ∧
      Gives (joinParts (ns.map f')).1 (Shows t (joinParts (ns.map f')).2) := by
  obtain ⟨t, hall, hall'⟩ := rendersAll_of_sameText h
  exact ⟨t, hall.joinParts, hall'.joinParts⟩

/-- The same tests lead to the same case. -/
theorem firstTrue_sameText {α : Type} {l : List α} {test value value' : α → Eval Value}
    {fallback fallback' : Eval Value} {isMarkup isMarkup' : Bool}
    (htest : ∀ a, ∃ b, test a = pure (.flag b))
    (hvalue : ∀ a ∈ l, ∃ t, Gives (value a) (Shows t isMarkup) ∧
      Gives (value' a) (Shows t isMarkup'))
    (hfallback : ∃ t, Gives fallback (Shows t isMarkup) ∧ Gives fallback' (Shows t isMarkup')) :
    ∃ t, Gives (firstTrue (l.map fun a => (test a, value a)) fallback) (Shows t isMarkup) ∧
      Gives (firstTrue (l.map fun a => (test a, value' a)) fallback') (Shows t isMarkup') := by
  induction l with
  | nil => exact hfallback
  | cons a r ih =>
    obtain ⟨b, hb⟩ := htest a
    simp only [List.map_cons, firstTrue, hb, pure_bind]
    cases b with
    | true => exact hvalue a List.mem_cons_self
    | false => exact ih fun x hx => hvalue x (List.mem_cons_of_mem _ hx)

/-- What is shown outside of markup may stand in markup. -/
theorem Shows.weaken {t : String} {isMarkup whole : Bool} {v : Value} (h : Shows t isMarkup v)
    (hwhole : whole = false → isMarkup = false) : Shows t whole v :=
  ⟨h.1, fun hw => h.2 (hwhole hw)⟩

theorem Renders.of_shows {e : Eval Value} {isMarkup : Bool} {t : String}
    (h : Gives e (Shows t isMarkup)) : Renders (.value e isMarkup (!isMarkup)) t := by
  refine h.imp fun v hv => ⟨hv.1, ?_, ?_⟩
  · intro hm
    rw [hv.2 hm]
    rfl
  · intro hs
    exact hv.2 (by simpa using hs)

/-- Whether the choice of some branches is markup. -/
def choiceIsMarkup (f : Node → Part) (cases : List (Branch Node)) : Bool :=
  (keptCases [] cases).any (fun b => (joinParts (b.body.map f)).2) ||
    (joinParts ((fallbackBody cases).map f)).2

/-- The branches of a choice in the order in which they are tried. -/
def triedCases (exact : String → Option Float) (cases : List (Branch Node)) : List (Branch Node) :=
  (keptCases [] cases).filter (fun b => (exact b.key).isSome) ++
    (keptCases [] cases).filter (fun b => !(exact b.key).isSome)

theorem choice_eq (exact : String → Option Float) (trial : String → Option Float → Eval Value)
    (f : Node → Part) (cases : List (Branch Node)) :
    choice exact trial (cases.map (·.mapBody f)) =
      .value (firstTrue ((triedCases exact cases).map fun b =>
          (trial b.key (exact b.key), (joinParts (b.body.map f)).1))
        (joinParts ((fallbackBody cases).map f)).1)
        (choiceIsMarkup f cases) (!choiceIsMarkup f cases) := by
  rw [choice, keptCases_map, fallbackBody_map, choicePart]
  simp only [List.map_map, List.filter_map, List.map_append, List.any_map, triedCases,
    choiceIsMarkup]
  rfl

theorem mem_of_mem_triedCases {exact : String → Option Float} {cases : List (Branch Node)}
    {b : Branch Node} (h : b ∈ triedCases exact cases) : b ∈ keptCases [] cases := by
  rcases List.mem_append.mp h with h | h
  · exact List.mem_of_mem_filter h
  · exact List.mem_of_mem_filter h

theorem choice_sameText {exact : String → Option Float} {trial : String → Option Float → Eval Value}
    (htrial : ∀ key, ∃ b, trial key (exact key) = pure (.flag b)) {cases : List (Branch Node)}
    (h : ∀ b ∈ cases, ∀ n ∈ b.body, SameText (f n) (f' n)) :
    SameText (choice exact trial (cases.map (·.mapBody f)))
      (choice exact trial (cases.map (·.mapBody f'))) := by
  -- if there is no markup in a choice there is none in any of its bodies
  have hmarkup {g : Node → Part} {b : Branch Node} (hb : b ∈ keptCases [] cases) :
      choiceIsMarkup g cases = false → (joinParts (b.body.map g)).2 = false := by
    intro hno
    rw [choiceIsMarkup, Bool.or_eq_false_iff, List.any_eq_false] at hno
    simpa using hno.1 b hb
  have hmarkup' {g : Node → Part} :
      choiceIsMarkup g cases = false → (joinParts ((fallbackBody cases).map g)).2 = false := by
    intro hno
    rw [choiceIsMarkup, Bool.or_eq_false_iff] at hno
    exact hno.2
  have hbodies : ∀ b ∈ triedCases exact cases, ∃ t,
      Gives (joinParts (b.body.map f)).1 (Shows t (choiceIsMarkup f cases)) ∧
        Gives (joinParts (b.body.map f')).1 (Shows t (choiceIsMarkup f' cases)) := by
    intro b hb
    have hkept := mem_of_mem_triedCases hb
    obtain ⟨t, hbody, hbody'⟩ := joinParts_of_sameText (h b (mem_of_mem_keptCases hkept))
    exact ⟨t, hbody.imp fun v hv => hv.weaken (hmarkup hkept),
      hbody'.imp fun v hv => hv.weaken (hmarkup hkept)⟩
  have hfallback : ∃ t,
      Gives (joinParts ((fallbackBody cases).map f)).1 (Shows t (choiceIsMarkup f cases)) ∧
        Gives (joinParts ((fallbackBody cases).map f')).1 (Shows t (choiceIsMarkup f' cases)) := by
    have hnodes : ∀ n ∈ fallbackBody cases, SameText (f n) (f' n) := by
      intro n hn
      obtain ⟨b, hb, hn⟩ := exists_of_mem_fallbackBody hn
      exact h b hb n hn
    obtain ⟨t, hbody, hbody'⟩ := joinParts_of_sameText hnodes
    exact ⟨t, hbody.imp fun v hv => hv.weaken hmarkup', hbody'.imp fun v hv => hv.weaken hmarkup'⟩
  obtain ⟨t, hshows, hshows'⟩ :=
    firstTrue_sameText (fun b : Branch Node => htrial b.key) hbodies hfallback
  rw [choice_eq, choice_eq]
  exact ⟨t, .of_shows hshows, .of_shows hshows'⟩

end Choosing

/-! ### Arguments -/

/-- A text between tags. -/
def enclose (tag text : String) : String :=
  "<" ++ tag ++ ">" ++ text ++ "</" ++ tag ++ ">"

/-- An argument for strings and the one for markup: both are the same, or a function that encloses
texts and an element of that tag. -/
inductive Counterpart : Value → Value → Prop where
  | same (v : Value) : Counterpart v v
  | tag {t : String} (ht : t ≠ "") (ref : Ref) (children : List Value) :
      Counterpart (.function (.given (enclose t))) (.element ref t children)

namespace Counterpart

variable {v v' : Value}

theorem eq_text {s : String} (h : Counterpart (.text s) v') : v' = .text s := by
  cases h with
  | same => rfl

theorem eq_number {x : Float} (h : Counterpart (.number x) v') : v' = .number x := by
  cases h with
  | same => rfl

theorem toNumber (h : Counterpart v v') : v'.toNumber = v.toNumber := by
  cases h with
  | same => rfl
  | tag => rfl

theorem moment? (h : Counterpart v v') : v'.moment? = v.moment? := by
  cases h with
  | same => rfl
  | tag => rfl

theorem shift (h : Counterpart v v') (offset : Float) :
    Counterpart (shift v offset) (shift v' offset) := by
  rw [Compile.shift, Compile.shift, h.toNumber]
  split
  · exact h
  · exact .same _

/-- A formatter makes the same of both. -/
theorem apply [LocaleData] (h : Counterpart v v') (f : Formatter) : f.apply [v'] = f.apply [v] := by
  cases f with
  | number f => rw [Formatter.apply, Formatter.apply, h.toNumber]
  | date f => rw [Formatter.apply, Formatter.apply, h.moment?]
  | plural rules => rw [Formatter.apply, Formatter.apply, h.toNumber]

theorem isSame_text (h : Counterpart v v') (s : String) :
    isSame v' (.text s) = isSame v (.text s) := by
  cases h with
  | same => rfl
  | tag => rfl

theorem isSame_number (h : Counterpart v v') (x : Float) :
    isSame v' (.number x) = isSame v (.number x) := by
  cases h with
  | same => rfl
  | tag => rfl

end Counterpart

/-- Texts and numbers can be compared with anything. -/
theorem isSame_text_eq (v : Value) (s : String) : ∃ b, isSame v (.text s) = pure (.flag b) := by
  cases v <;> exact ⟨_, rfl⟩

theorem isSame_number_eq (v : Value) (x : Float) :
    ∃ b, isSame v (.number x) = pure (.flag b) := by
  cases v <;> exact ⟨_, rfl⟩

/-- What the arguments for strings and those for markup must be at an element: texts or numbers
where they stand for themselves, and a function and an element where they name a tag. -/
def Node.Suits (args args' : String → Value) : Node → Prop
  | .argument _ name _ => (∃ s, args name = .text s) ∨ ∃ x, args name = .number x
  | .tag _ name .. => ∃ t ref children, t ≠ "" ∧
    args name = .function (.given (enclose t)) ∧ args' name = .element ref t children
  | _ => True

/-- No tag without an end. -/
def Node.Paired : Node → Prop
  | .tag _ _ _ selfClosing _ => selfClosing = false
  | _ => True

/-! ### Trees -/

section Trees

variable [LocaleData] {formats : Formats} {w w' : Surroundings}

theorem tagPart_sameText {inside inside' : Eval Value} {text : String} {isMarkup isMarkup' : Bool}
    {t : String} (ht : t ≠ "") (ref : Ref) (children : List Value)
    (h : Gives inside (Shows text isMarkup)) (hstring : isMarkup = false)
    (h' : Gives inside' (Shows text isMarkup')) :
    SameText (tagPart .string (.function (.given (enclose t))) false inside)
      (tagPart .tree (.element ref t children) false inside') := by
  refine ⟨enclose t text, ?_, ?_⟩
  · refine h.bind fun v hv => ?_
    rw [hv.2 hstring]
    exact .pure ⟨by rw [Value.render]; rfl, fun _ => rfl, fun _ => rfl⟩
  · refine h'.bind fun v hv => ?_
    intro made
    refine ⟨.element (.made made) t [v], made + 1, rfl, ?_, Bool.noConfusion, Bool.noConfusion⟩
    simp only [Value.render, Value.renderAll, if_neg ht, hv.1, List.isEmpty_cons,
      Bool.false_eq_true, if_false, String.append_empty]
    rfl

/-- Strings have no markup in them. -/
theorem isMarkup_part_string (formats : Formats) (w : Surroundings) :
    ∀ (n : Node) (count : Option Value), (part .string formats w count n).isMarkup = false := by
  have hchoice {exact : String → Option Float} {trial : String → Option Float → Eval Value}
      {f : Node → Part} {cases : List (Branch Node)}
      (h : ∀ b ∈ cases, ∀ n ∈ b.body, (f n).isMarkup = false) :
      (choice exact trial (cases.map (·.mapBody f))).isMarkup = false := by
    have hany {ns : List Node} (hns : ∀ n ∈ ns, (f n).isMarkup = false) :
        (joinParts (ns.map f)).2 = false := by
      rw [joinParts_isMarkup, List.any_map, List.any_eq_false]
      intro n hn
      rw [Function.comp_apply, hns n hn]
      exact Bool.false_ne_true
    rw [choice_eq, Piece.isMarkup, choiceIsMarkup, Bool.or_eq_false_iff, List.any_eq_false]
    refine ⟨fun b hb => ?_, hany fun n hn => ?_⟩
    · rw [hany (h b (mem_of_mem_keptCases hb))]
      exact Bool.false_ne_true
    · obtain ⟨b, hb, hn⟩ := exists_of_mem_fallbackBody hn
      exact h b hb n hn
  apply Node.Hereditary.holds
  constructor
  case select =>
    intro span name nameSpan cases ih count
    rw [part, branchParts_eq_map]
    exact hchoice fun b hb n hn => ih b hb n hn count
  case plural =>
    intro span name nameSpan offset kind cases ih count
    rw [part, branchParts_eq_map]
    exact hchoice fun b hb n hn => ih b hb n hn _
  case tag =>
    intro span name nameSpan selfClosing children ih count
    rw [part]
    rfl
  all_goals
    intros
    rw [part]
    rfl

/-- What surrounds a message for strings and what surrounds it for markup. -/
structure Corresponds (w w' : Surroundings) : Prop where
  formatter : w'.formatter = w.formatter
  argument : ∀ name, Counterpart (w.argument name) (w'.argument name)

/-- Both targets show the same text. -/
theorem part_sameText (h : Corresponds w w') :
    ∀ n : Node, n.All (Node.Suits w.argument w'.argument) → n.All Node.Paired →
      ∀ count count' : Option Value, Counterpart (count.getD .undefined) (count'.getD .undefined) →
        SameText (part .string formats w count n) (part .tree formats w' count' n) := by
  -- formatters make strings, and the same ones of counterparts
  have hformatted (kind : FormatKind) (o : FormatOptions) {v v' : Value} (hv : Counterpart v v') :
      SameText (.value (pure (w.formatted kind o v)) false true)
        (.value (pure (w'.formatted kind o v')) false true) := by
    have hsame : w'.formatted kind o v' = w.formatted kind o v := by
      rw [Surroundings.formatted, Surroundings.formatted, h.formatter, hv.apply]
    rw [hsame]
    refine ⟨(w.formatter (.formatter kind o.canonical)).apply [v], ?_, ?_⟩ <;>
      exact .pure ⟨by rw [Surroundings.formatted, Value.render], fun _ => rfl, fun _ => rfl⟩
  apply Node.Hereditary.holds
  constructor
  case literal =>
    intro span text _ _ count count' _
    rw [part, part]
    exact ⟨text, rfl, rfl⟩
  case argument =>
    intro span name nameSpan hsuits _ count count' _
    rw [part, part]
    -- what stands plainly is a string or a number, so both targets are given the same
    have hplain : (∃ s, w.argument name = .text s) ∨ ∃ x, w.argument name = .number x := hsuits.self
    have hsame := h.argument name
    rcases hplain with ⟨s, hs⟩ | ⟨x, hx⟩
    · rw [hs] at hsame
      rw [hs, hsame.eq_text]
      refine ⟨s, .pure ?_, .pure ?_⟩
      · exact ⟨by rw [Value.render], fun _ => rfl, Bool.noConfusion⟩
      · exact ⟨by rw [Value.render], fun _ => rfl, Bool.noConfusion⟩
    · rw [hx] at hsame
      rw [hx, hsame.eq_number]
      refine ⟨Decimal.literal x, .pure ?_, .pure ?_⟩
      · exact ⟨by rw [Value.render], fun _ => rfl, Bool.noConfusion⟩
      · exact ⟨by rw [Value.render], fun _ => rfl, Bool.noConfusion⟩
  case select =>
    intro span name nameSpan cases ih hsuits hpaired count count' hcount
    have htrial : selectTrial (w'.argument name) = selectTrial (w.argument name) := by
      funext key x
      exact (h.argument name).isSame_text key
    rw [part, part, branchParts_eq_map, branchParts_eq_map, htrial]
    refine choice_sameText (fun key => isSame_text_eq _ key) fun b hb n hn => ?_
    exact ih b hb n hn (hsuits.of_select b hb n hn) (hpaired.of_select b hb n hn) count count' hcount
  case plural =>
    intro span name nameSpan offset kind cases ih hsuits hpaired count count' _
    have hshift := (h.argument name).shift offset
    have hcategory : w'.category kind (shift (w'.argument name) offset) =
        w.category kind (shift (w.argument name) offset) := by
      rw [Surroundings.category, Surroundings.category, h.formatter, hshift.apply]
    have htrial (category : Value) : pluralTrial (w'.argument name) category =
        pluralTrial (w.argument name) category := by
      funext key x
      cases x with
      | none => rfl
      | some x => exact (h.argument name).isSame_number x
    rw [part, part, branchParts_eq_map, branchParts_eq_map]
    simp only [hcategory, htrial]
    refine choice_sameText (fun key => ?_) fun b hb n hn => ?_
    · cases exactValue? key with
      | none => exact isSame_text_eq _ key
      | some x => exact isSame_number_eq _ x
    · exact ih b hb n hn (hsuits.of_plural b hb n hn) (hpaired.of_plural b hb n hn) _ _ hshift
  case format =>
    intro span kind name nameSpan style _ _ count count' _
    rw [part, part]
    exact hformatted kind _ (h.argument name)
  case pound =>
    intro span _ _ count count' hcount
    rw [part, part]
    exact hformatted .number [] hcount
  case tag =>
    intro span name nameSpan selfClosing children ih hsuits hpaired count count' hcount
    obtain rfl : selfClosing = false := hpaired.self
    obtain ⟨t, ref, inner, ht, hfunction, helement⟩ := hsuits.self
    have hnodes : ∀ n ∈ children,
        SameText (part .string formats w count n) (part .tree formats w' count' n) := fun n hn =>
      ih n hn (hsuits.of_tag n hn) (hpaired.of_tag n hn) count count' hcount
    obtain ⟨text, hinside, hinside'⟩ := joinParts_of_sameText hnodes
    have hstring : (joinParts (children.map (part .string formats w count))).2 = false := by
      rw [joinParts_isMarkup, List.any_map, List.any_eq_false]
      intro n _
      rw [Function.comp_apply, isMarkup_part_string]
      exact Bool.false_ne_true
    rw [part, part, hfunction, helement, parts_eq_map, parts_eq_map]
    exact tagPart_sameText ht ref inner hinside hstring hinside'
  case unknown =>
    intro span _ _ count count' _
    rw [part, part]
    exact ⟨"", rfl, rfl⟩
  case hole =>
    intro _ _ count count' _
    rw [part, part]
    exact ⟨"", rfl, rfl⟩

end Trees

/-! ### Programs -/

/-- The argument of a name; one that is not given is undefined. -/
def argument (args : List (String × Value)) (name : String) : Value :=
  (Evaluate.option? args name).getD .undefined

/-- Loads a program, calls one of its exports and shows the value. -/
def renderMessage [LocaleData] (p : Program) (name : Bytes) (args : List (String × Value)) :
    Except RunError String := do
  let loaded ← p.load
  let v ← loaded.call name args
  return v.render

namespace Module

variable {m m' : Module} {es es' : List Entry}

/-- Calls of one message in both modules are shown as one text. -/
theorem Lockstep.renderMessage [LocaleData] (h : Lockstep m m' es es') {loaded : Loaded}
    (hload : m.program.load = .ok loaded) {e : Entry} (he : e ∈ es)
    (hpaired : ∀ n ∈ messageNodes e.text, n.All Node.Paired) {args args' : List (String × Value)}
    (hargs : ∀ name, Counterpart (argument args name) (argument args' name))
    (hsuits : ∀ n ∈ messageNodes e.text, n.All (Node.Suits (argument args) (argument args'))) :
    ∃ text, renderMessage m.program e.name args = .ok text ∧
      renderMessage m'.program e.name args' = .ok text := by
  obtain ⟨rfl, hload'⟩ := h.load hload
  obtain ⟨e', he', hname, htext⟩ := h.exists_entry he
  let l := m.options.loadedLocale
  have hcall := h.keeps.call_eq he (h.keeps.serves l args)
  have hcall' := h.keeps'.call_eq he' (h.keeps'.serves l args')
  rw [(h.keeps.compiled e he).meaning_eq, Module.meaning, h.target] at hcall
  rw [(h.keeps'.compiled e' he').meaning_eq, Module.meaning, h.target', h.granted, h.formats,
    hname, htext] at hcall'
  -- the two calls run in the same formatters, and differ in their arguments only
  have hcorresponds : Corresponds (surroundings l m.idle.granted args)
      (surroundings l m.idle.granted args') :=
    ⟨rfl, hargs⟩
  obtain ⟨text, hgives, hgives'⟩ := joinParts_of_sameText fun n hn =>
    @part_sameText _ m.formats _ _ hcorresponds n (hsuits n hn) (hpaired n hn) none none (.same _)
  obtain ⟨v, made, hrun, hv⟩ := hgives (m.loadedWith es l).made
  obtain ⟨v', made', hrun', hv'⟩ := hgives' (m'.loadedWith es' l).made
  rw [hrun] at hcall
  rw [hrun'] at hcall'
  refine ⟨text, ?_, ?_⟩
  · rw [Compile.renderMessage, hload]
    change ((m.loadedWith es l).call e.name args >>= fun v => .ok v.render) = _
    rw [hcall, ← hv.1]
    rfl
  · rw [Compile.renderMessage, hload']
    change ((m'.loadedWith es' l).call e.name args' >>= fun v => .ok v.render) = _
    rw [hcall', ← hv'.1]
    rfl

end Module

/-- The two targets agree: they compile the same messages and fail with one finding, and what they
compile is shown as one text, whatever the data of locales. -/
theorem targets_agree [LocaleData] (messages : List SourceMessage) (o : Options) :
    let strings := compile messages { o with target := .string }
    let markup := compile messages { o with target := .tree }
    ((∃ built, strings = .ok built) ↔ ∃ built', markup = .ok built') ∧
    (∀ e e', strings = .error e → markup = .error e' → SameError e e') ∧
    ∀ built built' loaded, strings = .ok built → markup = .ok built' →
      built.program.load = .ok loaded →
      ∀ msg ∈ messages, ∃ ns,
        Message.parse 0 Message.defaultLimit (Module.registeredText msg.text) = .ok ns ∧
        ((∀ n ∈ ns, n.All Node.Paired) → ∀ args args',
          (∀ name, Counterpart (argument args name) (argument args' name)) →
          (∀ n ∈ ns, n.All (Node.Suits (argument args) (argument args'))) →
          ∃ text, renderMessage built.program msg.name args = .ok text ∧
            renderMessage built'.program msg.name args' = .ok text) := by
  have hstart : Module.Lockstep (Module.new .empty { o with target := .string })
      (Module.new .empty { o with target := .tree }) [] [] :=
    ⟨⟨Module.keeps_new _ _, Module.keeps_new _ _, rfl, rfl, rfl⟩, rfl, rfl, rfl, rfl, rfl, rfl⟩
  -- both modules are filled side by side
  have htogether := hstart.addMessages messages
  simp only [compile]
  revert htogether
  generalize addMessages (Module.new .empty { o with target := .string }) messages = r
  generalize addMessages (Module.new .empty { o with target := .tree }) messages = r'
  intro htogether
  cases htogether with
  | error he =>
    refine ⟨⟨?_, ?_⟩, ?_, ?_⟩
    · rintro ⟨built, hbuilt⟩
      cases hbuilt
    · rintro ⟨built, hbuilt⟩
      cases hbuilt
    · intro e e' hstrings hmarkup
      cases hstrings
      cases hmarkup
      exact he
    · intro built built' loaded hstrings
      cases hstrings
  | @ok m m' new new' hcalls h =>
    rw [List.nil_append, List.nil_append] at h
    have hbuild := h.keeps.build h.isOpen
    have hbuild' := h.keeps'.build h.isOpen'
    have hbind : (Except.ok m >>= fun k : Module => k.build.2) = m.build.2 := rfl
    have hbind' : (Except.ok m' >>= fun k : Module => k.build.2) = m'.build.2 := rfl
    rw [hbind, hbind', hbuild, hbuild']
    refine ⟨⟨fun _ => ⟨_, rfl⟩, fun _ => ⟨_, rfl⟩⟩, ?_, ?_⟩
    · intro e e' hstrings
      cases hstrings
    · intro built built' loaded hstrings hmarkup hload msg hmsg
      cases hstrings
      cases hmarkup
      rw [← hcalls] at hmsg
      obtain ⟨e, he, rfl⟩ := List.mem_map.mp hmsg
      refine ⟨messageNodes e.text, (h.keeps.compiled e he).parse_eq, ?_⟩
      intro hpaired args args' hargs hsuits
      exact h.renderMessage hload he hpaired hargs hsuits

/-- One message with a tag around an argument. -/
def tagged : List SourceMessage := [⟨"a".toUTF8.toList, "<b>\x7bx\x7d</b>".toUTF8.toList⟩]

def isTagged : List Node → Bool
  | [.tag _ "b" _ false [.argument _ "x" _]] => true
  | _ => false

theorem all_of_isTagged {p : Node → Prop} {ns : List Node} (h : isTagged ns = true)
    (htag : ∀ span nameSpan children, p (.tag span "b" nameSpan false children))
    (hargument : ∀ span nameSpan, p (.argument span "x" nameSpan)) : ∀ n ∈ ns, n.All p := by
  unfold isTagged at h
  split at h
  · intro n hn
    rw [List.mem_singleton.mp hn]
    refine .tag (htag _ _ _) fun k hk => ?_
    rw [List.mem_singleton.mp hk]
    intro j hj
    cases hj
    exact hargument _ _
  · cases h

theorem targets_agree_tagged : letI := LocaleData.common
    ∃ built built' text,
      compile tagged { Module.plainOptions with target := .string } = .ok built ∧
      compile tagged { Module.plainOptions with target := .tree } = .ok built' ∧
      renderMessage built.program "a".toUTF8.toList
        [("x", .number 3), ("b", .function (.given (enclose "i")))] = .ok text ∧
      renderMessage built'.program "a".toUTF8.toList
        [("x", .number 3), ("b", .element (.given 0) "i" [])] = .ok text := by
  let _ := LocaleData.common
  obtain ⟨hiff, _, hrender⟩ := targets_agree tagged Module.plainOptions
  have hloads : (compile tagged { Module.plainOptions with target := .string }).toOption.any
      (fun built => built.program.load.toOption.isSome) = true := by
    decide +kernel
  have hshape : (Message.parse 0 Message.defaultLimit (Module.registeredText
      "<b>\x7bx\x7d</b>".toUTF8.toList)).toOption.any isTagged = true := by
    decide +kernel
  cases hstrings : compile tagged { Module.plainOptions with target := .string } with
  | error e =>
    rw [hstrings] at hloads
    cases hloads
  | ok built =>
    rw [hstrings] at hloads
    obtain ⟨built', hmarkup⟩ := hiff.mp ⟨built, hstrings⟩
    cases hload : built.program.load with
    | error e =>
      simp only [Except.toOption, Option.any_some, hload] at hloads
      cases hloads
    | ok loaded =>
      obtain ⟨ns, hread, htexts⟩ := hrender built built' loaded hstrings hmarkup hload _
        List.mem_cons_self
      rw [hread] at hshape
      have htagged : isTagged ns = true := hshape
      obtain ⟨text, htext, htext'⟩ := htexts (all_of_isTagged htagged (fun _ _ _ => rfl) (fun _ _ => trivial))
        [("x", .number 3), ("b", .function (.given (enclose "i")))]
        [("x", .number 3), ("b", .element (.given 0) "i" [])]
        (fun name => by
          by_cases hx : "x" = name
          · rw [← hx]
            exact .same _
          · by_cases hb : "b" = name
            · rw [← hb]
              exact .tag (by decide) _ _
            · simp only [argument, Evaluate.option?, List.find?_cons, List.find?_nil,
                beq_false_of_ne hx, beq_false_of_ne hb]
              exact .same _)
        (all_of_isTagged htagged
          (fun _ _ _ => ⟨"i", .given 0, [], by decide, rfl, rfl⟩) fun _ _ => Or.inr ⟨3, rfl⟩)
      exact ⟨built, built', text, rfl, hmarkup, htext, htext'⟩

end Phrasebook.Compile
