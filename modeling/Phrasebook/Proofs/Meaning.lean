import Phrasebook.Evaluate.Run
import Phrasebook.Proofs.Outline

/-!
The meaning of compiled messages. A tree is read directly as pieces that evaluate to values, with
derived values in their places instead of constants; joining and choosing expressions evaluates to
joining and choosing these.
-/
namespace Phrasebook.Compile

open Evaluate (Eval)

/-- What a message meets when it is called: its arguments by name, and shared formatters that have
the methods their keys promise. -/
structure Surroundings where
  argument : String → Value
  formatter : SharedKey → Formatter
  format_method : ∀ kind c, (formatter (.formatter kind c)).methodName = "format"
  select_method : ∀ kind, (formatter (.pluralRules kind)).methodName = "select"

/-- A piece of a message that has been compiled and is evaluated. -/
abbrev Part := Piece (Eval Value)

def Piece.map {α β : Type} (f : α → β) : Piece α → Piece β
  | .literal text => .literal text
  | .value e isMarkup isString => .value (f e) isMarkup isString

def Case.map {α β : Type} (f : α → β) (c : Case α) : Case β :=
  ⟨c.isExact, f c.test, f c.value, c.isMarkup⟩

/-! ### Joining -/

theorem mergeLiterals_map {α β : Type} (f : α → β) (ps : List (Piece α)) :
    mergeLiterals (ps.map (Piece.map f)) = (mergeLiterals ps).map (Piece.map f) := by
  induction ps with
  | nil => rfl
  | cons p r ih =>
    cases p with
    | value e m s => simp only [List.map_cons, Piece.map, mergeLiterals, ih]
    | literal t =>
      simp only [List.map_cons, Piece.map, mergeLiterals, ih]
      split
      · rfl
      · -- the run goes on if the merged rest starts with a literal
        cases hr : mergeLiterals r with
        | nil => rfl
        | cons q r' => cases q <;> rfl

theorem isMarkup_map {α β : Type} (f : α → β) (p : Piece α) : (p.map f).isMarkup = p.isMarkup := by
  cases p <;> rfl

theorem any_isMarkup_map {α β : Type} (f : α → β) (ps : List (Piece α)) :
    (ps.map (Piece.map f)).any Piece.isMarkup = ps.any Piece.isMarkup := by
  rw [List.any_map]
  congr 1
  funext p
  exact isMarkup_map f p

def partValue : Part → Eval Value
  | .literal text => return .text text
  | .value e _ _ => e

/-- Both values in order, then the operator. -/
def operate (op : BinaryOp) (a b : Eval Value) : Eval Value := do
  let x ← a
  let y ← b
  Evaluate.binary op x y

def sum : List (Eval Value) → Eval Value
  | first :: second :: rest => rest.foldl (operate .add) (operate .add first second)
  | _ => return .undefined

def inOrder : List (Eval Value) → Eval (List Value)
  | [] => return []
  | e :: r => do
    let v ← e
    return v :: (← inOrder r)

def sumOperands (parts : List Part) : List (Eval Value) :=
  match parts with
  | .value _ _ false :: _ => pure (.text "") :: parts.map partValue
  | _ => parts.map partValue

def fragment (parts : List Part) : Eval Value := do
  let vs ← inOrder (parts.map partValue)
  return .element (← Eval.newRef) "" vs

/-- The value of pieces side by side, and whether it is markup. -/
def joinParts (parts : List Part) : Eval Value × Bool :=
  match mergeLiterals parts with
  | [] => (return .text "", false)
  | [.literal text] => (return .text text, false)
  | [.value e true _] => (e, true)
  | [.value e false true] => (e, false)
  | merged =>
    if merged.any Piece.isMarkup then (fragment merged, true) else (sum (sumOperands merged), false)

/-! ### Choosing -/

/-- The value of the first case whose test holds. -/
def firstTrue : List (Eval Value × Eval Value) → Eval Value → Eval Value
  | [], fallback => fallback
  | (test, value) :: r, fallback => do
    if (← test).isTruthy then value else firstTrue r fallback

def choicePart (cases : List (Case (Eval Value))) (fallback : Eval Value × Bool) : Part :=
  let ordered := cases.filter (·.isExact) ++ cases.filter (!·.isExact)
  let markup := cases.any (·.isMarkup) || fallback.2
  .value (firstTrue (ordered.map fun c => (c.test, c.value)) fallback.1) markup (!markup)

/-- Whether a value is the one that a selector stands for. -/
def isSame (v w : Value) : Eval Value :=
  Evaluate.binary .strictEq v w

def selectTrial (v : Value) (key : String) (_ : Option Float) : Eval Value :=
  isSame v (.text key)

def pluralTrial (v category : Value) (key : String) (exact : Option Float) : Eval Value :=
  match exact with
  | some x => isSame v (.number x)
  | none => isSame category (.text key)

def casePart (exact : String → Option Float) (trial : String → Option Float → Eval Value)
    (b : Branch Part) : Case (Eval Value) :=
  ⟨(exact b.key).isSome, trial b.key (exact b.key), (joinParts b.body).1, (joinParts b.body).2⟩

def choice (exact : String → Option Float) (trial : String → Option Float → Eval Value)
    (cases : List (Branch Part)) : Part :=
  choicePart ((keptCases [] cases).map (casePart exact trial)) (joinParts (fallbackBody cases))

/-! ### Elements -/

/-- A value less the offset of a plural. -/
def shift (v : Value) (offset : Float) : Value :=
  if offset == 0 then v else .number (v.toNumber - offset)

variable [LocaleData]

namespace Surroundings

def formatted (w : Surroundings) (kind : FormatKind) (o : FormatOptions) (v : Value) : Value :=
  .text ((w.formatter (.formatter kind o.canonical)).apply [v])

def category (w : Surroundings) (kind : PluralKind) (v : Value) : Value :=
  .text ((w.formatter (.pluralRules kind)).apply [v])

end Surroundings

/-- What a tag makes of what it encloses. -/
def tagPart (target : Target) (v : Value) (selfClosing : Bool) (inside : Eval Value) : Part :=
  match target with
  | .tree =>
    .value (if selfClosing then Evaluate.cloneElement [v]
      else do Evaluate.cloneElement [v, .undefined, ← inside]) true false
  | .string => .value (do Evaluate.callFunction v [← inside]) false true

mutual

/-- The meaning of one element; `count` is the value that `#` stands for. -/
def part (target : Target) (formats : Formats) (w : Surroundings) (count : Option Value) :
    Node → Part
  | .literal _ text => .literal text
  | .argument _ name _ => .value (pure (w.argument name)) (target = .tree) false
  | .select _ name _ cases =>
    choice (fun _ => none) (selectTrial (w.argument name))
      (branchParts target formats w count cases)
  | .plural _ name _ offset kind cases =>
    let v := w.argument name
    choice exactValue? (pluralTrial v (w.category kind (shift v offset)))
      (branchParts target formats w (some (shift v offset)) cases)
  | .format _ kind name _ style =>
    .value (pure (w.formatted kind (styleOptions formats kind style) (w.argument name))) false true
  | .pound _ => .value (pure (w.formatted .number [] (count.getD .undefined))) false true
  | .tag _ name _ selfClosing children =>
    tagPart target (w.argument name) selfClosing
      (joinParts (if selfClosing then [] else parts target formats w count children)).1
  | .unknown _ | .hole => .literal ""

def parts (target : Target) (formats : Formats) (w : Surroundings) (count : Option Value) :
    List Node → List Part
  | [] => []
  | n :: r => part target formats w count n :: parts target formats w count r

def branchParts (target : Target) (formats : Formats) (w : Surroundings) (count : Option Value) :
    List (Branch Node) → List (Branch Part)
  | [] => []
  | b :: r => branchPart target formats w count b :: branchParts target formats w count r

def branchPart (target : Target) (formats : Formats) (w : Surroundings) (count : Option Value) :
    Branch Node → Branch Part
  | ⟨key, keySpan, span, body⟩ => ⟨key, keySpan, span, parts target formats w count body⟩

end

theorem parts_eq_map (target : Target) (formats : Formats) (w : Surroundings)
    (count : Option Value) (ns : List Node) :
    parts target formats w count ns = ns.map (part target formats w count) := by
  induction ns with
  | nil => rfl
  | cons n r ih => rw [parts, ih, List.map_cons]

theorem branchParts_eq_map (target : Target) (formats : Formats) (w : Surroundings)
    (count : Option Value) (cases : List (Branch Node)) :
    branchParts target formats w count cases =
      cases.map (·.mapBody (part target formats w count)) := by
  induction cases with
  | nil => rfl
  | cons b r ih =>
    rw [branchParts, ih, List.map_cons, branchPart.eq_def]
    simp only [parts_eq_map, Branch.mapBody]

/-! ### Evaluating what is compiled -/

section Evaluation

variable (scope : Evaluate.Scope)

-- the equations are made once, ahead of the lemmas that rewrite with them
attribute [local simp] Evaluate.expr

theorem partValue_map (p : Piece Expr) :
    partValue (p.map (Evaluate.expr scope)) = Evaluate.expr scope p.expr := by
  cases p with
  | literal t => simp only [Piece.map, partValue, Piece.expr, Evaluate.expr]
  | value e m s => rfl

theorem map_partValue_map (ps : List (Piece Expr)) :
    (ps.map (Piece.map (Evaluate.expr scope))).map partValue =
      (ps.map Piece.expr).map (Evaluate.expr scope) := by
  rw [List.map_map, List.map_map]
  exact List.map_congr_left fun p _ => partValue_map scope p

theorem expr_binary (op : BinaryOp) (a b : Expr) :
    Evaluate.expr scope (.binary op a b) =
      operate op (Evaluate.expr scope a) (Evaluate.expr scope b) := by
  rw [Evaluate.expr, operate]

theorem expr_foldl_binary (op : BinaryOp) (rest : List Expr) (first : Expr) :
    Evaluate.expr scope (rest.foldl (.binary op) first) =
      (rest.map (Evaluate.expr scope)).foldl (operate op) (Evaluate.expr scope first) := by
  induction rest generalizing first with
  | nil => rfl
  | cons e r ih => rw [List.foldl_cons, ih, expr_binary, List.map_cons, List.foldl_cons]

theorem expr_binaryChain (es : List Expr) :
    Evaluate.expr scope ((Expr.binaryChain? .add es).getD .absent) =
      sum (es.map (Evaluate.expr scope)) := by
  match es with
  | [] => exact Evaluate.expr.eq_1 scope
  | [e] => exact Evaluate.expr.eq_1 scope
  | a :: b :: r =>
    rw [Expr.binaryChain?, Option.getD_some, expr_foldl_binary, expr_binary]
    rfl

theorem sumOperands_map (ps : List (Piece Expr)) :
    sumOperands (ps.map (Piece.map (Evaluate.expr scope))) =
      (concatOperands ps).map (Evaluate.expr scope) := by
  have hmap := map_partValue_map scope ps
  match ps with
  | [] => rfl
  | .literal t :: r => exact hmap
  | .value e m true :: r => exact hmap
  | .value e m false :: r =>
    have hempty : Evaluate.expr scope (.string "") = pure (.text "") := by rw [Evaluate.expr]
    simp only [concatOperands, List.map_cons, hempty]
    simp only [List.map_cons] at hmap
    rw [← hmap]
    rfl

theorem children_eq_inOrder (ps : List (Piece Expr)) :
    Evaluate.children scope (ps.map fragmentChild) =
      inOrder ((ps.map (Piece.map (Evaluate.expr scope))).map partValue) := by
  induction ps with
  | nil => rw [List.map_nil, Evaluate.children]; rfl
  | cons p r ih =>
    cases p with
    | literal t =>
      simp only [List.map_cons, fragmentChild, Evaluate.children, Piece.map, partValue, inOrder, ih,
        pure_bind]
    | value e m s =>
      simp only [List.map_cons, fragmentChild, Evaluate.children, Piece.map, partValue, inOrder, ih]

/-- Pieces that are not a value of their own make a fragment or a sum. -/
theorem joinPieces_eval_general (merged : List (Piece Expr)) :
    (Evaluate.expr scope (if merged.any Piece.isMarkup then
        ((Expr.fragment (merged.map fragmentChild), true) : Expr × Bool)
      else ((Expr.binaryChain? .add (concatOperands merged)).getD .absent, false)).1,
      (if merged.any Piece.isMarkup then
        ((Expr.fragment (merged.map fragmentChild), true) : Expr × Bool)
      else ((Expr.binaryChain? .add (concatOperands merged)).getD .absent, false)).2) =
    if (merged.map (Piece.map (Evaluate.expr scope))).any Piece.isMarkup then
      (fragment (merged.map (Piece.map (Evaluate.expr scope))), true)
    else (sum (sumOperands (merged.map (Piece.map (Evaluate.expr scope)))), false) := by
  rw [any_isMarkup_map]
  split
  · simp only [fragment, Evaluate.expr, children_eq_inOrder]
  · simp only [sumOperands_map, expr_binaryChain]

theorem joinPieces_eval (ps : List (Piece Expr)) :
    (Evaluate.expr scope (joinPieces ps).1, (joinPieces ps).2) =
      joinParts (ps.map (Piece.map (Evaluate.expr scope))) := by
  rw [joinPieces, joinParts, mergeLiterals_map]
  generalize mergeLiterals ps = merged
  -- one piece that is its own value, or the general case
  rcases merged with _ | ⟨p, _ | ⟨q, r⟩⟩
  · simp only [List.map_nil, Evaluate.expr]
  · cases p with
    | literal t => simp only [List.map_cons, List.map_nil, Piece.map, Evaluate.expr]
    | value e m s =>
      cases m with
      | true => rfl
      | false =>
        cases s with
        | true => rfl
        | false => exact joinPieces_eval_general scope [.value e false false]
  · cases p with
    | literal t => exact joinPieces_eval_general scope (.literal t :: q :: r)
    | value e m s =>
      cases m <;> cases s <;> exact joinPieces_eval_general scope (.value e _ _ :: q :: r)

theorem expr_ternaryChain (cases : List (Expr × Expr)) (fallback : Expr) :
    Evaluate.expr scope (Expr.ternaryChain cases fallback) =
      firstTrue (cases.map fun c => (Evaluate.expr scope c.1, Evaluate.expr scope c.2))
        (Evaluate.expr scope fallback) := by
  induction cases with
  | nil => rfl
  | cons c r ih =>
    simp only [Expr.ternaryChain, List.foldr_cons, Evaluate.expr, List.map_cons, firstTrue] at ih ⊢
    rw [ih]

theorem choicePiece_eval (cases : List (Case Expr)) (fallback : Expr × Bool) :
    (choicePiece cases fallback).map (Evaluate.expr scope) =
      choicePart (cases.map (Case.map (Evaluate.expr scope)))
        (Evaluate.expr scope fallback.1, fallback.2) := by
  simp only [choicePiece, choicePart, Piece.map, expr_ternaryChain, List.filter_map, List.any_map,
    List.map_append, List.map_map]
  rfl

end Evaluation

end Phrasebook.Compile
