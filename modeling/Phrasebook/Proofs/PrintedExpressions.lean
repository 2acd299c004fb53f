import Phrasebook.Proofs.PrintedTokens

/-!
Printed expressions are understood as what they were printed from. The parentheses that printing
puts are those that the grammar asks for, except around two kinds of callees.
-/
namespace Phrasebook.Program

open Decimal Script

/-! ### What expressions mean -/

/-- A negative number is written with a minus in front. -/
def numberTerm (x : Float) : Term :=
  if isNegative x then .negate (.number (-x)) else .number x

mutual

/-- What an expression says. A text between tags says what the text in braces says. An expression
of an unknown kind says nothing. -/
def tree : Expr → Term
  | .string s => .text s
  | .number x => numberTerm x
  | .bool b => .bool b
  | .ident name => .name name
  | .member object property => .member (tree object) (.text property)
  | .call callee args => .call (tree callee) (itemTrees args)
  | .new callee args => .new (tree callee) (itemTrees args)
  | .binary op left right => .binary op (tree left) (tree right)
  | .conditional test yes no => .conditional (tree test) (tree yes) (tree no)
  | .object props => .object (propTrees props)
  | .fragment children => .markup (childTrees children)
  | .unknown => .name ""
  | .absent => .name "undefined"

def itemTrees : List Expr → List Term
  | [] => []
  | e :: r => tree e :: itemTrees r

def propTrees : List (String × Expr) → List (String × Term)
  | [] => []
  | (k, e) :: r => (k, tree e) :: propTrees r

def childTrees : List (Child Expr) → List Term
  | [] => []
  | .text s :: r => .text s :: childTrees r
  | .container e :: r => tree e :: childTrees r

end

/-! ### Callees -/

/-- Whether a call that stands in front of accesses is open to a `new` before it. -/
def exposesCall : Expr → Bool
  | .call .. => true
  | .member object _ => exposesCall object
  | _ => false

/-- A callee that is printed as one. The number that is below nothing but has a minus is not. -/
def CallClear (callee : Expr) : Prop :=
  ∀ x, callee = .number x → isNegative x = true → x < 0

/-- A callee of `new` that is printed as one: a call in front of its accesses would take the `new`
for itself. -/
def NewClear (callee : Expr) : Prop :=
  CallClear callee ∧ (isCall callee = false → exposesCall callee = false)

/-- Whether the callee of an expression, if it has one, is printed as one. -/
def Clear : Expr → Prop
  | .call callee _ => CallClear callee
  | .new callee _ => NewClear callee
  | _ => True

/-! ### The place of an expression -/

/-- The kind of phrase that an expression is without parentheses. -/
def place (e : Expr) : Phrase Term :=
  match e with
  | .number x => if isNegative x then Unary Expression else Primary Expression
  | .member .. | .call .. | .new .. =>
    if exposesCall e then Call Expression else Member Expression
  | .binary op _ _ => if op = .strictEq then Equality Expression else Additive Expression
  | .conditional .. => Conditional Expression
  | _ => Primary Expression

/-- The kind of phrase that is asked for where a level is. -/
def asked (least : Nat) : Phrase Term :=
  if least ≤ Level.conditional then Conditional Expression
  else if least ≤ Level.equality then Equality Expression
  else if least ≤ Level.additive then Additive Expression
  else Unary Expression

-- the equations are made once, ahead of the lemmas that rewrite with them
attribute [local simp] tree place

section Places

variable {ts : List Token} {t : Term}

theorem leftHand_of_primary (h : Primary Expression ts t) : LeftHand Expression ts t :=
  .new (.member (.primary h))

theorem additive_of_unary (h : Unary Expression ts t) : Additive Expression ts t :=
  .operand h

theorem equality_of_additive (h : Additive Expression ts t) : Equality Expression ts t :=
  .operand h

/-- Every kind of phrase is one of the looser kinds. -/
theorem asked_of_unary (h : Unary Expression ts t) (least : Nat) : asked least ts t := by
  have hadditive := additive_of_unary h
  have hequality := equality_of_additive hadditive
  rw [asked]
  split
  · exact .equality hequality
  · split
    · exact hequality
    · split
      · exact hadditive
      · exact h

theorem unary_of_leftHand (h : LeftHand Expression ts t) : Unary Expression ts t :=
  .leftHand h

/-- An expression without parentheses may stand where its level is asked for. -/
theorem asked_of_place {e : Expr} {least : Nat} (h : place e ts t) (hlevel : least ≤ level e) :
    asked least ts t := by
  have hprimary (hp : Primary Expression ts t) : asked least ts t :=
    asked_of_unary (unary_of_leftHand (leftHand_of_primary hp)) least
  have hchain (c : Bool) (hp : (if c then Call Expression else Member Expression) ts t) :
      asked least ts t := by
    cases c with
    | true => exact asked_of_unary (unary_of_leftHand (.call hp)) least
    | false => exact asked_of_unary (unary_of_leftHand (.new (.member hp))) least
  -- Only operators have levels between the least and the greatest.
  cases e with
  | number x =>
    rw [place] at h
    split at h
    · exact asked_of_unary h least
    · exact hprimary h
  | member object property => exact hchain (exposesCall (.member object property)) h
  | call => exact hchain true h
  | new => exact hchain false h
  | binary op =>
    rw [level] at hlevel
    rw [place] at h
    rw [asked]
    split at h
    · rename_i hop
      rw [if_pos hop] at hlevel
      rw [if_pos hlevel]
      split
      · exact .equality h
      · exact h
    · rename_i hop
      rw [if_neg hop] at hlevel
      rw [if_pos hlevel]
      split
      · exact .equality (equality_of_additive h)
      · split
        · exact equality_of_additive h
        · exact h
  | conditional =>
    have hleast : least ≤ Level.conditional := hlevel
    rw [asked, if_pos hleast]
    exact h
  | string | bool | ident | object | fragment | unknown | absent => exact hprimary h

theorem expression_of_place {e : Expr} (h : place e ts t) : Expression ts t := by
  have hasked := asked_of_place h (two_le_level e)
  rw [asked, if_pos le_rfl] at hasked
  exact .of hasked

theorem parens_of_place {e : Expr} (h : place e ts t) : Primary Expression (wrap true ts) t :=
  .parens (expression_of_place h)

/-- Parentheses are put where an expression binds looser than its place asks for. -/
theorem asked_wrap {e : Expr} (h : place e ts t) (least : Nat) :
    asked least (wrap (level e < least) ts) t := by
  by_cases hlevel : level e < least
  · rw [decide_eq_true hlevel]
    exact asked_of_unary (unary_of_leftHand (leftHand_of_primary (parens_of_place h))) least
  · rw [decide_eq_false hlevel]
    exact asked_of_place h (Nat.not_lt.mp hlevel)

theorem call_of_place {e : Expr} (h : place e ts t) (hcall : exposesCall e = true) :
    Call Expression ts t := by
  cases e with
  | call => exact h
  | member object property =>
    rw [place, if_pos hcall] at h
    exact h
  | _ => cases hcall

/-- An expression in front of an access or of arguments, if no call is exposed in it. -/
theorem member_wrap {e : Expr} {yes : Bool} (h : place e ts t)
    (hlevel : yes = false → Level.call ≤ level e)
    (hsign : yes = false → ∀ x, e = .number x → isNegative x = false)
    (hcall : yes = false → exposesCall e = false) : Member Expression (wrap yes ts) t := by
  cases yes with
  | true => exact .primary (parens_of_place h)
  | false =>
    -- the level leaves primary expressions and accesses, the calls among them are excluded
    have hcall := hcall rfl
    have hlevel := hlevel rfl
    cases e with
    | number x =>
      rw [place, hsign rfl x rfl] at h
      exact .primary h
    | call => cases hcall
    | member object property =>
      rw [place, hcall] at h
      exact h
    | new callee args => exact h
    | binary op =>
      rw [level] at hlevel
      split at hlevel <;> exact absurd hlevel (by decide)
    | conditional => exact absurd hlevel (Nat.not_le.mpr (by decide : Level.conditional < Level.call))
    | string | bool | ident | object | fragment | unknown | absent => exact .primary h

theorem level_of_exposesCall {e : Expr} (h : exposesCall e = true) :
    isNumber e = false ∧ level e = Level.call := by
  cases e <;> first | exact ⟨rfl, rfl⟩ | cases h

theorem expression_of_primary (h : Primary Expression ts t) : Expression ts t :=
  .of (.equality (equality_of_additive (additive_of_unary
    (unary_of_leftHand (leftHand_of_primary h)))))

theorem access_accessTokens (property : String) :
    Access Expression (accessTokens property) (.text property) := by
  rw [accessTokens]
  split
  · exact .name property
  · exact .index (expression_of_primary (.text property))

end Places

section Constructors

variable {e : Expr}

theorem place_number {x : Float} (h : IsFinite x) :
    place (.number x) (numberTokens x) (numberTerm x) := by
  rw [place, numberTokens, numberTerm]
  cases hsign : isNegative x with
  | false => exact .numeral (denotes_unsignedText h hsign)
  | true =>
    exact .negate (unary_of_leftHand (leftHand_of_primary (.numeral (denotes_neg h hsign))))

theorem place_member {object : Expr} {property : String} (h : place object (exprTokens object)
    (tree object)) : place (.member object property) (exprTokens (.member object property))
      (tree (.member object property)) := by
  have haccess := access_accessTokens property
  rw [place, exprTokens, tree]
  by_cases hcall : exposesCall object = true
  · -- with a call in front the member is a call too, and no parentheses come between them
    obtain ⟨hnumber, hlevel⟩ := level_of_exposesCall hcall
    rw [exposesCall, if_pos hcall, hnumber, hlevel]
    exact .access (call_of_place h hcall) haccess
  · rw [exposesCall, if_neg hcall]
    refine .access (member_wrap h (fun hopen => ?_) (fun hopen => ?_) fun _ => ?_) haccess
    · rw [Bool.or_eq_false_iff, decide_eq_false_iff_not, not_lt] at hopen
      exact hopen.2
    · rw [Bool.or_eq_false_iff] at hopen
      rintro x rfl
      cases hopen.1
    · exact Bool.not_eq_true _ ▸ hcall

/-- A callee that is clear has the level of a call, or is put in parentheses. -/
theorem clear_sign {callee : Expr} (hclear : CallClear callee) (hlevel : Level.call ≤ level callee) :
    ∀ x, callee = .number x → isNegative x = false := by
  rintro x rfl
  rw [← Bool.not_eq_true]
  intro hsign
  rw [level, if_pos (hclear x rfl hsign)] at hlevel
  exact absurd hlevel (by decide)

theorem place_call {callee : Expr} {args : List Expr} (hclear : CallClear callee)
    (h : place callee (exprTokens callee) (tree callee))
    (hargs : Items Expression (itemTokens args) (itemTrees args)) :
    place (.call callee args) (exprTokens (.call callee args)) (tree (.call callee args)) := by
  rw [place, exprTokens, tree]
  by_cases hcall : exposesCall callee = true
  · obtain ⟨-, hlevel⟩ := level_of_exposesCall hcall
    rw [hlevel]
    exact .again (call_of_place h hcall) (.mk hargs)
  · have hopen (hyes : decide (level callee < Level.call) = false) : Level.call ≤ level callee :=
      Nat.not_lt.mp (of_decide_eq_false hyes)
    exact .member (member_wrap h hopen (fun hyes => clear_sign hclear (hopen hyes))
      fun _ => Bool.not_eq_true _ ▸ hcall) (.mk hargs)

theorem place_new {callee : Expr} {args : List Expr} (hclear : NewClear callee)
    (h : place callee (exprTokens callee) (tree callee))
    (hargs : Items Expression (itemTokens args) (itemTrees args)) :
    place (.new callee args) (exprTokens (.new callee args)) (tree (.new callee args)) := by
  have hopen (hyes : (isCall callee || decide (level callee < Level.call)) = false) :
      isCall callee = false ∧ Level.call ≤ level callee := by
    rw [Bool.or_eq_false_iff, decide_eq_false_iff_not, not_lt] at hyes
    exact hyes
  rw [place, exprTokens, tree]
  exact .new (member_wrap h (fun hyes => (hopen hyes).2)
    (fun hyes => clear_sign hclear.1 (hopen hyes).2)
    fun hyes => hclear.2 (hopen hyes).1) (.mk hargs)

theorem place_binary {op : BinaryOp} {left right : Expr} (hop : op ≠ .unknown)
    (hl : place left (exprTokens left) (tree left)) (hr : place right (exprTokens right) (tree right)) :
    place (.binary op left right) (exprTokens (.binary op left right))
      (tree (.binary op left right)) := by
  have hleft := asked_wrap hl (opLevel op)
  have hright := asked_wrap hr (opLevel op + 1)
  rw [place, exprTokens, tree]
  cases op with
  | unknown => exact absurd rfl hop
  | strictEq => exact .link hleft List.mem_cons_self hright
  | add => exact .link hleft List.mem_cons_self hright
  | sub => exact .link hleft (List.mem_cons_of_mem _ List.mem_cons_self) hright

theorem place_conditional {test yes no : Expr} (ht : place test (exprTokens test) (tree test))
    (hy : place yes (exprTokens yes) (tree yes)) (hn : place no (exprTokens no) (tree no)) :
    place (.conditional test yes no) (exprTokens (.conditional test yes no))
      (tree (.conditional test yes no)) := by
  have htest := asked_wrap ht (Level.conditional + 1)
  rw [place, exprTokens, tree]
  exact .choice htest (asked_of_place hy (two_le_level yes)) (asked_of_place hn (two_le_level no))

theorem property_key (key : String) {ts : List Token} {t : Term} (h : Expression ts t) :
    Property Expression (keyToken key :: .mark ":" :: ts) (key, t) := by
  rw [keyToken]
  split
  · exact .name key h
  · exact .text key h

end Constructors

section All

variable {style : PrintStyle}

mutual

theorem placed_expr : ∀ e, Everywhere (Sound style) e → Everywhere Clear e →
    place e (exprTokens e) (tree e)
  | .string s, _, _ => .text s
  | .number _, h, _ => place_number h
  | .bool b, _, _ => .bool b
  | .ident _, h, _ => .name h.2
  | .member object _, h, hc => place_member (placed_expr object h.2 hc.2)
  | .call callee args, h, hc =>
    place_call hc.1 (placed_expr callee h.2.1 hc.2.1) (placed_items args h.2.2 hc.2.2)
  | .new callee args, h, hc =>
    place_new hc.1 (placed_expr callee h.2.1 hc.2.1) (placed_items args h.2.2 hc.2.2)
  | .binary _ left right, h, hc =>
    place_binary h.1 (placed_expr left h.2.1 hc.2.1) (placed_expr right h.2.2 hc.2.2)
  | .conditional test yes no, h, hc =>
    place_conditional (placed_expr test h.2.1 hc.2.1) (placed_expr yes h.2.2.1 hc.2.2.1)
      (placed_expr no h.2.2.2 hc.2.2.2)
  | .object props, h, hc => .object (placed_props props h.2 hc.2)
  | .fragment children, h, hc => .markup (placed_children children h.2 hc.2)
  | .unknown, h, _ => absurd h id
  | .absent, h, _ => absurd h id

theorem placed_items : ∀ es, EverywhereItems (Sound style) es → EverywhereItems Clear es →
    Items Expression (itemTokens es) (itemTrees es)
  | [], _, _ => .nil
  | [e], h, hc => .one (expression_of_place (placed_expr e h.1 hc.1))
  | e :: f :: r, h, hc =>
    .cons (expression_of_place (placed_expr e h.1 hc.1)) (placed_items (f :: r) h.2 hc.2)

theorem placed_props : ∀ ps, EverywhereProps (Sound style) ps → EverywhereProps Clear ps →
    Items (Property Expression) (propTokens ps) (propTrees ps)
  | [], _, _ => .nil
  | [(k, e)], h, hc => .one (property_key k (expression_of_place (placed_expr e h.1 hc.1)))
  | (k, e) :: p :: r, h, hc =>
    .cons (property_key k (expression_of_place (placed_expr e h.1 hc.1)))
      (placed_props (p :: r) h.2 hc.2)

theorem placed_children : ∀ cs, EverywhereChildren (Sound style) cs → EverywhereChildren Clear cs →
    Children Expression (childTokens cs) (childTrees cs)
  | [], _, _ => .nil
  | .text s :: r, h, hc => by
    rw [childTokens, childTrees]
    split
    · exact .text s (placed_children r h hc)
    · exact .braced (expression_of_primary (.text s)) (placed_children r h hc)
  | .container e :: r, h, hc =>
    .braced (expression_of_place (placed_expr e h.1 hc.1)) (placed_children r h.2 hc.2)

end

/-- An expression whose callees are clear is understood as what it says, and as nothing else. -/
theorem parses_clear {e : Expr} (h : Everywhere (Sound style) e) (hclear : Everywhere Clear e)
    (t : Term) : Parses (exprText style e) t ↔ t = tree e := by
  have htokens := printed_expr e h [] [] ⟨ends_nil, fun _ => nofun⟩
  rw [Scans, List.append_nil] at htokens
  have hparses : Parses (exprText style e) (tree e) :=
    ⟨exprTokens e, htokens, expression_of_place (placed_expr e h hclear)⟩
  exact ⟨fun ht => ht.eq hparses, fun ht => ht ▸ hparses⟩

end All

end Phrasebook.Program

/-! ### Reading an expression back -/

namespace Phrasebook.Script

open Program

/-- A number, or what a minus makes of one. -/
def Term.negated : Term → Expr
  | .number x => .number (-x)
  | _ => .unknown

mutual

/-- The expression that is understood as a term. A minus in front of a number makes a number. -/
def Term.expr : Term → Expr
  | .text s => .string s
  | .number x => .number x
  | .bool b => .bool b
  | .name s => .ident s
  | .member object (.text key) => .member object.expr key
  | .member _ _ => .unknown
  | .call callee args => .call callee.expr (exprs args)
  | .new callee args => .new callee.expr (exprs args)
  | .negate operand => operand.negated
  | .binary op left right => .binary op left.expr right.expr
  | .conditional test yes no => .conditional test.expr yes.expr no.expr
  | .object props => .object (propExprs props)
  | .markup children => .fragment (childExprs children)

def exprs : List Term → List Expr
  | [] => []
  | t :: r => t.expr :: exprs r

def propExprs : List (String × Term) → List (String × Expr)
  | [] => []
  | (k, t) :: r => (k, t.expr) :: propExprs r

def childExprs : List Term → List (Child Expr)
  | [] => []
  | t :: r => .container t.expr :: childExprs r

end

end Phrasebook.Script

namespace Phrasebook.Program

open Decimal Script

mutual

/-- An expression with all texts between tags put into braces. -/
def contained : Expr → Expr
  | .member object property => .member (contained object) property
  | .call callee args => .call (contained callee) (containedItems args)
  | .new callee args => .new (contained callee) (containedItems args)
  | .binary op left right => .binary op (contained left) (contained right)
  | .conditional test yes no => .conditional (contained test) (contained yes) (contained no)
  | .object props => .object (containedProps props)
  | .fragment children => .fragment (containedChildren children)
  | e => e

def containedItems : List Expr → List Expr
  | [] => []
  | e :: r => contained e :: containedItems r

def containedProps : List (String × Expr) → List (String × Expr)
  | [] => []
  | (k, e) :: r => (k, contained e) :: containedProps r

def containedChildren : List (Child Expr) → List (Child Expr)
  | [] => []
  | .text s :: r => .container (.string s) :: containedChildren r
  | .container e :: r => .container (contained e) :: containedChildren r

end

theorem expr_numberTerm {x : Float} (h : IsFinite x) : (numberTerm x).expr = .number x := by
  rw [numberTerm]
  split
  · have hunpack := (neg_parts (isFinite_neg h)).1
    rw [(neg_parts h).1] at hunpack
    have htwice : x.toModel.unpack.neg.neg = x.toModel.unpack := by
      obtain ⟨s, hx | ⟨m, e, hm, hx⟩⟩ := h.exists_unpack
      all_goals
        rw [hx]
        cases s <;> rfl
    rw [htwice] at hunpack
    rw [Term.expr, Term.negated, Floats.eq_of_unpack_eq hunpack]
  · rw [Term.expr]

section Back

variable {style : PrintStyle}

mutual

/-- Nothing of an expression is lost in what it says, but for how texts between tags are written. -/
theorem expr_tree : ∀ e, Everywhere (Sound style) e → (tree e).expr = contained e
  | .string _, _ => rfl
  | .number _, h => expr_numberTerm h
  | .bool _, _ => rfl
  | .ident _, _ => rfl
  | .member object _, h => by rw [tree, Term.expr, contained, expr_tree object h.2]
  | .call callee args, h => by
    rw [tree, Term.expr, contained, expr_tree callee h.2.1, exprs_trees args h.2.2]
  | .new callee args, h => by
    rw [tree, Term.expr, contained, expr_tree callee h.2.1, exprs_trees args h.2.2]
  | .binary _ left right, h => by
    rw [tree, Term.expr, contained, expr_tree left h.2.1, expr_tree right h.2.2]
  | .conditional test yes no, h => by
    rw [tree, Term.expr, contained, expr_tree test h.2.1, expr_tree yes h.2.2.1,
      expr_tree no h.2.2.2]
  | .object props, h => by rw [tree, Term.expr, contained, propExprs_trees props h.2]
  | .fragment children, h => by rw [tree, Term.expr, contained, childExprs_trees children h.2]
  | .unknown, h => absurd h id
  | .absent, h => absurd h id

theorem exprs_trees : ∀ es, EverywhereItems (Sound style) es → exprs (itemTrees es) = containedItems es
  | [], _ => rfl
  | e :: r, h => by rw [itemTrees, exprs, containedItems, expr_tree e h.1, exprs_trees r h.2]

theorem propExprs_trees : ∀ ps, EverywhereProps (Sound style) ps →
    propExprs (propTrees ps) = containedProps ps
  | [], _ => rfl
  | (_, e) :: r, h => by
    rw [propTrees, propExprs, containedProps, expr_tree e h.1, propExprs_trees r h.2]

theorem childExprs_trees : ∀ cs, EverywhereChildren (Sound style) cs →
    childExprs (childTrees cs) = containedChildren cs
  | [], _ => rfl
  | .text _ :: r, h => by
    rw [childTrees, childExprs, containedChildren, Term.expr, childExprs_trees r h]
  | .container e :: r, h => by
    rw [childTrees, childExprs, containedChildren, expr_tree e h.1, childExprs_trees r h.2]

end

mutual

theorem Everywhere.imp {p q : Expr → Prop} (hpq : ∀ e, p e → q e) :
    ∀ e, Everywhere p e → Everywhere q e
  | .string _, h => hpq _ h
  | .number _, h => hpq _ h
  | .bool _, h => hpq _ h
  | .ident _, h => hpq _ h
  | .member object _, h => ⟨hpq _ h.1, Everywhere.imp hpq object h.2⟩
  | .call callee args, h =>
    ⟨hpq _ h.1, Everywhere.imp hpq callee h.2.1, everywhereItems_imp hpq args h.2.2⟩
  | .new callee args, h =>
    ⟨hpq _ h.1, Everywhere.imp hpq callee h.2.1, everywhereItems_imp hpq args h.2.2⟩
  | .binary _ left right, h =>
    ⟨hpq _ h.1, Everywhere.imp hpq left h.2.1, Everywhere.imp hpq right h.2.2⟩
  | .conditional test yes no, h =>
    ⟨hpq _ h.1, Everywhere.imp hpq test h.2.1, Everywhere.imp hpq yes h.2.2.1,
      Everywhere.imp hpq no h.2.2.2⟩
  | .object props, h => ⟨hpq _ h.1, everywhereProps_imp hpq props h.2⟩
  | .fragment children, h => ⟨hpq _ h.1, everywhereChildren_imp hpq children h.2⟩
  | .unknown, h => hpq _ h
  | .absent, h => hpq _ h

theorem everywhereItems_imp {p q : Expr → Prop} (hpq : ∀ e, p e → q e) :
    ∀ es, EverywhereItems p es → EverywhereItems q es
  | [], _ => trivial
  | e :: r, h => ⟨Everywhere.imp hpq e h.1, everywhereItems_imp hpq r h.2⟩

theorem everywhereProps_imp {p q : Expr → Prop} (hpq : ∀ e, p e → q e) :
    ∀ ps, EverywhereProps p ps → EverywhereProps q ps
  | [], _ => trivial
  | (_, e) :: r, h => ⟨Everywhere.imp hpq e h.1, everywhereProps_imp hpq r h.2⟩

theorem everywhereChildren_imp {p q : Expr → Prop} (hpq : ∀ e, p e → q e) :
    ∀ cs, EverywhereChildren p cs → EverywhereChildren q cs
  | [], _ => trivial
  | .text _ :: r, h => everywhereChildren_imp hpq r h
  | .container e :: r, h => ⟨Everywhere.imp hpq e h.1, everywhereChildren_imp hpq r h.2⟩

end

/-! ### Callees that are names -/

/-- A name, or members of what is reached from a name. -/
def isPath : Expr → Bool
  | .ident _ => true
  | .member object _ => isPath object
  | _ => false

/-- Whether the callee of an expression, if it has one, is reached from a name. -/
def Named : Expr → Prop
  | .call callee _ | .new callee _ => isPath callee = true
  | _ => True

theorem exposesCall_of_isPath {e : Expr} (h : isPath e = true) : exposesCall e = false := by
  induction e using isPath.induct with
  | case1 => rfl
  | case2 object _ ih => exact ih h
  | case3 e hident hmember =>
    cases e with
    | ident name => exact absurd rfl (hident name)
    | member object property => exact absurd rfl (hmember object property)
    | _ => cases h

theorem clear_of_named (e : Expr) (h : Named e) : Clear e := by
  have hsign {callee : Expr} (hpath : isPath callee = true) : CallClear callee := by
    rintro x rfl
    cases hpath
  cases e with
  | call callee args => exact hsign h
  | new callee args => exact ⟨hsign h, fun _ => exposesCall_of_isPath h⟩
  | _ => trivial

/-- An expression whose callees are reached from names, and in which no property and no key that is
written as a name holds the vertical tilde, is read back from its text: the text is understood as
what the expression says and as nothing else, and from that the expression comes back, with the
texts between tags in braces. -/
theorem exprText_read_back {e : Expr} (h : Everywhere (Sound style) e) (hnamed : Everywhere Named e) :
    (∀ t, Parses (exprText style e) t ↔ t = tree e) ∧ (tree e).expr = contained e :=
  ⟨parses_clear h (Everywhere.imp clear_of_named e hnamed), expr_tree e h⟩

end Back

/-- A choice of a call and a fragment, with a negative number, a key that is a reserved word, a
property that is no identifier, and a member of a number. -/
def mixedChoice : Expr :=
  .conditional (.binary .strictEq (.ident "n") (.number (-1.5)))
    (.call (.member (.ident "Intl") "a-b") [.string "\"", .object [("if", .bool true)]])
    (.fragment [.text "hi", .container (.member (.number 1) "x")])

theorem exprText_read_back_mixedChoice : Everywhere (Sound ⟨false, .preserve, ""⟩) mixedChoice ∧
    Everywhere Named mixedChoice ∧
    ∀ t, Parses (exprText ⟨false, .preserve, ""⟩ mixedChoice) t ↔ t = tree mixedChoice := by
  have hsound : Everywhere (Sound ⟨false, .preserve, ""⟩) mixedChoice := by
    refine ⟨trivial, ⟨BinaryOp.noConfusion, ⟨by decide +kernel, by decide⟩, ?_⟩, ⟨trivial, ⟨?_, ?_⟩,
      trivial, ⟨?_, trivial, trivial⟩, trivial⟩, ⟨rfl, by decide, rfl, trivial⟩,
      ⟨?_, ?_⟩, trivial⟩
    · exact ⟨by decide +kernel, by decide +kernel⟩
    · exact (by decide +kernel : Writable "a-b")
    · exact ⟨by decide +kernel, by decide⟩
    · exact List.forall_mem_singleton.mpr (by decide +kernel : Writable "if")
    · exact (by decide +kernel : Writable "x")
    · exact ⟨by decide +kernel, by decide +kernel⟩
  have hnamed : Everywhere Named mixedChoice :=
    ⟨trivial, ⟨trivial, trivial, trivial⟩, ⟨rfl, ⟨trivial, trivial⟩, trivial,
      ⟨trivial, trivial, trivial⟩, trivial⟩, trivial, ⟨trivial, trivial⟩, trivial⟩
  exact ⟨hsound, hnamed, (exprText_read_back hsound hnamed).1⟩

section Tilde

variable {style : PrintStyle} {name property : String}

/-- A property that counts as an identifier but holds the vertical tilde is written behind a point,
and no code reads so. -/
theorem not_parses_tilde (hname : isName name = true) (h : ¬Writable property) (t : Term) :
    ¬Parses (exprText style (.member (.ident name) property)) t := by
  simp only [Writable, Classical.not_imp, not_not] at h
  obtain ⟨hidentifier, htilde⟩ := h
  have htext : exprText style (.member (.ident name) property) = name ++ ("." ++ property) := by
    change name ++ memberAccess property = _
    rw [memberAccess, if_pos hidentifier]
  have hpoint : Scans [.code] "." [.mark "."] [.code] property.toList := by
    cases hlist : property.toList with
    | nil => simp [Name.isIdentifier, hlist] at hidentifier
    | cons c r =>
      simp only [Name.isIdentifier, hlist, Bool.and_eq_true] at hidentifier
      have hdot : c ≠ '.' := by
        rintro rfl
        exact absurd hidentifier.1 (by decide +kernel)
      refine scans_point hdot ?_
      by_cases hc : c = verticalTilde
      · rw [hc]
        decide
      · exact isDigit_of_startsName (startsName_of_isStart hidentifier.1 hc)
  have hfront : Scans [.code] name [.name name] [.code] (".".toList ++ property.toList) :=
    scans_name hname (ends_cons (c := '.') (by decide) _)
  rintro ⟨ts, hlex, -⟩
  rw [htext, ← String.append_assoc, Lexes, String.toList_append] at hlex
  obtain ⟨us, hrest⟩ := (hfront.append hpoint).onward hlex
  exact not_scan_identifier hidentifier htilde hrest

end Tilde

end Phrasebook.Program
