import Phrasebook.Proofs.PrintedExpressions

/-!
Which callees printing gets right. A call in front of the accesses of a callee takes the `new` that
stands before them for itself, and the zero with a minus hands its minus on to the call. All other
callees are understood as the callees that they are.
-/
namespace Phrasebook.Program

open Decimal Script

/-! ### Calls that take a `new` for themselves -/

/-- An expression with an exposed call, as it is understood behind `new`. -/
def promote : Expr → Expr
  | .call callee args =>
    if exposesCall callee then .call (promote callee) args else .new callee args
  | .member object property => .member (promote object) property
  | e => e

section Promoting

variable {style : PrintStyle}

theorem promote_shape {e : Expr} (h : exposesCall e = true) :
    level (promote e) = Level.call ∧ isNumber (promote e) = false ∧ promote e ≠ .absent := by
  cases e with
  | call callee args =>
    rw [promote]
    split <;> exact ⟨rfl, rfl, nofun⟩
  | member => exact ⟨rfl, rfl, nofun⟩
  | _ => cases h

theorem enclose_of_level {e : Expr} {least : Nat} (h : least ≤ level e) (s : String) :
    enclose least e s = s := by
  have hlevel : ¬level e < least := Nat.not_lt.mpr h
  cases e <;> first | rfl | exact if_neg (by simpa using hlevel)

theorem exposesCall_eq_false {e : Expr} (hcall : ∀ callee args, e = .call callee args → False)
    (hmember : ∀ object property, e = .member object property → False) : ¬exposesCall e = true := by
  cases e with
  | call callee args => exact absurd rfl (hcall callee args)
  | member object property => exact absurd rfl (hmember object property)
  | _ => exact Bool.false_ne_true

/-- Behind `new` an expression with an exposed call looks the same as the promoted one. -/
theorem exprText_promote {e : Expr} (h : exposesCall e = true) :
    exprText style (promote e) = "new " ++ exprText style e := by
  -- The induction goes down the callees and objects that `promote` goes down.
  induction e using promote.induct with
  | case1 callee args hcallee ih =>
    have hlevel := (level_of_exposesCall hcallee).2
    rw [promote, if_pos hcallee, exprText, exprText, enclose_of_level (promote_shape hcallee).1.ge,
      enclose_of_level hlevel.ge, ih hcallee]
    simp only [String.append_assoc]
  | case2 callee args hcallee =>
    have hcall : isCall callee = false := by
      cases callee <;> first | rfl | exact absurd rfl hcallee
    rw [promote, if_neg hcallee, exprText, exprText, hcall]
    simp only [String.append_assoc, Bool.false_eq_true, if_false]
  | case3 object property ih =>
    obtain ⟨hlevel, hnumber, -⟩ := promote_shape (e := object) h
    obtain ⟨hnumber', hlevel'⟩ := level_of_exposesCall (e := object) h
    rw [promote, exprText, exprText, hnumber, hnumber', enclose_of_level hlevel.ge,
      enclose_of_level hlevel'.ge, ih h]
    simp only [String.append_assoc, Bool.false_eq_true, if_false]
  | case4 e hcall hmember => exact absurd h (exposesCall_eq_false hcall hmember)

theorem promote_sound {e : Expr} (h : exposesCall e = true) (hsound : Everywhere (Sound style) e) :
    Everywhere (Sound style) (promote e) := by
  induction e using promote.induct with
  | case1 callee args hcallee ih =>
    rw [promote, if_pos hcallee]
    exact ⟨trivial, ih hcallee hsound.2.1, hsound.2.2⟩
  | case2 callee args hcallee =>
    rw [promote, if_neg hcallee]
    exact ⟨trivial, hsound.2⟩
  | case3 object property ih => exact ⟨hsound.1, ih h hsound.2⟩
  | case4 e hcall hmember => exact absurd h (exposesCall_eq_false hcall hmember)

theorem promote_clear {e : Expr} (h : exposesCall e = true) (hclear : Everywhere Clear e) :
    Everywhere Clear (promote e) := by
  induction e using promote.induct with
  | case1 callee args hcallee ih =>
    have hshape := promote_shape hcallee
    rw [promote, if_pos hcallee]
    refine ⟨?_, ih hcallee hclear.2.1, hclear.2.2⟩
    intro x hx
    rw [hx] at hshape
    cases hshape.2.1
  | case2 callee args hcallee =>
    rw [promote, if_neg hcallee]
    exact ⟨⟨hclear.1, fun _ => Bool.not_eq_true _ ▸ hcallee⟩, hclear.2⟩
  | case3 object property ih => exact ⟨trivial, ih h hclear.2⟩
  | case4 e hcall hmember => exact absurd h (exposesCall_eq_false hcall hmember)

end Promoting

/-! ### A minus behind `new` -/

section Minus

variable {E : Phrase Term} {ts : List Token} {t : Term} {l : List Term}

/-- A minus in front of an access or of arguments needs parentheses. -/
theorem parens_of_member (h : Member E ts (.negate t)) : ∃ r, ts = .mark "(" :: r := by
  cases h with
  | primary h =>
    cases h with
    | parens => exact ⟨_, rfl⟩

theorem parens_of_new (h : New E ts (.negate t)) : ∃ r, ts = .mark "(" :: r := by
  cases h with
  | member h => exact parens_of_member h

/-- So does a minus behind `new`. -/
theorem parens_of_new_negate (h : Conditional E ts (.new (.negate t) l)) :
    ∃ r, ts = .mark "(" :: r ∨ ts = .name "new" :: .mark "(" :: r := by
  cases h with
  | equality h =>
  cases h with
  | operand h =>
  cases h with
  | operand h =>
  cases h with
  | leftHand h =>
  cases h with
  | call h => cases h
  | new h =>
  cases h with
  | new h =>
    obtain ⟨r, rfl⟩ := parens_of_new h
    exact ⟨r, .inr rfl⟩
  | member h =>
  cases h with
  | new h ha =>
    obtain ⟨r, rfl⟩ := parens_of_member h
    exact ⟨_, .inr rfl⟩
  | primary h =>
  cases h with
  | parens => exact ⟨_, .inl rfl⟩

end Minus

/-! ### Callees that are read back -/

section Callees

variable {style : PrintStyle} {callee : Expr} {args : List Expr}

/-- The tokens of a printed expression are those that it is understood from. -/
theorem expression_of_parses {e : Expr} (h : Everywhere (Sound style) e) {t : Term}
    (ht : Parses (exprText style e) t) : Expression (exprTokens e) t := by
  obtain ⟨ts, hlex, hexpr⟩ := ht
  have htokens := printed_expr e h [] [] ⟨ends_nil, fun _ => nofun⟩
  rw [Scans, List.append_nil] at htokens
  rwa [← hlex.eq htokens]

variable (hcallee : Everywhere (Sound style) callee) (hargs : EverywhereItems (Sound style) args)
  (hclear : Everywhere Clear callee) (hclear' : EverywhereItems Clear args)

include hcallee hargs hclear hclear'

/-- Behind `new` an exposed call is called before its accesses. -/
theorem parses_new_exposed (hcall : isCall callee = false) (hexposed : exposesCall callee = true) :
    Parses (exprText style (.new callee args)) (.call (tree (promote callee)) (itemTrees args)) := by
  have hshape := promote_shape hexposed
  have htext : exprText style (.new callee args) = exprText style (.call (promote callee) args) := by
    rw [exprText, exprText, hcall, enclose_of_level hshape.1.ge, exprText_promote hexposed,
      enclose_of_level (level_of_exposesCall hexposed).2.ge]
    simp only [Bool.false_eq_true, if_false]
  have hclearCall : CallClear (promote callee) := by
    intro x hx
    rw [hx] at hshape
    cases hshape.2.1
  have hsound : Everywhere (Sound style) (.call (promote callee) args) :=
    ⟨trivial, promote_sound hexposed hcallee, hargs⟩
  have hall : Everywhere Clear (.call (promote callee) args) :=
    ⟨hclearCall, promote_clear hexposed hclear, hclear'⟩
  rw [htext]
  exact (parses_clear hsound hall _).mpr rfl

/-- The minus of a zero goes on to the call of it. -/
theorem parses_call_minus {x : Float} (hx : callee = .number x) (hsign : isNegative x = true)
    (hzero : ¬x < 0) : Parses (exprText style (.call callee args))
      (.negate (.call (.number (-x)) (itemTrees args))) := by
  subst hx
  have hfinite : IsFinite x := hcallee
  have hitems := placed_items args hargs hclear'
  have htokens := printed_expr (.call (.number x) args) ⟨trivial, hcallee, hargs⟩ [] []
    ⟨ends_nil, fun _ => nofun⟩
  rw [Scans, List.append_nil] at htokens
  refine ⟨_, htokens, ?_⟩
  have hlevel : level (.number x) = Level.primary := if_neg hzero
  -- the level of the zero is that of a literal, so the minus stands in front without parentheses
  rw [exprTokens, exprTokens, numberTokens, hsign, hlevel]
  exact .of (.equality (equality_of_additive (additive_of_unary (.negate (unary_of_leftHand
    (.call (.member (.primary (.numeral (denotes_neg hfinite hsign))) (.mk hitems))))))))

theorem parses_call_iff : Parses (exprText style (.call callee args))
    (.call (tree callee) (itemTrees args)) ↔ CallClear callee := by
  constructor
  · intro h x hx hsign
    by_contra hzero
    exact Term.noConfusion (h.eq (parses_call_minus hcallee hargs hclear hclear' hx hsign hzero))
  · intro hcall
    have hsound : Everywhere (Sound style) (.call callee args) := ⟨trivial, hcallee, hargs⟩
    have hall : Everywhere Clear (.call callee args) := ⟨hcall, hclear, hclear'⟩
    exact (parses_clear hsound hall _).mpr rfl

theorem parses_new_iff : Parses (exprText style (.new callee args))
    (.new (tree callee) (itemTrees args)) ↔ NewClear callee := by
  constructor
  · intro h
    refine ⟨?_, fun hcall => ?_⟩
    · -- a minus behind `new` would need parentheses, and there are none
      rintro x rfl hsign
      by_contra hzero
      have hlevel : level (.number x) = Level.primary := if_neg hzero
      obtain ⟨-, hexpr⟩ := expression_of_parses (e := .new (.number x) args)
        ⟨trivial, hcallee, hargs⟩ h
      rw [tree, numberTerm, hsign] at hexpr
      obtain ⟨r, hr⟩ := parens_of_new_negate hexpr
      rw [exprTokens, exprTokens, numberTokens, hsign, hlevel] at hr
      rcases hr with hr | hr
      · exact Token.noConfusion (List.cons.inj hr).1
      · exact absurd (Token.mark.inj (List.cons.inj (List.cons.inj hr).2).1) (by decide)
    · rw [← Bool.not_eq_true]
      intro hexposed
      exact Term.noConfusion (h.eq (parses_new_exposed hcallee hargs hclear hclear' hcall hexposed))
  · intro hnew
    have hsound : Everywhere (Sound style) (.new callee args) := ⟨trivial, hcallee, hargs⟩
    have hall : Everywhere Clear (.new callee args) := ⟨hnew, hclear, hclear'⟩
    exact (parses_clear hsound hall _).mpr rfl

/-- A call, with or without `new`, is read back with its callee and its arguments exactly if the
callee is no zero with a minus and, behind `new`, no call is exposed in it; a call that is itself
the callee of `new` is put in parentheses. Whatever text is read back is read in one way. -/
theorem callee_read_back :
    (Parses (exprText style (.call callee args)) (.call (tree callee) (itemTrees args)) ↔
      CallClear callee) ∧
    (Parses (exprText style (.new callee args)) (.new (tree callee) (itemTrees args)) ↔
      NewClear callee) ∧
    (CallClear callee → ∀ t, Parses (exprText style (.call callee args)) t →
      t = .call (tree callee) (itemTrees args)) ∧
    (NewClear callee → ∀ t, Parses (exprText style (.new callee args)) t →
      t = .new (tree callee) (itemTrees args)) :=
  have hcall := parses_call_iff hcallee hargs hclear hclear'
  have hnew := parses_new_iff hcallee hargs hclear hclear'
  ⟨hcall, hnew, fun h _ ht => ht.eq (hcall.mpr h), fun h _ ht => ht.eq (hnew.mpr h)⟩

end Callees

/-- A member of what a call gives. -/
def memberOfCall : Expr :=
  .member (.call (.ident "f") []) "x"

/-- It is called as what it is, but `new` takes the call in it for itself. -/
theorem callee_read_back_memberOfCall :
    Everywhere (Sound ⟨false, .preserve, ""⟩) memberOfCall ∧ Everywhere Clear memberOfCall ∧
    Parses (exprText ⟨false, .preserve, ""⟩ (.call memberOfCall []))
      (.call (tree memberOfCall) []) ∧
    ¬Parses (exprText ⟨false, .preserve, ""⟩ (.new memberOfCall []))
      (.new (tree memberOfCall) []) := by
  have hsound : Everywhere (Sound ⟨false, .preserve, ""⟩) memberOfCall :=
    ⟨(by decide +kernel : Writable "x"), trivial, ⟨by decide +kernel, by decide +kernel⟩, trivial⟩
  have hclear : Everywhere Clear memberOfCall := ⟨trivial, nofun, trivial, trivial⟩
  have hargs : EverywhereItems (Sound ⟨false, .preserve, ""⟩) [] := trivial
  obtain ⟨hcall, hnew, -, -⟩ := callee_read_back hsound hargs hclear trivial
  refine ⟨hsound, hclear, hcall.mpr nofun, ?_⟩
  intro h
  have hexposed : exposesCall memberOfCall = false := (hnew.mp h).2 rfl
  exact Bool.noConfusion hexposed

end Phrasebook.Program
