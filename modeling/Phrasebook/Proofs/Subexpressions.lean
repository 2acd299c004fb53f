import Phrasebook.Proofs.Reads

/-!
Expressions that stand in other expressions. What stands in a piece stands in all that the piece is
joined to, and the values of a choice stand in its chain of conditionals.
-/
namespace Phrasebook

namespace Expr

/-- The expression `e` is the second one or stands somewhere in it. -/
inductive Within (e : Expr) : Expr → Prop where
  | refl : Within e e
  | object {object property} : Within e object → Within e (.member object property)
  | callee {callee args} : Within e callee → Within e (.call callee args)
  | argument {callee args a} : a ∈ args → Within e a → Within e (.call callee args)
  | constructed {callee args} : Within e callee → Within e (.new callee args)
  | given {callee args a} : a ∈ args → Within e a → Within e (.new callee args)
  | left {op left right} : Within e left → Within e (.binary op left right)
  | right {op left right} : Within e right → Within e (.binary op left right)
  | test {test yes no} : Within e test → Within e (.conditional test yes no)
  | yes {test yes no} : Within e yes → Within e (.conditional test yes no)
  | no {test yes no} : Within e no → Within e (.conditional test yes no)
  | property {props p} : p ∈ props → Within e p.2 → Within e (.object props)
  | child {children a} : .container a ∈ children → Within e a → Within e (.fragment children)

variable {e : Expr}

theorem Within.foldl_binary {op : BinaryOp} {rest : List Expr} :
    ∀ {first : Expr}, e.Within first → e.Within (rest.foldl (.binary op) first) := by
  induction rest with
  | nil => exact fun h => h
  | cons a r ih => exact fun h => ih (.left h)

theorem Within.foldl_binary_of_mem {op : BinaryOp} {rest : List Expr} {a : Expr} (ha : a ∈ rest)
    (h : e.Within a) : ∀ first : Expr, e.Within (rest.foldl (.binary op) first) := by
  induction rest with
  | nil => exact absurd ha List.not_mem_nil
  | cons b r ih =>
    intro first
    rw [List.foldl_cons]
    rcases List.mem_cons.mp ha with rfl | ha
    · exact .foldl_binary (.right h)
    · exact ih ha _

/-- A chain that can be built has all its operands. -/
theorem Within.binaryChain {op : BinaryOp} {es : List Expr} {a : Expr} (ha : a ∈ es)
    (h : e.Within a) (hlength : 2 ≤ es.length) :
    e.Within ((binaryChain? op es).getD .absent) := by
  match es, hlength with
  | first :: second :: rest, _ =>
    rw [binaryChain?, Option.getD_some]
    rcases List.mem_cons.mp ha with rfl | ha
    · exact .foldl_binary (.left h)
    · rcases List.mem_cons.mp ha with rfl | ha
      · exact .foldl_binary (.right h)
      · exact .foldl_binary_of_mem ha h _

theorem Within.ternaryChain_value {cases : List (Expr × Expr)} {fallback : Expr}
    {c : Expr × Expr} (hc : c ∈ cases) (h : e.Within c.2) :
    e.Within (ternaryChain cases fallback) := by
  induction cases with
  | nil => exact absurd hc List.not_mem_nil
  | cons d r ih =>
    rcases List.mem_cons.mp hc with rfl | hc
    · exact .yes h
    · exact .no (ih hc)

theorem Within.ternaryChain_fallback {fallback : Expr} (h : e.Within fallback)
    (cases : List (Expr × Expr)) : e.Within (ternaryChain cases fallback) := by
  induction cases with
  | nil => exact h
  | cons c r ih => exact .no ih

end Expr

namespace Compile

open Phrasebook.Expr (Within)

/-! ### Pieces -/

/-- An expression stands in a piece that is a value. -/
def Piece.Contains (p : Piece Expr) (e : Expr) : Prop :=
  match p with
  | .literal _ => False
  | .value whole _ _ => e.Within whole

theorem mergeLiterals_value {α : Type} (e : α) (isMarkup isString : Bool) (r : List (Piece α)) :
    mergeLiterals (.value e isMarkup isString :: r) =
      .value e isMarkup isString :: mergeLiterals r :=
  rfl

theorem value_mem_of_mem_literal {α : Type} {ps : List (Piece α)} {e : α} {isMarkup isString : Bool}
    {t : String} (h : .value e isMarkup isString ∈ .literal t :: ps) :
    .value e isMarkup isString ∈ ps :=
  (List.mem_cons.mp h).resolve_left nofun

/-- Merging keeps the pieces that are values. -/
theorem value_mem_mergeLiterals {α : Type} {ps : List (Piece α)} {e : α} {isMarkup isString : Bool}
    (h : .value e isMarkup isString ∈ ps) : .value e isMarkup isString ∈ mergeLiterals ps := by
  induction ps with
  | nil => exact absurd h List.not_mem_nil
  | cons p r ih =>
    cases p with
    | value e' m s =>
      rw [mergeLiterals_value]
      rcases List.mem_cons.mp h with heq | h
      · exact heq ▸ List.mem_cons_self
      · exact List.mem_cons_of_mem _ (ih h)
    | literal t =>
      have hr := ih (value_mem_of_mem_literal h)
      rw [mergeLiterals]
      split
      · exact hr
      -- Two literals in a row become one; the values behind them stay.
      · split
        · rename_i u r' hm
          rw [hm] at hr
          exact List.mem_cons_of_mem _ (value_mem_of_mem_literal hr)
        · exact List.mem_cons_of_mem _ hr

theorem mem_concatOperands {ps : List (Piece Expr)} {p : Piece Expr} (hp : p ∈ ps) :
    p.expr ∈ concatOperands ps := by
  have hmem : p.expr ∈ ps.map Piece.expr := List.mem_map_of_mem hp
  rw [concatOperands.eq_def]
  split
  · exact List.mem_cons_of_mem _ hmem
  · exact hmem

/-- What is neither nothing nor a string by itself is added up with something. -/
theorem two_le_length_concatOperands {ps : List (Piece Expr)}
    (h : 2 ≤ ps.length ∨ ∃ e m, ps = [.value e m false]) : 2 ≤ (concatOperands ps).length := by
  rw [concatOperands.eq_def]
  rcases h with h | ⟨e, m, rfl⟩
  · split
    · rw [List.length_cons, List.length_map]
      exact Nat.le_succ_of_le h
    · rw [List.length_map]
      exact h
  · exact Nat.le_refl _

/-- The general way of joining pieces: a fragment, or a sum. -/
theorem within_fragment_or_sum {ps : List (Piece Expr)} {e whole : Expr} {m s : Bool}
    (hp : .value whole m s ∈ ps) (h : e.Within whole)
    (hoperands : 2 ≤ (concatOperands ps).length) :
    e.Within (if ps.any Piece.isMarkup then
        ((Expr.fragment (ps.map fragmentChild), true) : Expr × Bool)
      else ((Expr.binaryChain? .add (concatOperands ps)).getD .absent, false)).1 := by
  split
  · exact .child (List.mem_map.mpr ⟨_, hp, rfl⟩) h
  · exact .binaryChain (mem_concatOperands hp) h hoperands

theorem within_joinPieces {ps : List (Piece Expr)} {p : Piece Expr} {e : Expr} (hp : p ∈ ps)
    (h : p.Contains e) : e.Within (joinPieces ps).1 := by
  cases p with
  | literal t => exact h.elim
  | value whole m s =>
    have hmem := value_mem_mergeLiterals hp
    rw [joinPieces]
    generalize mergeLiterals ps = merged at hmem ⊢
    rcases merged with _ | ⟨first, _ | ⟨second, rest⟩⟩
    · exact absurd hmem List.not_mem_nil
    · -- a piece by itself is joined as it is, unless a string has to be made of it
      obtain rfl := List.mem_singleton.mp hmem
      rcases m with _ | _
      · rcases s with _ | _
        · exact within_fragment_or_sum hmem h (two_le_length_concatOperands (.inr ⟨_, _, rfl⟩))
        · exact h
      · exact h
    · have hlength : 2 ≤ (first :: second :: rest).length := Nat.le_add_left 2 rest.length
      have hgeneral := within_fragment_or_sum hmem h (two_le_length_concatOperands (.inl hlength))
      rcases first with t | ⟨e', _ | _, _ | _⟩ <;> exact hgeneral

theorem contains_choicePiece_value {cases : List (Case Expr)} {fallback : Expr × Bool} {e : Expr}
    {c : Case Expr} (hc : c ∈ cases) (h : e.Within c.value) :
    (choicePiece cases fallback).Contains e := by
  have hordered : c ∈ cases.filter (·.isExact) ++ cases.filter (!·.isExact) :=
    (List.filter_append_perm _ cases).mem_iff.mpr hc
  exact .ternaryChain_value (List.mem_map_of_mem hordered) h

theorem contains_choicePiece_fallback {fallback : Expr × Bool} {e : Expr}
    (h : e.Within fallback.1) (cases : List (Case Expr)) :
    (choicePiece cases fallback).Contains e :=
  .ternaryChain_fallback h _

/-- What a tag encloses stands in its piece, unless the tag closes itself. -/
theorem contains_tagPiece {target : Target} {v : ValueRef} {inside e : Expr}
    (hinside : inside ≠ .absent) (h : e.Within inside) :
    (tagPiece target v false inside).Contains e := by
  cases target with
  | string => exact .argument (List.mem_singleton.mpr rfl) h
  | tree =>
    simp only [tagPiece, Bool.false_eq_true, if_false, markupElement_of_ne_absent hinside]
    exact .argument (List.mem_cons_of_mem _ (List.mem_cons_of_mem _ List.mem_cons_self)) h

end Compile

end Phrasebook
