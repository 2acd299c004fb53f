import Phrasebook.Compile.Message
import Phrasebook.Evaluate.Run

/-!
The names an expression reads. Its value depends on no others, and what is built of expressions
reads what these do.
-/
namespace Phrasebook

mutual

/-- Every identifier read in an expression. -/
def Expr.reads : Expr → List String
  | .ident name => [name]
  | .member object _ => object.reads
  | .call callee args => callee.reads ++ readsAll args
  | .new callee args => callee.reads ++ readsAll args
  | .binary _ left right => left.reads ++ right.reads
  | .conditional test yes no => test.reads ++ yes.reads ++ no.reads
  | .object props => propReads props
  | .fragment children => childReads children
  | .string _ | .number _ | .bool _ | .unknown | .absent => []

def readsAll : List Expr → List String
  | [] => []
  | e :: r => e.reads ++ readsAll r

def propReads : List (String × Expr) → List String
  | [] => []
  | (_, e) :: r => e.reads ++ propReads r

def childReads : List (Child Expr) → List String
  | [] => []
  | .text _ :: r => childReads r
  | .container e :: r => e.reads ++ childReads r

end

namespace Evaluate

/-- Two scopes agree on some names. -/
def Agree (scope scope' : Scope) (names : List String) : Prop :=
  ∀ x ∈ names, scope.find? x = scope'.find? x

theorem Agree.left {scope scope' : Scope} {xs ys : List String}
    (h : Agree scope scope' (xs ++ ys)) : Agree scope scope' xs :=
  fun x hx => h x (List.mem_append_left _ hx)

theorem Agree.right {scope scope' : Scope} {xs ys : List String}
    (h : Agree scope scope' (xs ++ ys)) : Agree scope scope' ys :=
  fun x hx => h x (List.mem_append_right _ hx)

variable [LocaleData]

mutual

/-- The value of an expression depends on the names it reads only. -/
theorem expr_congr {scope scope' : Scope} :
    ∀ e : Expr, Agree scope scope' e.reads → expr scope e = expr scope' e
  | .absent, _ => rfl
  | .string s, _ => by rw [expr, expr]
  | .number x, _ => by rw [expr, expr]
  | .bool b, _ => by rw [expr, expr]
  | .unknown, _ => by rw [expr, expr]
  | .ident name, h => by
    rw [expr, expr, h name (by rw [Expr.reads]; exact List.mem_singleton.mpr rfl)]
  | .member object property, h => by
    rw [Expr.reads] at h
    rw [expr, expr, expr_congr object h]
  | .call callee args, h => by
    rw [Expr.reads] at h
    rw [expr, expr, expr_congr callee h.left, exprs_congr args h.right]
  | .new callee args, h => by
    rw [Expr.reads] at h
    rw [expr, expr, expr_congr callee h.left, exprs_congr args h.right]
  | .binary op a b, h => by
    rw [Expr.reads] at h
    rw [expr, expr, expr_congr a h.left, expr_congr b h.right]
  | .conditional test yes no, h => by
    rw [Expr.reads] at h
    rw [expr, expr, expr_congr test h.left.left, expr_congr yes h.left.right,
      expr_congr no h.right]
  | .object props, h => by
    rw [Expr.reads] at h
    rw [expr, expr, entries_congr props [] h]
  | .fragment cs, h => by
    rw [Expr.reads] at h
    rw [expr, expr, children_congr cs h]

theorem exprs_congr {scope scope' : Scope} :
    ∀ es : List Expr, Agree scope scope' (readsAll es) → exprs scope es = exprs scope' es
  | [], _ => by rw [exprs, exprs]
  | e :: r, h => by
    rw [readsAll] at h
    rw [exprs, exprs, expr_congr e h.left, exprs_congr r h.right]

theorem entries_congr {scope scope' : Scope} :
    ∀ (props : List (String × Expr)) (done : List (String × Value)),
      Agree scope scope' (propReads props) → entries scope done props = entries scope' done props
  | [], done, _ => by rw [entries, entries]
  | (k, e) :: r, done, h => by
    rw [propReads] at h
    rw [entries, entries, expr_congr e h.left]
    congr
    funext v
    exact entries_congr r _ h.right

theorem children_congr {scope scope' : Scope} :
    ∀ cs : List (Child Expr), Agree scope scope' (childReads cs) →
      children scope cs = children scope' cs
  | [], _ => by rw [children, children]
  | .text s :: r, h => by
    rw [childReads] at h
    rw [children, children, children_congr r h]
  | .container e :: r, h => by
    rw [childReads] at h
    rw [children, children, expr_congr e h.left, children_congr r h.right]

end

end Evaluate

namespace Compile

/-- An expression reads names of a list only. -/
def ReadsOnly (names : List String) (e : Expr) : Prop :=
  ∀ x ∈ e.reads, x ∈ names

theorem ReadsOnly.mono {xs ys : List String} {e : Expr} (h : ReadsOnly xs e) (hsub : xs ⊆ ys) :
    ReadsOnly ys e :=
  fun x hx => hsub (h x hx)

variable {names : List String}

theorem readsOnly_ident {name : String} : ReadsOnly names (.ident name) ↔ name ∈ names := by
  simp only [ReadsOnly, Expr.reads, List.mem_singleton, forall_eq]

theorem readsOnly_string (s : String) : ReadsOnly names (.string s) := by
  intro x hx
  simp only [Expr.reads, List.not_mem_nil] at hx

theorem readsOnly_binary {op : BinaryOp} {a b : Expr} (ha : ReadsOnly names a)
    (hb : ReadsOnly names b) : ReadsOnly names (.binary op a b) := by
  intro x hx
  rw [Expr.reads, List.mem_append] at hx
  exact hx.elim (ha x) (hb x)

theorem readsOnly_readsAll {es : List Expr} (h : ∀ e ∈ es, ReadsOnly names e) :
    ∀ x ∈ readsAll es, x ∈ names := by
  induction es with
  | nil => intro x hx; simp only [readsAll, List.not_mem_nil] at hx
  | cons e r ih =>
    intro x hx
    rw [readsAll, List.mem_append] at hx
    rcases hx with hx | hx
    · exact h e List.mem_cons_self x hx
    · exact ih (fun e he => h e (List.mem_cons_of_mem _ he)) x hx

theorem readsOnly_call {callee : Expr} {args : List Expr} (hc : ReadsOnly names callee)
    (ha : ∀ e ∈ args, ReadsOnly names e) : ReadsOnly names (.call callee args) := by
  intro x hx
  rw [Expr.reads, List.mem_append] at hx
  exact hx.elim (hc x) (readsOnly_readsAll ha x)

theorem readsOnly_member {object : Expr} {property : String} (h : ReadsOnly names object) :
    ReadsOnly names (.member object property) := by
  intro x hx
  rw [Expr.reads] at hx
  exact h x hx

theorem readsOnly_foldl_binary {op : BinaryOp} {rest : List Expr} :
    ∀ {first : Expr}, ReadsOnly names first → (∀ e ∈ rest, ReadsOnly names e) →
      ReadsOnly names (rest.foldl (.binary op) first) := by
  induction rest with
  | nil => intro first hf _; exact hf
  | cons e r ih =>
    intro first hf hr
    exact ih (readsOnly_binary hf (hr e List.mem_cons_self))
      fun e he => hr e (List.mem_cons_of_mem _ he)

theorem readsOnly_binaryChain {es : List Expr} (h : ∀ e ∈ es, ReadsOnly names e) :
    ReadsOnly names ((Expr.binaryChain? .add es).getD .absent) := by
  have habsent : ReadsOnly names .absent := by
    intro x hx
    simp only [Expr.reads, List.not_mem_nil] at hx
  match es, h with
  | [], _ => exact habsent
  | [_], _ => exact habsent
  | a :: b :: r, h =>
    refine readsOnly_foldl_binary (readsOnly_binary (h a ?_) (h b ?_)) fun e he => h e ?_
    · exact List.mem_cons_self
    · exact List.mem_cons_of_mem _ List.mem_cons_self
    · exact List.mem_cons_of_mem _ (List.mem_cons_of_mem _ he)

theorem readsOnly_ternaryChain {cases : List (Expr × Expr)} {fallback : Expr}
    (hc : ∀ c ∈ cases, ReadsOnly names c.1 ∧ ReadsOnly names c.2) (hf : ReadsOnly names fallback) :
    ReadsOnly names (Expr.ternaryChain cases fallback) := by
  induction cases with
  | nil => exact hf
  | cons c r ih =>
    have hrest := ih fun c hc' => hc c (List.mem_cons_of_mem _ hc')
    obtain ⟨ht, hv⟩ := hc c List.mem_cons_self
    intro x hx
    simp only [Expr.ternaryChain, List.foldr_cons, Expr.reads, List.mem_append] at hx
    rcases hx with (hx | hx) | hx
    · exact ht x hx
    · exact hv x hx
    · exact hrest x hx

/-! ### Pieces -/

/-- Merging makes literals only, so what holds of texts and of all pieces goes on to hold. -/
theorem mergeLiterals_forall {P : Expr → Prop} (htext : ∀ t, P (.string t)) {ps : List (Piece Expr)}
    (h : ∀ p ∈ ps, P p.expr) : ∀ p ∈ mergeLiterals ps, P p.expr := by
  induction ps with
  | nil => intro p hp; simp only [mergeLiterals, List.not_mem_nil] at hp
  | cons q r ih =>
    have hr := ih fun p hp => h p (List.mem_cons_of_mem _ hp)
    intro p hp
    cases q with
    | value e m s =>
      simp only [mergeLiterals] at hp
      rcases List.mem_cons.mp hp with rfl | hp
      · exact h _ List.mem_cons_self
      · exact hr p hp
    | literal t =>
      -- an empty text is dropped, and another one joins the text behind it
      rw [mergeLiterals] at hp
      split at hp
      · exact hr p hp
      · split at hp
        · rename_i u r' hm
          rw [hm] at hr
          rcases List.mem_cons.mp hp with rfl | hp
          · exact htext _
          · exact hr p (List.mem_cons_of_mem _ hp)
        · rcases List.mem_cons.mp hp with rfl | hp
          · exact htext _
          · exact hr p hp

theorem readsOnly_fragment {ps : List (Piece Expr)} (h : ∀ p ∈ ps, ReadsOnly names p.expr) :
    ReadsOnly names (.fragment (ps.map fragmentChild)) := by
  suffices hall : ∀ x ∈ childReads (ps.map fragmentChild), x ∈ names by
    intro x hx
    rw [Expr.reads] at hx
    exact hall x hx
  induction ps with
  | nil => intro x hx; simp only [List.map_nil, childReads, List.not_mem_nil] at hx
  | cons p r ih =>
    intro x hx
    have hr := ih fun p hp => h p (List.mem_cons_of_mem _ hp)
    cases p with
    | literal t =>
      rw [List.map_cons, fragmentChild, childReads] at hx
      exact hr x hx
    | value e m s =>
      rw [List.map_cons, fragmentChild, childReads, List.mem_append] at hx
      exact hx.elim (h _ List.mem_cons_self x) (hr x)

theorem concatOperands_readsOnly {ps : List (Piece Expr)} (h : ∀ p ∈ ps, ReadsOnly names p.expr) :
    ∀ e ∈ concatOperands ps, ReadsOnly names e := by
  have hmap : ∀ e ∈ ps.map Piece.expr, ReadsOnly names e := by
    intro e he
    obtain ⟨p, hp, rfl⟩ := List.mem_map.mp he
    exact h p hp
  intro e he
  rw [concatOperands.eq_def] at he
  split at he
  · rcases List.mem_cons.mp he with rfl | he
    · exact readsOnly_string _
    · exact hmap e he
  · exact hmap e he

theorem joinPieces_readsOnly {ps : List (Piece Expr)} (h : ∀ p ∈ ps, ReadsOnly names p.expr) :
    ReadsOnly names (joinPieces ps).1 := by
  have hm := mergeLiterals_forall readsOnly_string h
  rw [joinPieces]
  split
  · exact readsOnly_string _
  · exact readsOnly_string _
  · rename_i e s hmerged
    rw [hmerged] at hm
    exact hm _ List.mem_cons_self
  · rename_i e hmerged
    rw [hmerged] at hm
    exact hm _ List.mem_cons_self
  · split
    · exact readsOnly_fragment hm
    · exact readsOnly_binaryChain (concatOperands_readsOnly hm)

theorem choicePiece_readsOnly {cases : List (Case Expr)} {fallback : Expr × Bool}
    (hc : ∀ c ∈ cases, ReadsOnly names c.test ∧ ReadsOnly names c.value)
    (hf : ReadsOnly names fallback.1) : ReadsOnly names (choicePiece cases fallback).expr := by
  refine readsOnly_ternaryChain ?_ hf
  intro c hmem
  obtain ⟨d, hd, rfl⟩ := List.mem_map.mp hmem
  rcases List.mem_append.mp hd with hd | hd
  · exact hc d (List.mem_filter.mp hd).1
  · exact hc d (List.mem_filter.mp hd).1

/-! ### Pieces that are there -/

theorem foldl_binary_ne_absent {op : BinaryOp} {rest : List Expr} :
    ∀ {first : Expr}, first ≠ .absent → rest.foldl (.binary op) first ≠ .absent := by
  induction rest with
  | nil => intro first hf; exact hf
  | cons e r ih => intro first _; exact ih Expr.noConfusion

/-- Joined pieces are never left out: a sum has at least two operands. -/
theorem joinPieces_ne_absent {ps : List (Piece Expr)} (h : ∀ p ∈ ps, p.expr ≠ .absent) :
    (joinPieces ps).1 ≠ .absent := by
  have hm := mergeLiterals_forall (P := (· ≠ .absent)) (fun _ => Expr.noConfusion) h
  rw [joinPieces]
  -- one piece stands for itself; a sum is made of two and more
  match hmerged : mergeLiterals ps with
  | [] => exact Expr.noConfusion
  | [.literal t] => exact Expr.noConfusion
  | [.value e true s] => exact hm _ (by rw [hmerged]; exact List.mem_cons_self)
  | [.value e false true] => exact hm _ (by rw [hmerged]; exact List.mem_cons_self)
  | [.value e false false] =>
    simp [Piece.isMarkup, concatOperands, Expr.binaryChain?]
  | p :: q :: r =>
    have hsum : (Expr.binaryChain? .add (concatOperands (p :: q :: r))).getD .absent ≠ .absent := by
      rw [concatOperands.eq_def]
      split
      · exact foldl_binary_ne_absent Expr.noConfusion
      · exact foldl_binary_ne_absent Expr.noConfusion
    cases p with
    | literal t =>
      simp only
      split
      · exact Expr.noConfusion
      · exact hsum
    | value e m s =>
      cases m <;> cases s
      all_goals
        simp only
        split
        · exact Expr.noConfusion
        · exact hsum

theorem ternaryChain_ne_absent {cases : List (Expr × Expr)} {fallback : Expr}
    (h : fallback ≠ .absent) : Expr.ternaryChain cases fallback ≠ .absent := by
  cases cases with
  | nil => exact h
  | cons c r => exact Expr.noConfusion

theorem markupElement_of_ne_absent {builder tag children : Expr} (h : children ≠ .absent) :
    Expr.markupElement builder tag children =
      .call (.member builder "cloneElement") [tag, .undefined, children] := by
  cases children with
  | absent => exact absurd rfl h
  | _ => rfl

end Compile

end Phrasebook
