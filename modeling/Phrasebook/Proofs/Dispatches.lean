import Phrasebook.Proofs.ClearTrees
import Phrasebook.Proofs.Simulation
import Phrasebook.Proofs.Subexpressions

/-!
Plurals in compiled messages. However deep a plural stands in a message, what the message is
compiled to holds a chain of conditionals for it, with one arm for each of its cases. The proof
follows the run that compiled the message to the run that compiled the plural.
-/
namespace Phrasebook.Compile

/-! ### Dispatches -/

/-- One arm of a dispatch: the case it is for, and the value it gives. -/
structure Arm where
  branch : Branch Node
  value : Expr

/-- What a plural is compiled to: arms in the order in which they are tried, and a value for when
none of them passes. Exact cases are told by the value of the plural, others by its category. -/
structure Dispatch where
  value : ValueRef
  category : Expr
  arms : List Arm
  fallback : Expr

namespace Dispatch

/-- The test in front of the arm for a case. -/
def test (d : Dispatch) (b : Branch Node) : Expr :=
  pluralTest d.value d.category b.key (exactValue? b.key)

def chain (d : Dispatch) : Expr :=
  Expr.ternaryChain (d.arms.map fun a => (d.test a.branch, a.value)) d.fallback

end Dispatch

/-- What elements side by side are compiled to; `plural` is the value that `#` stands for. -/
def CompilesTo (ctx : Context) (plural : Option ValueRef) (ns : List Node) (e : Expr) : Prop :=
  ∃ s s' pieces, (nodes ctx plural ns).exec s = (.ok pieces, s') ∧ e = (joinPieces pieces).1

/-- A dispatch is one of a plural with these cases: those that stand for numbers are tried first,
then those of categories, each in their order, and every arm gives what its case is compiled to. -/
structure Dispatch.IsOf (d : Dispatch) (ctx : Context) (cases : List (Branch Node)) : Prop where
  order : d.arms.map (·.branch) = cases.filter (fun b => (exactValue? b.key).isSome) ++
    cases.filter fun b => b.key != defaultKey && (exactValue? b.key).isNone
  compiled : ∃ shifted, (∀ a ∈ d.arms, CompilesTo ctx (some shifted) a.branch.body a.value) ∧
    CompilesTo ctx (some shifted) (fallbackBody cases) d.fallback

/-- The dispatch of a plural somewhere in an expression, about the argument of a name. -/
def Dispatched (ctx : Context) (s : State) (name : String) (cases : List (Branch Node))
    (holds : Expr → Prop) : Prop :=
  ∃ d : Dispatch, holds d.chain ∧ d.IsOf ctx cases ∧
    ∃ a ∈ s.arguments, a.name = name ∧ a.binding = d.value.binding

namespace Dispatched

variable {ctx : Context} {s s' : State} {name : String} {cases : List (Branch Node)}
  {holds holds' : Expr → Prop}

theorem imp (h : Dispatched ctx s name cases holds) (himp : ∀ e, holds e → holds' e) :
    Dispatched ctx s name cases holds' := by
  obtain ⟨d, hd, hrest⟩ := h
  exact ⟨d, himp _ hd, hrest⟩

theorem of_grows (h : Dispatched ctx s name cases holds) (hg : Grows s s') :
    Dispatched ctx s' name cases holds := by
  obtain ⟨d, hd, hof, a, ha, hname, hbinding⟩ := h
  obtain ⟨a', ha', hname', hbinding'⟩ := hg.argument_of_mem ha
  exact ⟨d, hd, hof, a', ha', hname'.trans hname, hbinding'.trans hbinding⟩

end Dispatched

/-! ### Runs -/

/-- A step that succeeds has grown its state, and what it refines to holds. -/
theorem Refines.succeeded {α : Type} {ctx : Context} {outer : List String} {s s' : State}
    {x : Step α} {verdict : Except Failure (List Use)} {asked : List Request}
    {post : State → α → Prop} {a : α} (h : Refines ctx outer s x verdict asked post)
    (hrun : x.exec s = (.ok a, s')) : Grows s s' ∧ Sound ctx outer s' ∧ post s' a := by
  rw [Refines, hrun] at h
  obtain ⟨-, -, hgrows, hsound, hpost⟩ := h
  exact ⟨hgrows, hsound, hpost⟩

/-- A step that only fails or gives a value leaves the state. -/
theorem Step.exec_lift_inv {α : Type} {e : Except Failure α} {s s' : State} {a : α}
    (h : Step.exec (liftM e) s = (.ok a, s')) : e = .ok a ∧ s = s' := by
  rw [Step.exec_lift] at h
  exact Prod.mk.inj h

theorem Step.exec_pure_inv {α : Type} {a b : α} {s s' : State}
    (h : Step.exec (pure a) s = (.ok b, s')) : a = b ∧ s = s' := by
  rw [Step.exec_pure] at h
  obtain ⟨ha, hs⟩ := Prod.mk.inj h
  exact ⟨Except.ok.inj ha, hs⟩

section Runs

variable [LocaleData] {ctx : Context} {outer : List String} {plural : Option ValueRef}
  {count : Surroundings → Option Value}

/-- Elements were compiled to pieces, from a sound state, on the way to a state. -/
def Ran (ctx : Context) (outer : List String) (plural : Option ValueRef)
    (count : Surroundings → Option Value) (s : State) (ns : List Node) (ps : List (Piece Expr)) :
    Prop :=
  ∃ s₀ s₁, Sound ctx outer s₀ ∧ Counts ctx s₀ plural count ∧
    (nodes ctx plural ns).exec s₀ = (.ok ps, s₁) ∧ Grows s₁ s

theorem Ran.of_grows {s s' : State} {ns : List Node} {ps : List (Piece Expr)}
    (h : Ran ctx outer plural count s ns ps) (hg : Grows s s') :
    Ran ctx outer plural count s' ns ps := by
  obtain ⟨s₀, s₁, hs, hc, hrun, hgrows⟩ := h
  exact ⟨s₀, s₁, hs, hc, hrun, hgrows.trans hg⟩

theorem Ran.compilesTo {s : State} {ns : List Node} {ps : List (Piece Expr)}
    (h : Ran ctx outer plural count s ns ps) : CompilesTo ctx plural ns (joinPieces ps).1 := by
  obtain ⟨s₀, s₁, -, -, hrun, -⟩ := h
  exact ⟨s₀, s₁, ps, hrun, rfl⟩

theorem nodes_succeeded {s s' : State} {ns : List Node} {ps : List (Piece Expr)}
    (hs : Sound ctx outer s) (hc : Counts ctx s plural count)
    (hrun : (nodes ctx plural ns).exec s = (.ok ps, s')) : Grows s s' ∧ Sound ctx outer s' := by
  obtain ⟨hgrows, hsound, -⟩ := (nodes_refines (fun n _ => simulates n) hs hc).succeeded hrun
  exact ⟨hgrows, hsound⟩

/-- Each element was compiled to one of the pieces. -/
theorem nodes_inv {s s' : State} {ns : List Node} {ps : List (Piece Expr)}
    (hs : Sound ctx outer s) (hc : Counts ctx s plural count)
    (hrun : (nodes ctx plural ns).exec s = (.ok ps, s')) {n : Node} (hn : n ∈ ns) :
    ∃ p ∈ ps, ∃ s₀ s₁, Sound ctx outer s₀ ∧ Counts ctx s₀ plural count ∧
      (node ctx plural n).exec s₀ = (.ok p, s₁) ∧ Grows s₁ s' := by
  induction ns generalizing s ps with
  | nil => exact absurd hn List.not_mem_nil
  | cons m r ih =>
    rw [nodes] at hrun
    obtain ⟨p, s₁, hfirst, hrun⟩ := Step.exec_bind_inv hrun
    obtain ⟨qs, s₂, hrest, hrun⟩ := Step.exec_bind_inv hrun
    obtain ⟨rfl, rfl⟩ := Step.exec_pure_inv hrun
    obtain ⟨hg₁, hs₁, -⟩ := (simulates m ctx outer s plural count hs hc).succeeded hfirst
    have hc₁ := hc.of_grows hg₁
    rcases List.mem_cons.mp hn with rfl | hn
    · exact ⟨p, List.mem_cons_self, s, s₁, hs, hc, hfirst, (nodes_succeeded hs₁ hc₁ hrest).1⟩
    · obtain ⟨q, hq, hran⟩ := ih hs₁ hc₁ hrest hn
      exact ⟨q, List.mem_cons_of_mem _ hq, hran⟩

/-- A case, the number it stands for and the pieces of its body. -/
structure Taken where
  branch : Branch Node
  exact : Option Float
  pieces : List (Piece Expr)

def Taken.case (test : String → Option Float → Expr) (t : Taken) : Case Expr :=
  ⟨t.exact.isSome, test t.branch.key t.exact, (joinPieces t.pieces).1, (joinPieces t.pieces).2⟩

/-- The cases that were taken for branches. -/
structure TakenFor (ctx : Context) (outer : List String) (plural : Option ValueRef)
    (count : Surroundings → Option Value) (selector : Selector) (s : State)
    (kept : List (Branch Node)) (taken : List Taken) : Prop where
  branches : taken.map (·.branch) = kept
  selected : ∀ t ∈ taken, selector t.branch.key t.branch.keySpan = .ok t.exact
  ran : ∀ t ∈ taken, Ran ctx outer plural count s t.branch.body t.pieces

theorem branch_inv {selector : Selector} {test : String → Option Float → Expr} {b : Branch Node}
    {s s' : State} {c : Case Expr} (hs : Sound ctx outer s) (hc : Counts ctx s plural count)
    (hrun : (branch ctx plural selector test b).exec s = (.ok c, s')) :
    Grows s s' ∧ Sound ctx outer s' ∧ ∃ t : Taken, t.branch = b ∧ c = t.case test ∧
      selector b.key b.keySpan = .ok t.exact ∧ Ran ctx outer plural count s' b.body t.pieces := by
  obtain ⟨key, keySpan, span, body⟩ := b
  rw [branch] at hrun
  obtain ⟨x, s₁, hselector, hrun⟩ := Step.exec_bind_inv hrun
  obtain ⟨hx, rfl⟩ := Step.exec_lift_inv hselector
  obtain ⟨ps, s₂, hbody, hrun⟩ := Step.exec_bind_inv hrun
  obtain ⟨rfl, rfl⟩ := Step.exec_pure_inv hrun
  obtain ⟨hg, hs₂⟩ := nodes_succeeded hs hc hbody
  exact ⟨hg, hs₂, ⟨⟨key, keySpan, span, body⟩, x, ps⟩, rfl, rfl, hx, _, _, hs, hc, hbody, .refl _⟩

theorem branches_inv {selector : Selector} {test : String → Option Float → Expr}
    {cases : List (Branch Node)} {seen : List String} {s s' : State} {cs : List (Case Expr)}
    (hs : Sound ctx outer s) (hc : Counts ctx s plural count)
    (hrun : (branches ctx plural selector test seen cases).exec s = (.ok cs, s')) :
    Grows s s' ∧ Sound ctx outer s' ∧ ∃ taken, cs = taken.map (Taken.case test) ∧
      TakenFor ctx outer plural count selector s' (keptCases seen cases) taken := by
  induction cases generalizing s seen cs with
  | nil =>
    rw [branches] at hrun
    obtain ⟨rfl, rfl⟩ := Step.exec_pure_inv hrun
    exact ⟨.refl _, hs, [], rfl, rfl, List.forall_mem_nil _, List.forall_mem_nil _⟩
  | cons b r ih =>
    rw [branches] at hrun
    rw [keptCases]
    split at hrun
    · rename_i hskipped
      rw [if_pos hskipped]
      exact ih hs hc hrun
    · rename_i hkept
      rw [if_neg hkept]
      obtain ⟨c, s₁, hfirst, hrun⟩ := Step.exec_bind_inv hrun
      obtain ⟨cs', s₂, hrest, hrun⟩ := Step.exec_bind_inv hrun
      obtain ⟨rfl, rfl⟩ := Step.exec_pure_inv hrun
      obtain ⟨hg₁, hs₁, t, rfl, rfl, hselected, hran⟩ := branch_inv hs hc hfirst
      obtain ⟨hg₂, hs₂, taken, rfl, htaken⟩ := ih hs₁ (hc.of_grows hg₁) hrest
      refine ⟨hg₁.trans hg₂, hs₂, t :: taken, rfl, ?_, ?_, ?_⟩
      · rw [List.map_cons, htaken.branches]
      · exact List.forall_mem_cons.mpr ⟨hselected, htaken.selected⟩
      · exact List.forall_mem_cons.mpr ⟨hran.of_grows hg₂, htaken.ran⟩

theorem defaultBranch_inv {cases : List (Branch Node)} {s s' : State} {r : Expr × Bool}
    (hs : Sound ctx outer s) (hc : Counts ctx s plural count)
    (hrun : (defaultBranch ctx plural cases).exec s = (.ok r, s')) :
    Grows s s' ∧ ∃ ps, r = joinPieces ps ∧
      Ran ctx outer plural count s' (fallbackBody cases) ps := by
  induction cases with
  | nil =>
    rw [defaultBranch] at hrun
    obtain ⟨rfl, rfl⟩ := Step.exec_pure_inv hrun
    refine ⟨.refl _, [], rfl, _, _, hs, hc, ?_, .refl _⟩
    rw [fallbackBody, nodes]
    exact Step.exec_pure _ _
  | cons b r ih =>
    rw [defaultBranch] at hrun
    rw [fallbackBody]
    split at hrun
    · rename_i hdefault
      rw [if_pos hdefault]
      obtain ⟨key, keySpan, span, body⟩ := b
      rw [defaultBody] at hrun
      obtain ⟨ps, s₁, hbody, hrun⟩ := Step.exec_bind_inv hrun
      obtain ⟨rfl, rfl⟩ := Step.exec_pure_inv hrun
      exact ⟨(nodes_succeeded hs hc hbody).1, ps, rfl, _, _, hs, hc, hbody, .refl _⟩
    · rename_i hother
      rw [if_neg hother]
      exact ih hrun

/-- A choice that was compiled: its cases in their order, and its default. -/
structure Chosen (ctx : Context) (outer : List String) (plural : Option ValueRef)
    (count : Surroundings → Option Value) (selector : Selector) (s : State)
    (cases : List (Branch Node)) (taken : List Taken) (fallback : List (Piece Expr)) : Prop where
  taken : TakenFor ctx outer plural count selector s (keptCases [] cases) taken
  fallback : Ran ctx outer plural count s (fallbackBody cases) fallback

theorem choice_inv {selector : Selector} {test : String → Option Float → Expr}
    {cases : List (Branch Node)} {s s' : State} {p : Piece Expr} (hs : Sound ctx outer s)
    (hc : Counts ctx s plural count)
    (hrun : Step.exec (do
        let compiled ← branches ctx plural selector test [] cases
        let fallback ← defaultBranch ctx plural cases
        return choicePiece compiled fallback) s = (.ok p, s')) :
    ∃ taken fallback, p = choicePiece (taken.map (Taken.case test)) (joinPieces fallback) ∧
      Grows s s' ∧ Chosen ctx outer plural count selector s' cases taken fallback := by
  obtain ⟨cs, s₁, hbranches, hrun⟩ := Step.exec_bind_inv hrun
  obtain ⟨r, s₂, hdefault, hrun⟩ := Step.exec_bind_inv hrun
  obtain ⟨rfl, rfl⟩ := Step.exec_pure_inv hrun
  obtain ⟨hg₁, hs₁, taken, rfl, htaken⟩ := branches_inv hs hc hbranches
  obtain ⟨hg₂, ps, rfl, hran⟩ := defaultBranch_inv hs₁ (hc.of_grows hg₁) hdefault
  exact ⟨taken, ps, rfl, hg₁.trans hg₂, ⟨htaken.branches, htaken.selected,
    fun t ht => (htaken.ran t ht).of_grows hg₂⟩, hran⟩

end Runs

/-! ### Cases -/

/-- Cases with distinct keys are all kept, but for the default. -/
theorem keptCases_eq_filter {α : Type} {cases : List (Branch α)} {seen : List String}
    (hdistinct : (cases.map (·.key)).Nodup) (hseen : ∀ b ∈ cases, b.key ∉ seen) :
    keptCases seen cases = cases.filter (·.key != defaultKey) := by
  induction cases generalizing seen with
  | nil => rfl
  | cons b r ih =>
    rw [List.map_cons, List.nodup_cons] at hdistinct
    obtain ⟨hnew, hdistinct⟩ := hdistinct
    have hrest : ∀ c ∈ r, c.key ∉ seen := fun c hc => hseen c (List.mem_cons_of_mem _ hc)
    rw [keptCases]
    by_cases hdefault : b.key = defaultKey
    · rw [if_pos (by simp [hdefault]), ih hdistinct hrest,
        List.filter_cons_of_neg (by simp [hdefault])]
    · have hb : b.key ∉ seen := hseen b List.mem_cons_self
      rw [if_neg (by simp [hdefault, hb]), List.filter_cons_of_pos (by simp [hdefault]),
        ih hdistinct]
      intro c hc hmem
      rcases List.mem_cons.mp hmem with hsame | hmem
      · exact hnew (hsame ▸ List.mem_map_of_mem hc)
      · exact hrest c hc hmem

/-- The dispatch of a plural whose cases were compiled. -/
def dispatchOf (v : ValueRef) (category : Expr) (taken : List Taken)
    (fallback : List (Piece Expr)) : Dispatch where
  value := v
  category := category
  arms := (taken.filter (·.exact.isSome) ++ taken.filter (!·.exact.isSome)).map fun t =>
    ⟨t.branch, (joinPieces t.pieces).1⟩
  fallback := (joinPieces fallback).1

section DispatchOf

variable {ctx : Context} {outer : List String} {plural : Option ValueRef}
  {count : Surroundings → Option Value} {s : State} {cases : List (Branch Node)}
  {taken : List Taken} {fallback : List (Piece Expr)}

theorem chain_dispatchOf (v : ValueRef) (category : Expr) (fallback : List (Piece Expr))
    (hexact : ∀ t ∈ taken, t.exact = exactValue? t.branch.key) :
    (choicePiece (taken.map (Taken.case (pluralTest v category)))
      (joinPieces fallback)).Contains (dispatchOf v category taken fallback).chain := by
  have hchain : (dispatchOf v category taken fallback).chain =
      (choicePiece (taken.map (Taken.case (pluralTest v category))) (joinPieces fallback)).expr := by
    simp only [dispatchOf, Dispatch.chain, choicePiece, Piece.expr, List.filter_map, List.map_map,
      ← List.map_append]
    congr 1
    refine List.map_congr_left fun t ht => ?_
    have hmem : t ∈ taken := (List.filter_append_perm _ _).mem_iff.mp ht
    simp only [Function.comp, Dispatch.test, Taken.case, hexact t hmem]
  rw [hchain]
  exact .refl

theorem isOf_dispatchOf [LocaleData] {shifted : ValueRef} (v : ValueRef) (category : Expr)
    (hdistinct : (cases.map (·.key)).Nodup)
    (h : Chosen ctx outer (some shifted) count pluralSelector s cases taken fallback) :
    (dispatchOf v category taken fallback).IsOf ctx cases := by
  have hkept := h.taken.branches
  rw [keptCases_eq_filter hdistinct fun _ _ => List.not_mem_nil] at hkept
  have hexact : ∀ t ∈ taken, t.exact = exactValue? t.branch.key :=
    fun t ht => (pluralSelector_ok (h.taken.selected t ht)).1
  constructor
  case order =>
    have hfirst : (taken.filter (·.exact.isSome)).map (·.branch) =
        cases.filter fun b => (exactValue? b.key).isSome := by
      calc (taken.filter (·.exact.isSome)).map (·.branch)
          = (taken.filter ((fun b => (exactValue? b.key).isSome) ∘ (·.branch))).map (·.branch) := by
            rw [List.filter_congr fun t ht => congrArg Option.isSome (hexact t ht)]
            rfl
        _ = (cases.filter (·.key != defaultKey)).filter fun b => (exactValue? b.key).isSome := by
            rw [← List.filter_map, hkept]
        _ = cases.filter fun b => (exactValue? b.key).isSome := by
            rw [List.filter_filter]
            refine List.filter_congr fun b _ => ?_
            -- the default stands for no number
            by_cases hb : b.key = defaultKey
            · rw [hb]
              rfl
            · simp [hb]
    have hsecond : (taken.filter (!·.exact.isSome)).map (·.branch) =
        cases.filter fun b => b.key != defaultKey && (exactValue? b.key).isNone := by
      calc (taken.filter (!·.exact.isSome)).map (·.branch)
          = (taken.filter ((fun b => (exactValue? b.key).isNone) ∘ (·.branch))).map (·.branch) := by
            refine congrArg _ (List.filter_congr fun t ht => ?_)
            simp only [Function.comp, hexact t ht, Option.not_isSome]
        _ = (cases.filter (·.key != defaultKey)).filter fun b => (exactValue? b.key).isNone := by
            rw [← List.filter_map, hkept]
        _ = cases.filter fun b => b.key != defaultKey && (exactValue? b.key).isNone := by
            rw [List.filter_filter]
            exact List.filter_congr fun b _ => Bool.and_comm _ _
    rw [dispatchOf, List.map_map, List.map_append, ← hfirst, ← hsecond]
    rfl
  case compiled =>
    refine ⟨shifted, ?_, h.fallback.compilesTo⟩
    intro a ha
    obtain ⟨t, ht, rfl⟩ := List.mem_map.mp ha
    have hmem : t ∈ taken := (List.filter_append_perm _ _).mem_iff.mp ht
    exact (h.taken.ran t hmem).compilesTo

end DispatchOf

/-! ### Elements -/

/-- Each plural in an element that is compiled is dispatched in the piece of the element. -/
def Dispatches [LocaleData] (n : Node) : Prop :=
  ∀ (ctx : Context) (outer : List String) (s : State) (plural : Option ValueRef)
    (count : Surroundings → Option Value), Sound ctx outer s → Counts ctx s plural count →
    n.All Node.Clear → ∀ p s', (node ctx plural n).exec s = (.ok p, s') →
    ∀ span name nameSpan offset kind cases,
      Node.Within (.plural span name nameSpan offset kind cases) n →
      Dispatched ctx s' name cases p.Contains

theorem Dispatches.of_no_plural [LocaleData] {n : Node} (h : ∀ span name nameSpan offset kind cases,
    ¬Node.Within (.plural span name nameSpan offset kind cases) n) : Dispatches n :=
  fun _ _ _ _ _ _ _ _ _ _ _ _ _ _ _ _ _ hm => absurd hm (h _ _ _ _ _ _)

section Lists

variable [LocaleData] {ctx : Context} {outer : List String} {plural : Option ValueRef}
  {count : Surroundings → Option Value} {s : State} {span nameSpan : Span} {name : String}
  {offset : Float} {kind : PluralKind} {below cases : List (Branch Node)}

theorem Ran.dispatched {ns : List Node} {ps : List (Piece Expr)}
    (hran : Ran ctx outer plural count s ns ps) (h : ∀ n ∈ ns, Dispatches n)
    (hclear : ∀ n ∈ ns, n.All Node.Clear) {n : Node} (hn : n ∈ ns)
    (hm : Node.Within (.plural span name nameSpan offset kind below) n) :
    Dispatched ctx s name below (·.Within (joinPieces ps).1) := by
  obtain ⟨s₀, s₁, hs, hc, hrun, hgrows⟩ := hran
  obtain ⟨p, hp, s₂, s₃, hs₂, hc₂, hpiece, hg₃⟩ := nodes_inv hs hc hrun hn
  have hdispatched := h n hn ctx outer s₂ plural count hs₂ hc₂ (hclear n hn) p s₃ hpiece
    span name nameSpan offset kind below hm
  exact (hdispatched.of_grows (hg₃.trans hgrows)).imp fun e he => within_joinPieces hp he

/-- A plural in a case of a choice is dispatched in the choice. -/
theorem Chosen.dispatched {selector : Selector} {taken : List Taken}
    {fallback : List (Piece Expr)}
    (hchosen : Chosen ctx outer plural count selector s cases taken fallback)
    (test : String → Option Float → Expr) (h : ∀ b ∈ cases, ∀ n ∈ b.body, Dispatches n)
    (hdistinct : (cases.map (·.key)).Nodup) (hclear : ∀ b ∈ cases, ∀ n ∈ b.body, n.All Node.Clear)
    {b : Branch Node} (hb : b ∈ cases) {n : Node} (hn : n ∈ b.body)
    (hm : Node.Within (.plural span name nameSpan offset kind below) n) :
    Dispatched ctx s name below
      (choicePiece (taken.map (Taken.case test)) (joinPieces fallback)).Contains := by
  rcases (mem_body_iff hdistinct).mp ⟨b, hb, hn⟩ with ⟨c, hc, hn⟩ | hn
  · rw [← hchosen.taken.branches] at hc
    obtain ⟨t, ht, rfl⟩ := List.mem_map.mp hc
    have hkept : t.branch ∈ keptCases [] cases := by
      rw [← hchosen.taken.branches]
      exact List.mem_map_of_mem ht
    have hmem := mem_of_mem_keptCases hkept
    refine ((hchosen.taken.ran t ht).dispatched (h _ hmem) (hclear _ hmem) hn hm).imp ?_
    exact fun e he => contains_choicePiece_value (List.mem_map_of_mem ht) he
  · have hbelow : ∀ m ∈ fallbackBody cases, Dispatches m ∧ m.All Node.Clear := by
      intro m hm
      obtain ⟨c, hc, hm⟩ := exists_of_mem_fallbackBody hm
      exact ⟨h c hc m hm, hclear c hc m hm⟩
    refine (hchosen.fallback.dispatched (fun m hm => (hbelow m hm).1)
      (fun m hm => (hbelow m hm).2) hn hm).imp ?_
    exact fun e he => contains_choicePiece_fallback he _

end Lists

/-- What a plural has done before its cases are compiled. -/
theorem plural_inv [LocaleData] {ctx : Context} {outer : List String} {plural : Option ValueRef} {s s' : State}
    {span nameSpan : Span} {name : String} {offset : Float} {kind : PluralKind}
    {cases : List (Branch Node)} {p : Piece Expr} (hs : Sound ctx outer s)
    (hrun : (node ctx plural (.plural span name nameSpan offset kind cases)).exec s =
      (.ok p, s')) :
    ∃ v shifted category count taken fallback,
      p = choicePiece (taken.map (Taken.case (pluralTest v category))) (joinPieces fallback) ∧
      Chosen ctx outer (some shifted) count pluralSelector s' cases taken fallback ∧
      ∃ a ∈ s'.arguments, a.name = name ∧ a.binding = v.binding := by
  rw [node] at hrun
  obtain ⟨v, s₁, hargument, hrest⟩ := Step.exec_bind_inv hrun
  obtain ⟨hg₁, hs₁, a, ha, hname, hbinding⟩ :=
    (useArgument_refines hs name .number nameSpan).succeeded hargument
  obtain ⟨_, s₂, hrequired, hrest⟩ := Step.exec_bind_inv hrest
  obtain ⟨-, rfl⟩ := Step.exec_lift_inv hrequired
  obtain ⟨shifted, s₃, hoffset, hrest⟩ := Step.exec_bind_inv hrest
  obtain ⟨hg₃, hs₃, hshifted⟩ :=
    (useOffset_refines hs₁ (argument_means ha hname hbinding) offset).succeeded hoffset
  obtain ⟨category, s₄, hcategory, hchoice⟩ := Step.exec_bind_inv hrest
  -- a category is made only if some case asks for one
  have hstep : Grows s₃ s₄ ∧ Sound ctx outer s₄ := by
    split at hcategory
    · obtain ⟨hg, hs, -⟩ := (useCategory_refines hs₃ hshifted kind).succeeded hcategory
      exact ⟨hg, hs⟩
    · obtain ⟨-, rfl⟩ := Step.exec_pure_inv hcategory
      exact ⟨.refl _, hs₃⟩
  obtain ⟨hg₄, hs₄⟩ := hstep
  -- inside the plural the count is its argument less the offset
  have hcounts : Counts ctx s₄ (some shifted) fun w => some (shift (w.argument name) offset) := by
    intro u hu
    rw [← Option.some.inj hu]
    exact ⟨_, hshifted.of_grows hg₄, fun _ => rfl⟩
  obtain ⟨taken, fallback, hp, hg₅, hchosen⟩ := choice_inv hs₄ hcounts hchoice
  obtain ⟨a', ha', hname', hbinding'⟩ := ((hg₃.trans hg₄).trans hg₅).argument_of_mem ha
  exact ⟨v, shifted, category, _, taken, fallback, hp, hchosen, a', ha', hname'.trans hname,
    hbinding'.trans hbinding⟩

/-- Every plural in an element is dispatched. -/
theorem dispatches [LocaleData] : ∀ n, Dispatches n := by
  apply Node.Hereditary.holds
  constructor
  case select =>
    intro span name nameSpan cases ih ctx outer s plural count hs hc hclear p s' hrun
      _ _ _ _ _ below hm
    rw [node] at hrun
    obtain ⟨v, s₁, hargument, hrest⟩ := Step.exec_bind_inv hrun
    obtain ⟨hg₁, hs₁, -⟩ := (useArgument_refines hs name .string nameSpan).succeeded hargument
    obtain ⟨_, s₂, hrequired, hchoice⟩ := Step.exec_bind_inv hrest
    obtain ⟨-, rfl⟩ := Step.exec_lift_inv hrequired
    obtain ⟨taken, fallback, rfl, -, hchosen⟩ := choice_inv hs₁ (hc.of_grows hg₁) hchoice
    cases hm with
    | select hb hn hm => exact hchosen.dispatched _ ih hclear.self hclear.of_select hb hn hm
  case plural =>
    intro span name nameSpan offset kind cases ih ctx outer s plural count hs hc hclear p s' hrun
      _ _ _ _ _ below hm
    obtain ⟨v, shifted, category, _, taken, fallback, rfl, hchosen, hargument⟩ := plural_inv hs hrun
    cases hm with
    | plural hb hn hm => exact hchosen.dispatched _ ih hclear.self hclear.of_plural hb hn hm
    | refl =>
      have hexact : ∀ t ∈ taken, t.exact = exactValue? t.branch.key :=
        fun t ht => (pluralSelector_ok (hchosen.taken.selected t ht)).1
      exact ⟨dispatchOf v category taken fallback, chain_dispatchOf v category fallback hexact,
        isOf_dispatchOf v category hclear.self hchosen, hargument⟩
  case tag =>
    intro span name nameSpan selfClosing children ih ctx outer s plural count hs hc hclear p s' hrun
      _ _ _ _ _ below hm
    rw [node] at hrun
    obtain ⟨_, s₁, hidentifier, hrest⟩ := Step.exec_bind_inv hrun
    obtain ⟨-, rfl⟩ := Step.exec_lift_inv hidentifier
    obtain ⟨v, s₁, hargument, hrest⟩ := Step.exec_bind_inv hrest
    obtain ⟨hg₁, hs₁, -⟩ := (useArgument_refines hs name _ _).succeeded hargument
    obtain ⟨ps, s₂, hinside, hrest⟩ := Step.exec_bind_inv hrest
    obtain ⟨rfl, rfl⟩ := Step.exec_pure_inv hrest
    cases hm with
    | tag hn hm =>
      cases selfClosing with
      | true =>
        rw [hclear.self rfl] at hn
        exact absurd hn List.not_mem_nil
      | false =>
        have hc₁ := hc.of_grows hg₁
        have hran : Ran ctx outer plural count s₂ children ps := ⟨_, _, hs₁, hc₁, hinside, .refl _⟩
        obtain ⟨-, -, hps⟩ := (nodes_refines (fun n _ => simulates n) hs₁ hc₁).succeeded hinside
        exact (hran.dispatched ih hclear.of_tag hn hm).imp fun e he =>
          contains_tagPiece (joinPieces_ne_absent hps.present) he
  all_goals
    intros
    exact .of_no_plural fun _ _ _ _ _ _ h => by cases h

end Phrasebook.Compile
