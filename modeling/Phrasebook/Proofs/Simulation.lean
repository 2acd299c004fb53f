import Phrasebook.Proofs.Steps

/-!
Compiling a tree refines checking it, and what is compiled evaluates to the meaning of the tree in
every scope that holds what the compiled constants promise. The proof follows the tree; lists of
elements and of branches pass the claim on.
-/
namespace Phrasebook.Compile

open Evaluate (Eval)

theorem pure_injective {v v' : Value} (h : (pure v : Eval Value) = pure v') : v = v' := by
  have hrun := congrFun h 0
  have hpair : ((v, 0) : Value × Nat) = (v', 0) := Except.ok.inj hrun
  exact congrArg Prod.fst hpair

theorem mem_constantNames {ctx : Context} {outer : List String} {s : State}
    (hs : Sound ctx outer s) {p : SharedKey × String} (hp : p ∈ s.shared) :
    p.2 ∈ s.constantNames := by
  rw [← hs.aligned]
  exact List.mem_map.mpr ⟨p, hp, rfl⟩

theorem readsOnly_method {ctx : Context} {outer : List String} {s : State}
    (hs : Sound ctx outer s) {v : ValueRef} {p : SharedKey × String} (hp : p ∈ s.shared)
    (hv : v.binding ∈ s.locals) (method : String) :
    ReadsOnly (s.locals ++ s.constantNames)
      (.call (.member (.ident p.2) method) [.ident v.binding]) := by
  refine readsOnly_call (readsOnly_member (readsOnly_ident.mpr ?_)) ?_
  · exact List.mem_append_right _ (mem_constantNames hs hp)
  · intro e he
    rw [List.mem_singleton.mp he]
    exact readsOnly_ident.mpr (List.mem_append_left _ hv)

theorem readsOnly_offset {s : State} {v : ValueRef} (hv : v.binding ∈ s.locals) (offset : Float) :
    ReadsOnly (s.locals ++ s.constantNames) (LocalKey.init (.offset v.binding offset)) := by
  refine readsOnly_binary (readsOnly_ident.mpr (List.mem_append_left _ hv)) ?_
  intro x hx
  simp only [Expr.reads, List.not_mem_nil] at hx

theorem pluralSelector_ok {key : String} {keySpan : Span} {x : Option Float}
    (h : pluralSelector key keySpan = .ok x) :
    x = exactValue? key ∧ (x = none → isExactKey key = false) := by
  rw [pluralSelector] at h
  split at h
  · rename_i hkey
    split at h
    · rename_i y hy
      obtain rfl := Except.ok.inj h
      exact ⟨hy.symm, nofun⟩
    · exact nomatch h
  · rename_i hkey
    obtain rfl := Except.ok.inj h
    refine ⟨?_, fun _ => by simpa using hkey⟩
    rw [exactValue?]
    split
    · rename_i r hr
      simp [isExactKey, hr] at hkey
    · rfl

/-! ### Scopes -/

variable [LocaleData]

/-- A scope in which the arguments of a message, the shared formatters and the derived constants
have the values they stand for. -/
structure Holds (ctx : Context) (w : Surroundings) (s : State) (scope : Evaluate.Scope) : Prop where
  argument : ∀ a ∈ s.arguments, scope.find? a.binding = some (w.argument a.name)
  shared : ∀ p ∈ s.shared, ∃ ref, scope.find? p.2 = some (.formatter ref (w.formatter p.1))
  derived : ∀ p ∈ s.derived, ∃ v, Evaluate.expr scope p.1.init = pure v ∧ scope.find? p.2 = some v
  undefined : scope.find? "undefined" = some .undefined
  markup : ctx.target = .tree → scope.find? markupName = some (.nameSpace .markup)

theorem Holds.of_grows {ctx : Context} {w : Surroundings} {s s' : State} {scope : Evaluate.Scope}
    (h : Holds ctx w s' scope) (hg : Grows s s') : Holds ctx w s scope := by
  refine ⟨?_, fun p hp => h.shared p (hg.shared.subset hp),
    fun p hp => h.derived p (hg.derived.subset hp), h.undefined, h.markup⟩
  intro a ha
  obtain ⟨a', ha', hn, hb⟩ := hg.argument_of_mem ha
  rw [← hb, ← hn]
  exact h.argument a' ha'

/-! ### What compiled things mean -/

/-- A binding holds a value. -/
structure RefMeans (ctx : Context) (s : State) (v : ValueRef) (val : Surroundings → Value) :
    Prop where
  bound : v.binding ∈ s.locals
  find : ∀ w scope, Holds ctx w s scope → scope.find? v.binding = some (val w)

/-- An expression reads what is visible and evaluates to a meaning. -/
structure ExprMeans (ctx : Context) (s : State) (e : Expr) (m : Surroundings → Eval Value) :
    Prop where
  reads : ReadsOnly (s.visible ctx) e
  eval : ∀ w scope, Holds ctx w s scope → Evaluate.expr scope e = m w

/-- Pieces are there, read what is visible and evaluate to parts. -/
structure PiecesMean (ctx : Context) (s : State) (ps : List (Piece Expr))
    (m : Surroundings → List Part) : Prop where
  present : ∀ p ∈ ps, p.expr ≠ .absent
  reads : ∀ p ∈ ps, ReadsOnly (s.visible ctx) p.expr
  eval : ∀ w scope, Holds ctx w s scope → ps.map (Piece.map (Evaluate.expr scope)) = m w

def PieceMeans (ctx : Context) (s : State) (p : Piece Expr) (m : Surroundings → Part) : Prop :=
  PiecesMean ctx s [p] fun w => [m w]

structure CasesMean (ctx : Context) (s : State) (cs : List (Case Expr))
    (m : Surroundings → List (Case (Eval Value))) : Prop where
  reads : ∀ c ∈ cs, ReadsOnly (s.visible ctx) c.test ∧ ReadsOnly (s.visible ctx) c.value
  eval : ∀ w scope, Holds ctx w s scope → cs.map (Case.map (Evaluate.expr scope)) = m w

section Grows

variable {ctx : Context} {s s' : State} (hg : Grows s s')

include hg

theorem RefMeans.of_grows {v : ValueRef} {val : Surroundings → Value} (h : RefMeans ctx s v val) :
    RefMeans ctx s' v val :=
  ⟨hg.locals_subset h.bound, fun w scope hh => h.find w scope (hh.of_grows hg)⟩

theorem ExprMeans.of_grows {e : Expr} {m : Surroundings → Eval Value} (h : ExprMeans ctx s e m) :
    ExprMeans ctx s' e m :=
  ⟨h.reads.mono (hg.visible_subset ctx), fun w scope hh => h.eval w scope (hh.of_grows hg)⟩

theorem PiecesMean.of_grows {ps : List (Piece Expr)} {m : Surroundings → List Part}
    (h : PiecesMean ctx s ps m) : PiecesMean ctx s' ps m :=
  ⟨h.present, fun p hp => (h.reads p hp).mono (hg.visible_subset ctx),
    fun w scope hh => h.eval w scope (hh.of_grows hg)⟩

theorem CasesMean.of_grows {cs : List (Case Expr)} {m : Surroundings → List (Case (Eval Value))}
    (h : CasesMean ctx s cs m) : CasesMean ctx s' cs m :=
  ⟨fun c hc => ⟨(h.reads c hc).1.mono (hg.visible_subset ctx),
    (h.reads c hc).2.mono (hg.visible_subset ctx)⟩,
    fun w scope hh => h.eval w scope (hh.of_grows hg)⟩

end Grows

theorem RefMeans.ident {ctx : Context} {s : State} {v : ValueRef} {val : Surroundings → Value}
    (h : RefMeans ctx s v val) : ExprMeans ctx s v.ident fun w => pure (val w) := by
  refine ⟨?_, ?_⟩
  · refine readsOnly_ident.mpr ?_
    exact List.mem_append_left _ (List.mem_append_left _ h.bound)
  · intro w scope hh
    rw [ValueRef.ident, Evaluate.expr, h.find w scope hh]

theorem PieceMeans.value {ctx : Context} {s : State} {e : Expr} {m : Surroundings → Eval Value}
    {isMarkup isString : Bool} (h : ExprMeans ctx s e m) (hne : e ≠ .absent) :
    PieceMeans ctx s (.value e isMarkup isString) fun w => .value (m w) isMarkup isString := by
  refine ⟨?_, ?_, ?_⟩
  · intro p hp
    rw [List.mem_singleton.mp hp]
    exact hne
  · intro p hp
    rw [List.mem_singleton.mp hp]
    exact h.reads
  · intro w scope hh
    simp only [List.map_cons, List.map_nil, Piece.map, h.eval w scope hh]

theorem PiecesMean.join {ctx : Context} {s : State} {ps : List (Piece Expr)}
    {m : Surroundings → List Part} (h : PiecesMean ctx s ps m) :
    ExprMeans ctx s (joinPieces ps).1 (fun w => (joinParts (m w)).1) ∧
      ∀ w scope, Holds ctx w s scope → (joinPieces ps).2 = (joinParts (m w)).2 := by
  have hjoin (w : Surroundings) (scope : Evaluate.Scope) (hh : Holds ctx w s scope) :
      (Evaluate.expr scope (joinPieces ps).1, (joinPieces ps).2) = joinParts (m w) := by
    rw [joinPieces_eval, h.eval w scope hh]
  refine ⟨⟨joinPieces_readsOnly h.reads, fun w scope hh => ?_⟩, fun w scope hh => ?_⟩
  · exact congrArg Prod.fst (hjoin w scope hh)
  · exact congrArg Prod.snd (hjoin w scope hh)

/-! ### Derived values -/

theorem expr_method {scope : Evaluate.Scope} {formatter value method : String} {ref : Ref}
    {f : Formatter} {v : Value} (hf : scope.find? formatter = some (.formatter ref f))
    (hm : f.methodName = method) (hv : scope.find? value = some v) :
    Evaluate.expr scope (.call (.member (.ident formatter) method) [.ident value]) =
      pure (.text (f.apply [v])) := by
  have hmember : Evaluate.member (.formatter ref f) method = .ok (.function (.method f)) := by
    simp only [Evaluate.member, hm, if_true]
  simp only [Evaluate.expr, Evaluate.exprs, hf, hv, pure_bind, hmember]
  rfl

theorem expr_minus {scope : Evaluate.Scope} {value : String} {v : Value} (x : Float)
    (hv : scope.find? value = some v) :
    Evaluate.expr scope (.binary .sub (.ident value) (.number x)) =
      pure (.number (v.toNumber - x)) := by
  simp only [Evaluate.expr, hv]
  rfl

/-- A name derived by a key, and the value that the key gives in every scope that holds. -/
theorem ident_means {ctx : Context} {outer : List String} {s : State} (hs : Sound ctx outer s)
    {key : LocalKey} {name : String} {val : Surroundings → Value} (hmem : (key, name) ∈ s.derived)
    (hval : ∀ w scope, Holds ctx w s scope → Evaluate.expr scope key.init = pure (val w))
    (base : String) : RefMeans ctx s ⟨name, base⟩ val := by
  refine ⟨?_, ?_⟩
  · refine List.mem_append_right _ ?_
    rw [hs.body_eq, List.map_map]
    exact List.mem_map.mpr ⟨(key, name), hmem, rfl⟩
  · intro w scope hh
    obtain ⟨v, hv, hfind⟩ := hh.derived (key, name) hmem
    rw [hval w scope hh] at hv
    rw [pure_injective hv]
    exact hfind

/-- The call of a formatter's method in a scope that holds. -/
theorem Holds.expr_method {ctx : Context} {w : Surroundings} {s : State} {scope : Evaluate.Scope}
    {v : ValueRef} {val : Surroundings → Value} {p : SharedKey × String} {method : String}
    (hh : Holds ctx w s scope) (hp : p ∈ s.shared) (hm : (w.formatter p.1).methodName = method)
    (hv : RefMeans ctx s v val) :
    Evaluate.expr scope (.call (.member (.ident p.2) method) [.ident v.binding]) =
      pure (.text ((w.formatter p.1).apply [val w])) := by
  obtain ⟨ref, href⟩ := hh.shared p hp
  exact Compile.expr_method href hm (hv.find w scope hh)

theorem useFormatted_refines {ctx : Context} {outer : List String} {s : State} {v : ValueRef}
    {val : Surroundings → Value} (hs : Sound ctx outer s) (hv : RefMeans ctx s v val)
    (kind : FormatKind) (preset : String) (o : FormatOptions) :
    Refines ctx outer s (useFormatted ctx v kind preset o) (.ok s.uses)
      [formatterRequest ctx.locale kind o]
      fun s' e => ExprMeans ctx s' e (fun w => pure (w.formatted kind o (val w))) ∧
        e ≠ .absent := by
  refine .seq (shareConstant_refines hs _ _ _) ?_
  intro s₁ formatter hg₁ hs₁ huses hmem
  have hv₁ := hv.of_grows hg₁
  have hrefers : LocalKey.Refers s₁.shared (.formatted formatter v.binding) := ⟨kind, _, hmem⟩
  have hderive := deriveConstant_refines hs₁ (v.base ++ "_" ++ withoutMark formatter) hrefers
    (readsOnly_method hs₁ hmem hv₁.bound "format")
  rw [huses] at hderive
  refine .andThen hderive ?_ fun e he => he
  intro s₂ name hg₂ hs₂ huses₂ hmem₂
  have hmethod (w : Surroundings) (scope : Evaluate.Scope) (hh : Holds ctx w s₂ scope) :=
    hh.expr_method (hg₂.shared.subset hmem) (w.format_method _ _) (hv₁.of_grows hg₂)
  have hmeans := ident_means hs₂ hmem₂ hmethod v.base
  rw [huses₂]
  exact .pure hs₂ ⟨hmeans.ident, Expr.noConfusion⟩

theorem useCategory_refines {ctx : Context} {outer : List String} {s : State} {v : ValueRef}
    {val : Surroundings → Value} (hs : Sound ctx outer s) (hv : RefMeans ctx s v val)
    (kind : PluralKind) :
    Refines ctx outer s (useCategory ctx v kind) (.ok s.uses) [rulesRequest ctx.locale kind]
      fun s' e => ExprMeans ctx s' e fun w => pure (w.category kind (val w)) := by
  refine .seq (shareConstant_refines hs _ _ _) ?_
  intro s₁ rules hg₁ hs₁ huses hmem
  have hv₁ := hv.of_grows hg₁
  have hrefers : LocalKey.Refers s₁.shared (.category rules v.binding) := ⟨kind, hmem⟩
  have hderive := deriveConstant_refines hs₁ (v.base ++ "_category") hrefers
    (readsOnly_method hs₁ hmem hv₁.bound "select")
  rw [huses] at hderive
  refine .andThen hderive ?_ fun e he => he
  intro s₂ name hg₂ hs₂ huses₂ hmem₂
  have hmethod (w : Surroundings) (scope : Evaluate.Scope) (hh : Holds ctx w s₂ scope) :=
    hh.expr_method (hg₂.shared.subset hmem) (w.select_method _) (hv₁.of_grows hg₂)
  have hmeans := ident_means hs₂ hmem₂ hmethod v.base
  rw [huses₂]
  exact .pure hs₂ hmeans.ident

theorem useOffset_refines {ctx : Context} {outer : List String} {s : State} {v : ValueRef}
    {val : Surroundings → Value} (hs : Sound ctx outer s) (hv : RefMeans ctx s v val)
    (offset : Float) :
    Refines ctx outer s (useOffset ctx v offset) (.ok s.uses) []
      fun s' v' => RefMeans ctx s' v' fun w => shift (val w) offset := by
  rw [useOffset]
  cases hzero : offset == 0 with
  | true =>
    have hshift : (fun w => shift (val w) offset) = val := by
      funext w
      rw [shift, hzero, if_pos rfl]
    rw [hshift]
    exact .pure hs hv
  | false =>
    have hrefers : LocalKey.Refers s.shared (.offset v.binding offset) := hzero
    have hderive := deriveConstant_refines hs (v.base ++ "_offset") hrefers
      (readsOnly_offset hv.bound offset)
    refine .andThen hderive ?_ fun e he => he
    intro s₁ name hg₁ hs₁ huses₁ hmem
    rw [huses₁]
    refine .pure hs₁ (ident_means hs₁ hmem (fun w scope hh => ?_) v.base)
    rw [shift, hzero, if_neg Bool.false_ne_true]
    exact expr_minus offset ((hv.of_grows hg₁).find w scope hh)

/-! ### Elements -/

/-- What `#` stands for: the value of a binding, if there is one. -/
def Counts (ctx : Context) (s : State) (plural : Option ValueRef)
    (count : Surroundings → Option Value) : Prop :=
  ∀ v, plural = some v → ∃ val, RefMeans ctx s v val ∧ ∀ w, count w = some (val w)

theorem Counts.of_grows {ctx : Context} {s s' : State} {plural : Option ValueRef}
    {count : Surroundings → Option Value} (h : Counts ctx s plural count) (hg : Grows s s') :
    Counts ctx s' plural count := by
  intro v hv
  obtain ⟨val, hval, hcount⟩ := h v hv
  exact ⟨val, hval.of_grows hg, hcount⟩

/-- Compiling an element refines checking it, and gives the piece it means. -/
def Simulates (n : Node) : Prop :=
  ∀ (ctx : Context) (outer : List String) (s : State) (plural : Option ValueRef)
    (count : Surroundings → Option Value), Sound ctx outer s → Counts ctx s plural count →
    Refines ctx outer s (node ctx plural n)
      (check ctx.target ctx.formats plural.isSome n s.uses) (requests ctx.locale ctx.formats n)
      fun s' p => PieceMeans ctx s' p fun w => part ctx.target ctx.formats w (count w) n

section Lists

variable {ctx : Context} {outer : List String} {plural : Option ValueRef}
  {count : Surroundings → Option Value}

theorem nodes_refines {ns : List Node} (h : ∀ n ∈ ns, Simulates n) :
    ∀ {s : State}, Sound ctx outer s → Counts ctx s plural count →
      Refines ctx outer s (nodes ctx plural ns)
        (Check.all (ns.map (check ctx.target ctx.formats plural.isSome)) s.uses)
        (ns.map (requests ctx.locale ctx.formats)).flatten
        fun s' ps => PiecesMean ctx s' ps fun w =>
          ns.map (part ctx.target ctx.formats w (count w)) := by
  induction ns with
  | nil =>
    intro s hs _
    rw [nodes]
    refine .pure hs ⟨?_, ?_, fun _ _ _ => rfl⟩
    · exact fun p hp => nomatch hp
    · exact fun p hp => nomatch hp
  | cons n r ih =>
    intro s hs hc
    rw [nodes, List.map_cons, List.map_cons, List.flatten_cons]
    refine .bind (h n List.mem_cons_self ctx outer s plural count hs hc) ?_
    intro s₁ p hg₁ hs₁ hp
    refine .map (ih (fun m hm => h m (List.mem_cons_of_mem _ hm)) hs₁ (hc.of_grows hg₁)) ?_
    intro s₂ ps hg₂ _ hps
    -- what the first piece means stays so while the others are compiled
    have hp₂ := PiecesMean.of_grows hg₂ hp
    refine ⟨?_, ?_, ?_⟩
    · intro q hq
      rcases List.mem_cons.mp hq with rfl | hq
      · exact hp₂.present _ List.mem_cons_self
      · exact hps.present q hq
    · intro q hq
      rcases List.mem_cons.mp hq with rfl | hq
      · exact hp₂.reads _ List.mem_cons_self
      · exact hps.reads q hq
    · intro w scope hh
      have hhead := hp₂.eval w scope hh
      simp only [List.map_cons, List.map_nil, List.cons.injEq, and_true] at hhead
      rw [List.map_cons, List.map_cons, hps.eval w scope hh, hhead]

/-- How a choice tests for the branches it keeps. -/
def TestMeans (ctx : Context) (s : State) (selector : Selector)
    (test : String → Option Float → Expr) (exact : String → Option Float)
    (trial : Surroundings → String → Option Float → Eval Value) (b : Branch Node) : Prop :=
  ∀ x, selector b.key b.keySpan = .ok x →
    x = exact b.key ∧ ExprMeans ctx s (test b.key x) fun w => trial w b.key x

theorem TestMeans.of_grows {s s' : State} {selector : Selector}
    {test : String → Option Float → Expr} {exact : String → Option Float}
    {trial : Surroundings → String → Option Float → Eval Value} {b : Branch Node}
    (h : TestMeans ctx s selector test exact trial b) (hg : Grows s s') :
    TestMeans ctx s' selector test exact trial b := by
  intro x hx
  obtain ⟨hexact, hmeans⟩ := h x hx
  exact ⟨hexact, hmeans.of_grows hg⟩

theorem branch_refines {selector : Selector} {test : String → Option Float → Expr}
    {exact : String → Option Float} {trial : Surroundings → String → Option Float → Eval Value}
    {b : Branch Node} (h : ∀ n ∈ b.body, Simulates n) {s : State} (hs : Sound ctx outer s)
    (hc : Counts ctx s plural count) (ht : TestMeans ctx s selector test exact trial b) :
    Refines ctx outer s (branch ctx plural selector test b)
      (caseCheck selector (b.mapBody (check ctx.target ctx.formats plural.isSome)) s.uses)
      (b.body.map (requests ctx.locale ctx.formats)).flatten
      fun s' c => CasesMean ctx s' [c] fun w =>
        [casePart exact (trial w) (b.mapBody (part ctx.target ctx.formats w (count w)))] := by
  obtain ⟨key, keySpan, span, body⟩ := b
  rw [branch, caseCheck]
  refine .lift_bind hs ?_
  intro x hx
  obtain ⟨rfl, htest⟩ := ht x hx
  refine .map (nodes_refines h hs hc) ?_
  intro s₁ ps hg₁ _ hps
  obtain ⟨hjoin, hmarkup⟩ := hps.join
  have htest₁ := htest.of_grows hg₁
  refine ⟨?_, ?_⟩
  · intro c hc
    rw [List.mem_singleton.mp hc]
    exact ⟨htest₁.reads, hjoin.reads⟩
  · intro w scope hh
    simp only [List.map_cons, List.map_nil, Case.map, casePart, Branch.mapBody,
      hjoin.eval w scope hh, htest₁.eval w scope hh, hmarkup w scope hh]

theorem branches_refines {selector : Selector} {test : String → Option Float → Expr}
    {exact : String → Option Float} {trial : Surroundings → String → Option Float → Eval Value}
    {cases : List (Branch Node)} (h : ∀ b ∈ cases, ∀ n ∈ b.body, Simulates n) :
    ∀ {s : State} {seen : List String}, Sound ctx outer s → Counts ctx s plural count →
      (∀ b ∈ cases, b.key ≠ defaultKey → TestMeans ctx s selector test exact trial b) →
      Refines ctx outer s (branches ctx plural selector test seen cases)
        (Check.all (((keptCases seen cases).map
          (·.mapBody (check ctx.target ctx.formats plural.isSome))).map (caseCheck selector))
          s.uses)
        ((keptCases seen cases).flatMap fun b =>
          (b.body.map (requests ctx.locale ctx.formats)).flatten)
        fun s' cs => CasesMean ctx s' cs fun w => ((keptCases seen cases).map
          (·.mapBody (part ctx.target ctx.formats w (count w)))).map (casePart exact (trial w)) := by
  induction cases with
  | nil =>
    intro s seen hs _ _
    rw [branches]
    exact .pure hs ⟨fun c hc => absurd hc List.not_mem_nil, fun _ _ _ => rfl⟩
  | cons b r ih =>
    intro s seen hs hc ht
    have hbelow : ∀ c ∈ r, ∀ n ∈ c.body, Simulates n := fun c hc => h c (List.mem_cons_of_mem _ hc)
    rw [branches, keptCases]
    split
    · exact ih hbelow hs hc fun c hc => ht c (List.mem_cons_of_mem _ hc)
    · rename_i hkept
      have hkey : b.key ≠ defaultKey := by
        intro hd
        simp [hd] at hkept
      rw [List.map_cons, List.map_cons, List.flatMap_cons]
      refine .bind (branch_refines (h b List.mem_cons_self) hs hc
        (ht b List.mem_cons_self hkey)) ?_
      intro s₁ c hg₁ hs₁ hcase
      refine .map (ih hbelow hs₁ (hc.of_grows hg₁) fun b hb hd =>
        (ht b (List.mem_cons_of_mem _ hb) hd).of_grows hg₁) ?_
      intro s₂ cs hg₂ _ hcases
      -- what the first case means stays so while the others are compiled
      have hcase₂ := hcase.of_grows hg₂
      refine ⟨?_, ?_⟩
      · intro d hd
        rcases List.mem_cons.mp hd with rfl | hd
        · exact hcase₂.reads _ List.mem_cons_self
        · exact hcases.reads d hd
      · intro w scope hh
        have hhead := hcase₂.eval w scope hh
        simp only [List.map_cons, List.map_nil, List.cons.injEq, and_true] at hhead
        rw [List.map_cons, List.map_cons, List.map_cons, hcases.eval w scope hh, hhead]

theorem defaultBranch_refines {cases : List (Branch Node)}
    (h : ∀ b ∈ cases, ∀ n ∈ b.body, Simulates n) {s : State} (hs : Sound ctx outer s)
    (hc : Counts ctx s plural count) :
    Refines ctx outer s (defaultBranch ctx plural cases)
      (Check.all ((fallbackBody cases).map (check ctx.target ctx.formats plural.isSome)) s.uses)
      ((fallbackBody cases).map (requests ctx.locale ctx.formats)).flatten
      fun s' r => ∃ ps, r = joinPieces ps ∧ PiecesMean ctx s' ps fun w =>
        (fallbackBody cases).map (part ctx.target ctx.formats w (count w)) := by
  induction cases with
  | nil =>
    rw [defaultBranch]
    refine .pure hs ⟨[], rfl, ?_, ?_, fun _ _ _ => rfl⟩
    · exact fun p hp => nomatch hp
    · exact fun p hp => nomatch hp
  | cons b r ih =>
    rw [defaultBranch, fallbackBody]
    split
    · obtain ⟨key, keySpan, span, body⟩ := b
      rw [defaultBody]
      refine .map (nodes_refines (h _ List.mem_cons_self) hs hc) ?_
      intro s₁ ps _ _ hps
      exact ⟨ps, rfl, hps⟩
    · exact ih fun b hb => h b (List.mem_cons_of_mem _ hb)

/-- A choice: its branches, then the default. -/
theorem choice_refines {selector : Selector} {test : String → Option Float → Expr}
    {exact : String → Option Float} {trial : Surroundings → String → Option Float → Eval Value}
    {cases : List (Branch Node)} (h : ∀ b ∈ cases, ∀ n ∈ b.body, Simulates n) {s : State}
    (hs : Sound ctx outer s) (hc : Counts ctx s plural count)
    (ht : ∀ b ∈ cases, b.key ≠ defaultKey → TestMeans ctx s selector test exact trial b) :
    Refines ctx outer s
      (do
        let compiled ← branches ctx plural selector test [] cases
        let fallback ← defaultBranch ctx plural cases
        return choicePiece compiled fallback)
      (choiceCheck selector (branchChecks ctx.target ctx.formats plural.isSome cases) s.uses)
      (choiceRequests (branchRequests ctx.locale ctx.formats cases))
      fun s' p => PieceMeans ctx s' p fun w =>
        choice exact (trial w) (branchParts ctx.target ctx.formats w (count w) cases) := by
  rw [choiceCheck, choiceRequests, branchChecks_eq_map, branchRequests_eq_map, keptCases_map,
    keptCases_map, fallbackBody_map, fallbackBody_map, List.flatMap_map]
  refine .bind (branches_refines h hs hc ht) ?_
  intro s₁ compiled hg₁ hs₁ hcases
  refine .map (defaultBranch_refines h hs₁ (hc.of_grows hg₁)) ?_
  rintro s₂ fallback hg₂ _ ⟨ps, rfl, hps⟩
  have hcases₂ := hcases.of_grows hg₂
  obtain ⟨hjoin, hmarkup⟩ := hps.join
  refine ⟨?_, ?_, ?_⟩
  · intro p hp
    rw [List.mem_singleton.mp hp]
    exact ternaryChain_ne_absent (joinPieces_ne_absent hps.present)
  · intro p hp
    rw [List.mem_singleton.mp hp]
    exact choicePiece_readsOnly hcases₂.reads hjoin.reads
  · intro w scope hh
    rw [List.map_singleton, choicePiece_eval, hcases₂.eval w scope hh, hjoin.eval w scope hh,
      hmarkup w scope hh]
    simp only [choice, branchParts_eq_map, keptCases_map, fallbackBody_map]

end Lists

section Elements

variable {ctx : Context} {outer : List String} {s : State}

theorem argument_means {name : String} {v : ValueRef} {a : FoundArgument}
    (ha : a ∈ s.arguments) (hn : a.name = name) (hb : a.binding = v.binding) :
    RefMeans ctx s v fun w => w.argument name := by
  refine ⟨?_, ?_⟩
  · rw [← hb]
    exact List.mem_append_left _ (List.mem_map.mpr ⟨a, ha, rfl⟩)
  · intro w scope hh
    rw [← hb, ← hn]
    exact hh.argument a ha

/-- The binding of an argument holds it. -/
theorem useArgument_means (hs : Sound ctx outer s) (name : String) (type : ArgType) (span : Span) :
    Refines ctx outer s (useArgument ctx name type span) (use name type span s.uses) []
      fun s' v => RefMeans ctx s' v fun w => w.argument name := by
  refine (useArgument_refines hs name type span).imp ?_
  rintro s' v _ ⟨a, ha, hn, hb⟩
  exact argument_means ha hn hb

theorem isSame_means {e : Expr} {val : Surroundings → Value} {literal : Expr} {v : Value}
    (he : ExprMeans ctx s e fun w => pure (val w)) (hreads : ReadsOnly (s.visible ctx) literal)
    (hliteral : ∀ scope, Evaluate.expr scope literal = pure v) :
    ExprMeans ctx s (.binary .strictEq e literal) fun w => isSame (val w) v := by
  refine ⟨readsOnly_binary he.reads hreads, ?_⟩
  intro w scope hh
  rw [expr_binary, operate, he.eval w scope hh, hliteral, pure_bind, pure_bind]
  rfl

theorem selectTest_means {v : ValueRef} {val : Surroundings → Value} (hv : RefMeans ctx s v val)
    (b : Branch Node) :
    TestMeans ctx s textSelector (selectTest v) (fun _ => none) (fun w => selectTrial (val w))
      b := by
  intro x hx
  refine ⟨(Except.ok.inj hx).symm, ?_⟩
  exact isSame_means hv.ident (readsOnly_string _) fun scope => by rw [Evaluate.expr]

/-- Without a branch chosen by category only numbers are tested for. -/
theorem pluralTest_means {v : ValueRef} {val : Surroundings → Value} {category : Expr}
    {kind : PluralKind} {shifted : Surroundings → Value} {cases : List (Branch Node)}
    (hv : RefMeans ctx s v val)
    (hcategory : hasCategory cases = true →
      ExprMeans ctx s category fun w => pure (w.category kind (shifted w)))
    (b : Branch Node) (hb : b ∈ cases) (hd : b.key ≠ defaultKey) :
    TestMeans ctx s pluralSelector (pluralTest v category) exactValue?
      (fun w => pluralTrial (val w) (w.category kind (shifted w))) b := by
  intro x hx
  obtain ⟨hexact, hnone⟩ := pluralSelector_ok hx
  refine ⟨hexact, ?_⟩
  cases x with
  | some y =>
    refine isSame_means hv.ident ?_ fun scope => by rw [Evaluate.expr]
    intro z hz
    simp only [Expr.reads, List.not_mem_nil] at hz
  | none =>
    have hhas : hasCategory cases = true := by
      rw [hasCategory, List.any_eq_true]
      exact ⟨b, hb, by simp [hd, hnone rfl]⟩
    exact isSame_means (hcategory hhas) (readsOnly_string _) fun scope => by rw [Evaluate.expr]

/-- The copy of an element that a tag names, or the call of the function it names. -/
theorem tag_means {v : ValueRef} {val : Surroundings → Value} {inside : Expr}
    {m : Surroundings → Eval Value} (selfClosing : Bool) (hv : RefMeans ctx s v val)
    (hinside : ExprMeans ctx s inside m) (hne : inside ≠ .absent) :
    PieceMeans ctx s (tagPiece ctx.target v selfClosing inside)
      fun w => tagPart ctx.target (val w) selfClosing (m w) := by
  have hvisible : ctx.target = .tree → markupName ∈ s.visible ctx := by
    intro ht
    rw [State.visible, if_pos ht]
    exact List.mem_append_right _ (List.mem_cons_of_mem _ (List.mem_singleton.mpr rfl))
  have hundefined : "undefined" ∈ s.visible ctx :=
    List.mem_append_right _ List.mem_cons_self
  have hclone {w : Surroundings} {scope : Evaluate.Scope} (hh : Holds ctx w s scope)
      (ht : ctx.target = .tree) :
      Evaluate.expr scope (.member (.ident markupName) "cloneElement") =
        pure (.function .cloneElement) := by
    simp only [Evaluate.expr, hh.markup ht]
    rfl
  -- an element is copied with what it encloses; a string is what the given function makes
  cases ht : ctx.target with
  | tree =>
    have hbuilder : ReadsOnly (s.visible ctx) (.member (.ident markupName) "cloneElement") :=
      readsOnly_member (readsOnly_ident.mpr (hvisible ht))
    cases selfClosing with
    | true =>
      refine PieceMeans.value ⟨readsOnly_call hbuilder ?_, ?_⟩ Expr.noConfusion
      · intro e he
        rw [List.mem_singleton.mp he]
        exact hv.ident.reads
      · intro w scope hh
        simp only [if_true, Expr.markupElement]
        rw [Evaluate.expr, hclone hh ht]
        simp only [Evaluate.exprs, hv.ident.eval w scope hh, pure_bind]
        rfl
    | false =>
      simp only [tagPiece, Bool.false_eq_true, if_false, markupElement_of_ne_absent hne]
      refine PieceMeans.value ⟨readsOnly_call hbuilder ?_, ?_⟩ Expr.noConfusion
      · intro e he
        simp only [List.mem_cons, List.not_mem_nil, or_false] at he
        rcases he with rfl | rfl | rfl
        · exact hv.ident.reads
        · exact readsOnly_ident.mpr hundefined
        · exact hinside.reads
      · intro w scope hh
        have hundef : Evaluate.expr scope .undefined = pure .undefined := by
          rw [Expr.undefined, Evaluate.expr, hh.undefined]
        rw [Evaluate.expr, hclone hh ht]
        simp only [Evaluate.exprs, hv.ident.eval w scope hh, hundef, hinside.eval w scope hh,
          pure_bind, bind_assoc]
        rfl
  | string =>
    refine PieceMeans.value ⟨readsOnly_call hv.ident.reads ?_, ?_⟩ Expr.noConfusion
    · intro e he
      rw [List.mem_singleton.mp he]
      exact hinside.reads
    · intro w scope hh
      rw [Evaluate.expr, hv.ident.eval w scope hh]
      simp only [Evaluate.exprs, hinside.eval w scope hh, pure_bind, bind_assoc]

end Elements

/-- Compiling simulates the meaning of every element. -/
theorem simulates : ∀ n, Simulates n := by
  apply Node.Hereditary.holds
  constructor
  case literal =>
    intro span text ctx outer s plural count hs _
    rw [node]
    refine .pure hs ⟨?_, ?_, fun _ _ _ => rfl⟩
    · intro p hp
      rw [List.mem_singleton.mp hp]
      exact Expr.noConfusion
    · intro p hp
      rw [List.mem_singleton.mp hp]
      exact readsOnly_string text
  case argument =>
    intro span name nameSpan ctx outer s plural count hs _
    rw [node]
    refine .map (useArgument_means hs name _ nameSpan) ?_
    intro s₁ v _ _ hv
    exact PieceMeans.value hv.ident Expr.noConfusion
  case select =>
    intro span name nameSpan cases ih ctx outer s plural count hs hc
    rw [node]
    refine .bind_nil (useArgument_means hs name .string nameSpan) ?_
    intro s₁ v hg₁ hs₁ hv
    refine .lift_bind hs₁ fun _ _ => ?_
    exact choice_refines ih hs₁ (hc.of_grows hg₁) fun b _ _ => selectTest_means hv b
  case plural =>
    intro span name nameSpan offset kind cases ih ctx outer s plural count hs hc
    rw [node]
    refine .bind_nil (useArgument_means hs name .number nameSpan) ?_
    intro s₁ v hg₁ hs₁ hv
    refine .lift_bind hs₁ fun _ _ => ?_
    refine .seq_nil (useOffset_refines hs₁ hv offset) ?_
    intro s₂ shifted hg₂ hs₂ huses₂ hshifted
    -- the category is a constant only where a branch needs it
    have hcategory : Refines ctx outer s₂
        (if hasCategory cases then useCategory ctx shifted kind else pure .absent) (.ok s₂.uses)
        (if hasCategory cases then [rulesRequest ctx.locale kind] else [])
        fun s' e => hasCategory cases = true → ExprMeans ctx s' e fun w =>
          pure (w.category kind (shift (w.argument name) offset)) := by
      cases hasCategory cases with
      | true => exact (useCategory_refines hs₂ hshifted kind).imp fun _ _ _ h _ => h
      | false => exact .pure hs₂ nofun
    refine .seq hcategory ?_
    intro s₃ category hg₃ hs₃ huses₃ hmeans
    rw [← huses₂, ← huses₃]
    refine choice_refines ih hs₃ ?_ ?_
    · intro u hu
      rw [← Option.some.inj hu]
      exact ⟨_, hshifted.of_grows hg₃, fun _ => rfl⟩
    · exact pluralTest_means ((hv.of_grows hg₂).of_grows hg₃) hmeans
  case format =>
    intro span kind name nameSpan style ctx outer s plural count hs _
    rw [node]
    refine .bind_nil (useArgument_means hs name _ nameSpan) ?_
    intro s₁ v hg₁ hs₁ hv
    refine .lift_bind hs₁ ?_
    rintro ⟨preset, o⟩ hstyle
    obtain rfl := styleOptions_of_resolveStyle hstyle
    refine .map (useFormatted_refines hs₁ hv kind preset _) ?_
    rintro s₂ e _ _ ⟨he, hne⟩
    exact PieceMeans.value he hne
  case pound =>
    intro span ctx outer s plural count hs hc
    cases plural with
    | none =>
      rw [node]
      exact .of_error (Step.exec_lift s _) (.refl _) hs fun _ => rfl
    | some v =>
      obtain ⟨val, hval, hcount⟩ := hc v rfl
      rw [node]
      refine .map (useFormatted_refines hs hval .number "" []) ?_
      rintro s₁ e _ _ ⟨he, hne⟩
      have hpart (w : Surroundings) : part ctx.target ctx.formats w (count w) (.pound span) =
          .value (pure (w.formatted .number [] (val w))) false true := by
        rw [part, hcount]
        rfl
      simp only [hpart]
      exact PieceMeans.value he hne
  case tag =>
    intro span name nameSpan selfClosing children ih ctx outer s plural count hs hc
    rw [node]
    refine .lift_bind hs fun _ _ => ?_
    refine .bind_nil (useArgument_means hs name _ _) ?_
    intro s₁ v hg₁ hs₁ hv
    have hinside : Refines ctx outer s₁
        (if selfClosing then pure [] else nodes ctx plural children)
        (if selfClosing then pure s₁.uses
          else Check.all (checks ctx.target ctx.formats plural.isSome children) s₁.uses)
        (if selfClosing then [] else (listRequests ctx.locale ctx.formats children).flatten)
        fun s' ps => PiecesMean ctx s' ps fun w =>
          if selfClosing then [] else parts ctx.target ctx.formats w (count w) children := by
      cases selfClosing with
      | true =>
        refine .pure hs₁ ⟨?_, ?_, fun _ _ _ => rfl⟩
        · exact fun p hp => nomatch hp
        · exact fun p hp => nomatch hp
      | false =>
        simp only [Bool.false_eq_true, if_false, checks_eq_map, listRequests_eq_map, parts_eq_map]
        exact nodes_refines ih hs₁ (hc.of_grows hg₁)
    refine .map hinside ?_
    intro s₂ ps hg₂ _ hps
    exact tag_means selfClosing (hv.of_grows hg₂) hps.join.1 (joinPieces_ne_absent hps.present)
  case unknown =>
    intro span ctx outer s plural count hs _
    rw [node]
    exact .of_error (Step.exec_throw s _) (.refl _) hs fun _ => rfl
  case hole =>
    intro ctx outer s plural count hs _
    rw [node]
    exact .of_error (Step.exec_throw s _) (.refl _) hs fun _ => rfl

end Phrasebook.Compile
