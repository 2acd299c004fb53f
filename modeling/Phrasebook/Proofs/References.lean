import Phrasebook.Proofs.Needs

/-!
How compiled messages refer to constants. An element is spelled with names: those of its arguments,
of the shared constants for what it needs, and of the constants of its message. What is compiled is
the tree spelled with the names that were bound for it, and the constants of a message have distinct
keys.
-/
namespace Phrasebook.Compile

/-! ### Spelling -/

/-- Names of arguments, of shared constants and of the constants of a message. -/
structure Names where
  argument? : String → Option String
  constant? : Need → Option String
  derived? : LocalKey → Option String

namespace Names

variable (names : Names)

/-- A value less an offset. -/
def shifted? (value : String) (offset : Float) : Option String :=
  if offset == 0 then some value else names.derived? (.offset value offset)

/-- A value in the format of the one formatter of a kind and of options. -/
def formatted? (kind : FormatKind) (options : String → Option OptionValue) (value : String) :
    Option Expr := do
  let formatter ← names.constant? (.formatter kind options)
  return .ident (← names.derived? (.formatted formatter value))

/-- The category of a value by the one set of plural rules of a kind. -/
def category? (kind : PluralKind) (value : String) : Option Expr := do
  let rules ← names.constant? (.rules kind)
  return .ident (← names.derived? (.category rules value))

end Names

def spelledCase? (exact : String → Option Float) (test : String → Option Float → Expr)
    (b : Branch (Option (Piece Expr))) : Option (Case Expr) := do
  let joined := joinPieces (← b.body.mapM id)
  return ⟨(exact b.key).isSome, test b.key (exact b.key), joined.1, joined.2⟩

def spelledChoice? (exact : String → Option Float) (test : String → Option Float → Expr)
    (cases : List (Branch (Option (Piece Expr)))) : Option (Piece Expr) := do
  let kept ← (keptCases [] cases).mapM (spelledCase? exact test)
  return choicePiece kept (joinPieces (← (fallbackBody cases).mapM id))

mutual

/-- One element spelled with names; `count` is the name of the value that `#` stands for. -/
def spelled? (target : Target) (formats : Formats) (names : Names) (count : Option String) :
    Node → Option (Piece Expr)
  | .literal _ text => return .literal text
  | .argument _ name _ => do
    return .value (.ident (← names.argument? name)) (target = .tree) false
  | .select _ name _ cases => do
    let v : ValueRef := ⟨← names.argument? name, name⟩
    spelledChoice? (fun _ => none) (selectTest v) (spelledBranches? target formats names count cases)
  | .plural _ name _ offset kind cases => do
    let v : ValueRef := ⟨← names.argument? name, name⟩
    let shifted ← names.shifted? v.binding offset
    let category ← (if hasCategory cases then names.category? kind shifted else return .absent)
    -- what is left of the value is what the cases test and what `#` stands for in them
    spelledChoice? exactValue? (pluralTest v category)
      (spelledBranches? target formats names (some shifted) cases)
  | .format _ kind name _ style => do
    let v ← names.argument? name
    return .value (← names.formatted? kind (styleOptions formats kind style).get? v) false true
  -- outside of plurals there is nothing to count
  | .pound _ => do return .value (← names.formatted? .number (fun _ => none) (← count)) false true
  | .tag _ name _ selfClosing children => do
    let v : ValueRef := ⟨← names.argument? name, name⟩
    let inside ← (if selfClosing then return []
      else (spelledList? target formats names count children).mapM id)
    return tagPiece target v selfClosing (joinPieces inside).1
  | .unknown _ | .hole => none

def spelledList? (target : Target) (formats : Formats) (names : Names) (count : Option String) :
    List Node → List (Option (Piece Expr))
  | [] => []
  | n :: r => spelled? target formats names count n :: spelledList? target formats names count r

def spelledBranches? (target : Target) (formats : Formats) (names : Names) (count : Option String) :
    List (Branch Node) → List (Branch (Option (Piece Expr)))
  | [] => []
  | b :: r =>
    spelledBranch? target formats names count b :: spelledBranches? target formats names count r

def spelledBranch? (target : Target) (formats : Formats) (names : Names) (count : Option String) :
    Branch Node → Branch (Option (Piece Expr))
  | ⟨key, keySpan, span, body⟩ => ⟨key, keySpan, span, spelledList? target formats names count body⟩

end

section Lists

variable (target : Target) (formats : Formats) (names : Names) (count : Option String)

theorem spelledList?_eq_map (ns : List Node) :
    spelledList? target formats names count ns = ns.map (spelled? target formats names count) := by
  induction ns with
  | nil => rfl
  | cons n r ih => rw [spelledList?, ih, List.map_cons]

theorem spelledBranches?_eq_map (cases : List (Branch Node)) :
    spelledBranches? target formats names count cases =
      cases.map (·.mapBody (spelled? target formats names count)) := by
  induction cases with
  | nil => rfl
  | cons b r ih =>
    rw [spelledBranches?, ih, List.map_cons, spelledBranch?.eq_def]
    simp only [spelledList?_eq_map, Branch.mapBody]

end Lists

theorem mapM_id_map {α β : Type} (f : α → Option β) (l : List α) : (l.map f).mapM id = l.mapM f :=
  List.mapM_map

/-! ### Other files -/

theorem spelledChoice?_inFile (file : UInt32) (exact : String → Option Float)
    (test : String → Option Float → Expr) (cases : List (Branch (Option (Piece Expr)))) :
    spelledChoice? exact test (cases.map (·.inFile file id)) = spelledChoice? exact test cases := by
  have hkept := keptCases_map_of_key (g := Branch.inFile (β := Option (Piece Expr)) file id)
    (fun _ => rfl) [] cases
  have hbody := fallbackBody_map_of_key (g := Branch.inFile (β := Option (Piece Expr)) file id)
    (fun _ => rfl) (fun _ => rfl) cases
  have hcase : spelledCase? exact test ∘ Branch.inFile file id = spelledCase? exact test := by
    funext b
    simp only [Function.comp_apply, spelledCase?, Branch.inFile, List.map_id]
  rw [spelledChoice?, hkept, hbody, List.mapM_map, List.map_id, hcase, spelledChoice?]

theorem spelled?_inFile (file : UInt32) (target : Target) (formats : Formats) (names : Names) :
    ∀ (n : Node) (count : Option String),
      spelled? target formats names count (n.inFile file) = spelled? target formats names count n := by
  apply Node.Hereditary.holds
  constructor
  case select =>
    intro span name nameSpan cases ih count
    simp only [Node.inFile, spelled?, Node.branchesInFile_eq_map, spelledBranches?_eq_map]
    rw [map_mapBody_inFile file fun b hb n hn => ih b hb n hn count]
    simp only [spelledChoice?_inFile]
  case plural =>
    intro span name nameSpan offset kind cases ih count
    have hcases (shifted : String) := map_mapBody_inFile file
      (f := spelled? target formats names (some shifted)) fun b hb n hn => ih b hb n hn _
    simp only [Node.inFile, spelled?, Node.branchesInFile_eq_map, spelledBranches?_eq_map,
      hasCategory_inFile, hcases, spelledChoice?_inFile]
  case tag =>
    intro span name nameSpan selfClosing children ih count
    simp only [Node.inFile, spelled?, Node.listInFile_eq_map, spelledList?_eq_map,
      map_inFile file fun n hn => ih n hn count]
  case format =>
    intro span kind name nameSpan style count
    simp only [Node.inFile, spelled?, styleOptions_inFile]
  all_goals
    intros
    simp only [Node.inFile, spelled?]

/-! ### Known names -/

/-- Names that agree with all that a state has bound. -/
structure Knows (names : Names) (s : State) : Prop where
  argument : ∀ a ∈ s.arguments, names.argument? a.name = some a.binding
  constant : ∀ p ∈ s.shared, ∀ need : Need, need.HasKey p.1 → names.constant? need = some p.2
  derived : ∀ p ∈ s.derived, names.derived? p.1 = some p.2

theorem Knows.of_grows {names : Names} {s s' : State} (h : Knows names s') (hg : Grows s s') :
    Knows names s := by
  refine ⟨?_, fun p hp => h.constant p (hg.shared.subset hp),
    fun p hp => h.derived p (hg.derived.subset hp)⟩
  intro a ha
  obtain ⟨a', ha', hname, hbinding⟩ := hg.argument_of_mem ha
  rw [← hname, ← hbinding]
  exact h.argument a' ha'

/-! ### Steps that succeed -/

/-- A sound state whose derived constants have distinct keys. -/
structure Neat (ctx : Context) (outer : List String) (s : State) : Prop
    extends Sound ctx outer s where
  derived_distinct : (s.derived.map (·.1)).Nodup

/-- Where a step succeeds, the state has grown and is neat, and `post` holds of it. -/
def Ends {α : Type} (ctx : Context) (outer : List String) (s : State) (x : Step α)
    (post : State → α → Prop) : Prop :=
  ∀ a s', x.exec s = (.ok a, s') → Grows s s' ∧ Neat ctx outer s' ∧ post s' a

namespace Ends

variable {α β : Type} {ctx : Context} {outer : List String} {s : State}

theorem pure {a : α} {post : State → α → Prop} (hs : Neat ctx outer s) (hp : post s a) :
    Ends ctx outer s (Pure.pure a) post := by
  intro b s' h
  obtain ⟨hb, rfl⟩ := Prod.mk.inj h
  obtain rfl := Except.ok.inj hb
  exact ⟨.refl s, hs, hp⟩

theorem bind {x : Step α} {f : α → Step β} {post : State → α → Prop} {post' : State → β → Prop}
    (hx : Ends ctx outer s x post)
    (hf : ∀ s' a, Grows s s' → Neat ctx outer s' → post s' a → Ends ctx outer s' (f a) post') :
    Ends ctx outer s (x >>= f) post' := by
  intro b s₂ h
  obtain ⟨a, s₁, hrun, hnext⟩ := Step.exec_bind_inv h
  obtain ⟨hg₁, hs₁, hp₁⟩ := hx a s₁ hrun
  obtain ⟨hg₂, hs₂, hp₂⟩ := hf s₁ a hg₁ hs₁ hp₁ b s₂ hnext
  exact ⟨hg₁.trans hg₂, hs₂, hp₂⟩

theorem map {x : Step α} {f : α → β} {post : State → α → Prop} {post' : State → β → Prop}
    (hx : Ends ctx outer s x post)
    (hp : ∀ s' a, Grows s s' → Neat ctx outer s' → post s' a → post' s' (f a)) :
    Ends ctx outer s (do return f (← x)) post' :=
  hx.bind fun s' a hg hs hpost => .pure hs (hp s' a hg hs hpost)

theorem lift_bind {e : Except Failure α} {f : α → Step β} {post : State → β → Prop}
    (hf : ∀ a, e = .ok a → Ends ctx outer s (f a) post) :
    Ends ctx outer s (liftM e >>= f) post := by
  intro b s' h
  obtain ⟨a, s₁, hrun, hnext⟩ := Step.exec_bind_inv h
  rw [Step.exec_lift] at hrun
  obtain ⟨ha, rfl⟩ := Prod.mk.inj hrun
  exact hf a ha b s' hnext

theorem imp {x : Step α} {post post' : State → α → Prop} (h : Ends ctx outer s x post)
    (hp : ∀ s' a, Grows s s' → post s' a → post' s' a) : Ends ctx outer s x post' := by
  intro a s' hrun
  obtain ⟨hg, hs, hpost⟩ := h a s' hrun
  exact ⟨hg, hs, hp s' a hg hpost⟩

/-- A step that fails. -/
theorem of_error {x : Step α} {f : Failure} {s₁ : State} {post : State → α → Prop}
    (hx : x.exec s = (.error f, s₁)) : Ends ctx outer s x post := by
  intro a s' h
  rw [hx] at h
  cases (Prod.mk.inj h).1

/-- A step that derives nothing ends as it refines. -/
theorem of_refines {x : Step α} {verdict : Except Failure (List Use)} {asked : List Request}
    {post : State → α → Prop} (h : Refines ctx outer s x verdict asked post)
    (hs : Neat ctx outer s)
    (hderived : ∀ a s', x.exec s = (.ok a, s') → s'.derived = s.derived) :
    Ends ctx outer s x post := by
  intro a s' hrun
  rw [Refines, hrun] at h
  obtain ⟨-, -, hgrows, hsound, hpost⟩ := h
  refine ⟨hgrows, ⟨hsound, ?_⟩, hpost⟩
  rw [hderived a s' hrun]
  exact hs.derived_distinct

end Ends

section Steps

variable {ctx : Context} {outer : List String} {s : State}

theorem derived_useArgument {name : String} {type : ArgType} {span : Span} {v : ValueRef}
    {s' : State} (h : (useArgument ctx name type span).exec s = (.ok v, s')) :
    s'.derived = s.derived := by
  rw [useArgument, Step.exec_bind_ok (Step.exec_get s)] at h
  cases hfind : s.arguments.find? (·.name == name) with
  | some a =>
    cases hjoin : a.type.join? type with
    | none =>
      simp only [hfind, hjoin] at h
      cases (Prod.mk.inj h).1
    | some joined =>
      simp only [hfind, hjoin] at h
      rw [← (Prod.mk.inj h).2]
  | none =>
    cases hbind : bindName s.table ctx.scope (some name) name.toList .param with
    | error e =>
      simp only [hfind, hbind] at h
      cases (Prod.mk.inj h).1
    | ok r =>
      simp only [hfind, hbind] at h
      rw [← (Prod.mk.inj h).2]

theorem derived_bindConstant {id : ScopeId} {base name : String} {s' : State}
    (h : (bindConstant id base).exec s = (.ok name, s')) : s'.derived = s.derived := by
  rw [bindConstant, Step.exec_bind_ok (Step.exec_get s)] at h
  cases hbind : s.table.bindFresh id base.toList .constant with
  | error e =>
    simp only [hbind] at h
    cases (Prod.mk.inj h).1
  | ok r =>
    simp only [hbind] at h
    rw [← (Prod.mk.inj h).2]

theorem derived_shareConstant {key : SharedKey} {base name : String} {init : Expr} {s' : State}
    (h : (shareConstant ctx key base init).exec s = (.ok name, s')) : s'.derived = s.derived := by
  rw [shareConstant, Step.exec_bind_ok (Step.exec_get s)] at h
  cases hfind : s.shared.find? (·.1 == key) with
  | some p =>
    simp only [hfind] at h
    rw [← (Prod.mk.inj h).2]
  | none =>
    simp only [hfind] at h
    obtain ⟨n, s₁, hbound, hnext⟩ := Step.exec_bind_inv h
    rw [Step.exec_bind_ok (Step.exec_modify s₁ _)] at hnext
    have hderived := derived_bindConstant hbound
    rw [← (Prod.mk.inj hnext).2]
    exact hderived

/-- The keys of the derived constants after one was used. -/
theorem derived_deriveConstant {key : LocalKey} {base name : String} {s' : State}
    (h : (deriveConstant ctx key base).exec s = (.ok name, s')) :
    s'.derived = s.derived ∨
      s'.derived = s.derived ++ [(key, name)] ∧ ∀ p ∈ s.derived, p.1.same key = false := by
  rw [deriveConstant, Step.exec_bind_ok (Step.exec_get s)] at h
  cases hfind : s.derived.find? (·.1.same key) with
  | some p =>
    simp only [hfind] at h
    rw [← (Prod.mk.inj h).2]
    exact .inl rfl
  | none =>
    simp only [hfind] at h
    obtain ⟨n, s₁, hbound, hnext⟩ := Step.exec_bind_inv h
    rw [Step.exec_bind_ok (Step.exec_modify s₁ _)] at hnext
    obtain ⟨hname, hstate⟩ := Prod.mk.inj hnext
    obtain rfl := Except.ok.inj hname
    refine .inr ⟨?_, fun p hp => ?_⟩
    · rw [← hstate, ← derived_bindConstant hbound]
    · simpa using List.find?_eq_none.mp hfind p hp

theorem useArgument_ends (hs : Neat ctx outer s) (name : String) (type : ArgType) (span : Span) :
    Ends ctx outer s (useArgument ctx name type span) fun s' v =>
      v.binding ∈ s'.locals ∧ ∀ names, Knows names s' → names.argument? name = some v.binding := by
  refine .of_refines ((useArgument_refines hs.toSound name type span).imp ?_) hs
    fun _ _ => derived_useArgument
  rintro s' v - ⟨a, ha, rfl, hbinding⟩
  refine ⟨?_, fun names hknows => ?_⟩
  · rw [← hbinding]
    exact List.mem_append_left _ (List.mem_map_of_mem ha)
  · rw [← hbinding]
    exact hknows.argument a ha

theorem shareConstant_ends (hs : Neat ctx outer s) (key : SharedKey) (base : String) (init : Expr) :
    Ends ctx outer s (shareConstant ctx key base init) fun s' name => (key, name) ∈ s'.shared :=
  .of_refines (shareConstant_refines hs.toSound key base init) hs fun _ _ => derived_shareConstant

/-- A key that equals itself is derived once. -/
theorem deriveConstant_ends (hs : Neat ctx outer s) {key : LocalKey} (base : String)
    (hself : key.same key = true) (hrefers : key.Refers s.shared)
    (hreads : ReadsOnly (s.locals ++ s.constantNames) key.init) :
    Ends ctx outer s (deriveConstant ctx key base) fun s' name => (key, name) ∈ s'.derived := by
  intro name s' hrun
  have href := deriveConstant_refines hs.toSound base hrefers hreads
  rw [Refines, hrun] at href
  obtain ⟨-, -, hgrows, hsound, hmem⟩ := href
  refine ⟨hgrows, ⟨hsound, ?_⟩, hmem⟩
  rcases derived_deriveConstant hrun with hsame | ⟨hadded, hnew⟩
  · rw [hsame]
    exact hs.derived_distinct
  · rw [hadded, List.map_append, List.map_singleton]
    refine List.nodup_append.mpr ⟨hs.derived_distinct, List.nodup_singleton _, ?_⟩
    rintro x hx y hy rfl
    obtain rfl := List.mem_singleton.mp hy
    obtain ⟨p, hp, hkey⟩ := List.mem_map.mp hx
    -- an earlier constant with this key would have been used again
    have hdiffers := hnew p hp
    rw [hkey, hself] at hdiffers
    exact Bool.noConfusion hdiffers

/-- A method of a shared constant on a value is called by one derived constant. -/
theorem method_ends {v : ValueRef} (hs : Neat ctx outer s) (hv : v.binding ∈ s.locals)
    (key : SharedKey) (method : String) {base : String} {init : Expr} {call : String → LocalKey}
    {name : String → String} (hself : ∀ c, (call c).same (call c) = true)
    (hrefers : ∀ (shared : List (SharedKey × String)) (c : String), (key, c) ∈ shared →
      (call c).Refers shared)
    (hcall : ∀ c, (call c).init = .call (.member (.ident c) method) [.ident v.binding]) :
    Ends ctx outer s
      (do
        let c ← shareConstant ctx key base init
        let n ← deriveConstant ctx (call c) (name c)
        return Expr.ident n)
      fun s' e => ∃ c n, (key, c) ∈ s'.shared ∧ (call c, n) ∈ s'.derived ∧ e = .ident n := by
  refine (shareConstant_ends hs key base init).bind ?_
  intro s₁ c hg₁ hs₁ hmem
  have hreads : ReadsOnly (s₁.locals ++ s₁.constantNames) (call c).init := by
    rw [hcall c]
    exact readsOnly_method hs₁.toSound hmem (hg₁.locals_subset hv) method
  refine (deriveConstant_ends hs₁ (name c) (hself c) (hrefers _ c hmem) hreads).map ?_
  intro s₂ n hg₂ _ hderived
  exact ⟨c, n, hg₂.shared.subset hmem, hderived, rfl⟩

theorem useFormatted_ends {v : ValueRef} (hs : Neat ctx outer s) (hv : v.binding ∈ s.locals)
    (kind : FormatKind) (preset : String) {o : FormatOptions} (ho : o.Regular) :
    Ends ctx outer s (useFormatted ctx v kind preset o) fun s' e =>
      ∀ names, Knows names s' → names.formatted? kind o.get? v.binding = some e := by
  refine (method_ends hs hv (.formatter kind o.canonical) "format" ?_ ?_ fun _ => rfl).imp ?_
  · intro c
    simp only [LocalKey.same, beq_self_eq_true, Bool.and_self]
  · exact fun shared c hmem => ⟨kind, _, hmem⟩
  · rintro s' e - ⟨formatter, name, hmem, hderived, rfl⟩ names hknows
    have hconstant : names.constant? (.formatter kind o.get?) = some formatter :=
      hknows.constant _ hmem _ (.formatter ho)
    have hname : names.derived? (.formatted formatter v.binding) = some name :=
      hknows.derived _ hderived
    simp only [Names.formatted?, hconstant, hname, Option.bind_eq_bind, Option.bind_some,
      Option.pure_def]

theorem useCategory_ends {v : ValueRef} (hs : Neat ctx outer s) (hv : v.binding ∈ s.locals)
    (kind : PluralKind) :
    Ends ctx outer s (useCategory ctx v kind) fun s' e =>
      ∀ names, Knows names s' → names.category? kind v.binding = some e := by
  refine (method_ends hs hv (.pluralRules kind) "select" ?_ ?_ fun _ => rfl).imp ?_
  · intro c
    simp only [LocalKey.same, beq_self_eq_true, Bool.and_self]
  · exact fun shared c hmem => ⟨kind, hmem⟩
  · rintro s' e - ⟨rules, name, hmem, hderived, rfl⟩ names hknows
    have hconstant : names.constant? (.rules kind) = some rules :=
      hknows.constant _ hmem _ .rules
    have hname : names.derived? (.category rules v.binding) = some name :=
      hknows.derived _ hderived
    simp only [Names.category?, hconstant, hname, Option.bind_eq_bind, Option.bind_some,
      Option.pure_def]

theorem useOffset_ends {v : ValueRef} (hs : Neat ctx outer s) (hv : v.binding ∈ s.locals)
    {offset : Float} (hnumber : (offset == offset) = true) :
    Ends ctx outer s (useOffset ctx v offset) fun s' v' =>
      v'.binding ∈ s'.locals ∧
        ∀ names, Knows names s' → names.shifted? v.binding offset = some v'.binding := by
  rw [useOffset]
  cases hzero : offset == 0 with
  | true =>
    refine .pure hs ⟨hv, fun names _ => ?_⟩
    rw [Names.shifted?, if_pos hzero]
  | false =>
    have hrefers : LocalKey.Refers s.shared (.offset v.binding offset) := hzero
    have hself : (LocalKey.offset v.binding offset).same (.offset v.binding offset) = true := by
      simp only [LocalKey.same, beq_self_eq_true, hnumber, Bool.and_self]
    refine (deriveConstant_ends hs _ hself hrefers (readsOnly_offset hv offset)).map ?_
    intro s₁ name _ hs₁ hderived
    refine ⟨?_, fun names hknows => ?_⟩
    · rw [State.locals, hs₁.body_eq, List.map_map]
      exact List.mem_append_right _ (List.mem_map.mpr ⟨_, hderived, rfl⟩)
    · rw [Names.shifted?, if_neg (by simp [hzero])]
      exact hknows.derived _ hderived

end Steps

/-! ### Elements -/

/-- Styles have regular options, and offsets are numbers. -/
def Plain (formats : Formats) : Node → Prop
  | .format _ kind _ _ style => (styleOptions formats kind style).Regular
  | .plural _ _ _ offset _ _ => (offset == offset) = true
  | _ => True

/-- The value that `#` stands for has a name in the message. -/
def Counted (plural : Option ValueRef) (s : State) : Prop :=
  ∀ v, plural = some v → v.binding ∈ s.locals

theorem Counted.of_grows {plural : Option ValueRef} {s s' : State} (h : Counted plural s)
    (hg : Grows s s') : Counted plural s' :=
  fun v hv => hg.locals_subset (h v hv)

/-- What an element is compiled to is the element spelled with the names that were bound. -/
def Spells (n : Node) : Prop :=
  ∀ (ctx : Context) (outer : List String) (s : State) (plural : Option ValueRef),
    Neat ctx outer s → Counted plural s → n.All (Plain ctx.formats) →
    Ends ctx outer s (node ctx plural n) fun s' p => ∀ names, Knows names s' →
      spelled? ctx.target ctx.formats names (plural.map (·.binding)) n = some p

section Lists

variable {ctx : Context} {outer : List String} {plural : Option ValueRef}

theorem nodes_ends {ns : List Node} (h : ∀ n ∈ ns, Spells n)
    (hplain : ∀ n ∈ ns, n.All (Plain ctx.formats)) :
    ∀ {s : State}, Neat ctx outer s → Counted plural s →
      Ends ctx outer s (nodes ctx plural ns) fun s' ps => ∀ names, Knows names s' →
        ns.mapM (spelled? ctx.target ctx.formats names (plural.map (·.binding))) = some ps := by
  induction ns with
  | nil =>
    intro s hs _
    rw [nodes]
    exact .pure hs fun _ _ => rfl
  | cons n r ih =>
    intro s hs hc
    rw [nodes]
    refine (h n List.mem_cons_self ctx outer s plural hs hc (hplain n List.mem_cons_self)).bind ?_
    intro s₁ p hg₁ hs₁ hp
    refine (ih (fun m hm => h m (List.mem_cons_of_mem _ hm))
      (fun m hm => hplain m (List.mem_cons_of_mem _ hm)) hs₁ (hc.of_grows hg₁)).map ?_
    intro s₂ ps hg₂ _ hps names hknows
    -- names that agree with the last state agree with the one in between
    rw [List.mapM_cons, hp names (hknows.of_grows hg₂), hps names hknows]
    rfl

theorem branch_ends {selector : Selector} {test : String → Option Float → Expr}
    {exact : String → Option Float} {b : Branch Node} (h : ∀ n ∈ b.body, Spells n)
    (hplain : ∀ n ∈ b.body, n.All (Plain ctx.formats)) {s : State} (hs : Neat ctx outer s)
    (hc : Counted plural s) (hexact : ∀ x, selector b.key b.keySpan = .ok x → x = exact b.key) :
    Ends ctx outer s (branch ctx plural selector test b) fun s' c => ∀ names, Knows names s' →
      spelledCase? exact test
        (b.mapBody (spelled? ctx.target ctx.formats names (plural.map (·.binding)))) = some c := by
  obtain ⟨key, keySpan, span, body⟩ := b
  rw [branch]
  refine .lift_bind ?_
  intro x hx
  obtain rfl := hexact x hx
  refine (nodes_ends h hplain hs hc).map ?_
  intro s₁ ps _ _ hps names hknows
  simp only [spelledCase?, Branch.mapBody, mapM_id_map, hps names hknows, Option.bind_eq_bind,
    Option.bind_some, Option.pure_def]

theorem branches_ends {selector : Selector} {test : String → Option Float → Expr}
    {exact : String → Option Float} {cases : List (Branch Node)}
    (h : ∀ b ∈ cases, ∀ n ∈ b.body, Spells n)
    (hplain : ∀ b ∈ cases, ∀ n ∈ b.body, n.All (Plain ctx.formats))
    (hexact : ∀ b ∈ cases, ∀ x, selector b.key b.keySpan = .ok x → x = exact b.key) :
    ∀ {s : State} {seen : List String}, Neat ctx outer s → Counted plural s →
      Ends ctx outer s (branches ctx plural selector test seen cases) fun s' cs =>
        ∀ names, Knows names s' → ((keptCases seen cases).map
          (·.mapBody (spelled? ctx.target ctx.formats names (plural.map (·.binding))))).mapM
          (spelledCase? exact test) = some cs := by
  induction cases with
  | nil =>
    intro s seen hs _
    rw [branches]
    exact .pure hs fun _ _ => rfl
  | cons b r ih =>
    intro s seen hs hc
    have ih := @ih (fun c hc => h c (List.mem_cons_of_mem _ hc))
      (fun c hc => hplain c (List.mem_cons_of_mem _ hc))
      fun c hc => hexact c (List.mem_cons_of_mem _ hc)
    rw [branches, keptCases]
    split
    · exact ih hs hc
    · refine (branch_ends (h b List.mem_cons_self) (hplain b List.mem_cons_self) hs hc
        (hexact b List.mem_cons_self)).bind ?_
      intro s₁ c hg₁ hs₁ hcase
      refine (ih hs₁ (hc.of_grows hg₁)).map ?_
      -- names that are known at the end are known of the first case, which came before
      intro s₂ cs hg₂ _ hcases names hknows
      rw [List.map_cons, List.mapM_cons, hcase names (hknows.of_grows hg₂), hcases names hknows]
      rfl

theorem defaultBranch_ends {cases : List (Branch Node)} (h : ∀ b ∈ cases, ∀ n ∈ b.body, Spells n)
    (hplain : ∀ b ∈ cases, ∀ n ∈ b.body, n.All (Plain ctx.formats)) {s : State}
    (hs : Neat ctx outer s) (hc : Counted plural s) :
    Ends ctx outer s (defaultBranch ctx plural cases) fun s' r => ∃ ps, r = joinPieces ps ∧
      ∀ names, Knows names s' → (fallbackBody cases).mapM
        (spelled? ctx.target ctx.formats names (plural.map (·.binding))) = some ps := by
  induction cases with
  | nil =>
    rw [defaultBranch]
    exact .pure hs ⟨[], rfl, fun _ _ => rfl⟩
  | cons b r ih =>
    rw [defaultBranch, fallbackBody]
    split
    · obtain ⟨key, keySpan, span, body⟩ := b
      rw [defaultBody]
      refine (nodes_ends (h _ List.mem_cons_self) (hplain _ List.mem_cons_self) hs hc).map ?_
      exact fun s₁ ps _ _ hps => ⟨ps, rfl, hps⟩
    · exact ih (fun b hb => h b (List.mem_cons_of_mem _ hb))
        fun b hb => hplain b (List.mem_cons_of_mem _ hb)

theorem choice_ends {selector : Selector} {test : String → Option Float → Expr}
    {exact : String → Option Float} {cases : List (Branch Node)}
    (h : ∀ b ∈ cases, ∀ n ∈ b.body, Spells n)
    (hplain : ∀ b ∈ cases, ∀ n ∈ b.body, n.All (Plain ctx.formats))
    (hexact : ∀ b ∈ cases, ∀ x, selector b.key b.keySpan = .ok x → x = exact b.key) {s : State}
    (hs : Neat ctx outer s) (hc : Counted plural s) :
    Ends ctx outer s
      (do
        let compiled ← branches ctx plural selector test [] cases
        let fallback ← defaultBranch ctx plural cases
        return choicePiece compiled fallback)
      fun s' p => ∀ names, Knows names s' → spelledChoice? exact test
        (spelledBranches? ctx.target ctx.formats names (plural.map (·.binding)) cases) = some p := by
  refine (branches_ends h hplain hexact hs hc).bind ?_
  intro s₁ compiled hg₁ hs₁ hcases
  refine (defaultBranch_ends h hplain hs₁ (hc.of_grows hg₁)).map ?_
  rintro s₂ fallback hg₂ _ ⟨ps, rfl, hps⟩ names hknows
  rw [spelledChoice?, spelledBranches?_eq_map, keptCases_map, fallbackBody_map, mapM_id_map,
    hcases names (hknows.of_grows hg₂), hps names hknows]
  rfl

end Lists

/-- Compiling spells every element. -/
theorem spells : ∀ n, Spells n := by
  apply Node.Hereditary.holds
  constructor
  case literal =>
    intro span text ctx outer s plural hs _ _
    rw [node]
    refine .pure hs fun names _ => ?_
    rw [spelled?]
    rfl
  case argument =>
    intro span name nameSpan ctx outer s plural hs _ _
    rw [node]
    refine (useArgument_ends hs name _ nameSpan).map ?_
    rintro s₁ v _ _ ⟨-, hname⟩ names hknows
    rw [spelled?, hname names hknows]
    rfl
  case select =>
    intro span name nameSpan cases ih ctx outer s plural hs hc hplain
    rw [node]
    refine (useArgument_ends hs name .string nameSpan).bind ?_
    rintro s₁ v hg₁ hs₁ ⟨-, hname⟩
    refine .lift_bind fun _ _ => ?_
    -- the keys of a select are compared as texts
    let exact (_ : String) : Option Float := none
    have hexact : ∀ b ∈ cases, ∀ x, textSelector b.key b.keySpan = .ok x → x = exact b.key :=
      fun _ _ _ hx => (Except.ok.inj hx).symm
    refine (choice_ends ih hplain.of_select hexact hs₁ (hc.of_grows hg₁)).imp ?_
    intro s₂ p hg₂ hp names hknows
    rw [spelled?, hname names (hknows.of_grows hg₂)]
    exact hp names hknows
  case plural =>
    intro span name nameSpan offset kind cases ih ctx outer s plural hs _ hplain
    rw [node]
    refine (useArgument_ends hs name .number nameSpan).bind ?_
    rintro s₁ v hg₁ hs₁ ⟨hv, hname⟩
    refine .lift_bind fun _ _ => ?_
    refine (useOffset_ends hs₁ hv hplain.self).bind ?_
    rintro s₂ shifted hg₂ hs₂ ⟨hshifted, hoffset⟩
    have hcategory : Ends ctx outer s₂
        (if hasCategory cases then useCategory ctx shifted kind else pure .absent)
        fun s' e => ∀ names, Knows names s' →
          (if hasCategory cases then names.category? kind shifted.binding else some .absent) =
            some e := by
      cases hasCategory cases with
      | true => exact useCategory_ends hs₂ hshifted kind
      | false => exact .pure hs₂ fun _ _ => rfl
    refine hcategory.bind ?_
    intro s₃ category hg₃ hs₃ hcategory
    -- in the cases `#` counts this plural, whatever plural is around it
    have hcount : Counted (some shifted) s₃ := by
      intro u hu
      rw [← Option.some.inj hu]
      exact hg₃.locals_subset hshifted
    have hexact : ∀ b ∈ cases, ∀ x, pluralSelector b.key b.keySpan = .ok x →
        x = exactValue? b.key := fun _ _ _ hx => (pluralSelector_ok hx).1
    refine (choice_ends ih hplain.of_plural hexact hs₃ hcount).imp ?_
    intro s₄ p hg₄ hp names hknows
    have hknows₃ := hknows.of_grows hg₄
    have hknows₂ := hknows₃.of_grows hg₃
    rw [spelled?, hname names (hknows₂.of_grows hg₂)]
    simp only [Option.bind_eq_bind, Option.bind_some, hoffset names hknows₂, Option.pure_def,
      hcategory names hknows₃]
    exact hp names hknows
  case format =>
    intro span kind name nameSpan style ctx outer s plural hs _ hplain
    rw [node]
    refine (useArgument_ends hs name _ nameSpan).bind ?_
    rintro s₁ v hg₁ hs₁ ⟨hv, hname⟩
    refine .lift_bind ?_
    rintro ⟨preset, o⟩ hstyle
    obtain rfl := styleOptions_of_resolveStyle hstyle
    refine (useFormatted_ends hs₁ hv kind preset hplain.self).map ?_
    intro s₂ e hg₂ _ he names hknows
    rw [spelled?, hname names (hknows.of_grows hg₂)]
    simp only [Option.bind_eq_bind, Option.bind_some, he names hknows, Option.pure_def]
  case pound =>
    intro span ctx outer s plural hs hc _
    cases plural with
    | none =>
      rw [node]
      exact .of_error (Step.exec_lift s _)
    | some v =>
      rw [node]
      refine (useFormatted_ends hs (hc v rfl) .number "" .nil).map ?_
      intro s₁ e _ _ he names hknows
      have hpound : names.formatted? .number (fun _ => none) v.binding = some e := he names hknows
      simp only [spelled?, Option.map_some, Option.bind_eq_bind, Option.bind_some, hpound,
        Option.pure_def]
  case tag =>
    intro span name nameSpan selfClosing children ih ctx outer s plural hs hc hplain
    rw [node]
    refine .lift_bind fun _ _ => ?_
    refine (useArgument_ends hs name _ _).bind ?_
    rintro s₁ v hg₁ hs₁ ⟨-, hname⟩
    have hinside : Ends ctx outer s₁ (if selfClosing then pure [] else nodes ctx plural children)
        fun s' ps => ∀ names, Knows names s' → (if selfClosing then some [] else
          children.mapM (spelled? ctx.target ctx.formats names (plural.map (·.binding)))) =
            some ps := by
      cases selfClosing with
      | true => exact .pure hs₁ fun _ _ => rfl
      | false => exact nodes_ends ih hplain.of_tag hs₁ (hc.of_grows hg₁)
    refine hinside.map ?_
    intro s₂ ps hg₂ _ hps names hknows
    rw [spelled?, hname names (hknows.of_grows hg₂)]
    simp only [Option.bind_eq_bind, Option.bind_some, Option.pure_def, spelledList?_eq_map,
      mapM_id_map, hps names hknows]
    rfl
  case unknown =>
    intro span ctx outer s plural _ _ _
    rw [node]
    exact .of_error (Step.exec_throw s _)
  case hole =>
    intro ctx outer s plural _ _ _
    rw [node]
    exact .of_error (Step.exec_throw s _)

end Phrasebook.Compile
