import Phrasebook.Proofs.Compiling

/-!
Steps of compiling and what they refine: binding arguments, sharing constants of the module and
deriving constants of the message.
-/
namespace Phrasebook.Compile

/-! ### Running steps -/

/-- Runs a step from a state. -/
def Step.exec {α : Type} (x : Step α) (s : State) : Except Failure α × State :=
  x.run s

namespace Step

variable {α β : Type} (s : State)

theorem exec_pure (a : α) : exec (pure a) s = (.ok a, s) := rfl

theorem exec_throw (f : Failure) : exec (throw f : Step α) s = (.error f, s) := rfl

theorem exec_get : exec get s = (.ok s, s) := rfl

theorem exec_set (s' : State) : exec (set s') s = (.ok ⟨⟩, s') := rfl

theorem exec_modify (f : State → State) : exec (modify f) s = (.ok ⟨⟩, f s) := rfl

theorem exec_lift (e : Except Failure α) : exec (liftM e) s = (e, s) := rfl

theorem exec_bind (x : Step α) (f : α → Step β) :
    exec (x >>= f) s = match x.exec s with
      | (.ok a, s') => (f a).exec s'
      | (.error e, s') => (.error e, s') := by
  rcases hx : x.exec s with ⟨r, s'⟩
  have hrun : x.run s = (r, s') := hx
  have hcont : exec (x >>= f) s = (ExceptT.bindCont f (x.run s).1) (x.run s).2 := rfl
  rw [hcont, hrun]
  cases r <;> rfl

variable {s}

theorem exec_bind_ok {x : Step α} {f : α → Step β} {a : α} {s' : State}
    (h : x.exec s = (.ok a, s')) : exec (x >>= f) s = (f a).exec s' := by
  rw [exec_bind, h]

theorem exec_bind_error {x : Step α} {f : α → Step β} {e : Failure} {s' : State}
    (h : x.exec s = (.error e, s')) : exec (x >>= f) s = (.error e, s') := by
  rw [exec_bind, h]

/-- A sequence that succeeds did so step by step. -/
theorem exec_bind_inv {x : Step α} {f : α → Step β} {b : β} {s' : State}
    (h : exec (x >>= f) s = (.ok b, s')) :
    ∃ a s₁, x.exec s = (.ok a, s₁) ∧ (f a).exec s₁ = (.ok b, s') := by
  rw [exec_bind] at h
  rcases hx : x.exec s with ⟨r, s₁⟩
  rw [hx] at h
  cases r with
  | error e => cases h
  | ok a => exact ⟨a, s₁, rfl, h⟩

end Step

/-! ### Refinement -/

def Failure.isDiagnostic : Failure → Bool
  | .diagnostic _ => true
  | _ => false

/-- From a sound state a step ends in one that has grown and is sound: it succeeds with what the
verdict found and with the constants asked for, and then `post` holds; or it fails as the verdict
does, if there is a scope for the message. -/
def Refines {α : Type} (ctx : Context) (outer : List String) (s : State) (x : Step α)
    (verdict : Except Failure (List Use)) (asked : List Request) (post : State → α → Prop) : Prop :=
  match x.exec s with
  | (.ok a, s') => verdict = .ok s'.uses ∧ s'.granted = share s.granted asked ∧ Grows s s' ∧
      Sound ctx outer s' ∧ post s' a
  | (.error f, s') => Grows s s' ∧ Sound ctx outer s' ∧
      ((s.table.scope? ctx.scope).isSome = true → verdict = .error f)

namespace Refines

variable {α β : Type} {ctx : Context} {outer : List String} {s : State}

theorem of_ok {x : Step α} {a : α} {s' : State} {verdict : Except Failure (List Use)}
    {asked : List Request} {post : State → α → Prop} (hx : x.exec s = (.ok a, s'))
    (hv : verdict = .ok s'.uses) (hg : s'.granted = share s.granted asked) (hgrow : Grows s s')
    (hs : Sound ctx outer s') (hp : post s' a) : Refines ctx outer s x verdict asked post := by
  rw [Refines, hx]
  exact ⟨hv, hg, hgrow, hs, hp⟩

theorem of_error {x : Step α} {f : Failure} {s' : State} {verdict : Except Failure (List Use)}
    {asked : List Request} {post : State → α → Prop} (hx : x.exec s = (.error f, s'))
    (hgrow : Grows s s') (hs : Sound ctx outer s')
    (hv : (s.table.scope? ctx.scope).isSome = true → verdict = .error f) :
    Refines ctx outer s x verdict asked post := by
  rw [Refines, hx]
  exact ⟨hgrow, hs, hv⟩

theorem pure {a : α} {post : State → α → Prop} (hs : Sound ctx outer s) (hp : post s a) :
    Refines ctx outer s (Pure.pure a) (.ok s.uses) [] post :=
  of_ok (Step.exec_pure s a) rfl rfl (.refl s) hs hp

theorem imp {x : Step α} {verdict : Except Failure (List Use)} {asked : List Request}
    {post post' : State → α → Prop} (h : Refines ctx outer s x verdict asked post)
    (hp : ∀ s' a, Sound ctx outer s' → post s' a → post' s' a) :
    Refines ctx outer s x verdict asked post' := by
  rw [Refines] at h ⊢
  split
  · rename_i a s' hx
    rw [hx] at h
    obtain ⟨hv, hg, hgrow, hs, hpost⟩ := h
    exact ⟨hv, hg, hgrow, hs, hp s' a hs hpost⟩
  · rename_i f s' hx
    rw [hx] at h
    exact h

/-- One step after the other, judged by one verdict: requests follow each other, and the verdict
fails where the first step does. -/
theorem andThen {x : Step α} {f : α → Step β} {verdict verdict' : Except Failure (List Use)}
    {asked asked' : List Request} {post : State → α → Prop} {post' : State → β → Prop}
    (hx : Refines ctx outer s x verdict asked post)
    (hf : ∀ s' a, Grows s s' → Sound ctx outer s' → verdict = .ok s'.uses → post s' a →
      Refines ctx outer s' (f a) verdict' asked' post')
    (herror : ∀ e, verdict = .error e → verdict' = .error e) :
    Refines ctx outer s (x >>= f) verdict' (asked ++ asked') post' := by
  rw [Refines] at hx
  split at hx
  · rename_i a s₁ hrun
    obtain ⟨hv, hg, hgrow, hs, hpost⟩ := hx
    have hnext := hf s₁ a hgrow hs hv hpost
    rw [Refines] at hnext
    split at hnext
    · rename_i b s₂ hrun₂
      obtain ⟨hv₂, hg₂, hgrow₂, hs₂, hpost₂⟩ := hnext
      refine of_ok ((Step.exec_bind_ok hrun).trans hrun₂) hv₂ ?_ (hgrow.trans hgrow₂) hs₂ hpost₂
      rw [hg₂, hg, share_append]
    · rename_i e s₂ hrun₂
      obtain ⟨hgrow₂, hs₂, hv₂⟩ := hnext
      refine of_error ((Step.exec_bind_ok hrun).trans hrun₂) (hgrow.trans hgrow₂) hs₂ ?_
      rw [← hgrow.table.isSome_scope?]
      exact hv₂
  · rename_i e s₁ hrun
    obtain ⟨hgrow, hs, hv⟩ := hx
    exact of_error (Step.exec_bind_error hrun) hgrow hs fun hscope => herror e (hv hscope)

/-- Verdicts are bound as the steps are. -/
theorem bind {x : Step α} {f : α → Step β} {verdict : Except Failure (List Use)} {next : Check}
    {asked asked' : List Request} {post : State → α → Prop} {post' : State → β → Prop}
    (hx : Refines ctx outer s x verdict asked post)
    (hf : ∀ s' a, Grows s s' → Sound ctx outer s' → post s' a →
      Refines ctx outer s' (f a) (next s'.uses) asked' post') :
    Refines ctx outer s (x >>= f) (verdict >>= next) (asked ++ asked') post' := by
  refine andThen hx ?_ ?_
  · intro s' a hg hs hv hp
    rw [hv]
    exact hf s' a hg hs hp
  · intro e he
    rw [he]
    rfl

/-- A step that adds no use leaves the verdict to the next one. -/
theorem seq {x : Step α} {f : α → Step β} {verdict : Except Failure (List Use)}
    {asked asked' : List Request} {post : State → α → Prop} {post' : State → β → Prop}
    (hx : Refines ctx outer s x (.ok s.uses) asked post)
    (hf : ∀ s' a, Grows s s' → Sound ctx outer s' → s'.uses = s.uses → post s' a →
      Refines ctx outer s' (f a) verdict asked' post') :
    Refines ctx outer s (x >>= f) verdict (asked ++ asked') post' :=
  andThen hx (fun s' a hg hs hv hp => hf s' a hg hs (Except.ok.inj hv).symm hp)
    fun _ he => nomatch he

/-- A step that asks for nothing. -/
theorem bind_nil {x : Step α} {f : α → Step β} {verdict : Except Failure (List Use)} {next : Check}
    {asked : List Request} {post : State → α → Prop} {post' : State → β → Prop}
    (hx : Refines ctx outer s x verdict [] post)
    (hf : ∀ s' a, Grows s s' → Sound ctx outer s' → post s' a →
      Refines ctx outer s' (f a) (next s'.uses) asked post') :
    Refines ctx outer s (x >>= f) (verdict >>= next) asked post' :=
  bind hx hf

/-- A step that adds no use and asks for nothing. -/
theorem seq_nil {x : Step α} {f : α → Step β} {verdict : Except Failure (List Use)}
    {asked : List Request} {post : State → α → Prop} {post' : State → β → Prop}
    (hx : Refines ctx outer s x (.ok s.uses) [] post)
    (hf : ∀ s' a, Grows s s' → Sound ctx outer s' → s'.uses = s.uses → post s' a →
      Refines ctx outer s' (f a) verdict asked post') :
    Refines ctx outer s (x >>= f) verdict asked post' :=
  seq hx hf

/-- A pure part of a step in front of the rest. -/
theorem lift_bind {e : Except Failure α} {f : α → Step β} {next : α → Except Failure (List Use)}
    {asked : List Request} {post : State → β → Prop} (hs : Sound ctx outer s)
    (hf : ∀ a, e = .ok a → Refines ctx outer s (f a) (next a) asked post) :
    Refines ctx outer s (liftM e >>= f) (e >>= next) asked post := by
  cases e with
  | ok a =>
    have h := hf a rfl
    rw [Refines] at h ⊢
    rw [Step.exec_bind_ok (Step.exec_lift s _)]
    exact h
  | error f =>
    exact of_error (Step.exec_bind_error (Step.exec_lift s _)) (.refl _) hs fun _ => rfl

/-- A step in front of a result that needs no more of the state. -/
theorem map {x : Step α} {f : α → β} {verdict : Except Failure (List Use)} {asked : List Request}
    {post : State → α → Prop} {post' : State → β → Prop}
    (hx : Refines ctx outer s x verdict asked post)
    (hp : ∀ s' a, Grows s s' → Sound ctx outer s' → post s' a → post' s' (f a)) :
    Refines ctx outer s (do return f (← x)) verdict asked post' := by
  rw [← List.append_nil asked]
  refine andThen hx ?_ fun e he => he
  intro s' a hg hs hv hpost
  rw [hv]
  exact Refines.pure hs (hp s' a hg hs hpost)

end Refines

/-! ### Arguments -/

theorem Closed.mono {xs ys : List String} (hsub : xs ⊆ ys) :
    ∀ {l : List (String × Expr)}, Closed xs l → Closed ys l := by
  intro l
  induction l generalizing xs ys with
  | nil => intro _; trivial
  | cons p r ih =>
    rintro ⟨hread, hrest⟩
    exact ⟨hread.mono hsub, ih (List.cons_subset_cons _ hsub) hrest⟩

theorem Closed.append {names : List String} {n : String} {e : Expr} :
    ∀ {l : List (String × Expr)}, Closed names l → ReadsOnly (names ++ l.map (·.1)) e →
      Closed names (l ++ [(n, e)]) := by
  intro l
  induction l generalizing names with
  | nil =>
    intro _ he
    rw [List.map_nil, List.append_nil] at he
    exact ⟨he, trivial⟩
  | cons p r ih =>
    rintro ⟨hread, hrest⟩ he
    refine ⟨hread, ih hrest (he.mono ?_)⟩
    intro x hx
    simp only [List.map_cons, List.mem_append, List.mem_cons] at hx ⊢
    rcases hx with hx | hx | hx
    · exact Or.inl (Or.inr hx)
    · exact Or.inl (Or.inl hx)
    · exact Or.inr hx

/-- Types are all that may change in the arguments of a sound state. -/
theorem Sound.retype {ctx : Context} {outer : List String} {s : State} (hs : Sound ctx outer s)
    (f : FoundArgument → FoundArgument) (hname : ∀ a, (f a).name = a.name)
    (hbinding : ∀ a, (f a).binding = a.binding) :
    Sound ctx outer { s with arguments := s.arguments.map f } := by
  have hnames : (s.arguments.map f).map (·.name) = s.arguments.map (·.name) := by
    rw [List.map_map]
    exact List.map_congr_left fun a _ => hname a
  have hbindings : (s.arguments.map f).map (·.binding) = s.arguments.map (·.binding) := by
    rw [List.map_map]
    exact List.map_congr_left fun a _ => hbinding a
  have hlocals : State.locals { s with arguments := s.arguments.map f } = s.locals := by
    simp only [State.locals, hbindings]
  constructor
  case tidy => exact hs.tidy
  case outer_bound => exact hs.outer_bound
  case constants_bound => exact hs.constants_bound
  case locals_bound => rw [hlocals]; exact hs.locals_bound
  case distinct => rw [hlocals]; exact hs.distinct
  case bindable => rw [hlocals]; exact hs.bindable
  case arguments_distinct => exact hnames ▸ hs.arguments_distinct
  case aligned => exact hs.aligned
  case keys_distinct => exact hs.keys_distinct
  case ordered => exact hs.ordered
  case body_eq => exact hs.body_eq
  case refers => exact hs.refers
  case closed => exact hbindings ▸ hs.closed

/-- A name that neither scope has is none of those in use. -/
theorem Sound.not_mem_of_not_bound {ctx : Context} {outer : List String} {s : State}
    (hs : Sound ctx outer s) {n : String} (hscope : n ∉ s.table.bound ctx.scope)
    (hroot : n ∉ s.table.bound ctx.root) : n ∉ outer ++ s.constantNames ++ s.locals := by
  intro hmem
  rcases List.mem_append.mp hmem with hmem | hmem
  · rcases List.mem_append.mp hmem with hmem | hmem
    · exact hroot (hs.outer_bound n hmem)
    · exact hroot (hs.constants_bound n hmem)
  · exact hscope (hs.locals_bound n hmem)

/-- A new argument under a name that was bound for it. -/
theorem Sound.addArgument {ctx : Context} {outer : List String} {s : State}
    (hs : Sound ctx outer s) {a : FoundArgument} (hnew : a.name ∉ s.arguments.map (·.name))
    (hid : (s.table.scope? ctx.scope).isSome = true)
    (hscope : a.binding ∉ s.table.bound ctx.scope) (hroot : a.binding ∉ s.table.bound ctx.root)
    (hbind : Name.isBindable a.binding = true) :
    Sound ctx outer { s with
      table := s.table.withName ctx.scope a.binding .param .zero
      arguments := s.arguments ++ [a] } := by
  have hext := s.table.extends_withName ctx.scope a.binding .param .zero
  have hlocals (x : String) : x ∈ State.locals { s with
      table := s.table.withName ctx.scope a.binding .param .zero
      arguments := s.arguments ++ [a] } ↔ x ∈ s.locals ∨ x = a.binding := by
    simp only [State.locals, List.map_append, List.map_cons, List.map_nil, List.mem_append,
      List.mem_singleton]
    tauto
  constructor
  case tidy => exact hs.tidy.withName _ _ _ hid
  case outer_bound => exact fun x hx => hext.bound _ (hs.outer_bound x hx)
  case constants_bound => exact fun x hx => hext.bound _ (hs.constants_bound x hx)
  case locals_bound =>
    intro x hx
    rcases (hlocals x).mp hx with hx | rfl
    · exact hext.bound _ (hs.locals_bound x hx)
    · rw [ScopeTable.bound_withName_self _ _ _ _ _ hid]
      exact List.mem_append_right _ (List.mem_singleton.mpr rfl)
  case distinct =>
    have hfree := hs.not_mem_of_not_bound hscope hroot
    have hold := hs.distinct
    simp only [State.locals, State.constantNames, List.map_append, List.map_cons, List.map_nil,
      List.append_assoc, List.singleton_append] at hfree hold ⊢
    rw [← List.append_assoc, ← List.append_assoc] at hfree hold ⊢
    -- the new name stands among the others, so it is moved to the front
    rw [List.nodup_middle]
    exact List.nodup_cons.mpr ⟨by simpa using hfree, by simpa using hold⟩
  case bindable =>
    intro x hx
    rcases List.mem_append.mp hx with hx | hx
    · exact hs.bindable x (List.mem_append_left _ hx)
    · rcases (hlocals x).mp hx with hx | rfl
      · exact hs.bindable x (List.mem_append_right _ hx)
      · exact hbind
  case arguments_distinct =>
    rw [List.map_append, List.map_singleton]
    exact List.nodup_append.mpr ⟨hs.arguments_distinct, List.nodup_singleton _,
      fun x hx y hy => by rw [List.mem_singleton.mp hy]; rintro rfl; exact hnew hx⟩
  case aligned => exact hs.aligned
  case keys_distinct => exact hs.keys_distinct
  case ordered => exact hs.ordered
  case body_eq => exact hs.body_eq
  case refers => exact hs.refers
  case closed =>
    refine hs.closed.mono ?_
    intro x hx
    simp only [List.map_append, List.map_cons, List.map_nil, List.mem_append,
      List.mem_singleton] at hx ⊢
    exact hx.elim (fun h => Or.inl (Or.inl h)) Or.inr

theorem find?_uses (s : State) (name : String) :
    s.uses.find? (·.name == name) =
      (s.arguments.find? (·.name == name)).map fun a => ⟨a.name, a.type, a.span⟩ := by
  rw [State.uses, List.find?_map]
  rfl

/-- An argument found before, with the type that it has after one more use of its name. -/
def FoundArgument.retyped (name : String) (type : ArgType) (a : FoundArgument) : FoundArgument :=
  if a.name == name then { a with type } else a

@[simp]
theorem FoundArgument.retyped_name (name : String) (type : ArgType) (a : FoundArgument) :
    (a.retyped name type).name = a.name := by
  rw [retyped]
  split <;> rfl

@[simp]
theorem FoundArgument.retyped_binding (name : String) (type : ArgType) (a : FoundArgument) :
    (a.retyped name type).binding = a.binding := by
  rw [retyped]
  split <;> rfl

theorem State.uses_retyped (s : State) (name : String) (type : ArgType) :
    State.uses { s with arguments := s.arguments.map (·.retyped name type) } =
      s.uses.map fun u => if u.name == name then { u with type } else u := by
  simp only [State.uses, List.map_map]
  refine List.map_congr_left fun a _ => ?_
  simp only [Function.comp, FoundArgument.retyped]
  split <;> rfl

/-- A later use of an argument joins the types. -/
theorem useArgument_refines_of_found {ctx : Context} {outer : List String} {s : State}
    (hs : Sound ctx outer s) {name : String} (type : ArgType) (span : Span) {a : FoundArgument}
    (hfind : s.arguments.find? (·.name == name) = some a) :
    Refines ctx outer s (useArgument ctx name type span) (use name type span s.uses) []
      fun s' v => ∃ a ∈ s'.arguments, a.name = name ∧ a.binding = v.binding := by
  have hmem := List.mem_of_find?_eq_some hfind
  have hname : a.name = name := by simpa using List.find?_some hfind
  cases hjoin : a.type.join? type with
  | none =>
    have hx : (useArgument ctx name type span).exec s =
        (.error (.diagnostic (typeConflict name type span a.type a.span)), s) := by
      rw [useArgument, Step.exec_bind_ok (Step.exec_get s)]
      simp only [hfind, hjoin]
      rfl
    refine .of_error hx (.refl _) hs fun _ => ?_
    simp only [use, find?_uses, hfind, Option.map_some, hjoin]
    rfl
  | some joined =>
    have hx : (useArgument ctx name type span).exec s = (.ok ⟨a.binding, name⟩,
        { s with arguments := s.arguments.map (·.retyped name joined) }) := by
      rw [useArgument, Step.exec_bind_ok (Step.exec_get s)]
      simp only [hfind, hjoin]
      rfl
    refine .of_ok hx ?_ rfl ?_ (hs.retype _ (·.retyped_name name joined)
      (·.retyped_binding name joined)) ?_
    · rw [State.uses_retyped]
      simp only [use, find?_uses, hfind, Option.map_some, hjoin]
    · refine ⟨.refl _, List.prefix_rfl, List.prefix_rfl, List.prefix_rfl, ?_, List.prefix_rfl,
        List.prefix_rfl, fun _ h h' => absurd h h'⟩
      -- only a type changes, and states grow by names and bindings
      have hsame : (s.arguments.map (·.retyped name joined)).map (fun b => (b.name, b.binding)) =
          s.arguments.map fun b => (b.name, b.binding) := by
        rw [List.map_map]
        refine List.map_congr_left fun b _ => ?_
        simp only [Function.comp, FoundArgument.retyped_name, FoundArgument.retyped_binding]
      exact hsame.symm ▸ List.prefix_rfl
    · exact ⟨a.retyped name joined, List.mem_map.mpr ⟨a, hmem, rfl⟩, by simpa using hname,
        a.retyped_binding name joined⟩

/-- The first use of an argument binds it. -/
theorem useArgument_refines_of_new {ctx : Context} {outer : List String} {s : State}
    (hs : Sound ctx outer s) {name : String} (type : ArgType) (span : Span)
    (hfind : s.arguments.find? (·.name == name) = none) :
    Refines ctx outer s (useArgument ctx name type span) (use name type span s.uses) []
      fun s' v => ∃ a ∈ s'.arguments, a.name = name ∧ a.binding = v.binding := by
  have huse : use name type span s.uses = .ok (s.uses ++ [⟨name, type, span⟩]) := by
    simp only [use, find?_uses, hfind, Option.map_none]
  cases hbind : bindName s.table ctx.scope (some name) name.toList .param with
  | error e =>
    have hx : (useArgument ctx name type span).exec s =
        (.error (.diagnostic (.error .duplicateBinding span e.message)), s) := by
      rw [useArgument, Step.exec_bind_ok (Step.exec_get s)]
      simp only [hfind, hbind]
      rfl
    refine .of_error hx (.refl _) hs fun hid => ?_
    -- a scope that exists takes the name
    obtain ⟨r, hr⟩ := bindName_ok (some name) name.toList .param hs.tidy hid
    rw [hbind] at hr
    exact nomatch hr
  | ok r =>
    obtain ⟨table, binding⟩ := r
    obtain ⟨hid, hscope, hroot, hbindable, rfl⟩ := bindName_inv hs.tidy hbind
    have hx : (useArgument ctx name type span).exec s =
        (.ok ⟨binding, name⟩, { s with
          table := s.table.withName ctx.scope binding .param .zero
          arguments := s.arguments ++ [⟨name, binding, type, span⟩] }) := by
      rw [useArgument, Step.exec_bind_ok (Step.exec_get s)]
      simp only [hfind, hbind]
      rfl
    have hnew : name ∉ s.arguments.map (·.name) := by
      intro hmem
      obtain ⟨b, hb, hbn⟩ := List.mem_map.mp hmem
      have hne := List.find?_eq_none.mp hfind b hb
      simp [hbn] at hne
    have hsound := hs.addArgument (a := ⟨name, binding, type, span⟩) hnew hid hscope hroot
      hbindable
    refine .of_ok hx ?_ rfl ?_ hsound ?_
    · rw [huse]
      simp only [State.uses, List.map_append, List.map_cons, List.map_nil]
    · refine ⟨ScopeTable.extends_withName .., List.prefix_rfl, List.prefix_rfl, List.prefix_rfl,
        ?_, List.prefix_rfl, List.prefix_rfl, fun _ h h' => absurd h h'⟩
      rw [List.map_append]
      exact List.prefix_append _ _
    · exact ⟨_, List.mem_append_right _ (List.mem_singleton.mpr rfl), rfl, rfl⟩

/-- An argument is bound on its first use, and later uses join their types. -/
theorem useArgument_refines {ctx : Context} {outer : List String} {s : State}
    (hs : Sound ctx outer s) (name : String) (type : ArgType) (span : Span) :
    Refines ctx outer s (useArgument ctx name type span) (use name type span s.uses) []
      fun s' v => ∃ a ∈ s'.arguments, a.name = name ∧ a.binding = v.binding := by
  cases hfind : s.arguments.find? (·.name == name) with
  | some a => exact useArgument_refines_of_found hs type span hfind
  | none => exact useArgument_refines_of_new hs type span hfind

/-! ### Constants -/

theorem exec_bindConstant {s : State} {id : ScopeId} (base : String) (htaken : s.table.NamesTaken)
    (hid : (s.table.scope? id).isSome = true) :
    (bindConstant id base).exec s = (.ok (s.table.freshName id base.toList), { s with
      table := s.table.withName id (s.table.freshName id base.toList) .constant .zero }) := by
  rw [bindConstant, Step.exec_bind_ok (Step.exec_get s)]
  simp only [ScopeTable.bindFresh_eq base.toList .constant htaken hid]
  rfl

theorem exec_bindConstant_unknown {s : State} {id : ScopeId} (base : String)
    (hid : (s.table.scope? id).isSome = false) :
    ∃ f, (bindConstant id base).exec s = (.error f, s) := by
  rw [bindConstant, Step.exec_bind_ok (Step.exec_get s)]
  cases hbind : s.table.bindFresh id base.toList .constant with
  | ok r =>
    obtain ⟨t, name⟩ := r
    have hsome := (ScopeTable.bindFresh_inv hbind).1
    rw [hid] at hsome
    exact Bool.noConfusion hsome
  | error e => exact ⟨_, rfl⟩

theorem length_shared {ctx : Context} {outer : List String} {s : State} (hs : Sound ctx outer s) :
    s.shared.length = s.constants.length := by
  have h := congrArg List.length hs.aligned
  simpa only [State.constantNames, List.length_map] using h

theorem map_fst_granted {ctx : Context} {outer : List String} {s : State}
    (hs : Sound ctx outer s) : s.granted.map (·.1) = s.shared.map (·.1) := by
  rw [State.granted, List.map_zipWith]
  refine List.ext_getElem ?_ ?_
  · simp only [List.length_zipWith, List.length_map, length_shared hs, Nat.min_self]
  · intro i h₁ h₂
    simp only [List.getElem_zipWith, List.getElem_map]

theorem any_granted {ctx : Context} {outer : List String} {s : State} (hs : Sound ctx outer s)
    (key : SharedKey) :
    s.granted.any (·.1 == key) = (s.shared.find? (·.1 == key)).isSome := by
  have hgranted : s.granted.any (·.1 == key) = (s.granted.map (·.1)).any (· == key) := by
    rw [List.any_map]
    rfl
  have hshared : (s.shared.find? (·.1 == key)).isSome = (s.shared.map (·.1)).any (· == key) := by
    rw [List.isSome_find?, List.any_map]
    rfl
  rw [hgranted, hshared, map_fst_granted hs]

/-- A new constant of the module under a name that nothing uses. -/
theorem Sound.addConstant {ctx : Context} {outer : List String} {s : State}
    (hs : Sound ctx outer s) {key : SharedKey} {n : String} {init : Expr}
    (hkey : key ∉ s.shared.map (·.1)) (hfree : n ∉ s.table.taken)
    (hbind : Name.isBindable n = true) :
    Sound ctx outer { s with
      table := s.table.withName ctx.root n .constant .zero
      constants := s.constants ++ [(n, init)]
      shared := s.shared ++ [(key, n)]
      sharedOrder := s.sharedOrder ++ [key] } := by
  have hid := hs.tidy.rooted.exists_root
  have hext := s.table.extends_withName ctx.root n .constant .zero
  have hscope : n ∉ s.table.bound ctx.scope := fun h => hfree (hs.tidy.taken _ n h)
  have hroot : n ∉ s.table.bound ctx.root := fun h => hfree (hs.tidy.taken _ n h)
  have hnames : State.constantNames { s with
      table := s.table.withName ctx.root n .constant .zero
      constants := s.constants ++ [(n, init)]
      shared := s.shared ++ [(key, n)]
      sharedOrder := s.sharedOrder ++ [key] } = s.constantNames ++ [n] := by
    simp only [State.constantNames, List.map_append, List.map_cons, List.map_nil]
  constructor
  case tidy => exact hs.tidy.withName _ _ _ hid
  case outer_bound => exact fun x hx => hext.bound _ (hs.outer_bound x hx)
  case constants_bound =>
    intro x hx
    rw [hnames] at hx
    rcases List.mem_append.mp hx with hx | hx
    · exact hext.bound _ (hs.constants_bound x hx)
    · rw [ScopeTable.bound_withName_self _ _ _ _ _ hid]
      exact List.mem_append_right _ hx
  case locals_bound => exact fun x hx => hext.bound _ (hs.locals_bound x hx)
  case distinct =>
    have hfree := hs.not_mem_of_not_bound hscope hroot
    have hold := hs.distinct
    rw [hnames]
    simp only [List.append_assoc, List.singleton_append] at hfree hold ⊢
    rw [← List.append_assoc] at hfree hold ⊢
    rw [List.nodup_middle]
    exact List.nodup_cons.mpr ⟨hfree, hold⟩
  case bindable =>
    intro x hx
    rw [hnames, List.append_assoc] at hx
    rcases List.mem_append.mp hx with hx | hx
    · exact hs.bindable x (List.mem_append_left _ hx)
    · rcases List.mem_append.mp hx with hx | hx
      · rw [List.mem_singleton.mp hx]
        exact hbind
      · exact hs.bindable x (List.mem_append_right _ hx)
  case arguments_distinct => exact hs.arguments_distinct
  case aligned =>
    rw [hnames]
    simp only [List.map_append, List.map_cons, List.map_nil, hs.aligned]
  case keys_distinct =>
    rw [List.map_append, List.map_singleton]
    exact List.nodup_append.mpr ⟨hs.keys_distinct, List.nodup_singleton _,
      fun x hx y hy => by rw [List.mem_singleton.mp hy]; rintro rfl; exact hkey hx⟩
  case ordered =>
    rw [hs.ordered, List.map_append, List.map_singleton]
  case body_eq => exact hs.body_eq
  case refers =>
    intro p hp
    -- what is shared goes on to be shared
    have hold := hs.refers p hp
    match p.1, hold with
    | .formatted _ _, ⟨kind, c, hmem⟩ => exact ⟨kind, c, List.mem_append_left _ hmem⟩
    | .offset _ _, hne => exact hne
    | .category _ _, ⟨kind, hmem⟩ => exact ⟨kind, List.mem_append_left _ hmem⟩
  case closed =>
    refine hs.closed.mono ?_
    intro x hx
    rw [hnames]
    simp only [List.mem_append] at hx ⊢
    exact hx.elim Or.inl fun h => Or.inr (Or.inl h)

/-- A shared constant is made for the first request of its key. -/
theorem shareConstant_refines {ctx : Context} {outer : List String} {s : State}
    (hs : Sound ctx outer s) (key : SharedKey) (base : String) (init : Expr) :
    Refines ctx outer s (shareConstant ctx key base init) (.ok s.uses) [(key, init)]
      fun s' name => (key, name) ∈ s'.shared := by
  have hshare : share s.granted [(key, init)] =
      if (s.shared.find? (·.1 == key)).isSome then s.granted else s.granted ++ [(key, init)] := by
    rw [← any_granted hs key]
    rfl
  cases hfind : s.shared.find? (·.1 == key) with
  | some p =>
    have hkey : p.1 = key := by simpa using List.find?_some hfind
    have hx : (shareConstant ctx key base init).exec s = (.ok p.2, s) := by
      rw [shareConstant, Step.exec_bind_ok (Step.exec_get s)]
      simp only [hfind]
      rfl
    refine .of_ok hx rfl ?_ (.refl s) hs ?_
    · rw [hshare, hfind]
      rfl
    · rw [← hkey]
      exact List.mem_of_find?_eq_some hfind
  | none =>
    let n := s.table.freshName ctx.root base.toList
    have hx : (shareConstant ctx key base init).exec s = (.ok n, { s with
        table := s.table.withName ctx.root n .constant .zero
        constants := s.constants ++ [(n, init)]
        shared := s.shared ++ [(key, n)]
        sharedOrder := s.sharedOrder ++ [key] }) := by
      rw [shareConstant, Step.exec_bind_ok (Step.exec_get s)]
      simp only [hfind]
      rw [Step.exec_bind_ok (exec_bindConstant base hs.tidy.taken hs.tidy.rooted.exists_root),
        Step.exec_bind_ok (Step.exec_modify _ _)]
      rfl
    have hkey : key ∉ s.shared.map (·.1) := by
      intro hmem
      obtain ⟨p, hp, hpk⟩ := List.mem_map.mp hmem
      have hne := List.find?_eq_none.mp hfind p hp
      simp [hpk] at hne
    have hfree : n ∉ s.table.taken := s.table.freshName_not_taken ctx.root base.toList
    refine .of_ok hx rfl ?_ ?_
      (hs.addConstant hkey hfree (s.table.freshName_isBindable ctx.root base.toList)) ?_
    · rw [hshare, hfind, State.granted, State.granted, List.zipWith_append (length_shared hs)]
      rfl
    · refine ⟨ScopeTable.extends_withName .., List.prefix_append _ _, List.prefix_append _ _,
        List.prefix_append _ _, List.prefix_rfl, List.prefix_rfl, List.prefix_rfl, ?_⟩
      -- the one name that is new was taken nowhere
      intro x hx hold
      simp only [State.constantNames, List.map_append, List.map_cons, List.map_nil,
        List.mem_append, List.mem_singleton] at hx hold
      rcases hx with hx | rfl
      · exact absurd hx hold
      · exact hfree
    · exact List.mem_append_right _ (List.mem_singleton.mpr rfl)

/-- A new constant of the message, which reads what is bound already. -/
theorem Sound.addDerived {ctx : Context} {outer : List String} {s : State}
    (hs : Sound ctx outer s) {key : LocalKey} {n : String}
    (hid : (s.table.scope? ctx.scope).isSome = true) (hrefers : key.Refers s.shared)
    (hreads : ReadsOnly (s.locals ++ s.constantNames) key.init) (hfree : n ∉ s.table.taken)
    (hbind : Name.isBindable n = true) :
    Sound ctx outer { s with
      table := s.table.withName ctx.scope n .constant .zero
      body := s.body ++ [(n, key.init)]
      derived := s.derived ++ [(key, n)] } := by
  have hext := s.table.extends_withName ctx.scope n .constant .zero
  have hscope : n ∉ s.table.bound ctx.scope := fun h => hfree (hs.tidy.taken _ n h)
  have hroot : n ∉ s.table.bound ctx.root := fun h => hfree (hs.tidy.taken _ n h)
  have hlocals : State.locals { s with
      table := s.table.withName ctx.scope n .constant .zero
      body := s.body ++ [(n, key.init)]
      derived := s.derived ++ [(key, n)] } = s.locals ++ [n] := by
    simp only [State.locals, List.map_append, List.map_cons, List.map_nil, List.append_assoc]
  constructor
  case tidy => exact hs.tidy.withName _ _ _ hid
  case outer_bound => exact fun x hx => hext.bound _ (hs.outer_bound x hx)
  case constants_bound => exact fun x hx => hext.bound _ (hs.constants_bound x hx)
  case locals_bound =>
    intro x hx
    rw [hlocals] at hx
    rcases List.mem_append.mp hx with hx | hx
    · exact hext.bound _ (hs.locals_bound x hx)
    · rw [ScopeTable.bound_withName_self _ _ _ _ _ hid]
      exact List.mem_append_right _ hx
  case distinct =>
    rw [hlocals, ← List.append_assoc]
    refine List.nodup_append.mpr ⟨hs.distinct, List.nodup_singleton n, ?_⟩
    intro x hx y hy
    rw [List.mem_singleton.mp hy]
    rintro rfl
    exact hs.not_mem_of_not_bound hscope hroot hx
  case bindable =>
    intro x hx
    rw [hlocals, ← List.append_assoc] at hx
    rcases List.mem_append.mp hx with hx | hx
    · exact hs.bindable x hx
    · rw [List.mem_singleton.mp hx]
      exact hbind
  case arguments_distinct => exact hs.arguments_distinct
  case aligned => exact hs.aligned
  case keys_distinct => exact hs.keys_distinct
  case ordered => exact hs.ordered
  case body_eq =>
    simp only [List.map_append, List.map_cons, List.map_nil, hs.body_eq]
  case refers =>
    intro p hp
    rcases List.mem_append.mp hp with hp | hp
    · exact hs.refers p hp
    · rw [List.mem_singleton.mp hp]
      exact hrefers
  case closed =>
    refine hs.closed.append (hreads.mono ?_)
    intro x hx
    simp only [State.locals, List.mem_append] at hx ⊢
    tauto

/-- Keys that count as the same are: offsets are told apart as numbers, but zero is none. -/
theorem LocalKey.eq_of_same {shared : List (SharedKey × String)} {k key : LocalKey}
    (h : k.same key = true) (hk : k.Refers shared) : k = key := by
  cases k <;> cases key
  case offset.offset a x b y =>
    simp only [LocalKey.same, Bool.and_eq_true, beq_iff_eq] at h
    rw [h.1, Floats.eq_of_beq h.2 hk]
  case formatted.formatted | category.category =>
    simp only [LocalKey.same, Bool.and_eq_true, beq_iff_eq] at h
    rw [h.1, h.2]
  all_goals simp only [LocalKey.same, Bool.false_eq_true] at h

/-- A message has one constant for each key. -/
theorem deriveConstant_refines {ctx : Context} {outer : List String} {s : State}
    (hs : Sound ctx outer s) {key : LocalKey} (base : String) (hrefers : key.Refers s.shared)
    (hreads : ReadsOnly (s.locals ++ s.constantNames) key.init) :
    Refines ctx outer s (deriveConstant ctx key base) (.ok s.uses) []
      fun s' name => (key, name) ∈ s'.derived := by
  cases hfind : s.derived.find? (·.1.same key) with
  | some p =>
    have hx : (deriveConstant ctx key base).exec s = (.ok p.2, s) := by
      rw [deriveConstant, Step.exec_bind_ok (Step.exec_get s)]
      simp only [hfind]
      rfl
    have hmem := List.mem_of_find?_eq_some hfind
    have hsame : p.1.same key = true := by simpa using List.find?_some hfind
    refine .of_ok hx rfl rfl (.refl s) hs ?_
    -- keys with equal offsets have one offset, as no offset of a key is zero
    rw [← LocalKey.eq_of_same hsame (hs.refers p hmem)]
    exact hmem
  | none =>
    -- only a scope that does not exist refuses a constant
    cases hid : (s.table.scope? ctx.scope).isSome with
    | false =>
      obtain ⟨f, hf⟩ := exec_bindConstant_unknown base hid
      have hx : (deriveConstant ctx key base).exec s = (.error f, s) := by
        rw [deriveConstant, Step.exec_bind_ok (Step.exec_get s)]
        simp only [hfind]
        exact Step.exec_bind_error hf
      refine .of_error hx (.refl _) hs fun hsome => ?_
      rw [hid] at hsome
      exact Bool.noConfusion hsome
    | true =>
      let n := s.table.freshName ctx.scope base.toList
      have hx : (deriveConstant ctx key base).exec s = (.ok n, { s with
          table := s.table.withName ctx.scope n .constant .zero
          body := s.body ++ [(n, key.init)]
          derived := s.derived ++ [(key, n)] }) := by
        rw [deriveConstant, Step.exec_bind_ok (Step.exec_get s)]
        simp only [hfind]
        rw [Step.exec_bind_ok (exec_bindConstant base hs.tidy.taken hid),
          Step.exec_bind_ok (Step.exec_modify _ _)]
        rfl
      refine .of_ok hx rfl rfl ?_ (hs.addDerived hid hrefers hreads
        (s.table.freshName_not_taken _ _) (s.table.freshName_isBindable _ _)) ?_
      · exact ⟨ScopeTable.extends_withName .., List.prefix_rfl, List.prefix_rfl, List.prefix_rfl,
          List.prefix_rfl, List.prefix_append _ _, List.prefix_append _ _, fun _ h h' => absurd h h'⟩
      · exact List.mem_append_right _ (List.mem_singleton.mpr rfl)

end Phrasebook.Compile
