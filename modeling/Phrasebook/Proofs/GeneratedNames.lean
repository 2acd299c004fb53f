import Phrasebook.Proofs.ScopeRuns

/-!
Generated names. In every table that callers can reach, the search for a fresh name ends at the
first candidate that no scope binds, what it finds can be bound, and a run never binds one generated
name twice.
-/
namespace Phrasebook.ScopeTable

variable {t : ScopeTable}

/-! ### Tables that can be reached -/

/-- What the search for fresh names relies on. -/
structure Searchable (t : ScopeTable) : Prop where
  taken : t.TakenBound
  parents : t.ParentsOlder

theorem searchable_empty : empty.Searchable :=
  ⟨orderly_empty.takenBound, orderly_empty.parentsOlder⟩

theorem Searchable.perform (h : t.Searchable) {op : Operation} (hop : t.Permits op) :
    (t.perform op).1.Searchable := by
  rcases perform_shape h.taken.namesTaken hop with
    hsame | ⟨id, name, kind, span, hs, -, hbound⟩ | ⟨kind, parent, span, -, hparent, hnew⟩
  · rw [hsame]
    exact h
  · rw [hbound]
    exact ⟨h.taken.withName name kind span hs, h.parents.withName id name kind span⟩
  · rw [hnew]
    exact ⟨h.taken.newScope kind parent span, h.parents.newScope kind span hparent⟩

theorem Searchable.run (h : t.Searchable) {ops : List Operation} (hops : t.PermitsAll ops) :
    (t.run ops).Searchable := by
  induction ops generalizing t with
  | nil => exact h
  | cons op ops ih => exact ih (h.perform hops.1) hops.2

/-- No operation frees a name. -/
theorem taken_subset_perform (h : t.Searchable) {op : Operation} (hop : t.Permits op) :
    t.taken ⊆ (t.perform op).1.taken := by
  intro x hx
  rcases perform_shape h.taken.namesTaken hop with
    hsame | ⟨id, name, kind, span, -, -, hbound⟩ | ⟨kind, parent, span, -, -, hnew⟩
  · rw [hsame]
    exact hx
  · rw [hbound, mem_taken_withName]
    exact .inl hx
  · rw [hnew, taken_newScope]
    exact hx

/-! ### The searches end -/

/-- Looking a name up goes outwards to older and older scopes, so it ends by itself: no fuel above
the number of the scope changes what it finds. -/
theorem ParentsOlder.lookupWithin_congr (h : t.ParentsOlder) {name : String} {fuel fuel' : Nat}
    {id : ScopeId} (hfuel : (t.scope? id).isSome = true → id < fuel)
    (hfuel' : (t.scope? id).isSome = true → id < fuel') :
    t.lookupWithin name fuel id = t.lookupWithin name fuel' id := by
  have hunknown (fuel : Nat) {id : ScopeId} (hid : t.scope? id = none) :
      t.lookupWithin name fuel id = none := by
    cases fuel with
    | zero => rfl
    | succ fuel => simp only [lookupWithin, hid]
  induction fuel generalizing fuel' id with
  | zero =>
    have hid : t.scope? id = none := by
      rw [← Option.not_isSome_iff_eq_none]
      exact fun hsome => absurd (hfuel hsome) (Nat.not_lt_zero _)
    rw [hunknown 0 hid, hunknown fuel' hid]
  | succ fuel ih =>
    cases hs : t.scope? id with
    | none => rw [hunknown _ hs, hunknown _ hs]
    | some s =>
      have hlt := h id s hs
      have hid := hfuel (by rw [hs]; rfl)
      have hid' := hfuel' (by rw [hs]; rfl)
      obtain ⟨rest, rfl⟩ := Nat.exists_eq_succ_of_ne_zero (Nat.ne_zero_of_lt hid')
      -- the scope outside is older, so its number is below what is left of both fuels
      have houter : t.lookupWithin name fuel s.parent = t.lookupWithin name rest s.parent := by
        apply ih
        · exact fun _ => Nat.lt_of_lt_of_le hlt (Nat.lt_succ_iff.mp hid)
        · exact fun _ => Nat.lt_of_lt_of_le hlt (Nat.lt_succ_iff.mp hid')
      simp only [lookupWithin, hs, houter]

/-- A candidate clashes only with names that some scope binds: no word of the language and no global
name starts with a low line. -/
theorem Searchable.isTaken_candidate_iff (h : t.Searchable) (scope : ScopeId) (base : List Char)
    (i : Nat) :
    t.isTaken scope (candidate ("_" ++ Name.stem base) i) = true ↔
      candidate ("_" ++ Name.stem base) i ∈ t.taken := by
  have hbindable := candidate_isBindable base i
  simp only [Name.isBindable, Bool.and_eq_true, Bool.not_eq_true'] at hbindable
  obtain ⟨⟨-, hreserved⟩, hglobal⟩ := hbindable
  rw [isTaken, Bool.or_eq_true, Bool.or_eq_true, hreserved, List.contains_eq_mem,
    decide_eq_true_eq, h.parents.hasBinding_iff, hglobal]
  constructor
  · rintro ((htaken | hword | ⟨a, -, hmem⟩) | hword)
    · exact htaken
    · exact absurd hword Bool.false_ne_true
    · exact (h.taken _).mpr ⟨a, hmem⟩
    · exact absurd hword Bool.false_ne_true
  · exact fun htaken => .inl (.inl htaken)

/-- Candidates that are all taken are no more than the taken names. -/
theorem le_length_taken {stem : String} {i : Nat}
    (h : ∀ j < i, candidate stem j ∈ t.taken) : i ≤ t.taken.length := by
  have hnodup : ((List.range i).map (candidate stem)).Nodup :=
    List.nodup_range.map (candidate_injective stem)
  have hsub : (List.range i).map (candidate stem) ⊆ t.taken := by
    intro x hx
    obtain ⟨j, hj, rfl⟩ := List.mem_map.mp hx
    exact h j (List.mem_range.mp hj)
  calc
    i = ((List.range i).map (candidate stem)).length := by
      rw [List.length_map, List.length_range]
    _ ≤ t.taken.length := (hnodup.subperm hsub).length_le

/-- The fresh name is the first candidate that is not taken, and there are at most as many before it
as there are taken names. A longer search finds the same. -/
theorem Searchable.freshName_first (h : t.Searchable) (scope : ScopeId) (base : List Char) :
    ∃ i ≤ t.taken.length,
      (∀ fuel > t.taken.length, t.firstFree scope ("_" ++ Name.stem base) fuel 0 =
        candidate ("_" ++ Name.stem base) i) ∧
      t.freshName scope base = candidate ("_" ++ Name.stem base) i ∧
      ∀ j < i, candidate ("_" ++ Name.stem base) j ∈ t.taken := by
  obtain ⟨i, hname, hfree, hbefore⟩ := t.freshName_eq_candidate scope base
  have htaken (j : Nat) (hj : j < i) : candidate ("_" ++ Name.stem base) j ∈ t.taken :=
    (h.isTaken_candidate_iff scope base j).mp (hbefore j hj)
  have hle : i ≤ t.taken.length := le_length_taken htaken
  refine ⟨i, hle, fun fuel hfuel => ?_, hname, htaken⟩
  rw [hname] at hfree
  obtain ⟨j, hj, hjfree, hjbefore⟩ :=
    firstFree_spec fuel 0 ⟨i, Nat.zero_le i, by omega, hfree⟩
  -- two candidates that are both the first free one
  have hij : ¬ i < j := fun hlt => by
    have := hjbefore i (Nat.zero_le i) hlt
    rw [hfree] at this
    exact Bool.false_ne_true this
  have hji : ¬ j < i := fun hlt => by
    have := hbefore j hlt
    rw [hjfree] at this
    exact Bool.false_ne_true this
  obtain rfl : i = j := by omega
  exact hj

/-! ### Runs -/

/-- What binding fresh names returned in a run, in order. -/
def generated (t : ScopeTable) : List Operation → List (Except BindError String)
  | [] => []
  | op :: ops =>
    let rest := (t.perform op).1.generated ops
    match op with
    | .bindFresh scope base kind => (t.bindFresh scope base kind).map (·.2) :: rest
    | _ => rest

/-- Binding a fresh name takes it, and it was not taken before. -/
theorem Searchable.bindFresh_takes (h : t.Searchable) {scope : ScopeId}
    (hs : (t.scope? scope).isSome = true) (base : List Char) (kind : SymbolKind) :
    (t.bindFresh scope base kind).map (·.2) = .ok (t.freshName scope base) ∧
      t.freshName scope base ∈ (t.perform (.bindFresh scope base kind)).1.taken ∧
      t.freshName scope base ∉ t.taken := by
  have hbind := bindFresh_eq base kind h.taken.namesTaken hs
  refine ⟨by rw [hbind]; rfl, ?_, t.freshName_not_taken scope base⟩
  rw [ScopeTable.perform, hbind, mem_taken_withName]
  exact .inr rfl

/-- Every fresh name that a run binds is new: it was not taken before the run, and no other part of
the run binds it. -/
theorem Searchable.generated_eq (h : t.Searchable) {ops : List Operation}
    (hops : t.PermitsAll ops) :
    ∃ names : List String, t.generated ops = names.map .ok ∧ names.Nodup ∧
      ∀ x ∈ names, x ∉ t.taken := by
  induction ops generalizing t with
  | nil => exact ⟨[], rfl, List.nodup_nil, fun x hx => absurd hx List.not_mem_nil⟩
  | cons op ops ih =>
    obtain ⟨hop, hrest⟩ := hops
    obtain ⟨names, hnames, hnodup, hnew⟩ := ih (h.perform hop) hrest
    -- what is taken stays taken, so later names differ from all before them
    have hkept := taken_subset_perform h hop
    have hold : ∀ x ∈ names, x ∉ t.taken := fun x hx htaken => hnew x hx (hkept htaken)
    cases op with
    | bindFresh scope base kind =>
      obtain ⟨hok, htakes, hfresh⟩ := h.bindFresh_takes hop base kind
      refine ⟨t.freshName scope base :: names, ?_, ?_, ?_⟩
      · rw [generated, hok, hnames]
        rfl
      · exact List.nodup_cons.mpr ⟨fun hmem => hnew _ hmem htakes, hnodup⟩
      · intro x hx
        rcases List.mem_cons.mp hx with rfl | hx
        · exact hfresh
        · exact hold x hx
    | newScope | declare | bind | freshName => exact ⟨names, hnames, hnodup, hold⟩

/-- In every table that can be reached, for every scope there is and any bytes, the search for a
fresh name ends. It finds the first of `_stem`, `_stem_1` and so on that no scope binds; this is an
identifier, no reserved word, no global name, and bound nowhere, so that it can be bound. Binding
fresh names never fails, and never gives one name twice. -/
theorem freshNames_of_run (ops : List Operation) (h : empty.PermitsAll ops) :
    let t := empty.run ops
    (∀ scope, (t.scope? scope).isSome = true → ∀ (base : Bytes) (kind : SymbolKind),
      let stem := "_" ++ Name.stem (Utf8.shown base)
      let name := t.freshName scope (Utf8.shown base)
      (∃ i ≤ t.taken.length, name = candidate stem i ∧
        (∀ fuel > t.taken.length, t.firstFree scope stem fuel 0 = name) ∧
        ∀ j < i, ∃ id, candidate stem j ∈ t.bound id) ∧
      (∀ fuel > t.scopes.length, ∀ x, t.lookupWithin x fuel scope = t.lookup? scope x) ∧
      (∀ id, name ∉ t.bound id) ∧
      Name.isIdentifier name = true ∧ Name.isReserved name = false ∧
      Name.isGlobal name = false ∧
      t.bindFresh scope (Utf8.shown base) kind = .ok (t.withName scope name kind .zero, name)) ∧
    ∃ names : List String, empty.generated ops = names.map .ok ∧ names.Nodup := by
  intro t
  have hsearch : t.Searchable := searchable_empty.run h
  constructor
  · intro scope hs base kind stem name
    -- there are more candidates than names, so one of them is free
    obtain ⟨i, hi, hlonger, hname, hbefore⟩ := hsearch.freshName_first scope (Utf8.shown base)
    have hbindable : Name.isBindable name = true := t.freshName_isBindable scope _
    simp only [Name.isBindable, Bool.and_eq_true, Bool.not_eq_true'] at hbindable
    obtain ⟨⟨hidentifier, hreserved⟩, hglobal⟩ := hbindable
    refine ⟨⟨i, hi, hname, ?_, ?_⟩, ?_, ?_, hidentifier, hreserved, hglobal, ?_⟩
    · intro fuel hfuel
      exact (hlonger fuel hfuel).trans hname.symm
    · intro j hj
      exact (hsearch.taken _).mp (hbefore j hj)
    · intro fuel hfuel x
      have hlast := le_length_scopes hs
      apply hsearch.parents.lookupWithin_congr
      · exact fun _ => Nat.lt_of_le_of_lt hlast hfuel
      · exact fun _ => Nat.lt_succ_of_le hlast
    · intro id hmem
      exact t.freshName_not_taken scope _ ((hsearch.taken _).mpr ⟨id, hmem⟩)
    · exact bindFresh_eq _ kind hsearch.taken.namesTaken hs
  · obtain ⟨names, hnames, hnodup, -⟩ := searchable_empty.generated_eq h
    exact ⟨names, hnames, hnodup⟩

/-- Names of two stems that meet: the second `n`, and the first `n_1`. -/
def meetingStems : List Operation := [
  .newScope .module 0 .zero, .newScope .message 1 .zero, .bindFresh 2 "n".toList .constant,
  .bindFresh 1 "n".toList .constant, .bindFresh 2 "__n--1 ".toList .constant,
  .bindFresh 1 [] .constant]

theorem freshNames_of_run_meetingStems :
    empty.PermitsAll meetingStems ∧
      empty.generated meetingStems = ["_n", "_n_1", "_n_1_1", "_ref"].map .ok ∧
      ∀ id, (empty.run meetingStems).freshName 1 (Utf8.shown [0x6E, 0xFF, 0x31]) ∉
        (empty.run meetingStems).bound id := by
  have hallowed : empty.AllowsAll meetingStems := by decide +kernel
  obtain ⟨hnames, -⟩ := freshNames_of_run meetingStems hallowed.permitsAll
  have hscope : ((empty.run meetingStems).scope? 1).isSome = true := by decide +kernel
  refine ⟨hallowed.permitsAll, by decide +kernel, ?_⟩
  exact (hnames 1 hscope [0x6E, 0xFF, 0x31] .constant).2.2.1

end Phrasebook.ScopeTable
