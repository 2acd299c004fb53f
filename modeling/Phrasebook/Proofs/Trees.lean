import Phrasebook.Message.Node

/-!
Message trees as proofs see them: an induction principle that passes through the branches of
choices, what lies within an element, and the branches of a choice that count.
-/
namespace Phrasebook

namespace Node

/-- A property that passes from the elements right below an element to the element. -/
structure Hereditary (P : Node → Prop) : Prop where
  literal : ∀ span text, P (.literal span text)
  argument : ∀ span name nameSpan, P (.argument span name nameSpan)
  select : ∀ span name nameSpan cases, (∀ b ∈ cases, ∀ n ∈ b.body, P n) →
    P (.select span name nameSpan cases)
  plural : ∀ span name nameSpan offset kind cases, (∀ b ∈ cases, ∀ n ∈ b.body, P n) →
    P (.plural span name nameSpan offset kind cases)
  format : ∀ span kind name nameSpan style, P (.format span kind name nameSpan style)
  pound : ∀ span, P (.pound span)
  tag : ∀ span name nameSpan selfClosing children, (∀ n ∈ children, P n) →
    P (.tag span name nameSpan selfClosing children)
  unknown : ∀ span, P (.unknown span)
  hole : P .hole

namespace Hereditary

mutual

theorem holds {P : Node → Prop} (h : Hereditary P) : ∀ n, P n
  | .literal span text => h.literal span text
  | .argument span name nameSpan => h.argument span name nameSpan
  | .select span name nameSpan cases => h.select span name nameSpan cases (h.holds_branches cases)
  | .plural span name nameSpan offset kind cases =>
    h.plural span name nameSpan offset kind cases (h.holds_branches cases)
  | .format span kind name nameSpan style => h.format span kind name nameSpan style
  | .pound span => h.pound span
  | .tag span name nameSpan selfClosing children =>
    h.tag span name nameSpan selfClosing children (h.holds_list children)
  | .unknown span => h.unknown span
  | .hole => h.hole

theorem holds_list {P : Node → Prop} (h : Hereditary P) : ∀ ns : List Node, ∀ n ∈ ns, P n
  | [] => fun _ hn => nomatch hn
  | m :: r => fun n hn =>
    (List.mem_cons.mp hn).elim (fun e => e ▸ h.holds m) (h.holds_list r n)

theorem holds_branches {P : Node → Prop} (h : Hereditary P) :
    ∀ bs : List (Branch Node), ∀ b ∈ bs, ∀ n ∈ b.body, P n
  | [] => fun _ hb => nomatch hb
  | c :: r => fun b hb =>
    (List.mem_cons.mp hb).elim (fun e => e ▸ h.holds_branch c) (h.holds_branches r b)

theorem holds_branch {P : Node → Prop} (h : Hereditary P) : ∀ b : Branch Node, ∀ n ∈ b.body, P n
  | ⟨_, _, _, body⟩ => h.holds_list body

end

end Hereditary

/-- The element `m` is the second one or lies somewhere in it. -/
inductive Within (m : Node) : Node → Prop where
  | refl : Within m m
  | select {span name nameSpan cases b n} : b ∈ cases → n ∈ b.body → Within m n →
      Within m (.select span name nameSpan cases)
  | plural {span name nameSpan offset kind cases b n} : b ∈ cases → n ∈ b.body → Within m n →
      Within m (.plural span name nameSpan offset kind cases)
  | tag {span name nameSpan selfClosing children n} : n ∈ children → Within m n →
      Within m (.tag span name nameSpan selfClosing children)

section Within

variable {p : Node → Prop} {span nameSpan : Span} {name : String}

/-- In an element with nothing in it there is only the element. -/
theorem exists_within_leaf {n : Node} (hleaf : ∀ m, Within m n → m = n) :
    (∃ m, Within m n ∧ p m) ↔ p n := by
  constructor
  · rintro ⟨m, hm, hp⟩
    rw [← hleaf m hm]
    exact hp
  · exact fun hp => ⟨n, .refl, hp⟩

theorem exists_within_select {cases : List (Branch Node)} :
    (∃ m, Within m (.select span name nameSpan cases) ∧ p m) ↔
      p (.select span name nameSpan cases) ∨
        ∃ b ∈ cases, ∃ n ∈ b.body, ∃ m, Within m n ∧ p m := by
  constructor
  · rintro ⟨m, hm, hp⟩
    cases hm with
    | refl => exact .inl hp
    | select hb hn hm => exact .inr ⟨_, hb, _, hn, m, hm, hp⟩
  · rintro (hp | ⟨b, hb, n, hn, m, hm, hp⟩)
    · exact ⟨_, .refl, hp⟩
    · exact ⟨m, .select hb hn hm, hp⟩

theorem exists_within_plural {offset : Float} {kind : PluralKind} {cases : List (Branch Node)} :
    (∃ m, Within m (.plural span name nameSpan offset kind cases) ∧ p m) ↔
      p (.plural span name nameSpan offset kind cases) ∨
        ∃ b ∈ cases, ∃ n ∈ b.body, ∃ m, Within m n ∧ p m := by
  constructor
  · rintro ⟨m, hm, hp⟩
    cases hm with
    | refl => exact .inl hp
    | plural hb hn hm => exact .inr ⟨_, hb, _, hn, m, hm, hp⟩
  · rintro (hp | ⟨b, hb, n, hn, m, hm, hp⟩)
    · exact ⟨_, .refl, hp⟩
    · exact ⟨m, .plural hb hn hm, hp⟩

theorem exists_within_tag {selfClosing : Bool} {children : List Node} :
    (∃ m, Within m (.tag span name nameSpan selfClosing children) ∧ p m) ↔
      p (.tag span name nameSpan selfClosing children) ∨
        ∃ n ∈ children, ∃ m, Within m n ∧ p m := by
  constructor
  · rintro ⟨m, hm, hp⟩
    cases hm with
    | refl => exact .inl hp
    | tag hn hm => exact .inr ⟨_, hn, m, hm, hp⟩
  · rintro (hp | ⟨n, hn, m, hm, hp⟩)
    · exact ⟨_, .refl, hp⟩
    · exact ⟨m, .tag hn hm, hp⟩

end Within

/-- A property of an element and of everything in it. -/
def All (p : Node → Prop) (n : Node) : Prop :=
  ∀ m, Within m n → p m

namespace All

variable {p q : Node → Prop}

theorem self {n : Node} (h : n.All p) : p n :=
  h n .refl

theorem imp {n : Node} (h : n.All p) (hpq : ∀ m, p m → q m) : n.All q :=
  fun m hm => hpq m (h m hm)

/-- What holds of an element with nothing in it holds of all in it. -/
theorem leaf {n : Node} (hn : p n) (hleaf : ∀ m, Within m n → m = n) : n.All p := by
  intro m hm
  rw [hleaf m hm]
  exact hn

theorem of_select {span nameSpan : Span} {name : String} {cases : List (Branch Node)}
    (h : (Node.select span name nameSpan cases).All p) :
    ∀ b ∈ cases, ∀ n ∈ b.body, n.All p :=
  fun _ hb _ hn m hm => h m (.select hb hn hm)

theorem of_plural {span nameSpan : Span} {name : String} {offset : Float} {kind : PluralKind}
    {cases : List (Branch Node)} (h : (Node.plural span name nameSpan offset kind cases).All p) :
    ∀ b ∈ cases, ∀ n ∈ b.body, n.All p :=
  fun _ hb _ hn m hm => h m (.plural hb hn hm)

theorem of_tag {span nameSpan : Span} {name : String} {selfClosing : Bool} {children : List Node}
    (h : (Node.tag span name nameSpan selfClosing children).All p) : ∀ n ∈ children, n.All p :=
  fun _ hn m hm => h m (.tag hn hm)

theorem select {span nameSpan : Span} {name : String} {cases : List (Branch Node)}
    (hp : p (.select span name nameSpan cases)) (h : ∀ b ∈ cases, ∀ n ∈ b.body, n.All p) :
    (Node.select span name nameSpan cases).All p := by
  intro m hm
  cases hm with
  | refl => exact hp
  | select hb hn hm => exact h _ hb _ hn m hm

theorem plural {span nameSpan : Span} {name : String} {offset : Float} {kind : PluralKind}
    {cases : List (Branch Node)} (hp : p (.plural span name nameSpan offset kind cases))
    (h : ∀ b ∈ cases, ∀ n ∈ b.body, n.All p) :
    (Node.plural span name nameSpan offset kind cases).All p := by
  intro m hm
  cases hm with
  | refl => exact hp
  | plural hb hn hm => exact h _ hb _ hn m hm

theorem tag {span nameSpan : Span} {name : String} {selfClosing : Bool} {children : List Node}
    (hp : p (.tag span name nameSpan selfClosing children)) (h : ∀ n ∈ children, n.All p) :
    (Node.tag span name nameSpan selfClosing children).All p := by
  intro m hm
  cases hm with
  | refl => exact hp
  | tag hn hm => exact h _ hn m hm

end All

end Node

/-! ### Branches -/

/-- A branch with other things in its body. -/
def Branch.mapBody {α β : Type} (f : α → β) (b : Branch α) : Branch β :=
  ⟨b.key, b.keySpan, b.span, b.body.map f⟩

/-- The branches of a choice besides the default; of two with one key the first counts. -/
def keptCases {α : Type} : List String → List (Branch α) → List (Branch α)
  | _, [] => []
  | seen, b :: r =>
    if b.key = defaultKey || seen.contains b.key then keptCases seen r
    else b :: keptCases (b.key :: seen) r

/-- What stands in the first default branch. -/
def fallbackBody {α : Type} : List (Branch α) → List α
  | [] => []
  | b :: r => if b.key = defaultKey then b.body else fallbackBody r

section Branches

variable {α β : Type}

/-- Which branches count depends on their keys only. -/
theorem keptCases_map_of_key {g : Branch α → Branch β} (hkey : ∀ b, (g b).key = b.key)
    (seen : List String) (cases : List (Branch α)) :
    keptCases seen (cases.map g) = (keptCases seen cases).map g := by
  induction cases generalizing seen with
  | nil => rfl
  | cons b r ih =>
    simp only [List.map_cons, keptCases, hkey] at ih ⊢
    split
    · exact ih seen
    · rw [ih, List.map_cons]

theorem fallbackBody_map_of_key {g : Branch α → Branch β} {f : α → β}
    (hkey : ∀ b, (g b).key = b.key) (hbody : ∀ b, (g b).body = b.body.map f)
    (cases : List (Branch α)) :
    fallbackBody (cases.map g) = (fallbackBody cases).map f := by
  induction cases with
  | nil => rfl
  | cons b r ih =>
    simp only [List.map_cons, fallbackBody, hkey] at ih ⊢
    split
    · exact hbody b
    · exact ih

variable (f : α → β)

theorem keptCases_map (seen : List String) (cases : List (Branch α)) :
    keptCases seen (cases.map (·.mapBody f)) = (keptCases seen cases).map (·.mapBody f) := by
  apply keptCases_map_of_key
  exact fun _ => rfl

theorem fallbackBody_map (cases : List (Branch α)) :
    fallbackBody (cases.map (·.mapBody f)) = (fallbackBody cases).map f := by
  apply fallbackBody_map_of_key
  · exact fun _ => rfl
  · exact fun _ => rfl

variable {f}

theorem mem_of_mem_keptCases {b : Branch α} {seen : List String} {cases : List (Branch α)}
    (h : b ∈ keptCases seen cases) : b ∈ cases := by
  induction cases generalizing seen with
  | nil => exact h
  | cons c r ih =>
    rw [keptCases] at h
    split at h
    · exact List.mem_cons_of_mem _ (ih h)
    · rcases List.mem_cons.mp h with rfl | h
      · exact List.mem_cons_self
      · exact List.mem_cons_of_mem _ (ih h)

theorem exists_of_mem_fallbackBody {x : α} {cases : List (Branch α)} (h : x ∈ fallbackBody cases) :
    ∃ b ∈ cases, x ∈ b.body := by
  induction cases with
  | nil => exact absurd h List.not_mem_nil
  | cons c r ih =>
    rw [fallbackBody] at h
    split at h
    · exact ⟨c, List.mem_cons_self, h⟩
    · obtain ⟨b, hb, hx⟩ := ih h
      exact ⟨b, List.mem_cons_of_mem _ hb, hx⟩

end Branches

end Phrasebook
