import Phrasebook.Proofs.Trees
import Phrasebook.Proofs.WellFormed

/-!
Trees in which everything counts. The branches of a choice have distinct keys, so none hides another
one, and tags that close themselves enclose nothing. Trees that were read are such trees, and the
offsets in them are finite.
-/
namespace Phrasebook

/-! ### Branches -/

section Branches

variable {α : Type} {cases : List (Branch α)} {b : Branch α}

theorem mem_keptCases {seen : List String} (hdistinct : (cases.map (·.key)).Nodup)
    (hseen : ∀ c ∈ cases, c.key ∉ seen) (hb : b ∈ cases) (hkey : b.key ≠ defaultKey) :
    b ∈ keptCases seen cases := by
  induction cases generalizing seen with
  | nil => exact absurd hb List.not_mem_nil
  | cons c r ih =>
    rw [List.map_cons, List.nodup_cons] at hdistinct
    obtain ⟨hnew, hdistinct⟩ := hdistinct
    have hc := hseen c List.mem_cons_self
    have hrest : ∀ d ∈ r, d.key ∉ seen := fun d hd => hseen d (List.mem_cons_of_mem _ hd)
    rw [keptCases]
    split
    · rename_i hskipped
      -- a branch is skipped for its key, and this one has another
      rcases List.mem_cons.mp hb with rfl | hb
      · have hmem : b.key ∈ seen := by
          simpa [hkey] using hskipped
        exact absurd hmem hc
      · exact ih hdistinct hrest hb
    · rcases List.mem_cons.mp hb with rfl | hb
      · exact List.mem_cons_self
      · refine List.mem_cons_of_mem _ (ih hdistinct (fun d hd => ?_) hb)
        intro hmem
        rcases List.mem_cons.mp hmem with hsame | hmem
        · exact hnew (hsame ▸ List.mem_map_of_mem hd)
        · exact hrest d hd hmem

theorem fallbackBody_eq (hdistinct : (cases.map (·.key)).Nodup) (hb : b ∈ cases)
    (hkey : b.key = defaultKey) : fallbackBody cases = b.body := by
  induction cases with
  | nil => exact absurd hb List.not_mem_nil
  | cons c r ih =>
    rw [List.map_cons, List.nodup_cons] at hdistinct
    rw [fallbackBody]
    rcases List.mem_cons.mp hb with rfl | hb
    · rw [if_pos hkey]
    · have hc : c.key ≠ defaultKey := by
        intro hdefault
        apply hdistinct.1
        rw [hdefault, ← hkey]
        exact List.mem_map_of_mem hb
      rw [if_neg hc]
      exact ih hdistinct.2 hb

/-- Every branch is kept or is the default. -/
theorem mem_body_iff (hdistinct : (cases.map (·.key)).Nodup) {x : α} :
    (∃ b ∈ cases, x ∈ b.body) ↔
      (∃ b ∈ keptCases [] cases, x ∈ b.body) ∨ x ∈ fallbackBody cases := by
  constructor
  · rintro ⟨b, hb, hx⟩
    by_cases hkey : b.key = defaultKey
    · right
      rw [fallbackBody_eq hdistinct hb hkey]
      exact hx
    · exact .inl ⟨b, mem_keptCases hdistinct (fun _ _ => List.not_mem_nil) hb hkey, hx⟩
  · rintro (⟨b, hb, hx⟩ | hx)
    · exact ⟨b, mem_of_mem_keptCases hb, hx⟩
    · exact exists_of_mem_fallbackBody hx

end Branches

/-! ### Trees -/

/-- All that is in an element counts. -/
def Node.Clear : Node → Prop
  | .select _ _ _ cases | .plural _ _ _ _ _ cases => (cases.map (·.key)).Nodup
  | .tag _ _ _ selfClosing children => selfClosing = true → children = []
  | .literal .. | .argument .. | .format .. | .pound _ | .unknown _ | .hole => True

theorem Node.WellFormed.clear {inPlural : Bool} {n : Node} (h : n.WellFormed inPlural) :
    n.All Node.Clear := by
  induction h with
  | select _ hcases _ ih => exact .select hcases.distinct ih
  | plural _ _ _ hcases _ ih => exact .plural hcases.distinct ih
  | tag _ hclosed _ _ ih => exact .tag hclosed ih
  | literal | argument | format | pound =>
    refine .leaf trivial fun m hm => ?_
    cases hm
    rfl

/-- The offset of a plural is a finite number. -/
def Node.Finite : Node → Prop
  | .plural _ _ _ offset _ _ => offset.isFinite = true
  | .literal .. | .argument .. | .select .. | .format .. | .pound _ | .tag .. | .unknown _
  | .hole => True

theorem Node.WellFormed.finite {inPlural : Bool} {n : Node} (h : n.WellFormed inPlural) :
    n.All Node.Finite := by
  induction h with
  | select _ _ _ ih => exact .select trivial ih
  | plural _ hfinite _ _ _ ih => exact .plural hfinite ih
  | tag _ _ _ _ ih => exact .tag trivial ih
  | literal | argument | format | pound =>
    refine .leaf trivial fun m hm => ?_
    cases hm
    rfl

/-- The number of a selector is finite. -/
theorem IsPluralKey.isFinite {key : String} (h : IsPluralKey key) {y : Float}
    (hy : exactValue? key = some y) : y.isFinite = true := by
  rcases h with hcategory | ⟨_, x, -, -, hx, hfinite⟩
  · have hnone : ∀ k ∈ pluralCategories, (exactValue? k).isSome = false := by decide
    have hkey := hnone key hcategory
    rw [hy] at hkey
    exact Bool.noConfusion hkey
  · rw [hx] at hy
    exact Option.some.inj hy ▸ hfinite

/-- The selectors of a plural are categories and finite numbers. -/
def Node.Keyed : Node → Prop
  | .plural _ _ _ _ _ cases => ∀ b ∈ cases, IsPluralKey b.key
  | .literal .. | .argument .. | .select .. | .format .. | .pound _ | .tag .. | .unknown _
  | .hole => True

theorem Node.WellFormed.keyed {inPlural : Bool} {n : Node} (h : n.WellFormed inPlural) :
    n.All Node.Keyed := by
  induction h with
  | select _ _ _ ih => exact .select trivial ih
  | plural _ _ _ hcases _ ih => exact .plural hcases.key ih
  | tag _ _ _ _ ih => exact .tag trivial ih
  | literal | argument | format | pound =>
    refine .leaf trivial fun m hm => ?_
    cases hm
    rfl

namespace Message

variable {file : UInt32} {limit : Nat} {content : Bytes} {ns : List Node}

/-- What holds of well-formed elements holds of those that were read. -/
theorem forall_of_parse {P : Node → Prop} (hP : ∀ n : Node, n.WellFormed false → P n)
    (h : parse file limit content = .ok ns) : ∀ n ∈ ns, P n := by
  obtain ⟨-, cs, -, hchars⟩ := parse_eq_ok_iff.mp h
  obtain ⟨c', -, hread⟩ := parseChars_eq_ok_iff.mp hchars
  exact fun n hn => hP n ((formed_readNodes _ _ _ _ _ _ hread).2 n hn)

theorem clear_of_parse (h : parse file limit content = .ok ns) : ∀ n ∈ ns, n.All Node.Clear :=
  forall_of_parse (fun _ => Node.WellFormed.clear) h

theorem finite_of_parse (h : parse file limit content = .ok ns) : ∀ n ∈ ns, n.All Node.Finite :=
  forall_of_parse (fun _ => Node.WellFormed.finite) h

theorem keyed_of_parse (h : parse file limit content = .ok ns) : ∀ n ∈ ns, n.All Node.Keyed :=
  forall_of_parse (fun _ => Node.WellFormed.keyed) h

end Message

end Phrasebook
