import Mathlib
import Phrasebook.Scope.Table

/-!
Fresh names: they can always be bound, and they clash with nothing. Only finitely many names are
taken while candidates go on for ever, so the search for a free one ends before its bound.
-/
namespace Phrasebook

namespace Name

theorem isPart_low_line : isPart '_' = true := by
  simp only [isPart, isStart, beq_self_eq_true, Bool.true_or]

theorem isPart_of_isDigit {c : Char} (hc : c.isDigit = true) : isPart c = true := by
  have hlt : c.toNat < 128 := by
    simp only [Char.isDigit, Bool.and_eq_true, decide_eq_true_eq] at hc
    have h : c.val.toNat ≤ (57 : UInt32).toNat := UInt32.le_iff_toNat_le.mp hc.2
    have h57 : (57 : UInt32).toNat = 57 := rfl
    have : c.toNat ≤ 57 := by rw [← h57]; exact h
    omega
  simp only [isPart, Text.isDecimalDigit, hlt, if_true, hc, Bool.or_true, Bool.true_or]

theorem isPart_of_mem_collapse (cs : List Char) (b : Bool) :
    ∀ c ∈ collapse b cs, isPart c = true := by
  induction cs generalizing b with
  | nil => intro c hc; simp only [collapse, List.not_mem_nil] at hc
  | cons x r ih =>
    intro c hc
    rw [collapse] at hc
    split at hc
    · split at hc
      · exact ih true c hc
      · rcases List.mem_cons.mp hc with rfl | hr
        · exact isPart_low_line
        · exact ih true c hr
    · rename_i hx
      rcases List.mem_cons.mp hc with rfl | hr
      · simp only [Bool.or_eq_true, not_or, Bool.not_eq_true', Bool.not_eq_true] at hx
        simpa using hx.1
      · exact ih false c hr

theorem mem_of_mem_trim {p : Char → Bool} {cs : List Char} {c : Char}
    (hc : c ∈ Text.trim p cs) : c ∈ cs := by
  simp only [Text.trim, Text.trimRight, Text.trimLeft, List.mem_reverse] at hc
  have h := (List.dropWhile_sublist p).subset hc
  exact (List.dropWhile_sublist p).subset (List.mem_reverse.mp h)

theorem isPart_of_mem_stem (base : List Char) : ∀ c ∈ (stem base).toList, isPart c = true := by
  intro c hc
  rw [stem] at hc
  split at hc
  · have href : "ref".toList.all isPart = true := by decide
    exact List.all_eq_true.mp href c hc
  · rw [String.toList_ofList] at hc
    exact isPart_of_mem_collapse base false c (mem_of_mem_trim hc)

theorem mem_of_mem_collapse {c : Char} (cs : List Char) (b : Bool) (hc : c ∈ collapse b cs) :
    c = '_' ∨ c ∈ cs := by
  induction cs generalizing b with
  | nil => simp only [collapse, List.not_mem_nil] at hc
  | cons x r ih =>
    rw [collapse] at hc
    split at hc
    · split at hc
      · exact (ih true hc).imp_right (List.mem_cons_of_mem x)
      · rcases List.mem_cons.mp hc with rfl | hr
        · exact .inl rfl
        · exact (ih true hr).imp_right (List.mem_cons_of_mem x)
    · rcases List.mem_cons.mp hc with rfl | hr
      · exact .inr List.mem_cons_self
      · exact (ih false hr).imp_right (List.mem_cons_of_mem x)

/-- A stem is made of characters of its base, and of low lines; or it is a word of its own. -/
theorem mem_of_mem_stem {c : Char} {base : List Char} (hc : c ∈ (stem base).toList) :
    c ∈ "_ref".toList ∨ c ∈ base := by
  rw [stem] at hc
  split at hc
  · exact .inl (List.mem_cons_of_mem '_' hc)
  · rw [String.toList_ofList] at hc
    refine (mem_of_mem_collapse base false (mem_of_mem_trim hc)).imp_left ?_
    rintro rfl
    exact List.mem_cons_self

/-- Behind a low line any run of identifier characters may stand. -/
theorem isBindable_of_low_line {s : String} {r : List Char} (hs : s.toList = '_' :: r)
    (hr : ∀ c ∈ r, isPart c = true) : isBindable s = true := by
  have hid : isIdentifier s = true := by
    simp only [isIdentifier, hs, Bool.and_eq_true, List.all_eq_true]
    exact ⟨rfl, hr⟩
  have hhead : s.toList.head? = some '_' := by rw [hs]; rfl
  -- no word of the language starts with a low line
  have hres : isReserved s = false := by
    have hall : ∀ w ∈ reserved, w.toList.head? ≠ some '_' := by decide
    have hmem : s ∉ reserved := fun h => hall s h hhead
    simpa only [isReserved, List.contains_eq_mem, decide_eq_false_iff_not] using hmem
  have hglob : isGlobal s = false := by
    have hall : ∀ w ∈ globals, w.toList.head? ≠ some '_' := by decide
    have hmem : s ∉ globals := fun h => hall s h hhead
    simpa only [isGlobal, List.contains_eq_mem, decide_eq_false_iff_not] using hmem
  simp only [isBindable, hid, hres, hglob, Bool.not_false, Bool.and_self]

end Name

namespace ScopeTable

theorem toList_candidate_succ (stem : String) (i : Nat) :
    (candidate stem (i + 1)).toList = stem.toList ++ '_' :: Nat.toDigits 10 (i + 1) := by
  rw [candidate, if_neg (Nat.succ_ne_zero i)]
  simp only [String.toList_append, Nat.toString_eq_repr, Nat.toList_repr, List.append_assoc]
  rfl

theorem candidate_injective (stem : String) : Function.Injective (candidate stem) := by
  have hlen (i : Nat) : (candidate stem (i + 1)).toList ≠ (candidate stem 0).toList := by
    rw [toList_candidate_succ]
    intro h
    have := congrArg List.length h
    simp only [candidate, if_true, List.length_append, List.length_cons] at this
    omega
  intro i j hij
  have hl := congrArg String.toList hij
  cases i with
  | zero =>
    cases j with
    | zero => rfl
    | succ j => exact absurd hl.symm (hlen j)
  | succ i =>
    cases j with
    | zero => exact absurd hl (hlen i)
    | succ j =>
      rw [toList_candidate_succ, toList_candidate_succ] at hl
      have hd := (List.cons.inj (List.append_cancel_left hl)).2
      have hn := congrArg (fun ds => Nat.ofDigitChars 10 ds 0) hd
      simpa only [Nat.ofDigitChars_ten_toDigits] using hn

/-- Every name a candidate could clash with. -/
def clashing (t : ScopeTable) : List String :=
  t.taken ++ (t.scopes.flatMap fun s => s.names.map (·.1)) ++ Name.globals ++ Name.reserved

theorem length_clashing (t : ScopeTable) : t.clashing.length + 1 = t.candidateBound := by
  have hsum : (t.scopes.flatMap fun s => s.names.map (·.1)).length =
      (t.scopes.map (·.names.length)).foldr (· + ·) 0 := by
    induction t.scopes with
    | nil => rfl
    | cons s r ih =>
      simp only [List.flatMap_cons, List.length_append, List.length_map, List.map_cons,
        List.foldr_cons, ih]
  simp only [clashing, candidateBound, List.length_append, hsum]

theorem scope?_mem {t : ScopeTable} {id : ScopeId} {s : Scope} (h : t.scope? id = some s) :
    s ∈ t.scopes := by
  obtain ⟨i, _, hi⟩ := Option.bind_eq_some_iff.mp h
  exact List.mem_of_getElem? hi

theorem mem_names_of_find? {s : Scope} {name : String} (h : (s.find? name).isSome = true) :
    name ∈ s.names.map (·.1) := by
  obtain ⟨id, hid⟩ := Option.isSome_iff_exists.mp h
  obtain ⟨p, hp, _⟩ := Option.map_eq_some_iff.mp hid
  have hkey : p.1 = name := by simpa using List.find?_some hp
  exact List.mem_map.mpr ⟨p, List.mem_of_find?_eq_some hp, hkey⟩

theorem mem_scopes_of_lookupWithin {t : ScopeTable} {name : String} :
    ∀ (fuel : Nat) (id : ScopeId), (t.lookupWithin name fuel id).isSome = true →
      name ∈ t.scopes.flatMap fun s => s.names.map (·.1) := by
  intro fuel
  induction fuel with
  | zero => intro id h; simp [lookupWithin] at h
  | succ fuel ih =>
    intro id h
    rw [lookupWithin] at h
    split at h
    · simp at h
    · rename_i s hs
      split at h
      · rename_i found hf
        refine List.mem_flatMap.mpr ⟨s, scope?_mem hs, mem_names_of_find? ?_⟩
        rw [hf]; rfl
      · exact ih s.parent h

theorem mem_clashing_of_isTaken {t : ScopeTable} {scope : ScopeId} {name : String}
    (h : t.isTaken scope name = true) : name ∈ t.clashing := by
  simp only [isTaken, hasBinding, Bool.or_eq_true, List.contains_eq_mem, decide_eq_true_eq,
    Name.isGlobal, Name.isReserved] at h
  simp only [clashing, List.mem_append]
  rcases h with (h | h | h) | h
  · exact Or.inl (Or.inl (Or.inl h))
  · exact Or.inl (Or.inr h)
  · exact Or.inl (Or.inl (Or.inr (mem_scopes_of_lookupWithin _ _ h)))
  · exact Or.inr h

/-- More candidates than clashing names: one of them is free. -/
theorem exists_free_candidate (t : ScopeTable) (scope : ScopeId) (stem : String) :
    ∃ i < t.candidateBound, t.isTaken scope (candidate stem i) = false := by
  by_contra hno
  have hall : ∀ i < t.candidateBound, t.isTaken scope (candidate stem i) = true := by
    intro i hi
    by_contra hf
    exact hno ⟨i, hi, by simpa using hf⟩
  have hnodup : ((List.range t.candidateBound).map (candidate stem)).Nodup :=
    List.nodup_range.map (candidate_injective stem)
  have hsub : (List.range t.candidateBound).map (candidate stem) ⊆ t.clashing := by
    intro x hx
    obtain ⟨i, hi, rfl⟩ := List.mem_map.mp hx
    exact mem_clashing_of_isTaken (hall i (List.mem_range.mp hi))
  have hle := (hnodup.subperm hsub).length_le
  rw [List.length_map, List.length_range, ← length_clashing] at hle
  omega

/-- The search finds the first free candidate at or behind `i`, if one is within its fuel. -/
theorem firstFree_spec {t : ScopeTable} {scope : ScopeId} {stem : String} :
    ∀ (fuel i : Nat), (∃ j, i ≤ j ∧ j < i + fuel ∧ t.isTaken scope (candidate stem j) = false) →
      ∃ j, t.firstFree scope stem fuel i = candidate stem j ∧
        t.isTaken scope (candidate stem j) = false ∧
        ∀ k, i ≤ k → k < j → t.isTaken scope (candidate stem k) = true := by
  intro fuel
  induction fuel with
  | zero =>
    rintro i ⟨j, hij, hj, _⟩
    omega
  | succ fuel ih =>
    rintro i ⟨j, hij, hj, hfree⟩
    rw [firstFree]
    split
    · rename_i htaken
      -- the candidate that is free still lies ahead
      have hne : i ≠ j := by
        rintro rfl
        rw [htaken] at hfree
        exact Bool.noConfusion hfree
      obtain ⟨found, hfound, hfoundFree, hbefore⟩ :=
        ih (i + 1) ⟨j, by omega, by omega, hfree⟩
      refine ⟨found, hfound, hfoundFree, fun k hik hk => ?_⟩
      rcases Nat.eq_or_lt_of_le hik with rfl | hlt
      · exact htaken
      · exact hbefore k hlt hk
    · rename_i hi
      exact ⟨i, rfl, by simpa using hi, fun k hik hk => absurd hk (by omega)⟩

/-- A fresh name is the first candidate that is free. -/
theorem freshName_eq_candidate (t : ScopeTable) (scope : ScopeId) (base : List Char) :
    ∃ i, t.freshName scope base = candidate ("_" ++ Name.stem base) i ∧
      t.isTaken scope (t.freshName scope base) = false ∧
      ∀ j < i, t.isTaken scope (candidate ("_" ++ Name.stem base) j) = true := by
  obtain ⟨i, hi, hfree⟩ := t.exists_free_candidate scope ("_" ++ Name.stem base)
  obtain ⟨j, hj, hjfree, hbefore⟩ :=
    firstFree_spec t.candidateBound 0 ⟨i, by omega, by omega, hfree⟩
  refine ⟨j, hj, ?_, fun k hk => hbefore k (Nat.zero_le k) hk⟩
  rw [freshName, hj]
  exact hjfree

theorem freshName_not_taken (t : ScopeTable) (scope : ScopeId) (base : List Char) :
    t.freshName scope base ∉ t.taken := by
  obtain ⟨_, _, hfree, _⟩ := t.freshName_eq_candidate scope base
  simp only [isTaken, Bool.or_eq_false_iff, List.contains_eq_mem, decide_eq_false_iff_not] at hfree
  exact hfree.1.1

/-- Candidates are names that may be bound, whatever they are made of. -/
theorem candidate_isBindable (base : List Char) (i : Nat) :
    Name.isBindable (candidate ("_" ++ Name.stem base) i) = true := by
  have hstem : ("_" ++ Name.stem base).toList = '_' :: (Name.stem base).toList := by
    rw [String.toList_append]; rfl
  cases i with
  | zero =>
    exact Name.isBindable_of_low_line (by rw [candidate, if_pos rfl, hstem])
      (Name.isPart_of_mem_stem base)
  | succ i =>
    refine Name.isBindable_of_low_line
      (r := (Name.stem base).toList ++ '_' :: Nat.toDigits 10 (i + 1)) ?_ ?_
    · rw [toList_candidate_succ, hstem]; rfl
    · intro c hc
      rcases List.mem_append.mp hc with hc | hc
      · exact Name.isPart_of_mem_stem base c hc
      · rcases List.mem_cons.mp hc with rfl | hc
        · exact Name.isPart_low_line
        · exact Name.isPart_of_isDigit
            (Nat.isDigit_of_mem_toDigits (by decide) (by decide) hc)

/-- A fresh name holds nothing but characters of its base, digits and a few of ASCII. -/
theorem mem_of_mem_freshName {t : ScopeTable} {scope : ScopeId} {base : List Char} {c : Char}
    (hc : c ∈ (t.freshName scope base).toList) : c ∈ base ∨ c ∈ "_ref".toList ∨ c.isDigit = true := by
  obtain ⟨i, hi, -⟩ := t.freshName_eq_candidate scope base
  have hstem (hc : c ∈ ("_" ++ Name.stem base).toList) : c ∈ base ∨ c ∈ "_ref".toList := by
    rw [String.toList_append] at hc
    rcases List.mem_cons.mp hc with rfl | hc
    · exact .inr List.mem_cons_self
    · exact (Name.mem_of_mem_stem hc).symm
  rw [hi] at hc
  cases i with
  | zero =>
    rw [candidate, if_pos rfl] at hc
    exact (hstem hc).imp_right .inl
  | succ i =>
    rw [toList_candidate_succ] at hc
    rcases List.mem_append.mp hc with hc | hc
    · exact (hstem hc).imp_right .inl
    · rcases List.mem_cons.mp hc with rfl | hc
      · exact .inr (.inl List.mem_cons_self)
      · exact .inr (.inr (Nat.isDigit_of_mem_toDigits (by decide) (by decide) hc))

theorem freshName_isBindable (t : ScopeTable) (scope : ScopeId) (base : List Char) :
    Name.isBindable (t.freshName scope base) = true := by
  obtain ⟨i, hi, _⟩ := t.freshName_eq_candidate scope base
  rw [hi]
  exact candidate_isBindable base i

end ScopeTable

end Phrasebook
