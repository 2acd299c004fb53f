import Phrasebook.Proofs.Needs

/-!
Canonical texts stand for option maps. Two lists of options have one canonical text just if they hold
the same values under the same keys, and nothing that stands behind such a text can be taken for a
part of it.
-/
namespace Phrasebook.FormatOptions

/-- A canonical text is complete: it tells the values under all keys, and it does not tell in which
order they were listed. Values are told apart by their kind and, as numbers, by their sign too. -/
theorem canonical_complete {a b : FormatOptions} (ha : a.Regular) (hb : b.Regular) :
    (a.canonical = b.canonical ↔ ∀ key, a.get? key = b.get? key) ∧
    (a.canonical = b.canonical ↔ a.Perm b) ∧
    (∀ r l, a.canonical.toList ++ r = b.canonical.toList ++ l →
      (∀ key, a.get? key = b.get? key) ∧ r = l) ∧
    ∀ key, canonical [(key, .number 0.0)] ≠ canonical [(key, .number (-0.0))] := by
  have hmap : a.canonical = b.canonical ↔ ∀ key, a.get? key = b.get? key :=
    (ha.canonical_eq_iff hb).trans funext_iff
  refine ⟨hmap, ⟨fun h => ?_, fun h => ?_⟩, fun r l h => ?_, fun key h => ?_⟩
  · apply ha.perm_of_get? hb
    exact funext (hmap.mp h)
  · rw [canonical, canonical, ha.sorted_eq_of_perm h]
  · obtain ⟨hsorted, hrest⟩ := canonical_append_inj ha.ordinary hb.ordinary h
    exact ⟨congrFun (get?_eq_of_sorted hsorted), hrest⟩
  · -- a single entry is sorted already, so the texts differ where the zeros do
    have hsingle (x : Float) : Regular [(key, .number x)] :=
      ⟨List.forall_mem_singleton.mpr trivial, List.nodup_singleton key⟩
    have hget (x : Float) : get? [(key, .number x)] key = some (.number x) :=
      (hsingle x).get?_eq_some_iff.mpr (List.mem_singleton.mpr rfl)
    have hsame := congrFun (((hsingle _).canonical_eq_iff (hsingle _)).mp h) key
    rw [hget, hget] at hsame
    exact absurd (OptionValue.number.inj (Option.some.inj hsame)) (by decide)

/-- A text that looks like an entry, and numbers that differ in their sign alone. -/
theorem canonical_complete_zeros :
    let a : FormatOptions := [("b", .text "x\",\"a\":n0"), ("a", .number 0.0)]
    let b : FormatOptions := [("a", .number 0.0), ("b", .text "x\",\"a\":n0")]
    let c : FormatOptions := [("a", .number (-0.0)), ("b", .text "x\",\"a\":n0")]
    (a.Regular ∧ b.Regular ∧ c.Regular) ∧ a.canonical = b.canonical ∧ a.canonical ≠ c.canonical := by
  intro a b c
  have ha : a.Regular := by decide
  have hb : b.Regular := by decide
  have hc : c.Regular := by decide
  refine ⟨⟨ha, hb, hc⟩, (canonical_complete ha hb).2.1.mpr (List.Perm.swap _ _ _), fun h => ?_⟩
  have hmap := (canonical_complete ha hc).1.mp h "a"
  exact absurd (OptionValue.number.inj (Option.some.inj hmap)) (by decide)

end Phrasebook.FormatOptions
