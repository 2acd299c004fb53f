import Phrasebook.Proofs.Encoding
import Phrasebook.Skeleton.Date

/-!
Where the faults of skeletons are. The token that a fault names stands in the skeleton at the
fault's offset, so both ends of it are places of the skeleton.
-/
namespace Phrasebook.Skeleton

theorem utf8ByteSize_ofList (cs : List Char) : (String.ofList cs).utf8ByteSize = byteLength cs := by
  induction cs with
  | nil => rfl
  | cons c r ih =>
    have happend : String.ofList (c :: r) = String.singleton c ++ String.ofList r := by
      rw [String.singleton_eq_ofList, ← String.ofList_append]
      rfl
    rw [happend, String.utf8ByteSize_append, String.utf8ByteSize_singleton, ih, byteLength_cons]

theorem utf8ByteSize_eq (s : String) : s.utf8ByteSize = byteLength s.toList := by
  rw [← utf8ByteSize_ofList, String.ofList_toList]

/-- A run of characters stands in a text behind so many bytes. -/
def StandsAt (cs : List Char) (offset : Nat) (run : List Char) : Prop :=
  ∃ before after, cs = before ++ run ++ after ∧ offset = byteLength before

namespace StandsAt

variable {cs run : List Char} {offset : Nat}

theorem le (h : StandsAt cs offset run) : offset + byteLength run ≤ byteLength cs := by
  obtain ⟨before, after, rfl, rfl⟩ := h
  simp only [byteLength_append]
  omega

/-- What a run begins with stands where the run does. -/
theorem of_append (run rest : List Char) (h : StandsAt cs offset (run ++ rest)) :
    StandsAt cs offset run := by
  obtain ⟨before, after, rfl, rfl⟩ := h
  exact ⟨before, rest ++ after, by simp only [List.append_assoc], rfl⟩

end StandsAt

/-! ### Number skeletons -/

/-- Words stand where their offsets say. The text read so far ends with the word that it goes on
with. -/
theorem words_standsAt {cs : List Char} (before word rest : List Char) {start off : Nat}
    (htext : cs = before ++ word.reverse ++ rest)
    (hoff : off = byteLength (before ++ word.reverse))
    (hstart : word ≠ [] → start = byteLength before) :
    ∀ w ∈ words start word off rest, StandsAt cs w.1 w.2 := by
  induction rest generalizing before word start off with
  | nil =>
    intro w hw
    rw [words] at hw
    split at hw
    · exact absurd hw List.not_mem_nil
    · rename_i hword
      rw [List.mem_singleton.mp hw]
      exact ⟨before, [], htext, hstart fun hnil => hword (List.isEmpty_iff.mpr hnil)⟩
  | cons c r ih =>
    rw [words]
    -- the text behind a blank goes on with no word
    have hblank : ∀ w ∈ words start [] (off + c.utf8Size) r, StandsAt cs w.1 w.2 := by
      refine ih (before ++ word.reverse ++ [c]) [] ?_ ?_ (absurd rfl)
      · rw [htext]
        simp only [List.reverse_nil, List.append_nil, List.append_assoc, List.singleton_append]
      · rw [hoff]
        simp only [List.reverse_nil, List.append_nil, byteLength_append, byteLength_cons,
          byteLength_nil, Nat.add_zero]
    split
    · split
      · exact hblank
      · rename_i hword
        refine List.forall_mem_cons.mpr ⟨⟨before, c :: r, htext, ?_⟩, hblank⟩
        exact hstart fun hnil => hword (List.isEmpty_iff.mpr hnil)
    · refine ih before (c :: word) ?_ ?_ fun _ => ?_
      · rw [htext]
        simp only [List.reverse_cons, List.append_assoc, List.singleton_append]
      · rw [hoff]
        simp only [List.reverse_cons, byteLength_append, byteLength_cons, byteLength_nil,
          Nat.add_zero, Nat.add_assoc]
      · split
        · rename_i hword
          rw [hoff, List.isEmpty_iff.mp hword, List.reverse_nil, List.append_nil]
        · rename_i hword
          exact hstart fun hnil => hword (List.isEmpty_iff.mpr hnil)

/-- A text begins with its first part. -/
theorem splitAt_head {sep : Char} {cs part : List Char} {parts : List (List Char)}
    (h : Text.splitAt sep cs = part :: parts) : ∃ rest, cs = part ++ rest := by
  induction cs generalizing part parts with
  | nil =>
    obtain ⟨rfl, -⟩ := List.cons.inj h
    exact ⟨[], rfl⟩
  | cons c r ih =>
    rw [Text.splitAt] at h
    split at h
    · obtain ⟨rfl, -⟩ := List.cons.inj h
      exact ⟨c :: r, rfl⟩
    · split at h
      · obtain ⟨rfl, -⟩ := List.cons.inj h
        exact ⟨r, rfl⟩
      · rename_i part' parts' hsplit
        obtain ⟨rfl, -⟩ := List.cons.inj h
        obtain ⟨rest, rfl⟩ := ih hsplit
        exact ⟨rest, rfl⟩

theorem tokens_standsAt {cs : List Char} {t : Token} (h : t ∈ tokens cs) :
    StandsAt cs t.offset t.stem := by
  obtain ⟨⟨off, word⟩, hword, rfl⟩ := List.mem_map.mp h
  have hstands : StandsAt cs off word :=
    words_standsAt [] [] cs rfl rfl (absurd rfl) _ hword
  change StandsAt cs (Token.ofWord off word).offset (Token.ofWord off word).stem
  unfold Token.ofWord
  split
  · exact hstands.of_append [] word
  · rename_i hsplit
    obtain ⟨rest, rfl⟩ := splitAt_head hsplit
    exact hstands.of_append _ rest

/-- What fails in a row of tokens is one of them. -/
theorem foldlM_apply_error {ts : List Token} {o : FormatOptions} {f : Fault}
    (h : ts.foldlM (fun o t => t.apply o) o = .error f) :
    ∃ t ∈ ts, f.offset = t.offset ∧ f.token = String.ofList t.stem := by
  induction ts generalizing o with
  | nil => exact nomatch h
  | cons t ts ih =>
    rw [List.foldlM_cons] at h
    cases hfirst : t.apply o with
    | error f' =>
      rw [hfirst] at h
      obtain rfl : f' = f := Except.error.inj h
      rw [Token.apply] at hfirst
      split at hfirst
      · exact nomatch hfirst
      · obtain rfl := Except.error.inj hfirst
        exact ⟨t, List.mem_cons_self, rfl, rfl⟩
    | ok o' =>
      rw [hfirst] at h
      obtain ⟨t', ht', hf⟩ := ih h
      exact ⟨t', List.mem_cons_of_mem t ht', hf⟩

theorem parseNumber_error {cs : List Char} {f : Fault} (h : parseNumber cs = .error f) :
    StandsAt cs f.offset f.token.toList := by
  obtain ⟨t, ht, hoffset, htoken⟩ := foldlM_apply_error h
  rw [hoffset, htoken, String.toList_ofList]
  exact tokens_standsAt ht

/-! ### Date skeletons -/

/-- The text of runs. -/
def spread (rs : List (Char × Nat)) : List Char :=
  rs.flatMap fun r => List.replicate r.2 r.1

theorem spread_runs (cs : List Char) : spread (runs cs) = cs := by
  induction cs with
  | nil => rfl
  | cons c r ih =>
    rw [runs]
    split
    · rename_i d n rest hruns
      rw [hruns] at ih
      split
      · rename_i hsame
        rw [hsame, ← ih]
        rfl
      · rw [← ih]
        rfl
    · rename_i hruns
      rw [hruns] at ih
      rw [← ih]
      rfl

theorem byteLength_replicate (n : Nat) (c : Char) :
    byteLength (List.replicate n c) = n * c.utf8Size := by
  induction n with
  | zero => rw [List.replicate_zero, byteLength_nil, Nat.zero_mul]
  | succ n ih => rw [List.replicate_succ, byteLength_cons, ih, Nat.succ_mul, Nat.add_comm]

theorem applyRuns_error {rs : List (Char × Nat)} {o : FormatOptions} {offset : Nat} {f : Fault}
    (h : applyRuns o offset rs = .error f) :
    ∃ place, StandsAt (spread rs) place f.token.toList ∧ f.offset = offset + place := by
  induction rs generalizing o offset with
  | nil => exact nomatch h
  | cons r rs ih =>
    obtain ⟨c, n⟩ := r
    have hspread : spread ((c, n) :: rs) = List.replicate n c ++ spread rs := rfl
    rw [applyRuns] at h
    split at h
    -- the run in front is taken, and the place moves on by its bytes
    · obtain ⟨place, ⟨before, after, hrest, hplace⟩, hoffset⟩ := ih h
      refine ⟨n * c.utf8Size + place, ⟨List.replicate n c ++ before, after, ?_, ?_⟩, ?_⟩
      · rw [hspread, hrest]
        simp only [List.append_assoc]
      · rw [byteLength_append, byteLength_replicate, hplace]
      · rw [hoffset, Nat.add_assoc]
    · obtain rfl := Except.error.inj h
      refine ⟨0, ⟨[], spread rs, ?_, rfl⟩, rfl⟩
      rw [hspread, String.toList_ofList]
      rfl

theorem parseDate_error {cs : List Char} {f : Fault} (h : parseDate cs = .error f) :
    StandsAt cs f.offset f.token.toList := by
  obtain ⟨place, hstands, hoffset⟩ := applyRuns_error h
  rw [spread_runs] at hstands
  rw [hoffset, Nat.zero_add]
  exact hstands

end Phrasebook.Skeleton
