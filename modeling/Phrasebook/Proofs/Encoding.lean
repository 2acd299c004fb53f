import Mathlib.Logic.Basic
import Mathlib.Tactic.SplitIfs
import Phrasebook.Text.Utf8
import Phrasebook.Skeleton.Number

/-!
Well-formed byte texts and the characters they are read as determine each other.
-/
namespace Phrasebook.Utf8

/-! ### One character -/

theorem isContinuation_iff (b : UInt8) :
    isContinuation b = true ↔ 128 ≤ b.toNat ∧ b.toNat ≤ 191 := by
  simp only [isContinuation, Bool.and_eq_true, decide_eq_true_eq, UInt8.le_iff_toNat_le]
  rfl

theorem two?_eq_some_iff (a b : UInt8) (c : Char) :
    two? a b = some c ↔ (194 ≤ a.toNat ∧ a.toNat ≤ 223) ∧ isContinuation b = true ∧
      Char.ofNat (a.toNat % 32 * 64 + b.toNat % 64) = c := by
  simp only [two?, Option.ite_none_right_eq_some, Bool.and_eq_true, decide_eq_true_eq,
    UInt8.le_iff_toNat_le, Option.some.injEq, payload, and_assoc]
  rfl

theorem three?_eq_some_iff (a b c : UInt8) (ch : Char) :
    three? a b c = some ch ↔ (224 ≤ a.toNat ∧ a.toNat ≤ 239) ∧ isContinuation b = true ∧
      isContinuation c = true ∧ (a.toNat = 224 → 160 ≤ b.toNat) ∧
      (a.toNat = 237 → b.toNat ≤ 159) ∧
      Char.ofNat ((a.toNat % 16 * 64 + b.toNat % 64) * 64 + c.toNat % 64) = ch := by
  simp only [three?, Option.ite_none_right_eq_some, Bool.and_eq_true, Bool.or_eq_true, bne_iff_ne,
    decide_eq_true_eq, UInt8.le_iff_toNat_le, ne_eq, ← UInt8.toNat_inj, Option.some.injEq, payload,
    and_assoc, ← imp_iff_not_or]
  rfl

theorem four?_eq_some_iff (a b c d : UInt8) (ch : Char) :
    four? a b c d = some ch ↔ (240 ≤ a.toNat ∧ a.toNat ≤ 244) ∧ isContinuation b = true ∧
      isContinuation c = true ∧ isContinuation d = true ∧ (a.toNat = 240 → 144 ≤ b.toNat) ∧
      (a.toNat = 244 → b.toNat ≤ 143) ∧
      Char.ofNat (((a.toNat % 8 * 64 + b.toNat % 64) * 64 + c.toNat % 64) * 64 + d.toNat % 64) =
        ch := by
  simp only [four?, Option.ite_none_right_eq_some, Bool.and_eq_true, Bool.or_eq_true, bne_iff_ne,
    decide_eq_true_eq, UInt8.le_iff_toNat_le, ne_eq, ← UInt8.toNat_inj, Option.some.injEq, payload,
    and_assoc, ← imp_iff_not_or]
  rfl

/-- The forms of a character's bytes, told by the first of them. -/
inductive Form : UInt8 → Bytes → Char → Prop where
  | one {a c} : a.toNat < 128 → Char.ofNat a.toNat = c → Form a [] c
  | two {a b c} : two? a b = some c → Form a [b] c
  | three {a b c ch} : three? a b c = some ch → Form a [b, c] ch
  | four {a b c d ch} : four? a b c d = some ch → Form a [b, c, d] ch

theorem Form.read?_append {a : UInt8} {tail : Bytes} {c : Char} (h : Form a tail c) (r : Bytes) :
    read? a (tail ++ r) = some (c, tail.length) := by
  have hlow (n : Nat) (hn : 128 ≤ n) (ha : n ≤ a.toNat) : ¬a < 0x80 := by
    rw [UInt8.lt_iff_toNat_lt]
    have h80 : (0x80 : UInt8).toNat = 128 := rfl
    omega
  have htwo (b : UInt8) (ha : 224 ≤ a.toNat) : two? a b = none := by
    rw [Option.eq_none_iff_forall_ne_some]
    intro x hx
    have := ((two?_eq_some_iff a b x).mp hx).1
    omega
  have hthree (b c : UInt8) (ha : 240 ≤ a.toNat) : three? a b c = none := by
    rw [Option.eq_none_iff_forall_ne_some]
    intro x hx
    have := ((three?_eq_some_iff a b c x).mp hx).1
    omega
  cases h with
  | one ha hc =>
    have hlt : a < 0x80 := UInt8.lt_iff_toNat_lt.mpr ha
    unfold read?
    rw [if_pos hlt, hc]
    rfl
  | @two b _ h =>
    have ha := ((two?_eq_some_iff a b c).mp h).1.1
    unfold read?
    rw [if_neg (hlow 194 (by omega) ha)]
    -- what follows the two bytes does not matter
    rcases r with _ | ⟨x, _ | ⟨y, r⟩⟩ <;> simp [h]
  | @three b c' _ h =>
    have ha := ((three?_eq_some_iff a b c' c).mp h).1.1
    unfold read?
    rw [if_neg (hlow 224 (by omega) ha)]
    rcases r with _ | ⟨x, r⟩ <;> simp [h, htwo b ha]
  | @four b c' d _ h =>
    have ha := ((four?_eq_some_iff a b c' d c).mp h).1.1
    unfold read?
    rw [if_neg (hlow 240 (by omega) ha)]
    simp [h, htwo b (by omega), hthree b c' ha]

theorem exists_form_of_read? {a : UInt8} {r : Bytes} {c : Char} {more : Nat}
    (h : read? a r = some (c, more)) : ∃ tail r', r = tail ++ r' ∧ tail.length = more ∧ Form a tail c := by
  unfold read? at h
  split at h
  · rename_i hlow
    obtain ⟨rfl, rfl⟩ := Prod.mk.inj (Option.some.inj h)
    exact ⟨[], r, rfl, rfl, .one (UInt8.lt_iff_toNat_lt.mp hlow) rfl⟩
  · split at h
    · cases h
    · rename_i b
      obtain ⟨x, hx, heq⟩ := Option.map_eq_some_iff.mp h
      obtain ⟨rfl, rfl⟩ := Prod.mk.inj heq
      exact ⟨[b], [], rfl, rfl, .two hx⟩
    -- the shorter form is tried first, and a longer one is read only where it fails
    · rename_i b d
      rcases Option.or_eq_some_iff.mp h with h | ⟨-, h⟩
      · obtain ⟨x, hx, heq⟩ := Option.map_eq_some_iff.mp h
        obtain ⟨rfl, rfl⟩ := Prod.mk.inj heq
        exact ⟨[b], [d], rfl, rfl, .two hx⟩
      · obtain ⟨x, hx, heq⟩ := Option.map_eq_some_iff.mp h
        obtain ⟨rfl, rfl⟩ := Prod.mk.inj heq
        exact ⟨[b, d], [], rfl, rfl, .three hx⟩
    · rename_i b d e r'
      rcases Option.or_eq_some_iff.mp h with h | ⟨-, h⟩
      · obtain ⟨x, hx, heq⟩ := Option.map_eq_some_iff.mp h
        obtain ⟨rfl, rfl⟩ := Prod.mk.inj heq
        exact ⟨[b], d :: e :: r', rfl, rfl, .two hx⟩
      · rcases Option.or_eq_some_iff.mp h with h | ⟨-, h⟩
        · obtain ⟨x, hx, heq⟩ := Option.map_eq_some_iff.mp h
          obtain ⟨rfl, rfl⟩ := Prod.mk.inj heq
          exact ⟨[b, d], e :: r', rfl, rfl, .three hx⟩
        · obtain ⟨x, hx, heq⟩ := Option.map_eq_some_iff.mp h
          obtain ⟨rfl, rfl⟩ := Prod.mk.inj heq
          exact ⟨[b, d, e], r', rfl, rfl, .four hx⟩

theorem toNat_ofNat_byte {n : Nat} (h : n < 256) : (UInt8.ofNat n).toNat = n := by
  rw [UInt8.toNat_ofNat']
  exact Nat.mod_eq_of_lt h

theorem isContinuation_ofNat (n : Nat) : isContinuation (UInt8.ofNat (n % 64 + 128)) = true := by
  rw [isContinuation_iff, toNat_ofNat_byte (by omega)]
  omega

/-- A character is written in its form. -/
theorem exists_form (c : Char) : ∃ a tail, String.utf8EncodeChar c = a :: tail ∧ Form a tail c := by
  have hvalid : c.toNat < 55296 ∨ 57343 < c.toNat ∧ c.toNat < 1114112 := c.valid
  have hchar := Char.ofNat_toNat c
  have hv : c.val.toNat = c.toNat := rfl
  rw [String.utf8EncodeChar]
  simp only [hv]
  generalize c.toNat = v at hvalid hchar
  -- one case for each length; what is left is linear in the code
  split_ifs with h1 h2 h3
  · refine ⟨_, _, rfl, .one ?_ ?_⟩
    · rw [toNat_ofNat_byte (by omega)]
      omega
    · rw [toNat_ofNat_byte (by omega), hchar]
  · refine ⟨_, _, rfl, .two ((two?_eq_some_iff ..).mpr ⟨?_, isContinuation_ofNat _, ?_⟩)⟩
    · rw [toNat_ofNat_byte (by omega)]
      omega
    · rw [toNat_ofNat_byte (by omega), toNat_ofNat_byte (by omega), ← hchar]
      congr 1
      omega
  · refine ⟨_, _, rfl, .three ((three?_eq_some_iff ..).mpr
      ⟨?_, isContinuation_ofNat _, isContinuation_ofNat _, ?_, ?_, ?_⟩)⟩
    · rw [toNat_ofNat_byte (by omega)]
      omega
    · rw [toNat_ofNat_byte (by omega), toNat_ofNat_byte (by omega)]
      omega
    · rw [toNat_ofNat_byte (by omega), toNat_ofNat_byte (by omega)]
      omega
    · rw [toNat_ofNat_byte (by omega), toNat_ofNat_byte (by omega), toNat_ofNat_byte (by omega),
        ← hchar]
      congr 1
      omega
  · refine ⟨_, _, rfl, .four ((four?_eq_some_iff ..).mpr
      ⟨?_, isContinuation_ofNat _, isContinuation_ofNat _, isContinuation_ofNat _, ?_, ?_, ?_⟩)⟩
    · rw [toNat_ofNat_byte (by omega)]
      omega
    · rw [toNat_ofNat_byte (by omega), toNat_ofNat_byte (by omega)]
      omega
    · rw [toNat_ofNat_byte (by omega), toNat_ofNat_byte (by omega)]
      omega
    · rw [toNat_ofNat_byte (by omega), toNat_ofNat_byte (by omega), toNat_ofNat_byte (by omega),
        toNat_ofNat_byte (by omega), ← hchar]
      congr 1
      omega

theorem toNat_ofNat_char {v : Nat} (h : v < 55296 ∨ 57343 < v ∧ v < 1114112) :
    (Char.ofNat v).val.toNat = v := by
  rw [Char.ofNat, dif_pos h]
  rfl

theorem Form.encode {a : UInt8} {tail : Bytes} {c : Char} (h : Form a tail c) :
    String.utf8EncodeChar c = a :: tail := by
  have hbyte (b : UInt8) (n : Nat) (hn : n = b.toNat) : UInt8.ofNat n = b := by
    rw [hn, UInt8.ofNat_toNat]
  have ha := a.toNat_lt
  cases h with
  | one hlow hc =>
    rw [← hc, String.utf8EncodeChar, toNat_ofNat_char (by omega)]
    rw [if_pos (by omega), hbyte a _ rfl]
  | @two b _ h =>
    obtain ⟨hlead, hb, rfl⟩ := (two?_eq_some_iff ..).mp h
    rw [isContinuation_iff] at hb
    rw [String.utf8EncodeChar, toNat_ofNat_char (by omega)]
    rw [if_neg (by omega), if_pos (by omega), hbyte a _ (by omega), hbyte b _ (by omega)]
  | @three b d _ h =>
    obtain ⟨hlead, hb, hd, hlong, hsurrogate, rfl⟩ := (three?_eq_some_iff ..).mp h
    rw [isContinuation_iff] at hb hd
    rw [String.utf8EncodeChar, toNat_ofNat_char (by omega)]
    rw [if_neg (by omega), if_neg (by omega), if_pos (by omega), hbyte a _ (by omega),
      hbyte b _ (by omega), hbyte d _ (by omega)]
  | @four b d e _ h =>
    obtain ⟨hlead, hb, hd, he, hlong, hlast, rfl⟩ := (four?_eq_some_iff ..).mp h
    rw [isContinuation_iff] at hb hd he
    rw [String.utf8EncodeChar, toNat_ofNat_char (by omega)]
    rw [if_neg (by omega), if_neg (by omega), if_neg (by omega), hbyte a _ (by omega),
      hbyte b _ (by omega), hbyte d _ (by omega), hbyte e _ (by omega)]

/-! ### Whole texts -/

theorem piecesAfter_append (tail r : Bytes) : piecesAfter tail.length (tail ++ r) = pieces r := by
  induction tail with
  | nil => rfl
  | cons b tail ih => exact ih

theorem pieces_encodeChar (c : Char) (r : Bytes) :
    pieces (String.utf8EncodeChar c ++ r) = .char c :: pieces r := by
  obtain ⟨a, tail, hbytes, hform⟩ := exists_form c
  rw [hbytes, List.cons_append, pieces, piecesAfter, hform.read?_append]
  simp only
  rw [piecesAfter_append]

/-- What is written is read as characters. -/
theorem pieces_encode (cs : List Char) : pieces (encode cs) = cs.map .char := by
  induction cs with
  | nil => rfl
  | cons c r ih => rw [encode, List.flatMap_cons, pieces_encodeChar, List.map_cons, ← ih]; rfl

theorem shown_encode (cs : List Char) : shown (encode cs) = cs := by
  rw [shown, pieces_encode, List.map_map]
  exact List.map_id cs

theorem encode_append (cs ds : List Char) : encode (cs ++ ds) = encode cs ++ encode ds :=
  List.flatMap_append

/-- Characters that are written are read back. -/
theorem decode?_encode (cs : List Char) : decode? (encode cs) = some cs := by
  rw [decode?, pieces_encode, List.mapM_map]
  exact (List.mapM_pure (m := Option) (f := id)).trans (congrArg some (List.map_id cs))

/-- Reading loses nothing. -/
theorem flatMap_bytes_piecesAfter (skip : Nat) (bs : Bytes) :
    (piecesAfter skip bs).flatMap Piece.bytes = bs.drop skip := by
  -- bytes are skipped that the piece in front has taken, so their number varies along the text
  induction bs generalizing skip with
  | nil => rw [piecesAfter, List.drop_nil]; rfl
  | cons a r ih =>
    cases skip with
    | succ skip => rw [piecesAfter, ih, List.drop_succ_cons]
    | zero =>
      rw [piecesAfter]
      split
      · rename_i c more hread
        obtain ⟨tail, r', rfl, rfl, hform⟩ := exists_form_of_read? hread
        rw [List.flatMap_cons, ih, Piece.bytes, hform.encode, List.drop_left, List.cons_append]
        rfl
      · rw [List.flatMap_cons, ih, Piece.bytes]
        rfl

/-- A text that is read as characters is what they are written as. -/
theorem encode_of_decode? {bs : Bytes} {cs : List Char} (h : decode? bs = some cs) :
    encode cs = bs := by
  have hpieces : pieces bs = cs.map .char := by
    rw [decode?] at h
    generalize pieces bs = ps at h
    induction ps generalizing cs with
    | nil =>
      rw [List.mapM_nil] at h
      obtain rfl := Option.some.inj h
      rfl
    | cons p r ih =>
      rw [List.mapM_cons] at h
      obtain ⟨c, hc, h⟩ := Option.bind_eq_some_iff.mp h
      obtain ⟨cs', hcs', h⟩ := Option.bind_eq_some_iff.mp h
      obtain rfl := Option.some.inj h
      cases p with
      | stray b => cases hc
      | char c' =>
        obtain rfl := Option.some.inj hc
        rw [ih hcs', List.map_cons]
  -- pieces keep all bytes, and none of these is stray
  have hlost := flatMap_bytes_piecesAfter 0 bs
  rw [List.drop_zero, ← pieces, hpieces, List.flatMap_map] at hlost
  exact hlost

/-! ### Lengths -/

end Phrasebook.Utf8

namespace Phrasebook.Skeleton

theorem foldl_utf8Size (cs : List Char) (n : Nat) :
    cs.foldl (fun n c => n + c.utf8Size) n = n + byteLength cs := by
  induction cs generalizing n with
  | nil => rfl
  | cons c r ih =>
    have hlength : byteLength (c :: r) = 0 + c.utf8Size + byteLength r := ih (0 + c.utf8Size)
    rw [List.foldl_cons, ih, hlength]
    omega

@[simp] theorem byteLength_nil : byteLength [] = 0 := rfl

@[simp] theorem byteLength_cons (c : Char) (cs : List Char) :
    byteLength (c :: cs) = c.utf8Size + byteLength cs := by
  rw [byteLength, List.foldl_cons, foldl_utf8Size]
  omega

@[simp] theorem byteLength_append (cs ds : List Char) :
    byteLength (cs ++ ds) = byteLength cs + byteLength ds := by
  rw [byteLength, List.foldl_append, foldl_utf8Size]
  rfl

theorem length_encode (cs : List Char) : (Utf8.encode cs).length = byteLength cs := by
  induction cs with
  | nil => rfl
  | cons c r ih =>
    rw [Utf8.encode, List.flatMap_cons, List.length_append, String.length_utf8EncodeChar,
      byteLength_cons, ← ih]
    rfl

theorem length_le_byteLength (cs : List Char) : cs.length ≤ byteLength cs := by
  induction cs with
  | nil => exact Nat.le_refl _
  | cons c r ih =>
    have hpos := c.utf8Size_pos
    rw [byteLength_cons, List.length_cons]
    omega

end Phrasebook.Skeleton
