import Mathlib
import Phrasebook.Build.Cache
import Phrasebook.Proofs.Encoding

/-!
Fields are read back as they were written, whatever stands behind them. So what is written field by
field tells the fields, and an entry of the cache holds what was put into it.
-/
namespace Phrasebook

/-- Reading an array off from a place on puts what stands there behind what was read. -/
theorem Bytes.loop_eq (bs : ByteArray) (i : Nat) (done : Bytes) :
    ByteArray.toList.loop bs i done = done.reverse ++ bs.data.toList.drop i := by
  induction i, done using ByteArray.toList.loop.induct bs with
  | case1 i done hi ih =>
    have hlength : i < bs.data.toList.length := by
      rw [Array.length_toList]
      exact hi
    have hget : bs.get! i = bs.data.toList[i] := by
      rw [ByteArray.get!, Array.getElem_toList]
      exact getElem!_pos bs.data i hi
    rw [ByteArray.toList.loop, if_pos hi, ih, List.reverse_cons, List.append_assoc,
      List.singleton_append, hget, List.getElem_cons_drop]
  | case2 i done hi =>
    have hend : bs.data.toList.length ≤ i := by
      rw [Array.length_toList]
      exact Nat.not_lt.mp hi
    rw [ByteArray.toList.loop, if_neg hi, List.drop_of_length_le hend, List.append_nil]

theorem Bytes.ofText_eq (s : String) : Bytes.ofText s = Utf8.encode s.toList := by
  have hbytes : s.toUTF8 = (s.toList.flatMap String.utf8EncodeChar).toByteArray := by
    conv => lhs; rw [← String.ofList_toList (s := s)]
    exact String.toUTF8_eq_toByteArray
  rw [Bytes.ofText, hbytes, ByteArray.toList, Bytes.loop_eq, List.toList_data_toByteArray]
  rfl

namespace Fields

/-! ### Numbers -/

theorem utf8EncodeChar_of_isDigit {c : Char} (h : c.isDigit = true) :
    String.utf8EncodeChar c = [c.toNat.toUInt8] := by
  have hlow : c.val.toNat ≤ 0x7F := by
    simp only [Char.isDigit, Bool.and_eq_true, decide_eq_true_eq, UInt32.le_iff_toNat_le] at h
    have hnine : '9'.val.toNat = 57 := rfl
    omega
  rw [String.utf8EncodeChar, if_pos hlow]
  rfl

theorem encode_of_isDigit {cs : List Char} (h : ∀ c ∈ cs, c.isDigit = true) :
    Utf8.encode cs = cs.map fun c => c.toNat.toUInt8 := by
  induction cs with
  | nil => rfl
  | cons c r ih =>
    obtain ⟨hc, hr⟩ := List.forall_mem_cons.mp h
    rw [Utf8.encode, List.flatMap_cons, ← Utf8.encode, utf8EncodeChar_of_isDigit hc, ih hr,
      List.singleton_append, List.map_cons]

/-- The digits of a number, as bytes. -/
def digits (n : Nat) : Bytes :=
  (Nat.toDigits 10 n).map fun c => c.toNat.toUInt8

theorem isDigit_of_mem_toDigits {n : Nat} {c : Char} (h : c ∈ Nat.toDigits 10 n) :
    c.isDigit = true :=
  Nat.isDigit_of_mem_toDigits (by decide) (by decide) h

theorem ofText_toString (n : Nat) : Bytes.ofText (toString n) = digits n := by
  have htext : (toString n).toList = Nat.toDigits 10 n := Nat.toList_repr
  rw [Bytes.ofText_eq, htext, encode_of_isDigit fun c => isDigit_of_mem_toDigits, digits]

theorem toNat_of_isDigit {c : Char} (h : c.isDigit = true) :
    c.toNat.toUInt8.toNat = c.toNat ∧ 48 ≤ c.toNat ∧ c.toNat ≤ 57 := by
  simp only [Char.isDigit, Bool.and_eq_true, decide_eq_true_eq, UInt32.le_iff_toNat_le] at h
  have hzero : '0'.val.toNat = 48 := rfl
  have hnine : '9'.val.toNat = 57 := rfl
  have hc : c.val.toNat = c.toNat := rfl
  refine ⟨?_, by omega, by omega⟩
  rw [UInt8.toNat_ofNat_of_lt' (by show c.toNat < 256; omega)]

theorem isDigit_of_mem_digits {n : Nat} {b : UInt8} (h : b ∈ digits n) : isDigit b = true := by
  obtain ⟨c, hc, rfl⟩ := List.mem_map.mp h
  obtain ⟨hnat, hlow, hhigh⟩ := toNat_of_isDigit (isDigit_of_mem_toDigits hc)
  have hzero : (0x30 : UInt8).toNat = 48 := rfl
  have hnine : (0x39 : UInt8).toNat = 57 := rfl
  simp only [isDigit, Bool.and_eq_true, decide_eq_true_eq, UInt8.le_iff_toNat_le]
  omega

theorem digits_ne_nil (n : Nat) : digits n ≠ [] := by
  rw [digits, ne_eq, List.map_eq_nil_iff]
  exact Nat.toDigits_ne_nil

theorem number_digits (n : Nat) : number (digits n) = n := by
  -- The fold over bytes is the one over characters, at any value read so far.
  have hfold (cs : List Char) (h : ∀ c ∈ cs, c.isDigit = true) (done : Nat) :
      (cs.map fun c => c.toNat.toUInt8).foldl (fun n b => n * 10 + (b.toNat - 0x30)) done =
        Nat.ofDigitChars 10 cs done := by
    induction cs generalizing done with
    | nil => rfl
    | cons c r ih =>
      obtain ⟨hc, hr⟩ := List.forall_mem_cons.mp h
      have hzero : '0'.toNat = 0x30 := rfl
      rw [List.map_cons, List.foldl_cons, ih hr, Nat.ofDigitChars_cons, (toNat_of_isDigit hc).1,
        Nat.mul_comm done, hzero]
  rw [number, digits, hfold _ fun c => isDigit_of_mem_toDigits, Nat.ofDigitChars_ten_toDigits]

/-! ### Fields -/

variable {r : Bytes}

theorem read?_write (field r : Bytes) : read? (write field ++ r) = some (field, r) := by
  have hdigit : ∀ b ∈ digits field.length, isDigit b = true := fun b => isDigit_of_mem_digits
  have hcolon : isDigit colon = false := rfl
  rw [write, ofText_toString, List.append_assoc, List.cons_append, read?]
  simp only [List.takeWhile_append_of_pos hdigit, List.dropWhile_append_of_pos hdigit,
    List.takeWhile_cons_of_neg (Bool.not_eq_true _ ▸ hcolon),
    List.dropWhile_cons_of_neg (Bool.not_eq_true _ ▸ hcolon), List.append_nil, number_digits]
  rw [if_pos]
  · rw [List.take_left' rfl, List.drop_left' rfl]
  · simp [digits_ne_nil]

theorem readText?_writeText (field : String) (r : Bytes) :
    readText? (writeText field ++ r) = some (field, r) := by
  simp only [readText?, writeText, read?_write, Option.bind_eq_bind, Option.bind_some]
  rw [Bytes.ofText_eq, Utf8.decode?_encode]
  simp only [Option.bind_some, String.ofList_toList]
  rfl

theorem readCount?_writeCount (n : Nat) (r : Bytes) :
    readCount? (writeCount n ++ r) = some (n, r) := by
  have hall : (digits n).all isDigit = true :=
    List.all_eq_true.mpr fun b => isDigit_of_mem_digits
  simp only [readCount?, writeCount, writeText, ofText_toString, read?_write, Option.bind_eq_bind,
    Option.bind_some, hall, number_digits]
  rw [if_neg (by simp [digits_ne_nil])]

theorem readMany?_flatMap {α : Type} {read : Bytes → Option (α × Bytes)} {write : α → Bytes}
    {xs : List α} (h : ∀ x ∈ xs, ∀ r, read (write x ++ r) = some (x, r)) (r : Bytes) :
    readMany? read xs.length (xs.flatMap write ++ r) = some (xs, r) := by
  induction xs with
  | nil => rfl
  | cons x xs ih =>
    obtain ⟨hx, hxs⟩ := List.forall_mem_cons.mp h
    rw [List.length_cons, readMany?, List.flatMap_cons, List.append_assoc, hx]
    simp only [Option.bind_eq_bind, Option.bind_some, ih hxs]
    rfl

/-- A text ends where it says so. -/
theorem writeText_append_inj {s t : String} {r l : Bytes}
    (h : writeText s ++ r = writeText t ++ l) : s = t ∧ r = l := by
  have hread := congrArg readText? h
  rw [readText?_writeText, readText?_writeText] at hread
  exact Prod.mk.inj (Option.some.inj hread)

theorem writeCount_append_inj {m n : Nat} {r l : Bytes}
    (h : writeCount m ++ r = writeCount n ++ l) : m = n ∧ r = l := by
  have hread := congrArg readCount? h
  rw [readCount?_writeCount, readCount?_writeCount] at hread
  exact Prod.mk.inj (Option.some.inj hread)

/-- What is written one after the other is told apart if each thing is, and their number is. -/
theorem flatMap_append_inj {α : Type} {write : α → Bytes}
    (hwrite : ∀ x y r l, write x ++ r = write y ++ l → x = y ∧ r = l) {xs ys : List α}
    (hlength : xs.length = ys.length) {r l : Bytes}
    (h : xs.flatMap write ++ r = ys.flatMap write ++ l) : xs = ys ∧ r = l := by
  -- The lengths agree, so neither list ends inside what the other one goes on to write.
  induction xs generalizing ys with
  | nil =>
    cases List.length_eq_zero_iff.mp hlength.symm
    exact ⟨rfl, h⟩
  | cons x xs ih =>
    cases ys with
    | nil => exact absurd hlength (Nat.succ_ne_zero _)
    | cons y ys =>
      rw [List.flatMap_cons, List.flatMap_cons, List.append_assoc, List.append_assoc] at h
      obtain ⟨rfl, hrest⟩ := hwrite _ _ _ _ h
      obtain ⟨rfl, hr⟩ := ih (Nat.succ.inj hlength) hrest
      exact ⟨rfl, hr⟩

end Fields

/-! ### Entries -/

namespace Build.Cache

open Fields

theorem ofName?_name (t : ArgType) : ArgType.ofName? t.name = some t := by
  cases t <;> decide

theorem readArgument?_writeArgument (a : Argument) (r : Bytes) :
    readArgument? (writeArgument a ++ r) = some (a, r) := by
  rw [writeArgument, List.append_assoc, List.append_assoc, readArgument?]
  simp only [Option.bind_eq_bind, readText?_writeText, Option.bind_some, ofName?_name]
  rfl

theorem readExport?_writeExport (e : Bytes × List Argument) (r : Bytes) :
    readExport? (writeExport e ++ r) = some (e, r) := by
  rw [writeExport, List.append_assoc, List.append_assoc, readExport?]
  simp only [Option.bind_eq_bind, read?_write, readCount?_writeCount, Option.bind_some,
    readMany?_flatMap fun a _ => readArgument?_writeArgument a]
  rfl

/-- An entry is read back as it was made. -/
theorem decode?_encode (version : Nat) (path : String) (out : Output) :
    decode? (encode version path out) = some (version, out) := by
  have hexports (r : Bytes) : readMany? read? out.exports.length
      (out.exports.flatMap write ++ r) = some (out.exports, r) :=
    readMany?_flatMap (fun e _ => read?_write e) r
  have harguments : readMany? readExport? out.arguments.length
      (out.arguments.flatMap writeExport) = some (out.arguments, []) := by
    rw [← List.append_nil (out.arguments.flatMap writeExport)]
    exact readMany?_flatMap (fun e _ => readExport?_writeExport e) []
  simp only [encode, List.append_assoc, decode?, Option.bind_eq_bind, readCount?_writeCount,
    readText?_writeText, Option.bind_some, hexports, harguments]
  rfl

end Build.Cache

end Phrasebook
