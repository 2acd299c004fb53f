import Phrasebook.Text.Normal.Class
import Phrasebook.Text.Normal.Decomposition
import Phrasebook.Text.Utf8

/-!
Canonical composition (normalization form C): decompose, order the marks of each starter by
their class, compose again. Runs of more than thirty marks are broken by a grapheme joiner, so
that every run stays within the bound of stream-safe text.
-/
namespace Phrasebook.Text

namespace Hangul

def base : Nat := 0xAC00
def leads : Nat := 0x1100
def vowels : Nat := 0x1161
def tails : Nat := 0x11A7

def decompose? (n : Nat) : Option (List Nat) :=
  if base ≤ n && n < base + 11172 then
    let i := n - base
    let lv := [leads + i / 588, vowels + i % 588 / 28]
    some (if i % 28 = 0 then lv else lv ++ [tails + i % 28])
  else none

def compose? (a b : Nat) : Option Nat :=
  if leads ≤ a && a < leads + 19 && vowels ≤ b && b < vowels + 21 then
    some (base + ((a - leads) * 21 + (b - vowels)) * 28)
  else if base ≤ a && a < base + 11172 && (a - base) % 28 = 0 && tails < b && b < tails + 28 then
    some (a + (b - tails))
  else none

end Hangul

/-- One step of decomposition, if there is one. -/
def decomposeOnce? (n : Nat) : Option (List Nat) :=
  if n < 0xC0 then none
  else if let some l := Hangul.decompose? n then some l
  else if let some (a, b, _) := composites.find? fun (_, _, c) => c == n then some [a, b]
  else if let some (a, b, _) := excludedComposites.find? fun (_, _, c) => c == n then some [a, b]
  else ((singletons.find? (·.1 == n)).orElse fun _ =>
    (ideographs.find? (·.1 == n)).orElse fun _ =>
      supplementaryIdeographs.find? (·.1 == n)).map fun (_, a) => [a]

/-- Decomposition steps nest at most this deep in the tables. -/
def decompositionDepth : Nat := 4

def decomposeWithin : Nat → Nat → List Nat
  | 0, n => [n]
  | depth + 1, n =>
    match decomposeOnce? n with
    | some l => l.flatMap (decomposeWithin depth)
    | none => [n]

def decompose (c : Char) : List Char :=
  if c.toNat < 0xC0 then [c]
  else (decomposeWithin decompositionDepth c.toNat).map Char.ofNat

def compose? (a b : Char) : Option Char :=
  match Hangul.compose? a.toNat b.toNat with
  | some n => some (Char.ofNat n)
  | none =>
    (composites.find? fun (x, y, _) => x == a.toNat && y == b.toNat).map
      fun (_, _, c) => Char.ofNat c

/-- A character that attaches to what stands before it: a mark, or the second half of a
composite. -/
def attaches (c : Char) : Bool :=
  combiningClass c != 0 ||
    (0x300 ≤ c.toNat && (composites.any (fun (_, b, _) => b == c.toNat) ||
      (Hangul.vowels ≤ c.toNat && c.toNat < Hangul.vowels + 21) ||
      (Hangul.tails < c.toNat && c.toNat < Hangul.tails + 28)))

/-- The longest run of attaching characters in stream-safe text. -/
def maxAttached : Nat := 30

def graphemeJoiner : Char := '\u034F'

/-- Breaks overlong runs; `run` attaching characters stand before the text. -/
def streamSafe : Nat → List Char → List Char
  | _, [] => []
  | run, c :: r =>
    let d := decompose c
    let lead := (d.takeWhile attaches).length
    if lead = 0 then c :: streamSafe (d.reverse.takeWhile attaches).length r
    else if run + lead > maxAttached then graphemeJoiner :: c :: streamSafe lead r
    else c :: streamSafe (run + lead) r

/-- Puts a mark behind all marks of the same or a lower class at the end of a reversed run. -/
def insertMark (c : Char) : List Char → List Char
  | [] => [c]
  | d :: r =>
    if combiningClass c != 0 && combiningClass c < combiningClass d then d :: insertMark c r
    else c :: d :: r

/-- Canonical order: the marks of each starter by ascending class, equal classes as they stand. -/
def ordered (cs : List Char) : List Char :=
  (cs.foldl (fun done c => insertMark c done) []).reverse

/-- The text composed so far: what stands before the last starter (reversed), the starter, the
marks behind it (reversed), and the class of the last of those. -/
structure Composing where
  before : List Char
  starter : Option Char
  marks : List Char
  last : Nat

def Composing.empty : Composing := ⟨[], none, [], 0⟩

def Composing.flush (s : Composing) : List Char :=
  s.marks ++ s.starter.toList ++ s.before

/-- A character joins the last starter unless a mark of no lower class stands between. -/
def Composing.push (s : Composing) (c : Char) : Composing :=
  let k := combiningClass c
  match s.starter with
  | some st =>
    let blocked := !s.marks.isEmpty && (k = 0 || s.last ≥ k)
    match if blocked then none else compose? st c with
    | some x => { s with starter := some x }
    | none =>
      if k = 0 then ⟨s.flush, some c, [], 0⟩
      else { s with marks := c :: s.marks, last := k }
  | none =>
    if k = 0 then ⟨s.flush, some c, [], 0⟩
    else { s with before := c :: s.before }

def composed (cs : List Char) : List Char :=
  (cs.foldl Composing.push Composing.empty).flush.reverse

/-- Normalization form C of a run of characters. -/
def normalize (cs : List Char) : List Char :=
  if cs.all (·.toNat < 0x300) then cs
  else composed (ordered ((streamSafe 0 cs).flatMap decompose))

/-- Normalizes the runs of characters between stray bytes, given the reversed run so far. -/
def normalizePieces : List Char → List Utf8.Piece → Bytes
  | run, [] => Utf8.encode (normalize run.reverse)
  | run, .char c :: r => normalizePieces (c :: run) r
  | run, .stray b :: r => Utf8.encode (normalize run.reverse) ++ b :: normalizePieces [] r

/-- Normalization form C of a byte text. Stray bytes stay where they are. -/
def normalizeBytes (bs : Bytes) : Bytes :=
  normalizePieces [] (Utf8.pieces bs)

end Phrasebook.Text
