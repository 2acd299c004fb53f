/-!
Texts as bytes, and their reading as UTF-8. Reading never fails: a byte that starts no
well-formed sequence is kept as a stray byte of its own, so no text is lost.
-/
namespace Phrasebook

/-- A text as it is stored. The bytes need not be well-formed UTF-8. -/
abbrev Bytes := List UInt8

namespace Utf8

/-- What a byte text is read as: characters, and bytes that belong to none. -/
inductive Piece where
  | char (c : Char)
  | stray (b : UInt8)
  deriving DecidableEq

/-- The character shown for a stray byte. -/
def replacement : Char := '\uFFFD'

/-- Stray bytes are shown as the replacement character. -/
def Piece.shown : Piece → Char
  | .char c => c
  | .stray _ => replacement

def Piece.bytes : Piece → Bytes
  | .char c => String.utf8EncodeChar c
  | .stray b => [b]

def isContinuation (b : UInt8) : Bool :=
  0x80 ≤ b && b ≤ 0xBF

def payload (b : UInt8) : Nat :=
  b.toNat % 64

/-- The character of two bytes, if they are well formed. -/
def two? (a b : UInt8) : Option Char :=
  if 0xC2 ≤ a && a ≤ 0xDF && isContinuation b then
    some (Char.ofNat (a.toNat % 32 * 64 + payload b))
  else none

/-- The character of three bytes. Overlong forms and surrogates are refused. -/
def three? (a b c : UInt8) : Option Char :=
  if 0xE0 ≤ a && a ≤ 0xEF && isContinuation b && isContinuation c
      && (a != 0xE0 || 0xA0 ≤ b) && (a != 0xED || b ≤ 0x9F) then
    some (Char.ofNat ((a.toNat % 16 * 64 + payload b) * 64 + payload c))
  else none

/-- The character of four bytes. Overlong forms and values past U+10FFFF are refused. -/
def four? (a b c d : UInt8) : Option Char :=
  if 0xF0 ≤ a && a ≤ 0xF4 && isContinuation b && isContinuation c && isContinuation d
      && (a != 0xF0 || 0x90 ≤ b) && (a != 0xF4 || b ≤ 0x8F) then
    some (Char.ofNat (((a.toNat % 8 * 64 + payload b) * 64 + payload c) * 64 + payload d))
  else none

/-- The character that starts with `a` and goes on in `r`, and how many bytes of `r` it takes. -/
def read? (a : UInt8) (r : Bytes) : Option (Char × Nat) :=
  if a < 0x80 then some (Char.ofNat a.toNat, 0)
  else
    match r with
    | [] => none
    | [b] => (two? a b).map (·, 1)
    | [b, c] => ((two? a b).map (·, 1)).or ((three? a b c).map (·, 2))
    | b :: c :: d :: _ =>
      ((two? a b).map (·, 1)).or (((three? a b c).map (·, 2)).or ((four? a b c d).map (·, 3)))

/-- Reads a text of which the first `skip` bytes belong to a character already read. -/
def piecesAfter : Nat → Bytes → List Piece
  | _, [] => []
  | skip + 1, _ :: r => piecesAfter skip r
  | 0, a :: r =>
    match read? a r with
    | some (c, more) => .char c :: piecesAfter more r
    | none => .stray a :: piecesAfter 0 r

/-- Reads a well-formed sequence at each place, or one stray byte. -/
def pieces (bs : Bytes) : List Piece :=
  piecesAfter 0 bs

def encode (cs : List Char) : Bytes :=
  cs.flatMap String.utf8EncodeChar

/-- The characters of a well-formed text. -/
def decode? (bs : Bytes) : Option (List Char) :=
  (pieces bs).mapM fun
    | .char c => some c
    | .stray _ => none

/-- The characters as shown: each stray byte becomes the replacement character. -/
def shown (bs : Bytes) : List Char :=
  (pieces bs).map Piece.shown

/-- How many characters and stray bytes a text holds. -/
def count (bs : Bytes) : Nat :=
  (pieces bs).length

end Utf8

/-- The text as shown, with stray bytes replaced. -/
def Bytes.toText (bs : Bytes) : String :=
  String.ofList (Utf8.shown bs)

/-- The bytes of a string. -/
def Bytes.ofText (s : String) : Bytes :=
  s.toUTF8.toList

end Phrasebook
