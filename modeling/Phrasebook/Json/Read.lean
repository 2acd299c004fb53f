import Phrasebook.Text.Utf8

/-!
Reading JSON documents. The reader is strict, and every value keeps where its bytes stand. Strings
are kept as bytes: the reader looks at their escapes and at nothing else.
-/
namespace Phrasebook

/-- A JSON value with the half-open range of bytes that it is written in. Members stay in order,
and a key may come twice. -/
inductive LocatedJson where
  | null (start stop : Nat)
  | bool (start stop : Nat)
  | number (start stop : Nat)
  | string (start stop : Nat) (content : Bytes)
  | array (start stop : Nat) (items : List LocatedJson)
  | object (start stop : Nat) (members : List (Bytes × LocatedJson))

namespace LocatedJson

/-- The rest of a text and the offset that it starts at. -/
structure Place where
  offset : Nat
  rest : Bytes

def Place.skip (p : Place) (n : Nat) : Place :=
  ⟨p.offset + n, p.rest.drop n⟩

def isSpace (b : UInt8) : Bool :=
  b = 0x20 || b = 0x09 || b = 0x0A || b = 0x0D

def isDigit (b : UInt8) : Bool :=
  0x30 ≤ b && b ≤ 0x39

def Place.skipWhile (p : Place) (drop : UInt8 → Bool) : Place :=
  p.skip (p.rest.takeWhile drop).length

def Place.skipSpace (p : Place) : Place :=
  p.skipWhile isSpace

/-! ### Strings -/

def hexValue? (b : UInt8) : Option Nat :=
  if isDigit b then some (b.toNat - 0x30)
  else if 0x61 ≤ b && b ≤ 0x66 then some (b.toNat - 0x57)
  else if 0x41 ≤ b && b ≤ 0x46 then some (b.toNat - 0x37)
  else none

/-- The code unit of four hexadecimal digits. -/
def unit? (a b c d : UInt8) : Option Nat := do
  return (((← hexValue? a) * 16 + (← hexValue? b)) * 16 + (← hexValue? c)) * 16 + (← hexValue? d)

def isSurrogate (u : Nat) : Bool :=
  0xD800 ≤ u && u ≤ 0xDFFF

/-- The character of a pair of surrogates; any other pair stands for the replacement character. -/
def pairChar (high low : Nat) : Char :=
  if 0xD800 ≤ high && high ≤ 0xDBFF && 0xDC00 ≤ low && low ≤ 0xDFFF then
    Char.ofNat ((high - 0xD800) * 0x400 + (low - 0xDC00) + 0x10000)
  else Utf8.replacement

/-- The character of one unit; a surrogate stands for the replacement character. -/
def unitChar (u : Nat) : Char :=
  if isSurrogate u then Utf8.replacement else Char.ofNat u

/-- The byte of an escape of one letter. -/
def simpleEscape? (b : UInt8) : Option UInt8 :=
  match b with
  | 0x22 | 0x5C | 0x2F => some b
  | 0x62 => some 0x08
  | 0x66 => some 0x0C
  | 0x6E => some 0x0A
  | 0x72 => some 0x0D
  | 0x74 => some 0x09
  | _ => none

/-- The content of a string whose opening quote was read, and how many bytes it takes with its
closing quote. A surrogate takes the escaped unit that follows it along, whatever that is. -/
def string? : Bytes → Option (Bytes × Nat)
  | [] => none
  | 0x22 :: _ => some ([], 1)
  | 0x5C :: 0x75 :: a :: b :: c :: d :: 0x5C :: 0x75 :: e :: f :: g :: h :: r => do
    let u ← unit? a b c d
    if isSurrogate u then
      let low ← unit? e f g h
      let (content, n) ← string? r
      return (String.utf8EncodeChar (pairChar u low) ++ content, n + 12)
    else
      let (content, n) ← string? (0x5C :: 0x75 :: e :: f :: g :: h :: r)
      return (String.utf8EncodeChar (unitChar u) ++ content, n + 6)
  | 0x5C :: 0x75 :: a :: b :: c :: d :: r => do
    let u ← unit? a b c d
    let (content, n) ← string? r
    return (String.utf8EncodeChar (unitChar u) ++ content, n + 6)
  | 0x5C :: e :: r => do
    let b ← simpleEscape? e
    let (content, n) ← string? r
    return (b :: content, n + 2)
  | b :: r =>
    if b < 0x20 || b = 0x5C then none
    else do
      let (content, n) ← string? r
      return (b :: content, n + 1)

/-! ### Numbers and words -/

/-- The place behind the digits at a place; there must be one. -/
def digits? (p : Place) : Option Place :=
  match p.rest with
  | b :: _ => if isDigit b then some (p.skipWhile isDigit) else none
  | [] => none

/-- The place behind a number. -/
def number? (p : Place) : Option Place := do
  let p := if p.rest.head? = some 0x2D then p.skip 1 else p
  let p ← if p.rest.head? = some 0x30 then some (p.skip 1) else digits? p
  let p ← if p.rest.head? = some 0x2E then digits? (p.skip 1) else some p
  match p.rest with
  | e :: sign :: _ =>
    if e = 0x65 || e = 0x45 then
      digits? (p.skip (if sign = 0x2B || sign = 0x2D then 2 else 1))
    else some p
  | [e] => if e = 0x65 || e = 0x45 then none else some p
  | [] => some p

/-- The place behind a word. -/
def word? (w : String) (p : Place) : Option Place :=
  let bs := Bytes.ofText w
  if bs.isPrefixOf p.rest then some (p.skip bs.length) else none

/-! ### Values -/

/-- Reads the byte `b` with white space before it. -/
def token? (b : UInt8) (p : Place) : Option Place :=
  let p := p.skipSpace
  if p.rest.head? = some b then some (p.skip 1) else none

mutual

/-- Reads a value. Nesting, items and members use up fuel; more than twice the bytes left is
enough. -/
def value? (fuel : Nat) (p : Place) : Option (LocatedJson × Place) :=
  match fuel with
  | 0 => none
  | fuel + 1 =>
    let p := p.skipSpace
    match p.rest with
    | [] => none
    | 0x22 :: r => do
      let (content, n) ← string? r
      let q := p.skip (n + 1)
      return (.string p.offset q.offset content, q)
    | 0x5B :: _ => do
      let (items, q) ← match token? 0x5D (p.skip 1) with
        | some q => some ([], q)
        | none => items? fuel (p.skip 1)
      return (.array p.offset q.offset items, q)
    | 0x7B :: _ => do
      let (members, q) ← match token? 0x7D (p.skip 1) with
        | some q => some ([], q)
        | none => members? fuel (p.skip 1)
      return (.object p.offset q.offset members, q)
    | 0x74 :: _ => (word? "true" p).map fun q => (.bool p.offset q.offset, q)
    | 0x66 :: _ => (word? "false" p).map fun q => (.bool p.offset q.offset, q)
    | 0x6E :: _ => (word? "null" p).map fun q => (.null p.offset q.offset, q)
    | _ => (number? p).map fun q => (.number p.offset q.offset, q)

/-- Reads the items of an array up to its closing bracket. -/
def items? (fuel : Nat) (p : Place) : Option (List LocatedJson × Place) :=
  match fuel with
  | 0 => none
  | fuel + 1 => do
    let (v, p) ← value? fuel p
    match token? 0x5D p with
    | some p => return ([v], p)
    | none =>
      let (vs, p) ← items? fuel (← token? 0x2C p)
      return (v :: vs, p)

/-- Reads the members of an object up to its closing brace. -/
def members? (fuel : Nat) (p : Place) : Option (List (Bytes × LocatedJson) × Place) :=
  match fuel with
  | 0 => none
  | fuel + 1 => do
    let p ← token? 0x22 p
    let (key, n) ← string? p.rest
    let (v, p) ← value? fuel (← token? 0x3A (p.skip n))
    match token? 0x7D p with
    | some p => return ([(key, v)], p)
    | none =>
      let (vs, p) ← members? fuel (← token? 0x2C p)
      return ((key, v) :: vs, p)

end

/-- The document that a text holds, if it is well formed. -/
def read? (bs : Bytes) : Option LocatedJson := do
  let (v, p) ← value? (2 * bs.length + 2) ⟨0, bs⟩
  if p.skipSpace.rest.isEmpty then some v else none

end LocatedJson

end Phrasebook
