import Phrasebook.Text.Utf8

/-!
Fields of any bytes one after the other: each has its length and a colon in front, so where it ends
never depends on what it holds.
-/
namespace Phrasebook.Fields

def colon : UInt8 := 0x3A

def write (field : Bytes) : Bytes :=
  Bytes.ofText (toString field.length) ++ colon :: field

def writeText (field : String) : Bytes :=
  write (Bytes.ofText field)

def writeCount (n : Nat) : Bytes :=
  writeText (toString n)

def isDigit (b : UInt8) : Bool :=
  0x30 ≤ b && b ≤ 0x39

def number (digits : Bytes) : Nat :=
  digits.foldl (fun n b => n * 10 + (b.toNat - 0x30)) 0

/-- The first field and what follows it. -/
def read? (bs : Bytes) : Option (Bytes × Bytes) :=
  let digits := bs.takeWhile isDigit
  match bs.dropWhile isDigit with
  | b :: r =>
    let n := number digits
    if b = colon && !digits.isEmpty && n ≤ r.length then some (r.take n, r.drop n) else none
  | [] => none

def readText? (bs : Bytes) : Option (String × Bytes) := do
  let (field, r) ← read? bs
  return (String.ofList (← Utf8.decode? field), r)

def readCount? (bs : Bytes) : Option (Nat × Bytes) := do
  let (field, r) ← read? bs
  if field.isEmpty || !field.all isDigit then none else some (number field, r)

/-- Reads `n` things one after the other. -/
def readMany? {α : Type} (read : Bytes → Option (α × Bytes)) : Nat → Bytes → Option (List α × Bytes)
  | 0, bs => some ([], bs)
  | n + 1, bs => do
    let (x, r) ← read bs
    let (xs, r) ← readMany? read n r
    return (x :: xs, r)

end Phrasebook.Fields
