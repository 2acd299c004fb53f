import Phrasebook.Text.Quoted

/-!
Reading whole numbers and truth values that a user has typed.
-/
namespace Phrasebook.Decimal

/-- Why a text is no number of the wanted kind. -/
inductive TypedFault where
  | malformed
  | outOfRange
  deriving DecidableEq

def TypedFault.message : TypedFault → String
  | .malformed => "invalid syntax"
  | .outOfRange => "value out of range"

/-- The value of a digit; letters go on after nine. -/
def digitValue? (c : Char) : Option Nat :=
  if c.isDigit then some (c.toNat - '0'.toNat)
  else if c.isAlpha then some (c.toLower.toNat - 'a'.toNat + 10)
  else none

/-- Reads digits on top of `n`. Once the number is too large, nothing behind it is looked at. -/
def magnitude (base limit : Nat) (n : Nat) : List Char → Except TypedFault Nat
  | [] => .ok n
  | c :: r =>
    match digitValue? c with
    | none => .error .malformed
    | some d =>
      if d ≥ base then .error .malformed
      else if n * base + d ≥ limit then .error .outOfRange
      else magnitude base limit (n * base + d) r

/-- Low lines divide digits; one may follow the mark of a base. -/
def lowLinesDivide (isDigit : Char → Bool) (afterDigit : Bool) : List Char → Bool
  | [] => true
  | '_' :: c :: r => afterDigit && isDigit c && lowLinesDivide isDigit true r
  | '_' :: [] => false
  | c :: r => lowLinesDivide isDigit (isDigit c) r

/-- The base that a number announces, and its digits. A zero in front announces base eight. -/
def announcedBase (cs : List Char) : Nat × List Char :=
  match cs with
  | '0' :: c :: d :: r =>
    match c.toLower with
    | 'b' => (2, d :: r)
    | 'o' => (8, d :: r)
    | 'x' => (16, d :: r)
    | _ => (8, c :: d :: r)
  | '0' :: r => (8, r)
  | _ => (10, cs)

/-- A number without sign below `limit`. With `free` it may announce a base and hold low lines. -/
def unsigned (free : Bool) (limit : Nat) (cs : List Char) : Except TypedFault Nat :=
  if cs.isEmpty then .error .malformed
  else if free then do
    let (base, ds) := announcedBase cs
    let n ← magnitude base limit 0 (ds.filter (· != '_'))
    let marked := base != 10 && ds.length + 2 == cs.length
    let isDigit (c : Char) : Bool := c.isDigit || (base == 16 && (digitValue? c).any (· < 16))
    if lowLinesDivide isDigit marked (if marked then ds else cs) then .ok n else .error .malformed
  else magnitude 10 limit 0 cs

/-- A number with a sign that fits into a word of so many bits. -/
def signed (free : Bool) (bits : Nat) (s : String) : Except TypedFault Int := do
  let (negative, cs) := match s.toList with
    | '-' :: r => (true, r)
    | '+' :: r => (false, r)
    | cs => (false, cs)
  let n ← unsigned free (Nat.pow 2 bits) cs
  let half := Nat.pow 2 (bits - 1)
  if n > half || (n == half && !negative) then .error .outOfRange
  else .ok (if negative then -(n : Int) else n)

/-- The spellings of a truth value. -/
def truth (s : String) : Except TypedFault Bool :=
  if ["1", "t", "T", "TRUE", "true", "True"].contains s then .ok true
  else if ["0", "f", "F", "FALSE", "false", "False"].contains s then .ok false
  else .error .malformed

/-- How a fault is told, with the text that was refused. -/
def signedMessage (s : String) (f : TypedFault) : String :=
  s!"strconv.ParseInt: parsing {Text.quote s}: {f.message}"

def truthMessage (s : String) (f : TypedFault) : String :=
  s!"strconv.ParseBool: parsing {Text.quote s}: {f.message}"

end Phrasebook.Decimal
