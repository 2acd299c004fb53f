import Phrasebook.Decimal.Read
import Phrasebook.Text.Blank

/-!
TOML documents as statements: headers of tables and assignments, in the order of the text. What
the statements define together is not looked at here.
-/
namespace Phrasebook.Toml

/-- The parts of a dotted key. -/
abbrev Key := List String

/-- A value as it is written. A point in time is kept as it is shown. -/
inductive Written where
  | text (s : String)
  | integer (n : Int)
  | float (x : Float)
  | bool (b : Bool)
  | moment (shown : String)
  | array (items : List Written)
  | inline (entries : List (Key × Written))

inductive Statement where
  | table (key : Key)
  | tableOfArray (key : Key)
  | assign (key : Key) (value : Written)

/-! ### Blanks -/

def isSpace (c : Char) : Bool :=
  c = ' ' || c = '\t'

def isLineEnd (c : Char) : Bool :=
  c = '\n' || c = '\r'

/-- A control character that stands nowhere in a document. -/
def isControl (c : Char) : Bool :=
  (c.toNat < 0x20 && c != '\t' && c != '\n' && c != '\r') || c = '\x7f'

/-- A carriage return only stands before a line feed. -/
def lineEndsAreWhole : List Char → Bool
  | [] => true
  | '\r' :: '\n' :: r => lineEndsAreWhole r
  | '\r' :: _ => false
  | _ :: r => lineEndsAreWhole r

def skipSpace (cs : List Char) : List Char :=
  cs.dropWhile isSpace

def skipComment (cs : List Char) : List Char :=
  match cs with
  | '#' :: r => r.dropWhile (!isLineEnd ·)
  | _ => cs

/-- Skips blanks, line ends and comments. -/
def skipLines (fuel : Nat) (cs : List Char) : List Char :=
  match fuel with
  | 0 => cs
  | fuel + 1 =>
    match cs.dropWhile fun c => isSpace c || isLineEnd c with
    | '#' :: r => skipLines fuel (skipComment ('#' :: r))
    | r => r

/-! ### Strings -/

def hexChar? (ds : List Char) : Option Char :=
  if ds.all Decimal.isHexDigit then
    let n := ds.foldl (fun n d => n * 16 + Decimal.hexValue d) 0
    if n.isValidChar then some (Char.ofNat n) else none
  else none

/-- The character of an escape behind its backslash. -/
def escape? : List Char → Option (Char × List Char)
  | 'b' :: r => some ('\x08', r)
  | 't' :: r => some ('\t', r)
  | 'n' :: r => some ('\n', r)
  | 'f' :: r => some ('\x0c', r)
  | 'r' :: r => some ('\r', r)
  | '"' :: r => some ('"', r)
  | '\\' :: r => some ('\\', r)
  | 'u' :: a :: b :: c :: d :: r => (hexChar? [a, b, c, d]).map (·, r)
  | 'U' :: a :: b :: c :: d :: e :: f :: g :: h :: r =>
    (hexChar? [a, b, c, d, e, f, g, h]).map (·, r)
  | _ => none

/-- A string on one line, behind its opening quote. -/
def basic? (fuel : Nat) (cs : List Char) : Option (List Char × List Char) :=
  match fuel, cs with
  | 0, _ | _, [] => none
  | _, '"' :: r => some ([], r)
  | fuel + 1, '\\' :: r => do
    let (c, r) ← escape? r
    let (s, r) ← basic? fuel r
    return (c :: s, r)
  | fuel + 1, c :: r =>
    if isLineEnd c then none
    else do
      let (s, r) ← basic? fuel r
      return (c :: s, r)

/-- A string without escapes on one line, behind its opening quote. -/
def literal? (cs : List Char) : Option (List Char × List Char) :=
  let body := cs.takeWhile fun c => c != '\'' && !isLineEnd c
  match cs.drop body.length with
  | '\'' :: r => some (body, r)
  | _ => none

/-- A closing run of three to five quotes: the quotes that still belong to the string, and the
rest. Fewer quotes close nothing, more are an error. -/
inductive Closing where
  | none
  | closed (inside : List Char) (rest : List Char)
  | tooMany

def closing (quote : Char) (cs : List Char) : Closing :=
  let n := (cs.takeWhile (· == quote)).length
  if n < 3 then .none
  else if n < 6 then .closed (List.replicate (n - 3) quote) (cs.drop n)
  else .tooMany

/-- What is left behind a backslash that ends its line. -/
def continued? (cs : List Char) : Option (List Char) :=
  let blank := cs.takeWhile fun c => isSpace c || isLineEnd c
  if blank.contains '\n' then some (cs.drop blank.length) else none

/-- A string of several lines, behind its opening quotes. -/
def multiBasic? (fuel : Nat) (cs : List Char) : Option (List Char × List Char) :=
  match fuel, cs with
  | 0, _ | _, [] => none
  | fuel + 1, '\\' :: r =>
    match continued? r with
    | some r => multiBasic? fuel r
    | none => do
      let (c, r) ← escape? r
      let (s, r) ← multiBasic? fuel r
      return (c :: s, r)
  | fuel + 1, c :: r =>
    match closing '"' (c :: r) with
    | .closed inside rest => some (inside, rest)
    | .tooMany => none
    | .none => do
      let (s, r) ← multiBasic? fuel r
      return (c :: s, r)

/-- A string of several lines without escapes, behind its opening quotes. -/
def multiLiteral? : List Char → Option (List Char × List Char)
  | [] => none
  | c :: r =>
    match closing '\'' (c :: r) with
    | .closed inside rest => some (inside, rest)
    | .tooMany => none
    | .none => do
      let (s, r) ← multiLiteral? r
      return (c :: s, r)

/-- A line end right behind the opening quotes does not count. -/
def dropFirstLineEnd : List Char → List Char
  | '\n' :: r => r
  | '\r' :: '\n' :: r => r
  | cs => cs

/-! ### Keys -/

def isBare (c : Char) : Bool :=
  c.isAlphanum || c = '_' || c = '-'

def keyPart? (cs : List Char) : Option (String × List Char) :=
  match cs with
  | '"' :: r => (basic? (r.length + 1) r).map fun (s, r) => (String.ofList s, r)
  | '\'' :: r => (literal? r).map fun (s, r) => (String.ofList s, r)
  | _ =>
    let name := cs.takeWhile isBare
    if name.isEmpty then none else some (String.ofList name, cs.drop name.length)

/-- A dotted key and what follows it. -/
def key? (fuel : Nat) (cs : List Char) : Option (Key × List Char) :=
  match fuel with
  | 0 => none
  | fuel + 1 => do
    let (part, r) ← keyPart? (skipSpace cs)
    match skipSpace r with
    | '.' :: r => do
      let (parts, r) ← key? fuel r
      return (part :: parts, r)
    | r => return ([part], r)

/-! ### Numbers -/

/-- Low lines stand between digits only; they are dropped. -/
def digits? (isDigit : Char → Bool) (cs : List Char) : Option (List Char) :=
  let isPlain (part : List Char) : Bool := !part.isEmpty && part.all isDigit
  let parts := Text.splitAt '_' cs
  if parts.all isPlain then some parts.flatten else none

def splitSign (cs : List Char) : Bool × List Char :=
  match cs with
  | '-' :: r => (true, r)
  | '+' :: r => (false, r)
  | _ => (false, cs)

def number (base : Nat) (ds : List Char) : Nat :=
  ds.foldl (fun n d => n * base + Decimal.hexValue d) 0

/-- Whole numbers have 64 bits. -/
def integer64? (n : Int) : Option Written :=
  let limit : Int := Nat.pow 2 63
  if -limit ≤ n && n < limit then some (.integer n) else none

/-- A whole number; only decimal ones have a sign, and they start with no zero. -/
def integer? (cs : List Char) : Option Written :=
  let based (base : Nat) (isDigit : Char → Bool) (r : List Char) : Option Written := do
    integer64? (number base (← digits? isDigit r))
  match cs with
  | '0' :: 'x' :: r => based 16 Decimal.isHexDigit r
  | '0' :: 'o' :: r => based 8 (fun c => '0' ≤ c && c ≤ '7') r
  | '0' :: 'b' :: r => based 2 (fun c => c = '0' || c = '1') r
  | _ => do
    let (negative, r) := splitSign cs
    let ds ← digits? Char.isDigit r
    if ds.length > 1 && ds.head? == some '0' then none
    else
      let n : Int := number 10 ds
      integer64? (if negative then -n else n)

/-- A number with a fraction or an exponent, or a name of one that is none. -/
def float? (cs : List Char) : Option Written := do
  let (negative, r) := splitSign cs
  if r = "inf".toList then return .float (if negative then -1.0 / 0.0 else 1.0 / 0.0)
  if r = "nan".toList then return .float (0.0 / 0.0)
  let isExp := fun c => c = 'e' || c = 'E'
  let mantissa := r.takeWhile (!isExp ·)
  let exponent := r.drop mantissa.length
  let (whole, fraction) := (mantissa.takeWhile (· != '.'), mantissa.dropWhile (· != '.'))
  let wholeDigits ← digits? Char.isDigit whole
  if wholeDigits.length > 1 && wholeDigits.head? == some '0' then none
  let fractionDigits ← match fraction with
    | [] => some []
    | _ :: f => (digits? Char.isDigit f).map ('.' :: ·)
  let exponentDigits ← match exponent with
    | [] => some []
    | _ :: e =>
      let (minus, ds) := splitSign e
      (digits? Char.isDigit ds).map fun ds => 'e' :: (if minus then ['-'] else []) ++ ds
  if fraction.isEmpty && exponent.isEmpty then none
  let x ← Decimal.read? (wholeDigits ++ fractionDigits ++ exponentDigits)
  return .float (if negative then -x else x)

/-! ### Points in time -/

def fixedDigits? (n : Nat) (cs : List Char) : Option (Nat × List Char) :=
  let ds := cs.take n
  if ds.length = n && ds.all Char.isDigit then some (number 10 ds, cs.drop n) else none

def isLeap (year : Nat) : Bool :=
  (year % 4 == 0 && year % 100 != 0) || year % 400 == 0

def daysIn (year month : Nat) : Nat :=
  if month = 2 then if isLeap year then 29 else 28
  else if [4, 6, 9, 11].contains month then 30 else 31

/-- `2024-02-29` and what follows it. -/
def date? (cs : List Char) : Option (String × List Char) := do
  let (year, r) ← fixedDigits? 4 cs
  let '-' :: r := r | none
  let (month, r) ← fixedDigits? 2 r
  let '-' :: r := r | none
  let (day, r) ← fixedDigits? 2 r
  if 1 ≤ month && month ≤ 12 && 1 ≤ day && day ≤ daysIn year month then
    some (String.ofList (cs.take 10), r)
  else none

/-- `10:20:30.5` and what follows it. Zeros at the end of a fraction are not shown. -/
def time? (cs : List Char) : Option (String × List Char) := do
  let (hour, r) ← fixedDigits? 2 cs
  let ':' :: r := r | none
  let (minute, r) ← fixedDigits? 2 r
  let ':' :: r := r | none
  let (second, r) ← fixedDigits? 2 r
  if hour ≥ 24 || minute ≥ 60 || second ≥ 60 then none
  let shown := String.ofList (cs.take 8)
  match r with
  | '.' :: f =>
    let ds := f.takeWhile Char.isDigit
    let kept := Text.trimRight (· == '0') (ds.take 9)
    if ds.isEmpty then none
    else some (shown ++ (if kept.isEmpty then "" else "." ++ String.ofList kept), f.drop ds.length)
  | _ => some (shown, r)

/-- The zone of a time as shown: `+0000 UTC`, `+0130 +0130`. -/
def zone? (cs : List Char) : Option (String × List Char) :=
  match cs with
  | 'Z' :: r | 'z' :: r => some ("+0000 UTC", r)
  | sign :: r =>
    if sign = '+' || sign = '-' then do
      let (hour, r) ← fixedDigits? 2 r
      let ':' :: r := r | none
      let (minute, r) ← fixedDigits? 2 r
      if hour > 24 || minute ≥ 60 then none
      else
        let offset := String.ofList (sign :: cs.tail.take 2 ++ (cs.drop 4).take 2)
        some (if hour = 0 && minute = 0 then "+0000 UTC" else offset ++ " " ++ offset, r)
    else none
  | [] => none

/-- A date, a time of day, or both with or without a zone. -/
def moment? (cs : List Char) : Option Written :=
  let timeOfDay : Option Written := do
    let (t, []) ← time? cs | none
    return .moment ("0000-01-01 " ++ t ++ " +0000 time-local")
  let dated : Option Written := do
    let (d, r) ← date? cs
    match r with
    | [] => return .moment (d ++ " 00:00:00 +0000 date-local")
    | sep :: r =>
      if sep != 'T' && sep != 't' && sep != ' ' then none
      let (t, r) ← time? r
      match r with
      | [] => return .moment (d ++ " " ++ t ++ " +0000 datetime-local")
      | _ => do
        let (z, []) ← zone? r | none
        return .moment (d ++ " " ++ t ++ " " ++ z)
  dated.or timeOfDay

/-! ### Values -/

def endsWord (c : Char) : Bool :=
  isSpace c || isLineEnd c || [',', ']', '}', '#', '='].contains c

/-- A value that is one word. A date and a time may have a blank between them. -/
def word? (cs : List Char) : Option (Written × List Char) :=
  let w := cs.takeWhile (!endsWord ·)
  let rest := cs.drop w.length
  let plain := if w = "true".toList then some (.bool true)
    else if w = "false".toList then some (.bool false)
    else (integer? w).or ((float? w).or (moment? w))
  let joined := match rest with
    | ' ' :: r =>
      let t := r.takeWhile (!endsWord ·)
      if (date? w).any (·.2.isEmpty) && t.head?.any Char.isDigit then
        some (w ++ ' ' :: t, r.drop t.length)
      else none
    | _ => none
  match joined with
  | some (both, rest) => (moment? both).map (·, rest)
  | none => plain.map (·, rest)

mutual

/-- Reads a value. Nesting and items use up fuel; more than twice the characters left is enough. -/
def value? (fuel : Nat) (cs : List Char) : Option (Written × List Char) :=
  match fuel with
  | 0 => none
  | fuel + 1 =>
    let strung (r : Option (List Char × List Char)) : Option (Written × List Char) :=
      r.map fun (s, r) => (.text (String.ofList s), r)
    match cs with
    | '"' :: '"' :: '"' :: r => strung (multiBasic? (r.length + 1) (dropFirstLineEnd r))
    | '"' :: r => strung (basic? (r.length + 1) r)
    | '\'' :: '\'' :: '\'' :: r => strung (multiLiteral? (dropFirstLineEnd r))
    | '\'' :: r => strung (literal? r)
    | '[' :: r => (items? fuel r).map fun (vs, r) => (.array vs, r)
    | '{' :: r =>
      match skipSpace r with
      | '}' :: r => some (.inline [], r)
      | r => (entries? fuel r).map fun (es, r) => (.inline es, r)
    | _ => word? cs

/-- Reads the items of an array up to its closing bracket. -/
def items? (fuel : Nat) (cs : List Char) : Option (List Written × List Char) :=
  match fuel with
  | 0 => none
  | fuel + 1 =>
    match skipLines cs.length cs with
    | ']' :: r => some ([], r)
    | r => do
      let (v, r) ← value? fuel r
      match skipLines r.length r with
      | ']' :: r => return ([v], r)
      | ',' :: r => do
        let (vs, r) ← items? fuel r
        return (v :: vs, r)
      | _ => none

/-- Reads the entries of an inline table up to its closing brace. -/
def entries? (fuel : Nat) (cs : List Char) : Option (List (Key × Written) × List Char) :=
  match fuel with
  | 0 => none
  | fuel + 1 => do
    let (k, r) ← key? cs.length cs
    let '=' :: r := r | none
    let (v, r) ← value? fuel (skipSpace r)
    match skipSpace r with
    | '}' :: r => return ([(k, v)], r)
    | ',' :: r => do
      let (es, r) ← entries? fuel r
      return ((k, v) :: es, r)
    | _ => none

end

/-! ### Documents -/

/-- Nothing but a comment follows on the line. -/
def lineRest? (cs : List Char) : Option (List Char) :=
  match skipComment (skipSpace cs) with
  | [] => some []
  | c :: r => if isLineEnd c then some (c :: r) else none

def statement? (cs : List Char) : Option (Statement × List Char) := do
  let (s, r) ← match cs with
    | '[' :: '[' :: r => do
      let (k, r) ← key? r.length r
      let ']' :: ']' :: r := r | none
      some (.tableOfArray k, r)
    | '[' :: r => do
      let (k, r) ← key? r.length r
      let ']' :: r := r | none
      some (.table k, r)
    | _ => do
      let (k, r) ← key? cs.length cs
      let '=' :: r := r | none
      let (v, r) ← value? (2 * r.length + 2) (skipSpace r)
      some (.assign k v, r)
  return (s, ← lineRest? r)

def statements? (fuel : Nat) (cs : List Char) : Option (List Statement) :=
  match fuel with
  | 0 => none
  | fuel + 1 =>
    match skipLines cs.length cs with
    | [] => some []
    | r => do
      let (s, r) ← statement? r
      return s :: (← statements? fuel r)

/-- The statements of a document. A byte order mark in front does not count. -/
def read? (cs : List Char) : Option (List Statement) :=
  let cs := if cs.head? = some '\uFEFF' then cs.tail else cs
  if cs.any isControl || !lineEndsAreWhole cs then none else statements? (cs.length + 1) cs

end Phrasebook.Toml
