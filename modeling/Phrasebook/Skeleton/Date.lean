import Phrasebook.Skeleton.Number

/-!
Date and time skeletons: runs of equal pattern letters, such as `yMMMd` or `EEEE HH:mm`. The length
of a run chooses the style of its field; separators say nothing.
-/
namespace Phrasebook.Skeleton

def numericStyle (n : Nat) : String :=
  if n = 2 then "2-digit" else "numeric"

def widthStyle (n : Nat) : String :=
  match n with
  | 1 => "numeric"
  | 2 => "2-digit"
  | 3 => "short"
  | 4 => "long"
  | _ => "narrow"

/-- Names are short up to three letters, long at four, and narrow above. -/
def nameStyle (n : Nat) : String :=
  if n ≤ 3 then "short" else if n = 4 then "long" else "narrow"

def hourChange (cycle : String) (n : Nat) : Change :=
  texts [("hourCycle", cycle), ("hour", numericStyle n)]

/-- What `n` letters in a row do. -/
def fieldChange (field : Char) (n : Nat) : Change :=
  match field with
  | ' ' | '\t' | ',' | ':' | '-' | '/' | '.' => .ok
  | 'G' => texts [("era", nameStyle n)]
  | 'y' | 'Y' | 'u' => texts [("year", numericStyle n)]
  | 'M' | 'L' => texts [("month", widthStyle n)]
  | 'd' => texts [("day", numericStyle n)]
  | 'E' => texts [("weekday", nameStyle n)]
  | 'e' | 'c' =>
    if n < 3 then fun _ => .error "numeric weekday is not supported"
    else texts [("weekday", nameStyle n)]
  | 'a' => fun o => .ok (o.set "hour12" (.flag true))
  | 'h' => hourChange "h12" n
  | 'H' => hourChange "h23" n
  | 'K' => hourChange "h11" n
  | 'k' => hourChange "h24" n
  | 'j' | 'J' | 'C' => texts [("hour", numericStyle n)]
  | 'm' => texts [("minute", numericStyle n)]
  | 's' => texts [("second", numericStyle n)]
  | 'S' =>
    if n > 3 then fun _ => .error "at most three fractional second digits"
    else fun o => .ok (o.setCount "fractionalSecondDigits" n)
  | 'z' => texts [("timeZoneName", if n < 4 then "short" else "long")]
  | 'Z' | 'O' | 'v' | 'V' | 'X' | 'x' => texts [("timeZoneName", "short")]
  | '\'' => fun _ => .error "quoted literals are not allowed in skeletons"
  | 'w' | 'W' | 'D' | 'F' | 'g' | 'Q' | 'q' | 'A' | 'b' | 'B' =>
    fun _ => .error "field is not supported by Intl.DateTimeFormat"
  | _ => fun _ => .error "unknown date skeleton field"

/-- Runs of equal characters and their lengths. -/
def runs : List Char → List (Char × Nat)
  | [] => []
  | c :: r =>
    match runs r with
    | (d, n) :: rest => if c = d then (d, n + 1) :: rest else (c, 1) :: (d, n) :: rest
    | [] => [(c, 1)]

/-- Applies the runs of a skeleton from the byte offset on. -/
def applyRuns (o : FormatOptions) (offset : Nat) :
    List (Char × Nat) → Except Fault FormatOptions
  | [] => .ok o
  | (c, n) :: r =>
    match fieldChange c n o with
    | .ok o => applyRuns o (offset + n * c.utf8Size) r
    | .error reason => .error ⟨offset, String.ofList (List.replicate n c), reason⟩

/-- The formatter options of a date or time skeleton. -/
def parseDate (cs : List Char) : Except Fault FormatOptions :=
  applyRuns [] 0 (runs cs)

end Phrasebook.Skeleton
