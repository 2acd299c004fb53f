import Phrasebook.Text.Blank

/-!
Texts without the times in them, so that what two runs print can be compared.
-/
namespace Phrasebook.Timing

def isGap (c : Char) : Bool :=
  [' ', '\t', '\n', '\r', '\x0c'].contains c

/-- What follows a duration such as `12.5 ms`, blanks in front of it included. -/
def afterDuration? (cs : List Char) : Option (List Char) :=
  let number := cs.dropWhile isGap
  let whole := number.takeWhile Char.isDigit
  match number.drop whole.length with
  | '.' :: r =>
    let fraction := r.takeWhile Char.isDigit
    match r.drop fraction.length with
    | ' ' :: 'm' :: 's' :: rest => if whole.isEmpty || fraction.isEmpty then none else some rest
    | _ => none
  | _ => none

/-- Puts `N` for the number of every duration. -/
def maskFrom (fuel : Nat) (cs : List Char) : List Char :=
  match fuel, cs with
  | 0, _ | _, [] => []
  | fuel + 1, c :: r =>
    match afterDuration? (c :: r) with
    | some rest => " N ms".toList ++ maskFrom fuel rest
    | none => c :: maskFrom fuel r

def masked (s : String) : String :=
  String.ofList (maskFrom s.length s.toList)

end Phrasebook.Timing
