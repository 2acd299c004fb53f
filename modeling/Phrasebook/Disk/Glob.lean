import Phrasebook.Disk.Basic

/-!
Path patterns: a star stands for any characters of one name, a question mark for one of them, and
brackets for one out of a set. A backslash takes the character after it as it is.
-/
namespace Phrasebook.Glob

inductive Token where
  | star
  | any
  | char (c : Char)
  | set (negated : Bool) (ranges : List (Char × Char))

/-- One end of a range inside brackets, which something has to follow. -/
def bound? : List Char → Option (Char × List Char)
  | [] | ['\\'] => none
  | '\\' :: c :: r => if r.isEmpty then none else some (c, r)
  | c :: r => if c = '-' || c = ']' || r.isEmpty then none else some (c, r)

/-- The ranges up to the closing bracket; there has to be one. -/
def ranges? (fuel : Nat) (cs : List Char) : Option (List (Char × Char) × List Char) :=
  match fuel with
  | 0 => none
  | fuel + 1 => do
    let (low, r) ← bound? cs
    let (high, r) ← match r with
      | '-' :: r => bound? r
      | _ => some (low, r)
    match r with
    | ']' :: r => return ([(low, high)], r)
    | _ =>
      let (more, r) ← ranges? fuel r
      return ((low, high) :: more, r)

/-- The tokens of a pattern; there are none if a bracket is not closed or a backslash ends it. -/
def tokens? (fuel : Nat) (cs : List Char) : Option (List Token) :=
  match fuel, cs with
  | _, [] => some []
  | 0, _ => none
  | fuel + 1, '*' :: r => (tokens? fuel r).map (.star :: ·)
  | fuel + 1, '?' :: r => (tokens? fuel r).map (.any :: ·)
  | fuel + 1, '\\' :: c :: r => (tokens? fuel r).map (.char c :: ·)
  | _, ['\\'] => none
  | fuel + 1, '[' :: r => do
    let (negated, r) := match r with
      | '^' :: r => (true, r)
      | _ => (false, r)
    let (ranges, r) ← ranges? r.length r
    (tokens? fuel r).map (.set negated ranges :: ·)
  | fuel + 1, c :: r => (tokens? fuel r).map (.char c :: ·)

def parse? (pattern : String) : Option (List Token) :=
  tokens? pattern.length pattern.toList

/-- Whether a token takes one character. -/
def Token.takes (t : Token) (c : Char) : Bool :=
  match t with
  | .star => false
  | .any => c != '/'
  | .char d => c == d
  | .set negated ranges => ranges.any (fun (low, high) => low ≤ c && c ≤ high) != negated

/-- Whether a name fits the tokens as a whole. -/
def fits (ts : List Token) (cs : List Char) : Bool :=
  match ts, cs with
  | [], cs => cs.isEmpty
  | .star :: ts, [] => fits ts []
  | .star :: ts, c :: r => fits ts (c :: r) || (c != '/' && fits (.star :: ts) r)
  | _ :: _, [] => false
  | t :: ts, c :: r => t.takes c && fits ts r
termination_by (ts.length, cs.length)

/-- Whether a text has a character with a meaning of its own. -/
def hasMeta (s : String) : Bool :=
  s.toList.any ['*', '?', '[', '\\'].contains

/-- The directory part of a pattern, without the slash at its end, and the rest. -/
def split (pattern : String) : String × String :=
  let cs := pattern.toList
  let dir := (cs.reverse.dropWhile (· != '/')).reverse
  let file := (cs.reverse.takeWhile (· != '/')).reverse
  (if dir.isEmpty then "." else if dir = ['/'] then "/" else String.ofList dir.dropLast,
    String.ofList file)

/-- The entries of a directory that fit a pattern. -/
def inDirectory (d : Disk) (file : List Token) (dir : String) : List String :=
  match d.lookup dir with
  | .ok .directory =>
    ((d.list dir).filter fun n => fits file n.toList).map fun n => Path.join [dir, n]
  | _ => []

/-- All paths that fit a pattern, or nothing if it is no pattern. A pattern without special
characters fits the path that it is. -/
def find? (d : Disk) (fuel : Nat) (pattern : String) : Option (List String) :=
  match fuel with
  | 0 => none
  | fuel + 1 => do
    let _ ← parse? pattern
    if !hasMeta pattern then
      return if (d.lookup pattern).isOk then [pattern] else []
    let (dir, file) := split pattern
    let ts ← parse? file
    if hasMeta dir then
      return (← find? d fuel dir).flatMap (inDirectory d ts)
    else return inDirectory d ts dir

end Phrasebook.Glob

namespace Phrasebook

/-- All paths that fit a pattern, in the order of the names; nothing if it is no pattern. -/
def Disk.glob? (d : Disk) (pattern : String) : Option (List String) :=
  Glob.find? d (pattern.length + 1) pattern

end Phrasebook
