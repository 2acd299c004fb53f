/-!
White space and trimming.
-/
namespace Phrasebook.Text

/-- White space of any script. -/
def isBlank (c : Char) : Bool :=
  let n := c.toNat
  (0x9 ≤ n && n ≤ 0xD) || n == 0x20 || n == 0x85 || n == 0xA0 || n == 0x1680 ||
    (0x2000 ≤ n && n ≤ 0x200A) || n == 0x2028 || n == 0x2029 || n == 0x202F || n == 0x205F ||
    n == 0x3000

def trimLeft (p : Char → Bool) (cs : List Char) : List Char :=
  cs.dropWhile p

def trimRight (p : Char → Bool) (cs : List Char) : List Char :=
  (cs.reverse.dropWhile p).reverse

def trim (p : Char → Bool) (cs : List Char) : List Char :=
  trimRight p (trimLeft p cs)

/-- Drops white space at both ends. -/
def trimBlank (cs : List Char) : List Char :=
  trim isBlank cs

def trimText (s : String) : String :=
  String.ofList (trimBlank s.toList)

/-- Cuts a text at every `sep`. A text without one is a single part. -/
def splitAt (sep : Char) : List Char → List (List Char)
  | [] => [[]]
  | c :: r =>
    if c = sep then [] :: splitAt sep r
    else
      match splitAt sep r with
      | [] => [[c]]
      | part :: parts => (c :: part) :: parts

/-- Puts `sep` between the texts. -/
def join (sep : String) (ts : List String) : String :=
  sep.intercalate ts

end Phrasebook.Text
