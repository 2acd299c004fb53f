import Phrasebook.Skeleton.Number
import Phrasebook.Source.Span
import Phrasebook.Text.Letter
import Phrasebook.Text.Pattern

/-!
A cursor is a place in the text of a message: how many bytes stand before it, and the characters
that follow.
-/
namespace Phrasebook.Message

structure Cursor where
  offset : Nat
  rest : List Char
  deriving DecidableEq

namespace Cursor

/-- Steps over a run of characters; `rest` is what follows it. -/
def skip (c : Cursor) (taken rest : List Char) : Cursor :=
  ⟨c.offset + Skeleton.byteLength taken, rest⟩

/-- The longest run of characters of a class, and the cursor behind it. -/
def takeWhile (p : Char → Bool) (c : Cursor) : List Char × Cursor :=
  (c.rest.takeWhile p, c.skip (c.rest.takeWhile p) (c.rest.dropWhile p))

def skipBlank (c : Cursor) : Cursor :=
  (c.takeWhile Text.isPatternBlank).2

/-- Steps over the next character if it is `ch`. -/
def eat? (ch : Char) (c : Cursor) : Option Cursor :=
  match c.rest with
  | x :: r => if x = ch then some (c.skip [x] r) else none
  | [] => none

/-- Steps over `word` if the text goes on with it. -/
def eatWord? (word : List Char) (c : Cursor) : Option Cursor :=
  if word.isPrefixOf c.rest then some (c.skip word (c.rest.drop word.length)) else none

def isDone (c : Cursor) : Bool :=
  c.rest.isEmpty

/-- The span from one cursor to a later one. -/
def spanTo (file : UInt32) (start stop : Cursor) : Span :=
  Span.between file start.offset stop.offset

/-- The span of the next character; empty at the end of the text. -/
def here (file : UInt32) (c : Cursor) : Span :=
  Span.between file c.offset (c.offset + Skeleton.byteLength (c.rest.take 1))

end Cursor

/-- A character that may stand in an argument name or a selector. The replacement character may
not: it stands for what could not be read. -/
def isNameChar (c : Char) : Bool :=
  !Text.isPatternBlank c && !Text.isPatternSyntax c && c != Utf8.replacement

def isTagStart (c : Char) : Bool :=
  c.isAlpha

def isTagChar (c : Char) : Bool :=
  c == '-' || c == '.' || c == '_' || c == ':' || c.isDigit || Text.isLetter c

/-- A character of an exact selector's number. -/
def isNumberChar (c : Char) : Bool :=
  c.isDigit || c == '.' || c == '-' || c == '+' || c == 'e' || c == 'E'

/-- A name, possibly empty, and the cursor behind it. -/
def scanName (c : Cursor) : String × Cursor :=
  let (cs, c) := c.takeWhile isNameChar
  (String.ofList cs, c)

/-- A tag name, empty unless the text goes on with a letter. -/
def scanTagName (c : Cursor) : String × Cursor :=
  if c.rest.head?.any isTagStart then
    let (cs, c) := c.takeWhile isTagChar
    (String.ofList cs, c)
  else ("", c)

/-! ### Literal text -/

/-- Whether an apostrophe before this character starts quoted text. -/
def startsQuote (inPlural : Bool) (c : Char) : Bool :=
  c == '{' || c == '}' || c == '<' || c == '>' || c == '|' || (inPlural && c == '#')

/-- Whether `c`, with `rest` behind it, opens or closes an element. -/
def isSyntax (inPlural : Bool) (c : Char) (rest : List Char) : Bool :=
  c == '{' || c == '}' || (inPlural && c == '#') ||
    (c == '<' && rest.head?.any fun n => n == '/' || isTagStart n)

/-- Where literal text is read: in plain or quoted text, or before the second apostrophe of a pair
there. -/
inductive TextMode where
  | plain
  | quoted
  | pairInPlain
  | pairInQuoted
  deriving DecidableEq

/-- Reads text up to the next syntax character and resolves apostrophes: two in a row make one,
and one before a syntax character quotes up to the next lone one or the end. Gives the text and
the characters left. -/
def readText (inPlural : Bool) : TextMode → List Char → List Char × List Char
  | _, [] => ([], [])
  | .pairInPlain, _ :: r => readText inPlural .plain r
  | .pairInQuoted, _ :: r => readText inPlural .quoted r
  | .plain, c :: r =>
    if c = '\'' then
      match r.head? with
      | some '\'' =>
        let (t, left) := readText inPlural .pairInPlain r
        ('\'' :: t, left)
      | some n =>
        if startsQuote inPlural n then readText inPlural .quoted r
        else
          let (t, left) := readText inPlural .plain r
          ('\'' :: t, left)
      | none =>
        let (t, left) := readText inPlural .plain r
        ('\'' :: t, left)
    else if isSyntax inPlural c r then ([], c :: r)
    else
      let (t, left) := readText inPlural .plain r
      (c :: t, left)
  | .quoted, c :: r =>
    if c = '\'' then
      if r.head? = some '\'' then
        let (t, left) := readText inPlural .pairInQuoted r
        ('\'' :: t, left)
      else readText inPlural .plain r
    else
      let (t, left) := readText inPlural .quoted r
      (c :: t, left)

end Phrasebook.Message
