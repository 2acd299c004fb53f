import Phrasebook.Text.Blank
import Phrasebook.Text.Letter
import Phrasebook.Text.Mark

/-!
Names in generated code: which texts are identifiers, which of them may be bound, and how a stem for
generated names is made of any text.
-/
namespace Phrasebook.Name

/-- Identifiers that every scope of a script binds already. -/
def globals : List String := ["arguments", "undefined", "Infinity", "NaN"]

/-- Words that cannot be bound in module code. -/
def reserved : List String :=
  ["await", "break", "case", "catch", "class", "const", "continue", "debugger", "default", "delete",
    "do", "else", "enum", "export", "extends", "false", "finally", "for", "function", "if",
    "implements", "import", "in", "instanceof", "interface", "let", "new", "null", "package",
    "private", "protected", "public", "return", "static", "super", "switch", "this", "throw",
    "true", "try", "typeof", "var", "void", "while", "with", "yield", "eval"]

def isGlobal (name : String) : Bool :=
  globals.contains name

def isReserved (name : String) : Bool :=
  reserved.contains name

def isStart (c : Char) : Bool :=
  c == '_' || c == '$' || Text.isLetter c || Text.isLetterNumber c

def isPart (c : Char) : Bool :=
  isStart c || Text.isDecimalDigit c || Text.isJoining c || c == '\u200C' || c == '\u200D'

/-- Reserved words are identifiers too. -/
def isIdentifier (name : String) : Bool :=
  match name.toList with
  | [] => false
  | c :: r => isStart c && r.all isPart

/-- Whether a name can be bound as it is. -/
def isBindable (name : String) : Bool :=
  isIdentifier name && !isReserved name && !isGlobal name

/-- Turns every run of low lines and of characters that no identifier holds into one low line.
`afterLine` tells that the last character written was one. -/
def collapse (afterLine : Bool) : List Char → List Char
  | [] => []
  | c :: r =>
    if !isPart c || c = '_' then
      if afterLine then collapse true r else '_' :: collapse true r
    else c :: collapse false r

/-- The identifier part of a generated name. -/
def stem (base : List Char) : String :=
  match Text.trim (· == '_') (collapse false base) with
  | [] => "ref"
  | cs => String.ofList cs

end Phrasebook.Name
