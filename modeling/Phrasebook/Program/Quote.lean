import Phrasebook.Scope.Name
import Phrasebook.Text.Quoted

/-!
String literals and property keys of generated code.
-/
namespace Phrasebook.Program

/-- A character inside a double-quoted literal. Line ends of every kind are escaped. -/
def literalChar (c : Char) : List Char :=
  match c with
  | '"' => ['\\', '"']
  | '\\' => ['\\', '\\']
  | '\n' => ['\\', 'n']
  | '\r' => ['\\', 'r']
  | '\t' => ['\\', 't']
  | '\x08' => ['\\', 'b']
  | '\x0c' => ['\\', 'f']
  | '\x0b' => ['\\', 'v']
  | _ =>
    if c = '\u2028' || c = '\u2029' || c.toNat < 0x20 || c.toNat = 0x7F then
      '\\' :: 'u' :: Text.hexDigits 4 c.toNat
    else [c]

/-- A text as a double-quoted literal. -/
def stringLiteral (s : String) : String :=
  String.ofList ('"' :: s.toList.flatMap literalChar ++ ['"'])

/-- A key of an object: bare if it is an identifier, reserved words included. -/
def propertyKey (key : String) : String :=
  if Name.isIdentifier key then key else stringLiteral key

/-- Whether markup shows a text exactly as it is written. -/
def isMarkupSafe (s : String) : Bool :=
  s ≠ "" && s.toList.all fun c => !(['{', '}', '<', '>', '&', '\n', '\r'].contains c)

end Phrasebook.Program
