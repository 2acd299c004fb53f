/-!
Terminal colours: a text between the codes that switch attributes on and off again.
-/
namespace Phrasebook.Text

/-- A display attribute. Weights have a switch of their own; colours are reset as a whole. -/
inductive Attribute where
  | bold
  | faint
  | red
  | green
  | yellow
  | blue
  | magenta
  | cyan
  | white
  | black
  deriving DecidableEq

def Attribute.on : Attribute → Nat
  | .bold => 1
  | .faint => 2
  | .black => 30
  | .red => 31
  | .green => 32
  | .yellow => 33
  | .blue => 34
  | .magenta => 35
  | .cyan => 36
  | .white => 37

def Attribute.off : Attribute → Nat
  | .bold | .faint => 22
  | _ => 0

def escapeCode (codes : List Nat) : String :=
  "\x1b[" ++ ";".intercalate (codes.map toString) ++ "m"

/-- The text with the attributes on, if colours are enabled. -/
def paint (enabled : Bool) (attributes : List Attribute) (text : String) : String :=
  if enabled then
    escapeCode (attributes.map Attribute.on) ++ text ++ escapeCode (attributes.map Attribute.off)
  else text

end Phrasebook.Text
