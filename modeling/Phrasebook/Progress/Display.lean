import Phrasebook.Text.Blank
import Phrasebook.Text.Case
import Phrasebook.Text.Quoted

/-!
Whether progress is drawn on the terminal.
-/
namespace Phrasebook.Progress

inductive Display where
  | auto
  | on
  | off
  deriving DecidableEq

namespace Display

def name : Display → String
  | .auto => "auto"
  | .on => "on"
  | .off => "off"

/-- Letter case and white space around a name do not matter. -/
def ofName? (s : String) : Option Display :=
  match Text.trimText (Text.lowerText s) with
  | "" | "auto" => some .auto
  | "on" | "true" => some .on
  | "off" | "false" => some .off
  | _ => none

def unknownName (s : String) : String :=
  s!"invalid --ui value {Text.quote s} (expected auto|on|off)"

/-- Without a terminal progress is drawn only if it is asked for. -/
def isDrawn (d : Display) (terminal : Bool) : Bool :=
  match d with
  | .on => true
  | .off => false
  | .auto => terminal

end Display

end Phrasebook.Progress
