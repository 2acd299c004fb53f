import Phrasebook.Command.Console
import Phrasebook.Decimal.Whole
import Phrasebook.Text.Case

/-!
Which log records are written.
-/
namespace Phrasebook.Command

/-- The least rank of a record that is written. -/
structure Logger where
  least : Int

namespace Logger

def ofLevel (l : LogLevel) : Logger := ⟨l.rank⟩

/-- Why a text names no level. -/
inductive LevelFault where
  | unknown (name : String)
  | outOfBounds (n : Int)

def LevelFault.message : LevelFault → String
  | .unknown name => s!"Unknown Level String: '{name}', defaulting to NoLevel"
  | .outOfBounds n => s!"Out-Of-Bounds Level: '{n}', defaulting to NoLevel"

/-- The number of a level counts from debug on; that of no level at all is six. -/
def ofNumber (n : Int) : Logger :=
  if n = 6 then ofLevel .info else ⟨n + 1⟩

/-- A level by its name or number. Letter case and white space around do not matter; nothing means
the usual level. -/
def ofText (text : String) : Except LevelFault Logger :=
  let name := Text.lowerText (Text.trimText text)
  if name = "" then .ok (ofLevel .info)
  else
    match LogLevel.all.find? (·.name == name) with
    | some .disabled => .ok (ofNumber 7)
    | some l => .ok (ofLevel l)
    | none =>
      match Decimal.signed false 64 name with
      | .error _ => .error (.unknown name)
      | .ok n => if n > 127 || n < -128 then .error (.outOfBounds n) else .ok (ofNumber n)

def accepts (l : Logger) (r : LogRecord) : Bool :=
  l.least ≤ r.level.rank

def write (l : Logger) (r : LogRecord) : Effect Unit :=
  if l.accepts r then Effect.report r.line else pure ()

def writeAll (l : Logger) (rs : List LogRecord) : Effect Unit :=
  rs.forM l.write

end Logger

end Phrasebook.Command
