import Phrasebook.Disk.Basic
import Phrasebook.Log

/-!
What commands act on: a disk and two streams of text.
-/
namespace Phrasebook.Command

structure Console where
  disk : Disk
  out : String
  err : String

/-- Why a command ends early. -/
inductive Stop where
  | failed (message : String)
  /-- Everything has been said already. -/
  | quietly

/-- A step of a command. -/
abbrev Effect := ExceptT Stop (StateM Console)

namespace Effect

def print (text : String) : Effect Unit :=
  modify fun c => { c with out := c.out ++ text }

def report (text : String) : Effect Unit :=
  modify fun c => { c with err := c.err ++ text }

def stop {α : Type} (message : String) : Effect α :=
  throw (.failed message)

def disk : Effect Disk :=
  return (← get).disk

def setDisk (d : Disk) : Effect Unit :=
  modify fun c => { c with disk := d }

/-- The result, or an end with the message of the error. -/
def lift {ε α : Type} (message : ε → String) : Except ε α → Effect α
  | .ok a => pure a
  | .error e => stop (message e)

/-- A value that has to be there. -/
def need {α : Type} (message : String) : Option α → Effect α
  | some a => pure a
  | none => stop message

end Effect

end Phrasebook.Command
