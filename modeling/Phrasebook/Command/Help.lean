import Phrasebook.Command.Spec
import Phrasebook.Skeleton.Options

/-!
Help texts: what a command is for, how it is used, and its flags.
-/
namespace Phrasebook.Command

/-- A flag with its letter and the kind of its value. -/
def flagHead (f : Flag) : String :=
  (match f.letter with
    | some c => String.ofList [' ', ' ', '-', c, ',', ' ']
    | none => "      ") ++ "--" ++ f.name ++
    match f.kind with
    | .text => " string"
    | .whole => " int"
    | .truth => ""

def blanks (n : Nat) : String :=
  String.ofList (List.replicate n ' ')

/-- A line for every flag, names ascending, descriptions in one column. -/
def flagLines (flags : List Flag) : String :=
  let sorted := List.mergeSort flags fun a b => textLe a.name b.name
  let widest := (sorted.map fun f => (flagHead f).length).foldl max 0
  Text.join "\n" (sorted.map fun f =>
    flagHead f ++ blanks (widest - (flagHead f).length + 3) ++ f.usage ++
      if f.standard = "" then "" else s!" (default {f.standard})")

/-- The parts of a usage text, each but the first behind an empty line. -/
def usageText (lines : List String) (children : List (String × String)) (path : String)
    (own shared : List Flag) : String :=
  let commands := if children.isEmpty then ""
    else "\n\nAvailable Commands:" ++ String.join (children.map fun (name, short) =>
      "\n  " ++ name ++ blanks (11 - name.length) ++ " " ++ short)
  let flags := "\n\nFlags:\n" ++ flagLines own
  let globals := if shared.isEmpty then "" else "\n\nGlobal Flags:\n" ++ flagLines shared
  let more := if children.isEmpty then ""
    else s!"\n\nUse \"{path} [command] --help\" for more information about a command."
  "Usage:" ++ String.join (lines.map ("\n  " ++ ·)) ++ commands ++ flags ++ globals ++ more ++ "\n"

/-- How the tool is used, with these flags of its own. -/
def toolUsage (own : List Flag) : String :=
  let children := List.mergeSort (Spec.all.map fun s => (s.name, s.short)) fun a b => textLe a.1 b.1
  usageText [toolName ++ " [command]"] children toolName own []

def toolHelp : String :=
  "icuc compiles ICU MessageFormat catalogs into JavaScript or TypeScript\n" ++
    "modules that export one function per message, returning strings or React nodes\n\n" ++
    toolUsage (Spec.globalFlags ++ [Spec.helpFlag toolName, Spec.versionFlag])

namespace Spec

def usage (s : Spec) : String :=
  let path := toolName ++ " " ++ s.name
  usageText [if s.children.isEmpty then toolName ++ " " ++ s.use else path ++ " [command]"]
    s.children path (s.flags ++ [helpFlag s.name]) globalFlags

def helpText (s : Spec) : String :=
  (if s.long = "" then s.short else s.long) ++ "\n\n" ++ s.usage

end Spec

end Phrasebook.Command
