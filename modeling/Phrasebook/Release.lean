import Phrasebook.Json.Write
import Phrasebook.Text.Blank
import Phrasebook.Text.Paint
import Phrasebook.Text.Utf8

/-!
What a build of the tool is known by: its version and, where recorded, the commit and the day it
was built from.
-/
namespace Phrasebook

structure Release where
  version : String
  commit : String
  message : String
  date : String

/-- The name of the tool in its own output. -/
def toolName : String := "icuc"

namespace Release

/-- This release. -/
def current : Release := ⟨"0.1.0-dev", "", "", ""⟩

/-- At most this many bytes of a commit are shown in the short form. -/
def commitLength : Nat := 12

/-- The version with the beginning of the commit, if there is one. -/
def short (r : Release) : String :=
  if r.commit = "" then r.version
  else r.version ++ " (" ++ Bytes.toText ((Bytes.ofText r.commit).take commitLength) ++ ")"

/-- Major, minor and patch each in a colour of their own. What follows the patch stays plain, and so
does a version of fewer parts. -/
def colored (color : Bool) (r : Release) : String :=
  match Text.splitAt '.' r.version.toList with
  | major :: minor :: patch :: more =>
    let tail := (String.intercalate "." ((patch :: more).map String.ofList)).toList
    let isPatch := fun c => c != '-' && c != '+'
    let shown (attributes : List Text.Attribute) (cs : List Char) :=
      Text.paint color attributes (String.ofList cs)
    shown [.yellow, .bold] major ++ "." ++ shown [.green, .bold] minor ++ "." ++
      shown [.blue, .bold] (tail.takeWhile isPatch) ++ String.ofList (tail.dropWhile isPatch)
  | _ => r.version

/-- Which parts of a release are shown beside its version. -/
structure Parts where
  commit : Bool
  message : Bool
  date : Bool

/-- The release without white space around its parts; a version must not be empty. -/
def tidy (r : Release) : Release :=
  let version := Text.trimText r.version
  ⟨if version = "" then "dev" else version, Text.trimText r.commit, Text.trimText r.message,
    Text.trimText r.date⟩

def orUnknown (s : String) : String :=
  if s = "" then "unknown" else s

/-- One line for the version and one for every part shown. -/
def pretty (color : Bool) (parts : Parts) (r : Release) : String :=
  let t := r.tidy
  let line (on : Bool) (label value : String) : String :=
    if on then label ++ orUnknown value ++ "\n" else ""
  toolName ++ " " ++ (if t.version = r.version then r.colored color else t.version) ++ "\n" ++
    line parts.commit "commit:  " t.commit ++ line parts.message "message: " t.message ++
    line parts.date "built:   " t.date

def document (parts : Parts) (r : Release) : Json :=
  let t := r.tidy
  let member (on : Bool) (key value : String) : List (String × Json) :=
    if on then [(key, .string (orUnknown value))] else []
  .object ([("tool", .string toolName), ("version", .string t.version)] ++
    member parts.commit "git_commit" t.commit ++ member parts.message "git_message" t.message ++
    member parts.date "build_date" t.date)

end Release

end Phrasebook
