import Phrasebook.Diagnostic.Code
import Phrasebook.Source.Span
import Phrasebook.Text.Blank
import Phrasebook.Text.Case
import Phrasebook.Text.Quoted

/-!
Diagnostics: what is wrong, where, how bad it is, and what might be done about it.
-/
namespace Phrasebook

/-- Severities are ordered by rank; ranks above that of an error have no name. -/
structure Severity where
  rank : UInt8
  deriving DecidableEq

namespace Severity

def info : Severity := ⟨0⟩
def warning : Severity := ⟨1⟩
def error : Severity := ⟨2⟩

def name (s : Severity) : String :=
  match s.rank.toNat with
  | 0 => "INFO"
  | 1 => "WARNING"
  | 2 => "ERROR"
  | _ => "UNKNOWN"

/-- Names are read in any case; `warn` is short for a warning. -/
def ofName? (s : String) : Option Severity :=
  match Text.upperText (Text.trimText s) with
  | "INFO" => some info
  | "WARNING" | "WARN" => some warning
  | "ERROR" => some error
  | _ => none

/-- What is said about a severity of no known name. -/
def unknownName (s : String) : String :=
  s!"unknown severity {Text.quote s} (expected info|warning|error)"

/-- At least as severe. -/
def reaches (s least : Severity) : Bool :=
  s.rank ≥ least.rank

end Severity

/-- A remark on another place of the text. -/
structure Note where
  span : Span
  message : String
  deriving DecidableEq

/-- Puts `newText` in the place of a span. -/
structure Edit where
  span : Span
  newText : String
  deriving DecidableEq

/-- A change that would resolve a diagnostic. -/
structure Fix where
  title : String
  edits : List Edit
  deriving DecidableEq

structure Diagnostic where
  severity : Severity
  code : Code
  message : String
  primary : Span
  notes : List Note := []
  fixes : List Fix := []
  deriving DecidableEq

namespace Diagnostic

def error (code : Code) (primary : Span) (message : String) : Diagnostic :=
  ⟨.error, code, message, primary, [], []⟩

def withNote (d : Diagnostic) (span : Span) (message : String) : Diagnostic :=
  { d with notes := d.notes ++ [⟨span, message⟩] }

def withFix (d : Diagnostic) (title : String) (edits : List Edit) : Diagnostic :=
  { d with fixes := d.fixes ++ [⟨title, edits⟩] }

/-- One line: code, span and message. -/
def line (d : Diagnostic) : String :=
  s!"{d.code.id} {d.primary.text}: {d.message}"

end Diagnostic

end Phrasebook
