import Phrasebook.Diagnostic.Bag
import Phrasebook.Source.File

/-!
Diagnostics one a line, `severity CODE path:line:col message`, in an order that does not depend on
the order they were found in.
-/
namespace Phrasebook.Short

/-- What one line says. -/
structure Record where
  severity : String
  code : String
  path : String
  line : Nat
  column : Nat
  message : String
  deriving DecidableEq

def severityLabel (s : Severity) : String :=
  if s = .error then "error" else if s = .warning then "warning" else "info"

/-- Line ends of every kind become single blanks. -/
def flattenLines : List Char → List Char
  | [] => []
  | '\r' :: '\n' :: r => ' ' :: flattenLines r
  | c :: r => (if c = '\r' || c = '\n' then ' ' else c) :: flattenLines r

def flatten (s : String) : String :=
  String.ofList (Text.trimBlank (flattenLines s.toList))

/-- Drops every `./` in front. -/
def dropHere : List Char → List Char
  | '.' :: '/' :: r => dropHere r
  | cs => cs

/-- Where a span starts, if its file is known. -/
def place? (fs : FileSet) (cwd : String) (span : Span) : Option (String × Position) :=
  (fs.get? span.file).map fun f =>
    (String.ofList (dropHere (f.showPath cwd .relative (fs.baseDir cwd)).toList),
      (fs.resolve span).1)

def record? (fs : FileSet) (cwd severity : String) (code : Code) (span : Span) (message : String) :
    Option Record :=
  (place? fs cwd span).map fun (path, p) =>
    ⟨severity, code.id, path, p.line, p.column, flatten message⟩

/-- The lines of one diagnostic: its own and, if asked for, those of its notes. -/
def records (fs : FileSet) (cwd : String) (notes : Bool) (d : Diagnostic) : List Record :=
  (record? fs cwd (severityLabel d.severity) d.code d.primary d.message).toList ++
    if notes then d.notes.filterMap fun n => record? fs cwd "note" d.code n.span n.message else []

/-- The order of lines: by path, line, column, severity, code and message. -/
def comesFirst (a b : Record) : Bool :=
  if a.path ≠ b.path then a.path < b.path
  else if a.line ≠ b.line then a.line < b.line
  else if a.column ≠ b.column then a.column < b.column
  else if a.severity ≠ b.severity then a.severity < b.severity
  else if a.code ≠ b.code then a.code < b.code
  else a.message < b.message

def Record.text (r : Record) : String :=
  s!"{r.severity} {r.code} {r.path}:{r.line}:{r.column} {r.message}"

def text (fs : FileSet) (cwd : String) (notes : Bool) (ds : List Diagnostic) : String :=
  "\n".intercalate ((List.mergeSort (ds.flatMap (records fs cwd notes))
    fun a b => !comesFirst b a).map Record.text)

end Phrasebook.Short
