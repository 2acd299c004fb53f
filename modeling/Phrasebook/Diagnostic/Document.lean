import Phrasebook.Diagnostic.Bag
import Phrasebook.Diagnostic.Preview
import Phrasebook.Json.Write

/-!
Diagnostics as a JSON document.
-/
namespace Phrasebook.Document

/-- What the document holds. A maximum of zero or less is none. -/
structure Style where
  positions : Bool
  paths : PathMode
  max : Int
  notes : Bool
  fixes : Bool
  previews : Bool

variable (fs : FileSet) (cwd : String) (style : Style)

/-- The place of a span; a file that is not known has no name. -/
def location (span : Span) : Json :=
  let file := match fs.get? span.file with
    | some f => f.showPath cwd style.paths (fs.baseDir cwd)
    | none => ""
  let (start, stop) := fs.resolve span
  .object ([("file", .string file), ("start_byte", .ofNat span.start.toNat),
      ("end_byte", .ofNat span.stop.toNat)] ++
    if style.positions then
      [("start_line", .ofNat start.line), ("start_col", .ofNat start.column),
        ("end_line", .ofNat stop.line), ("end_col", .ofNat stop.column)]
    else [])

/-- A member that is left out when there is nothing in it. -/
def optional (key : String) (items : List Json) : List (String × Json) :=
  if items.isEmpty then [] else [(key, .array items)]

def lineItems (lines : List Bytes) : List Json :=
  lines.map fun l => .string l.toText

def edit (e : Edit) : Json :=
  .object ([("location", location fs cwd style e.span), ("new_text", .string e.newText)] ++
    match if style.previews then (previewEdit fs e).toOption else none with
    | some p => optional "before_lines" (lineItems p.before) ++
        optional "after_lines" (lineItems p.after)
    | none => [])

def fix (f : Fix) : Json :=
  .object (("title", .string f.title) :: optional "edits" (f.edits.map (edit fs cwd style)))

def note (n : Note) : Json :=
  .object [("message", .string n.message), ("location", location fs cwd style n.span)]

/-- One diagnostic. The notes of a timing are always shown. -/
def diagnostic (d : Diagnostic) : Json :=
  .object ([("severity", .string d.severity.name), ("code", .string d.code.id),
      ("title", .string d.code.title), ("message", .string d.message),
      ("location", location fs cwd style d.primary)] ++
    (if style.notes || d.code = .timings then optional "notes" (d.notes.map (note fs cwd style))
      else []) ++
    (if style.fixes then optional "fixes" (d.fixes.map (fix fs cwd style)) else []))

def items (bag : Bag) : List Json :=
  let n := if 0 < style.max && style.max < bag.size then style.max.toNat else bag.size
  (bag.items.take n).map (diagnostic fs cwd style)

/-- The whole document. -/
def document (bag : Bag) : Json :=
  let all := items fs cwd style bag
  .object [("diagnostics", .array all), ("count", .ofNat all.length)]

def text (bag : Bag) : String :=
  (document fs cwd style bag).pretty ++ "\n"

end Phrasebook.Document
