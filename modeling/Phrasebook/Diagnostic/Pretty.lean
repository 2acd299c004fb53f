import Phrasebook.Diagnostic.Bag
import Phrasebook.Diagnostic.Preview
import Phrasebook.Text.Paint
import Phrasebook.Text.Width

/-!
Diagnostics for people: a headline, the lines of the text with the span underlined, and below them
notes and suggested fixes.
-/
namespace Phrasebook.Pretty

/-- How diagnostics are shown. A width of zero cuts nothing. -/
structure Style where
  color : Bool
  context : Int
  paths : PathMode
  width : Nat
  notes : Bool
  fixes : Bool
  preview : Bool

def tab : List Char := "    ".toList

def expandTabs (cs : List Char) : List Char :=
  cs.flatMap fun c => if c = '\t' then tab else [c]

def severityPaint (s : Severity) : List Text.Attribute :=
  if s = .error then [.red, .bold] else if s = .warning then [.yellow, .bold] else [.cyan, .bold]

def gutterPaint : List Text.Attribute := [.blue, .bold]
def notePaint : List Text.Attribute := [.green, .bold]
def helpPaint : List Text.Attribute := [.cyan]
def oldPaint : List Text.Attribute := [.red, .bold]

def blanks (n : Nat) : String :=
  String.ofList (List.replicate n ' ')

/-- The marks under the columns from `start` up to `stop` of a line. The first line of a span has a
caret, also for an empty span; on other lines nothing is marked if nothing is spanned. -/
def underline (line : List Char) (start stop : Nat) (isFirst : Bool) : Option String :=
  let start := max start 1
  let stop := max stop start
  let offset := Text.width (expandTabs (line.take (start - 1)))
  let spanned := Text.width (expandTabs ((line.take (stop - 1)).drop (start - 1)))
  if spanned = 0 && !isFirst then none
  else
    let n := max spanned 1
    some (blanks offset ++ if isFirst then "^" ++ String.ofList (List.replicate (n - 1) '~')
      else String.ofList (List.replicate n '~'))

/-- A number right-aligned in `width` columns. -/
def rightAlign (width n : Nat) : String :=
  let s := toString n
  blanks (width - s.length) ++ s

variable (fs : FileSet) (cwd : String) (style : Style)

def shownPath (f : File) : String :=
  f.showPath cwd style.paths (fs.baseDir cwd)

/-- The first and the last line that are shown. -/
def lineRange (f : File) (first last : Nat) : Nat × Nat :=
  let context := style.context.toNat
  if context = 0 then (first, last)
  else (if first > context then first - context else 1, min (last + context) f.lineCount)

/-- A line of the text, and the line with the marks below it. -/
def sourceLine (f : File) (severity : Severity) (gutter n : Nat) (start stop : Position) :
    List String :=
  let text := Utf8.shown (f.line n)
  let display := expandTabs text
  let display := if style.width > 0 then Text.truncate style.width ['…'] display else display
  let bar := Text.paint style.color gutterPaint "|"
  let row := Text.paint style.color gutterPaint (rightAlign gutter n) ++ " " ++ bar ++ " " ++
    String.ofList display
  if n < start.line || n > stop.line then [row]
  else
    let left := if n = start.line then start.column else 1
    let right := if n = stop.line then stop.column else text.length + 1
    match underline text left right (n = start.line) with
    | none => [row]
    | some marks =>
      [row, blanks gutter ++ " " ++ bar ++ " " ++
        Text.paint style.color (severityPaint severity) marks]

def noteLine (gutter : Nat) (note : Note) : String :=
  let place := match fs.get? note.span.file with
    | some f =>
      let p := (fs.resolve note.span).1
      s!" ({shownPath fs cwd style f}:{p.line}:{p.column})"
    | none => ""
  blanks gutter ++ " " ++ Text.paint style.color gutterPaint "=" ++ " " ++
    Text.paint style.color notePaint "note:" ++ " " ++ note.message ++ place

def previewLines (gutter : Nat) (e : Edit) : List String :=
  match previewEdit fs e with
  | .error _ => []
  | .ok p =>
    let rows (sign : String) (attributes : List Text.Attribute) (lines : List Bytes) :=
      lines.map fun l => blanks gutter ++ "   " ++ Text.paint style.color attributes sign ++ " " ++
        String.ofList (expandTabs (Utf8.shown l))
    rows "-" oldPaint p.before ++ rows "+" notePaint p.after

def fixLines (gutter : Nat) (fix : Fix) : List String :=
  (blanks gutter ++ " " ++ Text.paint style.color gutterPaint "=" ++ " " ++
    Text.paint style.color helpPaint "help:" ++ " " ++ fix.title) ::
    (if style.preview then fix.edits.flatMap (previewLines fs style gutter) else [])

/-- The lines of one diagnostic; of an unknown file only the headline is known. -/
def lines (d : Diagnostic) : List String :=
  let headline := Text.paint style.color (severityPaint d.severity)
      s!"{d.severity.name}[{d.code.id}]" ++
    Text.paint style.color [.bold] ":" ++ " " ++ Text.paint style.color [.bold] d.message
  match fs.get? d.primary.file with
  | none => [headline]
  | some f =>
    let (start, stop) := fs.resolve d.primary
    let (first, last) := lineRange style f start.line stop.line
    let gutter := (toString last).length
    headline ::
      (blanks gutter ++ Text.paint style.color gutterPaint "-->" ++ " " ++
        s!"{shownPath fs cwd style f}:{start.line}:{start.column}") ::
      (blanks gutter ++ " " ++ Text.paint style.color gutterPaint "|") ::
      ((List.range (last + 1 - first)).flatMap fun i =>
        sourceLine style f d.severity gutter (first + i) start stop) ++
      (if style.notes then d.notes.map (noteLine fs cwd style gutter) else []) ++
      (if style.fixes then d.fixes.flatMap (fixLines fs style gutter) else [])

def oneText (d : Diagnostic) : String :=
  String.join ((lines fs cwd style d).map (· ++ "\n"))

/-- All diagnostics of a bag, with an empty line between them. -/
def text (bag : Bag) : String :=
  "\n".intercalate (bag.items.map (oneText fs cwd style))

end Phrasebook.Pretty
