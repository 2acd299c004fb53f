import Phrasebook.Decimal.Fixed
import Phrasebook.Progress.Events
import Phrasebook.Text.Width
import Phrasebook.Timing.Report

/-!
Progress as drawn on a terminal: a heading, a row for every catalog and a bar. The view is a value
that signals change; drawing is a function of it.
-/
namespace Phrasebook.Progress

structure Row where
  path : String
  status : Status
  /-- The stage last heard of, if it is a known one. -/
  stage : Option Stage
  micros : Int
  error : String

/-- What the view shows. Without a height there is room for all rows. -/
structure View where
  title : String
  rows : List Row
  overall : Status
  width : Int
  height : Int
  frame : Nat
  closed : Bool

/-- News of one file, or of the whole build if the file is empty. -/
structure News where
  file : String
  stage : Option Stage
  status : Option Status
  micros : Int
  error : Option String

inductive Signal where
  | news (n : News)
  | closed
  | key (name : String)
  | tick
  | resize (width height : Int)
  | other

namespace View

def start (title : String) (files : List String) : View where
  title := title
  rows := files.map fun path => ⟨path, .queued, none, 0, ""⟩
  overall := .queued
  width := 80
  height := 0
  frame := 0
  closed := false

/-- The moving mark in front of the heading. -/
def frames : List String :=
  ["⣾ ", "⣽ ", "⣻ ", "⢿ ", "⡿ ", "⣟ ", "⣯ ", "⣷ "]

def firstLine (s : String) : String :=
  String.ofList (s.toList.takeWhile (· != '\n'))

def hear (n : News) (status : Status) (r : Row) : Row :=
  { r with
    status, stage := n.stage
    micros := if status.isFinal then n.micros else r.micros
    error := (n.error.map firstLine).getD r.error }

/-- Changes the last row of a path. -/
def modifyRow (path : String) (f : Row → Row) : List Row → List Row
  | [] => []
  | r :: rs =>
    if r.path = path && !rs.any (·.path == path) then f r :: rs else r :: modifyRow path f rs

/-- The view after a signal, and whether the program is to end. -/
def update (v : View) : Signal → View × Bool
  | .news n =>
    match n.status with
    | none => (v, false)
    | some status =>
      if n.file = "" then ({ v with overall := status }, false)
      else ({ v with rows := modifyRow n.file (hear n status) v.rows }, false)
  | .closed => ({ v with closed := true }, true)
  | .key name => (v, name == "ctrl+c")
  | .tick =>
    (if v.closed then v else { v with frame := (v.frame + 1) % frames.length }, false)
  | .resize width height =>
    ({ v with width := if width > 0 then width else v.width, height }, false)
  | .other => (v, false)

def label (r : Row) : String :=
  match r.status with
  | .queued => "queued"
  | .done => "done"
  | .error => "error"
  | .working =>
    match r.stage with
    | some .parse => "parsing"
    | some .compile => "compiling"
    | some .emit => "emitting"
    | none => "working"

def count (v : View) (s : Status) : Nat :=
  v.rows.countP (·.status = s)

/-- Tabs take four columns, and all lines of a text are made as wide as the widest. -/
def block (s : String) : String :=
  let flat := (s.replace "\r\n" "\n").replace "\t" "    "
  match Text.splitAt '\n' flat.toList with
  | [] | [_] => flat
  | ls =>
    let widest := (ls.map Text.width).foldl max 0
    Text.join "\n" (ls.map fun l =>
      String.ofList (l ++ List.replicate (widest - Text.width l) ' '))

def heading (v : View) : String :=
  let failed := v.count .error
  let text := s!"{v.title}: {v.count .done + failed}/{v.rows.length} catalogs" ++
    if failed > 0 then s!", {failed} failed" else ""
  let mark := if v.closed || v.overall.isFinal then
      if failed > 0 || v.overall = .error then "failed" else "done"
    else frames.getD v.frame ""
  mark ++ " " ++ block text

/-- The rows that are drawn, and how many are not. Where room is short, rows that are done come
last. -/
def shownRows (v : View) : List Row × Nat :=
  let limit := if v.height > 0 then (max (v.height - 6) 5).toNat else v.rows.length
  if v.rows.length ≤ limit then (v.rows, 0)
  else
    let pending := v.rows.filter (·.status ≠ .done)
    let rows := (pending ++ v.rows.filter (·.status = .done)).take limit
    (rows, v.rows.length - rows.length)

def statusWidth : Nat := 10

def nameWidth (v : View) : Nat :=
  (max (v.width - statusWidth - 16) 20).toNat

def shorten (limit : Nat) (s : String) : String :=
  String.ofList (Text.truncate limit "...".toList s.toList)

def rowText (limit : Nat) (r : Row) : String :=
  let time := if r.status.isFinal && r.micros > 0 then
      s!" {Decimal.fixed 1 (Float.ofInt r.micros / 1000)}ms"
    else ""
  let error := if r.error = "" then ""
    else "  " ++ TimingReport.padLeft statusWidth "" ++ " " ++ block (shorten limit r.error) ++ "\n"
  "  " ++ TimingReport.padLeft statusWidth (label r) ++ " " ++ shorten limit r.path ++ time ++
    "\n" ++ error

/-- The bar is empty until the build is over. -/
def bar (v : View) : String :=
  let cells := (v.width - 4 - 5).toNat
  if v.closed then String.ofList (List.replicate cells '█') ++ " 100%"
  else String.ofList (List.replicate cells '░') ++ "   0%"

/-- The text on the terminal; nothing without catalogs. -/
def draw (v : View) : String :=
  if v.rows.isEmpty then ""
  else
    let (rows, hidden) := v.shownRows
    v.heading ++ "\n\n" ++ String.join (rows.map (rowText v.nameWidth)) ++
      (if hidden > 0 then s!"  ... and {hidden} more\n" else "") ++ "\n" ++ v.bar ++ "\n"

end View

end Phrasebook.Progress
