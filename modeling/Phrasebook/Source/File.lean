import Phrasebook.Source.Path
import Phrasebook.Source.Span
import Phrasebook.Text.Utf8

/-!
Source texts with their lines. Positions count lines and characters from one.
-/
namespace Phrasebook

/-- A place in a text, both parts counted from one. -/
structure Position where
  line : Nat
  column : Nat
  deriving DecidableEq

/-- A text registered in a file set. For a message the path is `<file>#<message>`. -/
structure File where
  id : UInt32
  path : String
  content : Bytes
  flags : UInt8

namespace File

/-- The text was added from memory. -/
def virtualFlag : UInt8 := 1
/-- A byte order mark was dropped. -/
def markFlag : UInt8 := 2
/-- Line ends of two characters were shortened. -/
def lineEndFlag : UInt8 := 4

end File

/-- Shortens every carriage return that a line feed follows to the line feed. -/
def shortenLineEnds : Bytes → Bytes
  | [] => []
  | 0x0D :: 0x0A :: r => 0x0A :: shortenLineEnds r
  | b :: r => b :: shortenLineEnds r

/-- Drops a byte order mark. -/
def dropMark (bs : Bytes) : Bytes × Bool :=
  match bs with
  | 0xEF :: 0xBB :: 0xBF :: r => (r, true)
  | _ => (bs, false)

/-- The offsets of the line feeds of a text that starts at `off`. -/
def lineBreaksFrom : Nat → Bytes → List Nat
  | _, [] => []
  | off, b :: r =>
    if b = 0x0A then off :: lineBreaksFrom (off + 1) r else lineBreaksFrom (off + 1) r

def lineBreaks (bs : Bytes) : List Nat :=
  lineBreaksFrom 0 bs

/-- What 32 bits do not count: the bytes of a text, or those before one of its line feeds. -/
inductive Overflow where
  | length
  | lineBreak
  deriving DecidableEq

def Overflow.message : Overflow → String
  | .length => "len file content overflow: out of range"
  | .lineBreak => "line offset overflow: out of range"

/-- What is told of a text that is too long. Its lines are counted first. -/
def Overflow.of (bs : Bytes) : Overflow :=
  if (bs.drop UInt32.size).contains 0x0A then .lineBreak else .length

/-- The bytes from `start` up to `stop`. -/
def Bytes.slice (bs : Bytes) (start stop : Nat) : Bytes :=
  (bs.drop start).take (stop - start)

/-- How many of the ascending offsets `breaks` lie below `off`. The number is at least `lo` and at
most `hi`; each step looks at the offset in the middle and keeps one half. -/
def searchBreaks (breaks : List Nat) (off lo hi : Nat) (h : hi ≤ breaks.length) :
    { n : Nat // n ≤ breaks.length } :=
  if hlt : lo < hi then
    let mid := (lo + hi - 1) / 2
    have hmid : mid < breaks.length := by omega
    if breaks[mid] < off then searchBreaks breaks off (mid + 1) hi h
    else searchBreaks breaks off lo mid (by omega)
  else ⟨hi, h⟩
termination_by hi - lo

/-- How many lines end before an offset. -/
def linesBefore (breaks : List Nat) (off : Nat) : { n : Nat // n ≤ breaks.length } :=
  searchBreaks breaks off 0 breaks.length (Nat.le_refl _)

/-- Where the line of an offset starts: at the start of the text or behind a line feed. -/
def lineBegin (breaks : List Nat) (off : Nat) : Nat :=
  match linesBefore breaks off with
  | ⟨0, _⟩ => 0
  | ⟨n + 1, _⟩ => breaks[n] + 1

/-- The position of an offset, given the offsets of the line feeds. An offset past the end counts
as the end, which is told by the length of the text as a 32-bit word. -/
def Position.at (content : Bytes) (breaks : List Nat) (offset : Nat) : Position :=
  let off := min offset content.length.toUInt32.toNat
  ⟨(linesBefore breaks off).1 + 1,
    Utf8.count (content.slice (lineBegin breaks off) off) + 1⟩

/-- The byte range of a line, counted from one, without its line feed. A line that starts past the
end of the text is none of it. -/
def lineBounds? (content : Bytes) (breaks : List Nat) (line : Nat) : Option (Nat × Nat) :=
  if line = 0 then none
  else
    let start? := if line = 1 then some 0 else (breaks[line - 2]?).map (· + 1)
    let stop := (breaks[line - 1]?).getD content.length
    match start? with
    | none => none
    | some start =>
      if start > content.length then none else some (start, min stop content.length)

namespace File

/-- The text of a line; empty outside the text. -/
def line (f : File) (n : Nat) : Bytes :=
  match lineBounds? f.content (lineBreaks f.content) n with
  | some (start, stop) => f.content.slice start stop
  | none => []

def lineCount (f : File) : Nat :=
  (lineBreaks f.content).length + 1

def positionOf (f : File) (offset : UInt32) : Position :=
  Position.at f.content (lineBreaks f.content) offset.toNat

/-- The span of the whole text. -/
def span (f : File) : Span :=
  Span.between f.id 0 f.content.length

end File

/-- How paths are shown. A mode of no known name shows them as they are. -/
inductive PathMode where
  | auto
  | absolute
  | relative
  | basename
  | plain
  deriving DecidableEq

namespace PathMode

def name : PathMode → String
  | .absolute => "absolute"
  | .relative => "relative"
  | .basename => "basename"
  | .auto | .plain => "auto"

def ofName? : String → Option PathMode
  | "" | "auto" => some .auto
  | "absolute" => some .absolute
  | "relative" => some .relative
  | "basename" => some .basename
  | _ => none

end PathMode

/-- A path as stored: cleaned up to its first `#`, the rest untouched. -/
def Path.normalize (p : String) : String :=
  let cs := p.toList
  let file := String.ofList (cs.takeWhile (· != '#'))
  Path.clean file ++ String.ofList (cs.dropWhile (· != '#'))

/-- The path seen from `base`; outside of it the absolute path. -/
def Path.relativeTo (cwd base p : String) : Option String :=
  let target := Path.absolute cwd p
  (Path.relative? (Path.absolute cwd base) target).map fun r =>
    if Path.leaves r then Path.normalize target else r

/-- Long absolute paths are shown by their last name alone in automatic mode. -/
def Path.shortLimit : Nat := 40

def File.showPath (f : File) (cwd : String) (mode : PathMode) (base : String) : String :=
  match mode with
  | .absolute => Path.absolute cwd f.path
  | .relative => (Path.relativeTo cwd (if base = "" then cwd else base) f.path).getD f.path
  | .basename => Path.base f.path
  | .auto =>
    if f.path.utf8ByteSize < Path.shortLimit || !Path.isAbsolute f.path then f.path
    else Path.base f.path
  | .plain => f.path

/-- The texts of one run, numbered from zero, and the directory that paths are shown from. -/
structure FileSet where
  files : List File
  base : String

namespace FileSet

def empty : FileSet := ⟨[], ""⟩

def size (s : FileSet) : Nat :=
  s.files.length

def get? (s : FileSet) (id : UInt32) : Option File :=
  s.files[id.toNat]?

/-- Adds a text under a fresh id, also when the path is known already. -/
def add (s : FileSet) (path : String) (content : Bytes) (flags : UInt8) : FileSet × UInt32 :=
  let id := s.files.length.toUInt32
  ({ s with files := s.files ++ [⟨id, Path.normalize path, content, flags⟩] }, id)

/-- Adds a text from memory. -/
def addVirtual (s : FileSet) (name : String) (content : Bytes) : FileSet × UInt32 :=
  s.add name (shortenLineEnds content) File.virtualFlag

/-- Adds the content of a file that was read. -/
def load (s : FileSet) (path : String) (raw : Bytes) : FileSet × UInt32 :=
  let (unmarked, marked) := dropMark raw
  let content := shortenLineEnds unmarked
  s.add path content ((if marked then File.markFlag else 0) |||
    (if content.length ≠ unmarked.length then File.lineEndFlag else 0))

/-- The last text added under a path. -/
def latest? (s : FileSet) (path : String) : Option UInt32 :=
  (s.files.reverse.find? (·.path == Path.normalize path)).map (·.id)

/-- The positions of the two ends of a span; spans of unknown files are at the very start. -/
def resolve (s : FileSet) (sp : Span) : Position × Position :=
  match s.get? sp.file with
  | some f => (f.positionOf sp.start, f.positionOf sp.stop)
  | none => (⟨1, 1⟩, ⟨1, 1⟩)

/-- The directory that paths are shown from, by default the working directory. -/
def baseDir (s : FileSet) (cwd : String) : String :=
  if s.base = "" then cwd else s.base

end FileSet

end Phrasebook
