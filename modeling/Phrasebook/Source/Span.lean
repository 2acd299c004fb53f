/-!
Half-open byte ranges inside the texts of a file set. Offsets are 32-bit words.
-/
namespace Phrasebook

/-- The bytes from `start` up to, and without, `stop` of one file. -/
structure Span where
  file : UInt32
  start : UInt32
  stop : UInt32
  deriving DecidableEq

namespace Span

/-- The empty span at the start of the first file. -/
def zero : Span := ⟨0, 0, 0⟩

/-- A span between two byte counts. -/
def between (file : UInt32) (start stop : Nat) : Span :=
  ⟨file, start.toUInt32, stop.toUInt32⟩

def isEmpty (s : Span) : Bool :=
  s.start == s.stop

def length (s : Span) : UInt32 :=
  s.stop - s.start

def text (s : Span) : String :=
  s!"{s.file}:{s.start}-{s.stop}"

/-- The smallest span that holds both; spans of two files are not merged. -/
def cover (s t : Span) : Span :=
  if s.file ≠ t.file then s
  else ⟨s.file, if t.start < s.start then t.start else s.start,
    if t.stop > s.stop then t.stop else s.stop⟩

/-- Moves a span towards the start of its text; a shift past it moves nothing. -/
def shiftLeft (s : Span) (n : UInt32) : Span :=
  if n > s.start then s else ⟨s.file, s.start - n, s.stop - n⟩

end Span

end Phrasebook
