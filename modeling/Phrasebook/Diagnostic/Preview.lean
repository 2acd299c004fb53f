import Phrasebook.Diagnostic.Basic
import Phrasebook.Source.File

/-!
Previews of edits: the whole lines around an edit, before and after it.
-/
namespace Phrasebook

/-- The lines around an edit without and with it. -/
structure EditPreview where
  before : List Bytes
  after : List Bytes

/-- Why an edit has no preview. The places are relative to the block. -/
inductive PreviewFault where
  | unknownFile (id : UInt32)
  | startOutside (place : Nat)
  | stopOutside (place : Nat)
  /-- Bytes are asked for that are not there. -/
  | outOfRange
  deriving DecidableEq

/-- The bytes from `start` up to `stop`, which have to be places of the text in this order. -/
def Bytes.cut (bs : Bytes) (start stop : Nat) : Except PreviewFault Bytes :=
  if start ≤ stop ∧ stop ≤ bs.length then .ok (bs.slice start stop) else .error .outOfRange

/-- Cuts bytes at line feeds. -/
def splitLines : Bytes → List Bytes
  | [] => [[]]
  | b :: r =>
    if b = 0x0A then [] :: splitLines r
    else
      match splitLines r with
      | [] => [[b]]
      | line :: lines => (b :: line) :: lines

/-- The lines of a block, trailing line feeds dropped; an empty block has none. -/
def blockLines (block : Bytes) : List Bytes :=
  if block.isEmpty then []
  else splitLines (block.reverse.dropWhile (· == 0x0A)).reverse

/-- Where a line starts; past the last line, the end of the text. -/
def lineStart (f : File) (line : Nat) : Nat :=
  if line ≤ 1 then 0
  else
    match (lineBreaks f.content)[line - 2]? with
    | some b => b + 1
    | none => f.content.length

/-- Where a line ends, its line feed included. -/
def lineStop (f : File) (line : Nat) : Nat :=
  if line = 0 then 0
  else
    match (lineBreaks f.content)[line - 1]? with
    | some b => b + 1
    | none => f.content.length

/-- The block of whole lines that an edit changes, as byte offsets. -/
def editBlock (f : File) (e : Edit) : Nat × Nat :=
  let startLine := (f.positionOf e.span.start).line
  let stopLine := max (f.positionOf e.span.stop).line startLine
  let start := lineStart f startLine
  (start, min (max (lineStop f stopLine) start) f.content.length)

/-- The preview of an edit. Offsets are taken relative to the block as 32-bit words, so an edit
that does not lie inside the block has none. -/
def previewEdit (fs : FileSet) (e : Edit) : Except PreviewFault EditPreview := do
  match fs.get? e.span.file with
  | none => throw (.unknownFile e.span.file)
  | some f =>
    let (start, stop) := editBlock f e
    let block ← f.content.cut start stop
    let relStart := (e.span.start - start.toUInt32).toNat
    let relStop := (e.span.stop - start.toUInt32).toNat
    if relStart > block.length then throw (.startOutside relStart)
    if relStop < relStart ∨ relStop > block.length then throw (.stopOutside relStop)
    let head ← block.cut 0 relStart
    let tail ← block.cut relStop block.length
    return ⟨blockLines block, blockLines (head ++ Bytes.ofText e.newText ++ tail)⟩

end Phrasebook
