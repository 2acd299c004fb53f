import Phrasebook.Message.Node
import Phrasebook.Source.File

/-!
The span rules of a message tree: every span is non-empty, points into the text that was read, and
lies inside the span of what encloses it.
-/
namespace Phrasebook.Message

/-- What breaks the span rules. -/
inductive SpanProblem where
  | hole (parent : Span)
  | empty (what : String) (span : Span)
  | foreignFile (what : String) (file expected : UInt32)
  | outside (what : String) (span parent : Span)

def SpanProblem.message : SpanProblem → String
  | .hole parent => s!"nil node inside {parent.text}"
  | .empty what span => s!"{what}: empty span {span.text}"
  | .foreignFile what file expected => s!"{what}: span file mismatch: got={file} want={expected}"
  | .outside what span parent => s!"{what}: span {span.text} is outside {parent.text}"

/-- Checks one span against the one around it. -/
def checkSpan (file : UInt32) (what : String) (span parent : Span) : Except SpanProblem Unit :=
  if span.stop ≤ span.start then .error (.empty what span)
  else if span.file ≠ file then .error (.foreignFile what span.file file)
  else if span.start < parent.start || span.stop > parent.stop then
    .error (.outside what span parent)
  else .ok ()

mutual

/-- Checks the spans below an element. -/
def checkBelow (file : UInt32) : Node → Except SpanProblem Unit
  | .argument span _ nameSpan => checkSpan file "argument name" nameSpan span
  | .format span _ _ nameSpan _ => checkSpan file "argument name" nameSpan span
  | .select span _ _ cases => checkCases file span cases
  | .plural span _ _ _ _ cases => checkCases file span cases
  | .tag span _ nameSpan _ children => do
    checkSpan file "tag name" nameSpan span
    checkNodes file span children
  | .literal .. | .pound .. | .unknown .. | .hole => .ok ()

/-- Checks one element against the span around it. -/
def checkNode (file : UInt32) (parent : Span) : Node → Except SpanProblem Unit
  | .hole => .error (.hole parent)
  | n => do
    checkSpan file n.kindName n.span parent
    checkBelow file n

def checkNodes (file : UInt32) (parent : Span) : List Node → Except SpanProblem Unit
  | [] => .ok ()
  | n :: r => do
    checkNode file parent n
    checkNodes file parent r

def checkCase (file : UInt32) (parent : Span) : Branch Node → Except SpanProblem Unit
  | ⟨key, keySpan, span, body⟩ => do
    checkSpan file ("case " ++ key) span parent
    checkSpan file ("case key " ++ key) keySpan span
    checkNodes file span body

def checkCases (file : UInt32) (parent : Span) : List (Branch Node) → Except SpanProblem Unit
  | [] => .ok ()
  | b :: r => do
    checkCase file parent b
    checkCases file parent r

end

/-- The first broken span rule in a tree read from `f`. -/
def spanProblem? (nodes : List Node) (f : File) : Option SpanProblem :=
  match checkNodes f.id f.span nodes with
  | .ok _ => none
  | .error p => some p

end Phrasebook.Message
