import Phrasebook.Diagnostic.Basic
import Phrasebook.Skeleton.Options

/-!
Bags of diagnostics: collected up to a limit, put in order, and freed of repeats.
-/
namespace Phrasebook

/-- Diagnostics in the order they were found, and how many there may be. -/
structure Bag where
  items : List Diagnostic
  limit : UInt16

namespace Bag

/-- The largest limit. -/
def maxLimit : Nat := 65535

/-- A limit that does not fit is the largest one. -/
def limitOf (n : Int) : UInt16 :=
  if 0 ≤ n && n ≤ maxLimit then n.toNat.toUInt16 else maxLimit.toUInt16

def empty (limit : Int) : Bag :=
  ⟨[], limitOf limit⟩

def size (b : Bag) : Nat :=
  b.items.length

def isFull (b : Bag) : Bool :=
  b.items.length ≥ b.limit.toNat

/-- A full bag takes nothing more. -/
def add (b : Bag) (d : Diagnostic) : Bag :=
  if b.isFull then b else { b with items := b.items ++ [d] }

def addAll (b : Bag) (ds : List Diagnostic) : Bag :=
  ds.foldl add b

/-- Whether some diagnostic is at least as severe. -/
def reaches (b : Bag) (least : Severity) : Bool :=
  b.items.any (·.severity.reaches least)

def hasErrors (b : Bag) : Bool :=
  b.reaches .error

/-- Moves the items that are kept to the front, in the place of those that are not: the first `kept`
ones are done, and the one at `next` comes next. What `keep` remembers goes on with it. -/
def compact {σ : Type} (keep : σ → Diagnostic → Bool × σ) (s : σ) (items : Array Diagnostic)
    (kept next : Nat) (h : kept ≤ next) : Array Diagnostic :=
  if hnext : next < items.size then
    have hkept : kept < items.size := Nat.lt_of_le_of_lt h hnext
    match keep s items[next] with
    | (true, s) =>
      compact keep s (items.set kept items[next]) (kept + 1) (next + 1) (Nat.succ_le_succ h)
    | (false, s) => compact keep s items kept (next + 1) (Nat.le_succ_of_le h)
  else items.take kept
termination_by items.size - next
decreasing_by
  · rw [Array.size_set]
    omega
  · omega

/-- Keeps some of the diagnostics, in their order. -/
def select {σ : Type} (b : Bag) (keep : σ → Diagnostic → Bool × σ) (s : σ) : Bag :=
  { b with items := (compact keep s b.items.toArray 0 0 (Nat.le_refl 0)).toList }

def filter (b : Bag) (keep : Diagnostic → Bool) : Bag :=
  b.select (fun _ d => (keep d, ())) ()

/-- All of both; the limit grows where it must. -/
def merge (b c : Bag) : Bag :=
  let total := b.items.length + c.items.length
  ⟨b.items ++ c.items, if total > b.limit.toNat then limitOf total else b.limit⟩

/-- The order of diagnostics: by file, start, end, severity from the worst down, and code. -/
def comesFirst (a b : Diagnostic) : Bool :=
  if a.primary.file ≠ b.primary.file then a.primary.file < b.primary.file
  else if a.primary.start ≠ b.primary.start then a.primary.start < b.primary.start
  else if a.primary.stop ≠ b.primary.stop then a.primary.stop < b.primary.stop
  else if a.severity ≠ b.severity then a.severity.rank > b.severity.rank
  else a.code.text < b.code.text

def sort (b : Bag) : Bag :=
  { b with items := List.mergeSort b.items fun x y => !comesFirst y x }

/-- Whether a diagnostic is the first one of its code and span; `seen` holds those kept before. -/
def isNew (seen : List (Code × Span)) (d : Diagnostic) : Bool × List (Code × Span) :=
  if seen.contains (d.code, d.primary) then (false, seen)
  else (true, (d.code, d.primary) :: seen)

/-- Keeps the first diagnostic of every code and span. -/
def dedup (b : Bag) : Bag :=
  b.select isNew []

end Bag

/-- Keeps the first diagnostic that is an error. -/
def firstError (seen : Option Diagnostic) (d : Diagnostic) : Option Diagnostic :=
  match seen with
  | some first => some first
  | none => if d.severity.reaches .error then some d else none

end Phrasebook
