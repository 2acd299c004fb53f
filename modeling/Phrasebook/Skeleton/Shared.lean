import Phrasebook.Skeleton.Options

/-!
Option objects that share their storage. An object is a view of the first entries of a storage:
replacing a value shows in every view of it, while an added key shows in no shorter one.
-/
namespace Phrasebook

/-- Room for entries, and those written so far. -/
structure Storage where
  room : Nat
  entries : FormatOptions

/-- The first `size` entries of a storage. -/
structure OptionView where
  storage : Nat
  size : Nat

/-- All storages, named by their places. -/
abbrev OptionPool := List Storage

namespace OptionPool

/-- The options that a view shows; no view shows none. -/
def read (p : OptionPool) (v : Option OptionView) : FormatOptions :=
  match v with
  | none => []
  | some v => ((p[v.storage]?).map (·.entries.take v.size)).getD []

/-- Keeps options in a storage of their own with room for `room` entries. -/
def store (p : OptionPool) (room : Nat) (o : FormatOptions) : OptionPool × OptionView :=
  (p ++ [⟨room, o⟩], ⟨p.length, o.length⟩)

/-- Writes an entry behind a view, over what a longer view of the storage has there. Options that
fill their storage move to one of twice the room. -/
def push (p : OptionPool) (v : OptionView) (s : Storage) (entry : String × OptionValue) :
    OptionPool × OptionView :=
  let grown := s.entries.take v.size ++ [entry]
  if v.size < s.room then
    (List.set p v.storage { s with entries := grown ++ s.entries.drop (v.size + 1) },
      { v with size := v.size + 1 })
  else p.store (max 1 (2 * s.room)) grown

/-- Replaces the value under a key, or adds the key. -/
def set (p : OptionPool) (v : Option OptionView) (key : String) (value : OptionValue) :
    OptionPool × OptionView :=
  match v.bind fun v => (p[v.storage]?).map (v, ·) with
  | none => p.store 1 [(key, value)]
  | some (v, s) =>
    if (s.entries.take v.size).any (·.1 == key) then
      (List.set p v.storage { s with entries := FormatOptions.set s.entries key value }, v)
    else p.push v s (key, value)

end OptionPool

/-- Named views of one pool. A name without a view has no options. -/
structure OptionRegisters where
  pool : OptionPool
  views : List (String × Option OptionView)

namespace OptionRegisters

def empty : OptionRegisters := ⟨[], []⟩

def view? (r : OptionRegisters) (name : String) : Option OptionView :=
  ((r.views.find? (·.1 == name)).map (·.2)).join

def read (r : OptionRegisters) (name : String) : FormatOptions :=
  r.pool.read (r.view? name)

/-- Gives a name options in a storage of their own, or none. -/
def put (r : OptionRegisters) (name : String) (o : Option FormatOptions) : OptionRegisters :=
  match o with
  | none => { r with views := (name, none) :: r.views }
  | some o =>
    let (pool, v) := r.pool.store o.length o
    ⟨pool, (name, some v) :: r.views⟩

/-- Sets a key of the options under `source` and names the result `target`. -/
def set (r : OptionRegisters) (source target key : String) (value : OptionValue) :
    OptionRegisters :=
  let (pool, v) := r.pool.set (r.view? source) key value
  ⟨pool, (target, some v) :: r.views⟩

/-- Copies the options under `source` into a storage of their own. -/
def clone (r : OptionRegisters) (source target : String) : OptionRegisters :=
  r.put target ((r.view? source).map fun _ => r.read source)

end OptionRegisters

end Phrasebook
