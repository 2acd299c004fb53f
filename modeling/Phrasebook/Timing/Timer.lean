import Phrasebook.Timing.Report

/-!
A timer measures phases one after the other. Its clock stands still, so that every phase takes no
time; what it keeps is which phases there were, and their notes.
-/
namespace Phrasebook

/-- The phases begun so far. A phase is named by its place. -/
abbrev Timer := List PhaseTime

namespace Timer

/-- Begins a phase. -/
def start (t : Timer) (name : String) : Timer × Nat :=
  (t ++ [⟨name, 0, ""⟩], t.length)

/-- Ends a phase with a note; a place that no phase has is ignored. -/
def finish (t : Timer) (place : Int) (note : String) : Timer :=
  if place < 0 then t else List.modify t place.toNat fun p => { p with note }

def report (t : Timer) : TimingReport :=
  ⟨0, t⟩

end Timer

end Phrasebook
