import Phrasebook.Decimal.Fixed

/-!
Timing reports: how long every phase of a run took, in milliseconds.
-/
namespace Phrasebook

/-- The time of one phase, with a remark. -/
structure PhaseTime where
  name : String
  millis : Float
  note : String

structure TimingReport where
  total : Float
  phases : List PhaseTime

namespace TimingReport

def empty : TimingReport := ⟨0, []⟩

/-- Adds the time of a phase to those of the same name. -/
def addTo (phases : List PhaseTime) (p : PhaseTime) : List PhaseTime :=
  match phases with
  | [] => [⟨p.name, 0 + p.millis, ""⟩]
  | q :: r => if q.name = p.name then { q with millis := q.millis + p.millis } :: r
    else q :: addTo r p

/-- The sums of all reports. Names stay in the order of their first appearance, notes are
dropped. -/
def aggregate (reports : List TimingReport) : TimingReport :=
  reports.foldl (fun sum r => ⟨sum.total + r.total, r.phases.foldl addTo sum.phases⟩) empty

def padLeft (width : Nat) (s : String) : String :=
  String.ofList (List.replicate (width - s.length) ' ') ++ s

def padRight (width : Nat) (s : String) : String :=
  s ++ String.ofList (List.replicate (width - s.length) ' ')

def line (name : String) (millis : Float) : String :=
  "  " ++ padRight 12 name ++ " " ++ padLeft 9 (Decimal.fixed 2 millis) ++ " ms"

/-- A heading, a line for every phase and one for the sum, each written at once. -/
def lines (r : TimingReport) : List String :=
  ["timings:\n"] ++
    r.phases.map (fun p =>
      line p.name p.millis ++ (if p.note = "" then "" else "  // " ++ p.note) ++ "\n") ++
    [line "total" r.total ++ "\n"]

def summary (r : TimingReport) : String :=
  String.join r.lines

end TimingReport

end Phrasebook
