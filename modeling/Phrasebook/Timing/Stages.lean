import Phrasebook.Decimal.Fixed

/-!
Durations of stages, in nanoseconds.
-/
namespace Phrasebook

/-- The recorded durations. -/
abbrev StageTimes := List (String × Int)

namespace StageTimes

def get? (t : StageTimes) (stage : String) : Option Int :=
  (t.find? (·.1 == stage)).map (·.2)

def set (t : StageTimes) (stage : String) (nanos : Int) : StageTimes :=
  (stage, nanos) :: t.filter (·.1 != stage)

/-- The durations of the stages together; one that is not recorded counts as nothing. -/
def sum (t : StageTimes) (stages : List String) : Int :=
  (stages.map fun s => (t.get? s).getD 0).foldr (· + ·) 0

/-- The stages that are announced, and how. -/
def labels : List (String × String) :=
  [("parse", "parsed"), ("compile", "compiled"), ("emit", "emitted")]

def millis (nanos : Int) : Float :=
  Float.ofInt nanos / 1000000

/-- One line for every recorded stage. -/
def summary (t : StageTimes) : String :=
  String.join (labels.filterMap fun (stage, label) =>
    (t.get? stage).map fun n => label ++ " " ++ Decimal.fixed 1 (millis n) ++ " ms\n")

end StageTimes

end Phrasebook
