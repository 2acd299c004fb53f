import Phrasebook.Proofs.Isolation
import Phrasebook.Proofs.WellFormed

/-!
What can become of adding a message: it is accepted, or refused with a diagnostic of a few codes. A
module can then be built once, and refuses everything afterwards.
-/
namespace Phrasebook

namespace Compile

/-- What can be asked of a module. -/
inductive Call where
  | addMessage (name text : Bytes)
  | addNodes (name : Bytes) (ns : List Node)
  | build

namespace Module

/-- The module after a call, and what the call is refused with. -/
def run (m : Module) : Call → Module × Option ModuleError
  | .addMessage name text => m.addMessage name text
  | .addNodes name ns => m.addNodes name ns
  | .build =>
    match m.build with
    | (m', .ok _) => (m', none)
    | (m', .error e) => (m', some e)

end Module

end Compile

end Phrasebook
