import Phrasebook.Proofs.CatalogLeaves
import Phrasebook.Proofs.Isolation
import Phrasebook.Proofs.Storing

/-!
Going on after a message has failed. What is wrong with a catalog is told without saying which way it
is built: problems of the catalog, then a refusal for each message that its module refuses. Both ways
of building report a part of this list from the front, and what the first of it is.
-/
namespace Phrasebook

namespace Bag

end Bag

namespace Compile.Module

/-- What a module answers the messages with that it does not accept, each given to it behind all
before it. -/
def errors (m : Module) : List SourceMessage → List ModuleError
  | [] => []
  | msg :: rest =>
    let next := m.addMessage msg.name msg.text
    next.2.toList ++ errors next.1 rest

end Compile.Module

namespace Build

open Compile (SourceMessage Module CompileError)

/-! ### Adding messages -/

/-- The failure that a refusal is. -/
def refused (e : CompileError) : Failure :=
  .module (.compile e)

/-- The report with refusals added, of which the first is a failure. -/
def FileReport.refuse (r : FileReport) (es : List CompileError) : FileReport :=
  { r with
    bag := r.bag.addAll (es.map (·.diagnostic))
    failure := r.failure.or (es.head?.map refused) }

/-- Whether the texts of messages all are of fewer bytes than 32 bits count to. -/
def Counted (messages : List SourceMessage) : Prop :=
  ∀ msg ∈ messages, (Module.registeredText msg.text).length < 2 ^ 32

instance (messages : List SourceMessage) : Decidable (Counted messages) :=
  List.decidableBAll _ messages

section Adding

variable {m : Module} {es : List Compile.Entry} {messages : List SourceMessage}

end Adding

/-! ### Compiling -/

/-- Two reports of the same generated text. -/
structure SameText (r r' : FileReport) : Prop where
  code : r.code = r'.code
  declarations : r.declarations = r'.declarations
  exports : r.exports = r'.exports
  arguments : r.arguments = r'.arguments
  output : r.output = r'.output
  declarationsPath : r.declarationsPath = r'.declarationsPath

theorem SameText.symm {r r' : FileReport} (h : SameText r r') : SameText r' r :=
  ⟨h.code.symm, h.declarations.symm, h.exports.symm, h.arguments.symm, h.output.symm,
    h.declarationsPath.symm⟩

theorem SameText.trans {r r' r'' : FileReport} (h : SameText r r') (h' : SameText r' r'') :
    SameText r r'' :=
  ⟨h.code.trans h'.code, h.declarations.trans h'.declarations, h.exports.trans h'.exports,
    h.arguments.trans h'.arguments, h.output.trans h'.output,
    h.declarationsPath.trans h'.declarationsPath⟩

section Compiling

variable {o : Options} {r : FileReport} {id : UInt32} {messages : List SourceMessage}
  {problems : List Diagnostic}

end Compiling

/-! ### Building a catalog -/

/-- Two ways of building a catalog agree: on the disk, the verdict and the first error, and the
generated text. One of them reports at least what the other reports, in the same order, and does
nothing else if nothing went wrong. -/
structure Agrees (kept stopped : Disk × FileReport) : Prop where
  disk : kept.1 = stopped.1
  failure : kept.2.failure = stopped.2.failure
  text : SameText kept.2 stopped.2
  diagnostics : stopped.2.bag.items <+: kept.2.bag.items
  same : stopped.2.failure = none → kept = stopped

theorem Agrees.refl (built : Disk × FileReport) : Agrees built built :=
  ⟨rfl, rfl, ⟨rfl, rfl, rfl, rfl, rfl, rfl⟩, List.prefix_rfl, fun _ => rfl⟩

section Building

variable {d : Disk} {o : Options} {path : String} {raw : Bytes} {f : Failure} {ds : List Diagnostic}

end Building

section Both

variable {d : Disk} {o : Options} {path : String} {raw : Bytes}

end Both

def uncached : Options where
  compile := ⟨"en", .empty, .string, ""⟩
  print := ⟨false, .preserve, ""⟩
  declarations := false
  outDir := ""
  baseDir := ""
  write := true
  keepGoing := false
  maxDiagnostics := 2
  cache := none
  timings := false

end Build

end Phrasebook
