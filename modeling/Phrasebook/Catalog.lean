import Phrasebook.Compile.Module
import Phrasebook.Json.Read

/-!
Message catalogs: JSON objects whose strings are messages. A nested object puts its key and a dot
in front of the names of its messages.
-/
namespace Phrasebook.Catalog

open Compile (SourceMessage)

/-- An entry that is no message and holds none. -/
structure Misfit where
  name : Bytes
  start : Nat
  stop : Nat
  kind : String

/-- What an entry of a catalog turns out to be. -/
inductive Entry where
  | message (m : SourceMessage)
  | misfit (m : Misfit)

/-- The name of a key inside the object called `parent`; the outermost object has the empty name. -/
def childName (parent key : Bytes) : Bytes :=
  if parent.isEmpty then key else parent ++ 0x2E :: key

mutual

/-- The entries of a value called `name`, in the order of the text. -/
def entries (name : Bytes) : LocatedJson → List Entry
  | .string _ _ content => [.message ⟨name, content⟩]
  | .object _ _ members => memberEntries name members
  | .array start stop _ => [.misfit ⟨name, start, stop, "array"⟩]
  | .number start stop => [.misfit ⟨name, start, stop, "number"⟩]
  | .bool start stop => [.misfit ⟨name, start, stop, "boolean"⟩]
  | .null start stop => [.misfit ⟨name, start, stop, "null"⟩]

def memberEntries (parent : Bytes) : List (Bytes × LocatedJson) → List Entry
  | [] => []
  | (key, v) :: r => entries (childName parent key) v ++ memberEntries parent r

end

def Misfit.diagnostic (file : UInt32) (m : Misfit) : Diagnostic :=
  .error .invalidMessageFile (Span.between file m.start m.stop)
    s!"message {Text.quoteBytes m.name} must be a string, got {m.kind}"

/-- The messages of a catalog in the order of the text, and what is wrong with it. Entries that are
no messages do not keep the others from being read. -/
def read (fs : FileSet) (id : UInt32) : List SourceMessage × List Diagnostic :=
  match fs.get? id with
  | none => ([], [.error .invalidMessageFile .zero "unknown message file"])
  | some f =>
    match LocatedJson.read? f.content with
    | none => ([], [.error .invalidMessageFile (Span.between id 0 f.content.length)
        "message file is not valid JSON"])
    | some (.object _ _ members) =>
      let found := memberEntries [] members
      (found.filterMap fun | .message m => some m | .misfit _ => none,
        found.filterMap fun | .misfit m => some (m.diagnostic id) | .message _ => none)
    | some _ => ([], [.error .invalidMessageFile (Span.between id 0 f.content.length)
        "message file must contain a JSON object"])

end Phrasebook.Catalog
