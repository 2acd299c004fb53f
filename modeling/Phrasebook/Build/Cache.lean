import Phrasebook.Build.Fields
import Phrasebook.Build.Options
import Phrasebook.Digest.Sha256
import Phrasebook.Disk.Basic
import Phrasebook.Release

/-!
The cache of compiled catalogs. An entry stands under a digest of everything that the generated
text depends on: the content of the catalog and the options.
-/
namespace Phrasebook.Build

/-- What is generated for one catalog. Declarations are empty unless they were asked for. -/
structure Output where
  extension : String
  code : String
  declarations : String
  exports : List Bytes
  arguments : List (Bytes × List Argument)
  deriving DecidableEq

namespace Cache

/-- The version of the format of entries. -/
def schema : Nat := 1

/-! ### Keys -/

def styleFields (kind : FormatKind) (styles : StyleTable) : Bytes :=
  let sorted := List.mergeSort styles fun a b => textLe a.1 b.1
  Fields.writeText kind.name ++ Fields.writeCount styles.length ++
    sorted.flatMap fun (name, o) => Fields.writeText name ++ Fields.writeText o.canonical

/-- All that the generated text depends on, for a content with the digest `content`. -/
def keyStream (content : Bytes) (o : Options) : Bytes :=
  Fields.writeCount schema ++ Fields.writeText Release.current.version ++
    Fields.writeText Release.current.commit ++ content ++
    Fields.writeText o.compile.locale ++ Fields.writeText o.compile.target.name ++
    Fields.writeText (toString o.print.types) ++ Fields.writeText o.print.markup.name ++
    Fields.writeText o.print.namespaceName ++ Fields.writeText (toString o.declarations) ++
    styleFields .number o.compile.formats.number ++ styleFields .date o.compile.formats.date ++
    styleFields .time o.compile.formats.time

def key (content : Bytes) (o : Options) : Bytes :=
  Sha256.hash (keyStream (Sha256.hash content) o)

/-- Where the entry of a key is kept. -/
def entryPath (dir : String) (key : Bytes) : String :=
  let hex := Sha256.hex key
  Path.join [dir, "modules", String.ofList (hex.toList.take 2), hex ++ ".mp"]

/-! ### Entries -/

def writeArgument (a : Argument) : Bytes :=
  Fields.writeText a.name ++ Fields.writeText a.binding ++ Fields.writeText a.type.name

def writeExport (e : Bytes × List Argument) : Bytes :=
  Fields.write e.1 ++ Fields.writeCount e.2.length ++ e.2.flatMap writeArgument

/-- An entry: the version of the format, the catalog it was made from, and what was generated. -/
def encode (version : Nat) (path : String) (out : Output) : Bytes :=
  Fields.writeCount version ++ Fields.writeText path ++ Fields.writeText out.extension ++
    Fields.writeText out.code ++ Fields.writeText out.declarations ++
    Fields.writeCount out.exports.length ++ out.exports.flatMap Fields.write ++
    Fields.writeCount out.arguments.length ++ out.arguments.flatMap writeExport

def readArgument? (bs : Bytes) : Option (Argument × Bytes) := do
  let (name, bs) ← Fields.readText? bs
  let (binding, bs) ← Fields.readText? bs
  let (type, bs) ← Fields.readText? bs
  return (⟨name, binding, ← ArgType.ofName? type⟩, bs)

def readExport? (bs : Bytes) : Option ((Bytes × List Argument) × Bytes) := do
  let (name, bs) ← Fields.read? bs
  let (n, bs) ← Fields.readCount? bs
  let (args, bs) ← Fields.readMany? readArgument? n bs
  return ((name, args), bs)

/-- The version of an entry and what it holds. -/
def decode? (bs : Bytes) : Option (Nat × Output) := do
  let (version, bs) ← Fields.readCount? bs
  let (_, bs) ← Fields.readText? bs
  let (extension, bs) ← Fields.readText? bs
  let (code, bs) ← Fields.readText? bs
  let (declarations, bs) ← Fields.readText? bs
  let (n, bs) ← Fields.readCount? bs
  let (exports, bs) ← Fields.readMany? Fields.read? n bs
  let (n, bs) ← Fields.readCount? bs
  let (arguments, _) ← Fields.readMany? readExport? n bs
  return (version, ⟨extension, code, declarations, exports, arguments⟩)

/-- What looking for an entry finds. -/
inductive Found where
  | hit (out : Output)
  | miss
  | unreadable (why : String)

/-- Looks for the entry of a key. An entry of another version counts as missing. -/
def get (d : Disk) (dir : String) (key : Bytes) : Found :=
  match d.read (entryPath dir key) with
  | .error e => if e.fault = .missing then .miss else .unreadable e.message
  | .ok bs =>
    match decode? bs with
    | none => .unreadable "damaged entry"
    | some (version, out) => if version = schema then .hit out else .miss

def put (d : Disk) (dir : String) (key : Bytes) (path : String) (out : Output) :
    Except DiskError Disk := do
  let p := entryPath dir key
  (← d.makeDirectories (Path.dir p)).write p (encode schema path out)

/-- Makes sure that the directory of a cache is there. -/
def openAt (d : Disk) (dir : String) : Except DiskError Disk :=
  d.makeDirectories dir

/-- Removes all entries. A cache whose directory is gone stays so. -/
def clear (d : Disk) (dir : String) : Except DiskError Disk :=
  if (d.lookup dir).isOk then (d.remove dir).makeDirectories dir else .ok d

/-- Changes the content of every entry. -/
def mapEntries (d : Disk) (dir : String) (f : Bytes → Bytes) : Disk :=
  let root := Path.absolute d.cwd (Path.join [dir, "modules"])
  { d with entries := d.entries.map fun (p, e) =>
      match e with
      | .file bs => if Disk.isWithin root p then (p, .file (f bs)) else (p, e)
      | .directory => (p, e) }

/-- Gives an entry another version; what is no entry stays as it is. -/
def withVersion (version : Nat) (bs : Bytes) : Bytes :=
  match decode? bs with
  | some (_, out) => encode version "" out
  | none => bs

end Cache

end Phrasebook.Build
