import Phrasebook.Skeleton.Options
import Phrasebook.Source.Path
import Phrasebook.Text.Utf8

/-!
A disk as a value: what stands under every absolute path, and the working directory that relative
paths start from.
-/
namespace Phrasebook

/-- What a path can lead to. -/
inductive DiskEntry where
  | file (content : Bytes)
  | directory

def DiskEntry.isDirectory : DiskEntry → Bool
  | .file _ => false
  | .directory => true

/-- Files and directories under their absolute, clean paths, each path at most once. The directory
that holds an entry is an entry as well, but for the root and what leads to the working
directory. -/
structure Disk where
  cwd : String
  entries : List (String × DiskEntry)

/-- Why a path does not lead where it should. -/
inductive DiskFault where
  | missing
  | notDirectory
  | isDirectory
  deriving DecidableEq

def DiskFault.message : DiskFault → String
  | .missing => "no such file or directory"
  | .notDirectory => "not a directory"
  | .isDirectory => "is a directory"

/-- A failed operation on a path, as the caller gave it. -/
structure DiskError where
  operation : String
  path : String
  fault : DiskFault

def DiskError.message (e : DiskError) : String :=
  s!"{e.operation} {e.path}: {e.fault.message}"

namespace Disk

def find? (d : Disk) (path : String) : Option DiskEntry :=
  (d.entries.find? (·.1 == path)).map (·.2)

/-- Directories above the working directory, and it itself, are always there. -/
def isAbove (d : Disk) (path : String) : Bool :=
  path == "/" || path == d.cwd || (path ++ "/").isPrefixOf d.cwd

def entry? (d : Disk) (path : String) : Option DiskEntry :=
  if d.isAbove path then some .directory else d.find? path

/-- All directories that lead to an absolute path, the outermost first. -/
def ancestors (path : String) : List String :=
  let ns := Path.names path
  (List.range ns.length).map fun n => Path.ofNames true (ns.take n)

/-- What a path leads to. The first directory on the way that is missing or is a file decides why
it leads nowhere; a slash at the end asks for a directory. -/
def lookup (d : Disk) (path : String) : Except DiskFault DiskEntry :=
  if path = "" then .error .missing
  else
    let target := Path.absolute d.cwd path
    let blocked := (ancestors target).findSome? fun p =>
      match d.entry? p with
      | none => some DiskFault.missing
      | some (.file _) => some .notDirectory
      | some .directory => none
    match blocked with
    | some fault => .error fault
    | none =>
      match d.entry? target with
      | none => .error .missing
      | some (.file content) =>
        if path.endsWith "/" then .error .notDirectory else .ok (.file content)
      | some .directory => .ok .directory

def exists? (d : Disk) (path : String) : Bool :=
  (d.lookup path).isOk

/-- Whether there is a directory under the path, with the fault if there is nothing at all. -/
def isDirectory (d : Disk) (path : String) : Except DiskError Bool :=
  match d.lookup path with
  | .ok e => .ok e.isDirectory
  | .error f => .error ⟨"stat", path, f⟩

def read (d : Disk) (path : String) : Except DiskError Bytes :=
  match d.lookup path with
  | .ok (.file content) => .ok content
  | .ok .directory => .error ⟨"read", path, .isDirectory⟩
  | .error f => .error ⟨"open", path, f⟩

/-- Puts an entry under an absolute path, over what was there. -/
def put (d : Disk) (path : String) (e : DiskEntry) : Disk :=
  if d.entries.any (·.1 == path) then
    { d with entries := d.entries.map fun (p, old) => if p == path then (p, e) else (p, old) }
  else { d with entries := d.entries ++ [(path, e)] }

/-- Writes a file into a directory that is there. -/
def write (d : Disk) (path : String) (content : Bytes) : Except DiskError Disk :=
  match d.lookup path with
  | .ok .directory => .error ⟨"open", path, .isDirectory⟩
  | .ok (.file _) => .ok (d.put (Path.absolute d.cwd path) (.file content))
  | .error f =>
    if path = "" then .error ⟨"open", path, f⟩
    else if path.endsWith "/" then
      .error ⟨"open", path, if f = .missing then .isDirectory else f⟩
    else
      match d.lookup (Path.dir (Path.absolute d.cwd path)) with
      | .ok .directory => .ok (d.put (Path.absolute d.cwd path) (.file content))
      | _ => .error ⟨"open", path, f⟩

/-- The beginnings of a path that end before a slash or at the end, the shortest first. -/
def stems (path : String) : List String :=
  let cs := path.toList
  ((List.range (cs.length + 1)).filter fun n =>
    n > 0 && (n == cs.length || cs[n]? == some '/') && cs[n - 1]? != some '/').map fun n =>
      String.ofList (cs.take n)

/-- Makes a directory and all that lead to it. -/
def makeDirectories (d : Disk) (path : String) : Except DiskError Disk :=
  if path = "" then .error ⟨"mkdir", path, .missing⟩
  else
    (stems path).foldlM (fun d stem =>
      match d.lookup stem with
      | .ok .directory => .ok d
      | .ok (.file _) => .error ⟨"mkdir", stem, .notDirectory⟩
      | .error _ => .ok (d.put (Path.absolute d.cwd stem) .directory)) d

/-- Whether `path` is `root` or lies below it. -/
def isWithin (root path : String) : Bool :=
  path == root || ((if root == "/" then root else root ++ "/").isPrefixOf path)

/-- Removes a path with all below it. -/
def remove (d : Disk) (path : String) : Disk :=
  let target := Path.absolute d.cwd path
  { d with entries := d.entries.filter fun (p, _) => !isWithin target p }

/-- The names in a directory, ascending. -/
def list (d : Disk) (path : String) : List String :=
  let target := Path.absolute d.cwd path
  List.mergeSort ((d.entries.filter fun (p, _) => p != target && Path.dir p == target).map
    fun (p, _) => Path.base p) textLe

/-- The absolute paths of the files, ascending. -/
def files (d : Disk) : List (String × Bytes) :=
  List.mergeSort (d.entries.filterMap fun
    | (p, .file content) => some (p, content)
    | (_, .directory) => none) fun a b => textLe a.1 b.1

/-- The files that are new or have another content than before. -/
def changes (before after : Disk) : List (String × Bytes) :=
  after.files.filter fun (p, content) =>
    match before.find? p with
    | some (.file old) => old != content
    | _ => true

/-- Adds a file with the directories that lead to it; for setting up a disk. -/
def add (d : Disk) (path : String) (e : DiskEntry) : Disk :=
  let target := Path.absolute d.cwd path
  let d := (ancestors target).foldl (fun d p =>
    if (d.entry? p).isSome then d else d.put p .directory) d
  if d.isAbove target then d else d.put target e

/-- A disk with nothing on it but the working directory. -/
def empty (cwd : String) : Disk :=
  ⟨cwd, []⟩

end Disk

end Phrasebook
