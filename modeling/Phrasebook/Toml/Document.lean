import Phrasebook.Decimal.Layout
import Phrasebook.Text.Quoted
import Phrasebook.Toml.Syntax

/-!
What the statements of a TOML document define together: nested tables, and the list of the keys
that the text names, in its order. A table that only stands in front of a dot may be named once
more; any other key has one definition. The exception is a key that holds an array: it gives way
to a later definition.
-/
namespace Phrasebook.Toml

inductive Value where
  | text (s : String)
  | integer (n : Int)
  | float (x : Float)
  | bool (b : Bool)
  | moment (shown : String)
  | array (items : List Value)
  | table (entries : List (String × Value))
  | tables (items : List (List (String × Value)))

/-- Entries in the order of their first definition, each name once. -/
abbrev Table := List (String × Value)

namespace Table

def get? (t : Table) (name : String) : Option Value :=
  (t.find? (·.1 == name)).map (·.2)

def set (t : Table) (name : String) (v : Value) : Table :=
  match t with
  | [] => [(name, v)]
  | (n, old) :: r => if n = name then (n, v) :: r else (n, old) :: set r name v

/-- Changes the table under a path. Of an array of tables the last one is meant. -/
def modify? (t : Table) (path : Key) (f : Table → Option Table) : Option Table :=
  match path with
  | [] => f t
  | name :: path =>
    match t.get? name with
    | some (.table inner) => do
      return t.set name (.table (← modify? inner path f))
    | some (.tables items) => do
      let last ← items.getLast?
      return t.set name (.tables (items.dropLast ++ [← modify? last path f]))
    | _ => none

/-- The table under a path. -/
def at? (t : Table) (path : Key) : Option Table :=
  match path with
  | [] => some t
  | name :: path =>
    match t.get? name with
    | some (.table inner) => at? inner path
    | some (.tables items) => items.getLast?.bind (at? · path)
    | _ => none

end Table

/-- A document half read. `loose` keys are tables that no statement has named yet, `arrays` are the
keys last given an array, and `keys` are the keys named so far. -/
structure Draft where
  root : Table
  loose : List Key
  arrays : List Key
  keys : List Key

namespace Draft

def empty : Draft := ⟨[], [], [], []⟩

def tighten (d : Draft) (key : Key) : Draft :=
  { d with loose := d.loose.filter (· != key) }

def loosen (d : Draft) (key : Key) : Draft :=
  if d.loose.contains key then d else { d with loose := key :: d.loose }

def noteArray (d : Draft) (key : Key) (isArray : Bool) : Draft :=
  let others := d.arrays.filter (· != key)
  { d with arrays := if isArray then key :: others else others }

def noteKey (d : Draft) (key : Key) : Draft :=
  { d with keys := d.keys ++ [key] }

/-- Defines a name in the table under `context`. A loose table stays as it is and is loose no
longer. -/
def define? (d : Draft) (context : Key) (name : String) (v : Value) : Option Draft := do
  let key := context ++ [name]
  let t ← d.root.at? context
  let write := fun (t : Table) => some (t.set name v)
  if (t.get? name).isNone then return { d with root := ← d.root.modify? context write }
  else if d.arrays.contains key then
    return { d.tighten key with root := ← d.root.modify? context write }
  else if d.loose.contains key then return d.tighten key
  else none

/-- Makes the tables above a key where they are missing. -/
def reach? (d : Draft) (key : Key) : Option Draft :=
  (List.range (key.length - 1)).foldlM (fun d n => do
    let parent ← d.root.at? (key.take n)
    let some name := key[n]? | none
    match parent.get? name with
    | some _ => return d
    | none =>
      let d := d.loosen (key.take (n + 1))
      return { d with root := ← d.root.modify? (key.take n) fun t => t.set name (.table []) }) d

/-- Defines an empty table under a key. -/
def openTable? (d : Draft) (key : Key) : Option Draft := do
  (← d.reach? key).define? key.dropLast (← key.getLast?) (.table [])

/-- Adds an empty table to the array of tables under a key. -/
def addTable? (d : Draft) (key : Key) : Option Draft := do
  let d ← d.reach? key
  let name ← key.getLast?
  let root ← d.root.modify? key.dropLast fun t =>
    match t.get? name with
    | none => some (t.set name (.tables [[]]))
    | some (.tables items) => some (t.set name (.tables (items ++ [[]])))
    | some _ => none
  return { d with root }

/-- Opens the tables that the front parts of a dotted key name. -/
def openDotted? (d : Draft) (context : Key) (parts : Key) : Option Draft :=
  match parts with
  | [] => some d
  | part :: parts => do
    let key := context ++ [part]
    openDotted? (← (d.loosen key).openTable? key) key parts

mutual

/-- Works out a value that is written behind `key`. Inline tables come into being under their key
while they are read; those of an array form an array of tables until the array is complete. -/
def value? (d : Draft) (key : Key) (inArray : Bool) : Written → Option (Draft × Value)
  | .text s => some (d, .text s)
  | .integer n => some (d, .integer n)
  | .float x => some (d, .float x)
  | .bool b => some (d, .bool b)
  | .moment m => some (d, .moment m)
  | .array items => do
    let (d, vs) ← values? (d.noteArray key true) key items
    return (d, .array vs)
  | .inline entries => do
    let d := d.loosen key
    let d ← if inArray then d.addTable? key else d.openTable? key
    let d ← assignAll? d key entries
    return (d, .table (← d.root.at? key))

def values? (d : Draft) (key : Key) : List Written → Option (Draft × List Value)
  | [] => some (d, [])
  | w :: ws => do
    let (d, v) ← value? d key true w
    let (d, vs) ← values? d key ws
    return (d, v :: vs)

/-- Assigns the entries of an inline table. -/
def assignAll? (d : Draft) (context : Key) : List (Key × Written) → Option Draft
  | [] => some d
  | (key, w) :: rest => do
    let front := context ++ key.dropLast
    let name ← key.getLast?
    let full := front ++ [name]
    let d := (← d.openDotted? context key.dropLast).noteKey full
    let (d, v) ← value? d full false w
    let d := (← d.define? front name v).noteArray full (v matches .array _)
    assignAll? d context rest

end

/-- One more statement, and the table that the assignments after it go to. -/
def step? (s : Draft × Key) : Statement → Option (Draft × Key)
  | .table key => do
    let d ← s.1.openTable? key
    return ((d.noteArray key false).noteKey key, key)
  | .tableOfArray key => do
    let d ← s.1.addTable? key
    return ((d.noteArray key false).noteKey key, key)
  | .assign key w => do
    return (← s.1.assignAll? s.2 [(key, w)], s.2)

end Draft

/-- A document: its tables and the keys that its text names, in their order. -/
structure Document where
  root : Table
  keys : List Key

/-- Reads a document; there is none if it is malformed or defines something twice. -/
def Document.read? (cs : List Char) : Option Document := do
  let statements ← Toml.read? cs
  let (d, _) ← statements.foldlM Draft.step? (Draft.empty, [])
  return ⟨d.root, d.keys⟩

def quoteChar (c : Char) : List Char :=
  match c with
  | '"' => ['\\', '"']
  | '\\' => ['\\', '\\']
  | '\x08' => ['\\', 'b']
  | '\t' => ['\\', 't']
  | '\n' => ['\\', 'n']
  | '\x0c' => ['\\', 'f']
  | '\r' => ['\\', 'r']
  | _ => if c.toNat < 0x20 || c = '\x7f' then '\\' :: 'u' :: Text.hexDigits 4 c.toNat else [c]

/-- A text in quotes. -/
def quote (s : String) : String :=
  String.ofList ('"' :: s.toList.flatMap quoteChar ++ ['"'])

/-- A part of a key, in quotes where it needs them. -/
def showPart (part : String) : String :=
  if part != "" && part.toList.all isBare then part else quote part

/-- A key as it is written. -/
def Key.show (key : Key) : String :=
  Text.join "." (key.map showPart)

mutual

/-- A value as messages show it. -/
def Value.show : Value → String
  | .text s => s
  | .integer n => toString n
  | .float x => Decimal.shown x
  | .bool b => toString b
  | .moment m => m
  | .array items => "[" ++ Text.join " " (Value.showAll items) ++ "]"
  | .table _ => "map[]"
  | .tables items => "[" ++ Text.join " " (items.map fun _ => "map[]") ++ "]"

def Value.showAll : List Value → List String
  | [] => []
  | v :: vs => v.show :: Value.showAll vs

end

/-- What messages call the type of a value. -/
def Value.typeName : Value → String
  | .text _ => "string"
  | .integer _ => "int64"
  | .float _ => "float64"
  | .bool _ => "bool"
  | .moment _ => "time.Time"
  | .array _ => "[]interface \x7b\x7d"
  | .table _ => "map[string]interface \x7b\x7d"
  | .tables _ => "[]map[string]interface \x7b\x7d"

end Phrasebook.Toml
