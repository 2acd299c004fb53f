import Phrasebook.Settings.Basic

/-!
Settings from a TOML document. Names of settings may differ in case; a key that no setting takes is
reported, and a value of the wrong type is refused.
-/
namespace Phrasebook.Settings

open Toml (Key)

/-- A letter without its case. -/
def foldCase (c : Char) : Char :=
  if c = '\u017f' then 's' else if c = '\u212a' then 'k' else c.toLower

/-- The setting that a key means: the one of the same name, else one that differs in case. -/
def named? (names : List String) (key : String) : Option String :=
  if names.contains key then some key
  else names.find? fun n => n.toList.map foldCase == key.toList.map foldCase

/-- What has been read, and the keys that were of use. -/
abbrev Reading (σ : Type) := σ × List Key

/-- Reads the known entries of a table. -/
def readTable? {σ : Type} (names : List String) (context : Key)
    (assign : σ → String → Key → Toml.Value → Option (Reading σ)) (s : σ) :
    Toml.Value → Option (Reading σ)
  | .table entries =>
    entries.foldlM (fun (s, used) (name, v) =>
      match named? names name with
      | none => some (s, used)
      | some setting => do
        let key := context ++ [name]
        let (s, more) ← assign s setting key v
        return (s, used ++ key :: more)) (s, [])
  | _ => none

def texts? : List Toml.Value → Option (List String)
  | [] => some []
  | .text s :: r => (texts? r).map (s :: ·)
  | _ => none

def assignCompile? (c : CompileSettings) (setting : String) (v : Toml.Value) :
    Option CompileSettings :=
  match setting, v with
  | "locale", .text s => some { c with locale := s }
  | "target", .text s => some { c with target := s }
  | "typescript", .bool b => some { c with types := b }
  | "jsx", .text s => some { c with markup := s }
  | "declarations", .bool b => some { c with declarations := b }
  | "out_dir", .text s => some { c with outDir := s }
  | "inputs", .array vs => (texts? vs).map fun ts => { c with inputs := some ts }
  | "jobs", .integer n => some { c with jobs := n }
  | "cache_dir", .text s => some { c with cacheDir := s }
  | _, _ => none

def compileNames : List String :=
  ["locale", "target", "typescript", "jsx", "declarations", "out_dir", "inputs", "jobs",
    "cache_dir"]

/-- Styles under a key. What is no table defines none. -/
def readStyles (key : Key) : Toml.Value → Reading StyleSettings
  | .table styles =>
    (styles.map fun (name, v) =>
      match v with
      | .table t => (name, some t)
      | _ => (name, none),
    styles.flatMap fun (name, v) =>
      let style := key ++ [name]
      match v with
      | .table t => style :: t.map fun (option, _) => style ++ [option]
      | _ => [style])
  | _ => ([], [])

def assignFormats (s : Settings) (kind : String) (key : Key) (v : Toml.Value) : Reading Settings :=
  let (styles, used) := readStyles key v
  (match kind with
    | "number" => { s with number := s.number ++ styles }
    | "date" => { s with date := s.date ++ styles }
    | _ => { s with time := s.time ++ styles }, used)

def assignSection? (s : Settings) (name : String) (key : Key) (v : Toml.Value) :
    Option (Reading Settings) :=
  match name with
  | "compile" => do
    let (compile, used) ← readTable? compileNames key
      (fun c setting _ v => (assignCompile? c setting v).map (·, [])) s.compile v
    return ({ s with compile }, used)
  | "formats" => readTable? ["number", "date", "time"] key
      (fun s kind key v => some (assignFormats s kind key v)) s v
  | _ => readTable? ["level"] key
      (fun s _ _ v =>
        match v with
        | .text level => some ({ s with logLevel := level }, [])
        | _ => none) s v

/-- An empty locale in the file stands for the usual one. -/
def fillLocale (root : Toml.Table) (s : Settings) : Settings :=
  let isGiven := match root.get? "compile" with
    | some (.table t) => (Toml.Table.get? t "locale").isSome
    | _ => false
  if isGiven && (Text.trimText s.compile.locale).isEmpty then
    { s with compile := { s.compile with locale := standard.compile.locale } }
  else s

/-- Settings over the standard ones. -/
def ofDocument (d : Toml.Document) : Except SettingsFault Settings :=
  match readTable? ["compile", "formats", "log"] [] assignSection? standard (.table d.root) with
  | none => .error .malformed
  | some (s, used) =>
    match d.keys.filter fun k => !used.contains k with
    | [] => .ok (fillLocale d.root s)
    | unknown => .error (.unknownKeys unknown)

end Phrasebook.Settings
