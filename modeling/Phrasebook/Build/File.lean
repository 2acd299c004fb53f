import Phrasebook.Build.Cache
import Phrasebook.Catalog
import Phrasebook.Diagnostic.Bag
import Phrasebook.Log
import Phrasebook.Timing.Report

/-!
Building one catalog: it is loaded, looked up in the cache, read, compiled, printed and written.
Every step that was taken is on record.
-/
namespace Phrasebook.Build

open Compile (SourceMessage Module ModuleError)

/-- The steps of building a catalog. -/
inductive Phase where
  | load
  | cache
  | parse
  | compile
  | emit
  | write
  deriving DecidableEq

def Phase.name : Phase → String
  | .load => "load"
  | .cache => "cache"
  | .parse => "parse"
  | .compile => "compile"
  | .emit => "emit"
  | .write => "write"

/-- Why generated text could not be written. -/
inductive WriteError where
  | directory (e : DiskError)
  | file (path : String) (e : DiskError)

def WriteError.message : WriteError → String
  | .directory e => s!"create output directory: {e.message}"
  | .file path e => s!"write {path}: {e.message}"

/-- The first thing that went wrong with a catalog. -/
inductive Failure where
  | load (e : DiskError)
  | catalog (d : Diagnostic)
  | module (e : ModuleError)
  | write (e : WriteError)
  | cancelled

def Failure.message : Failure → String
  | .load e => s!"load: {e.message}"
  | .catalog d => d.line
  | .module e => e.message
  | .write e => e.message
  | .cancelled => "context canceled"

/-- A step that was taken: what it remarked, and the text of its error if it failed. -/
structure Step where
  phase : Phase
  note : String
  error : Option String

/-- What came of one catalog. -/
structure FileReport where
  path : String
  display : String
  files : FileSet
  bag : Bag
  output : String
  declarationsPath : String
  code : String
  declarations : String
  exports : List Bytes
  arguments : List (Bytes × List Argument)
  cacheHit : Bool
  steps : List Step
  failure : Option Failure
  /-- Log records, each with the number of steps taken before it. -/
  log : List (Nat × LogRecord)

namespace FileReport

/-- Before the first step. -/
def start (cwd : String) (o : Options) (path : String) : FileReport :=
  ⟨path, displayPath cwd o.baseDir path, ⟨[], o.baseDir⟩, Bag.empty o.diagnosticLimit, "", "", "",
    "", [], [], false, [], none, []⟩

def failed (r : FileReport) : Bool :=
  r.failure.isSome

def step (r : FileReport) (phase : Phase) (note : String) (error : Option String) : FileReport :=
  { r with steps := r.steps ++ [⟨phase, note, error⟩] }

def record (r : FileReport) (level : LogLevel) (fields : List (String × LogValue))
    (message : String) : FileReport :=
  let entry : LogRecord := ⟨level, ("file", .text r.display) :: fields, message⟩
  { r with log := r.log ++ [(r.steps.length, entry)] }

def records (r : FileReport) : List LogRecord :=
  r.log.map (·.2)

/-- Keeps the first failure. -/
def fail (r : FileReport) (f : Failure) : FileReport :=
  { r with failure := r.failure.or (some f) }

def add (r : FileReport) (d : Diagnostic) : FileReport :=
  { r with bag := r.bag.add d }

/-- Takes over what was generated, and where it goes. -/
def withOutput (r : FileReport) (cwd : String) (o : Options) (out : Output) : FileReport :=
  let s := outputStem cwd o r.path
  { r with
    code := out.code
    declarations := out.declarations
    exports := out.exports
    arguments := out.arguments
    output := s ++ out.extension
    declarationsPath := if out.declarations = "" then "" else s ++ declarationsExtension }

def timing (r : FileReport) : TimingReport :=
  ⟨0, r.steps.map fun s => ⟨s.phase.name, 0, s.note⟩⟩

end FileReport

/-! ### Compiling -/

/-- Adding the messages of a catalog one after the other. A step that cannot go on says why. -/
structure Adding where
  module : Module
  report : FileReport
  stopped : Option (String × Failure)

/-- Adds the messages in order. The diagnostics of failed ones go to the report; the first of them
ends it unless the build is to keep going. -/
def addMessages (keepGoing cancelled : Bool) (m : Module) (r : FileReport) :
    List SourceMessage → Adding
  | [] => ⟨m, r, none⟩
  | msg :: rest =>
    if cancelled then ⟨m, r, some ("cancelled", .cancelled)⟩
    else
      match m.addMessage msg.name msg.text with
      | (m, none) => addMessages keepGoing cancelled m r rest
      | (m, some (.compile e)) =>
        let r := (r.add e.diagnostic).fail (.module (.compile e))
        if keepGoing then addMessages keepGoing cancelled m r rest else ⟨m, r, none⟩
      | (m, some e) => ⟨m, r, some ("", .module e)⟩

def messageCount (messages : List SourceMessage) : String :=
  s!"{messages.length} messages"

/-- The text generated for a module. -/
def emit (o : Options) (b : Module.Built) : Output :=
  ⟨Program.extension o.print b.program, Program.print o.print b.program,
    if o.wantsDeclarations then Program.declarations b.program else "", b.exports, b.arguments⟩

/-- Compiles a catalog that was loaded as `id`, without looking at any cache. -/
def compileLoaded (o : Options) (cancelled : Bool) (r : FileReport) (id : UInt32) :
    FileReport × Option Output :=
  let (messages, problems) := Catalog.read r.files id
  let r := problems.foldl FileReport.add (r.step .parse (messageCount messages) none)
  let r := match problems with
    | [] => r
    | d :: _ => r.fail (.catalog d)
  if r.failed && !o.keepGoing then (r, none)
  else
    let added := addMessages o.keepGoing cancelled
      (Module.new r.files { o.compile with file := r.display }) r messages
    let r := { added.report with files := added.module.files }
    match added.stopped with
    | some (note, f) =>
      ({ r.step .compile note (some f.message) with failure := some f }, none)
    | none =>
      let r := r.step .compile (messageCount messages) (r.failure.map Failure.message)
      if r.failed then (r, none)
      else
        match added.module.build with
        | (_, .error e) => (r.fail (.module e), none)
        | (_, .ok b) =>
          let out := emit o b
          (r.step .emit out.extension none, some out)

/-! ### Writing -/

def writeText (d : Disk) (path text : String) : Except WriteError Disk :=
  match d.makeDirectories (Path.dir path) with
  | .error e => .error (.directory e)
  | .ok d =>
    match d.write path (Bytes.ofText text) with
    | .error e => .error (.file path e)
    | .ok d => .ok d

/-- Writes the module and its declarations. What was written before a failure stays. -/
def writeOutputs (d : Disk) (r : FileReport) : Disk × FileReport :=
  let done (d : Disk) (e : Option WriteError) : Disk × FileReport :=
    let r := r.step .write r.output (e.map WriteError.message)
    match e with
    | none => (d, r)
    | some e =>
      (d, { r.add (.error .unwritableFile .zero e.message) with failure := some (.write e) })
  match writeText d r.output r.code with
  | .error e => done d (some e)
  | .ok d =>
    if r.declarationsPath = "" then done d none
    else
      match writeText d r.declarationsPath r.declarations with
      | .error e => done d (some e)
      | .ok d => done d none

def writeIfAsked (o : Options) (d : Disk) (r : FileReport) : Disk × FileReport :=
  if o.write then writeOutputs d r else (d, r)

/-! ### One file -/

/-- Compiles a loaded catalog and keeps what was generated in the cache, if there is one. -/
def compileAndStore (d : Disk) (o : Options) (cancelled : Bool) (r : FileReport) (id : UInt32)
    (key : Bytes) : Disk × FileReport :=
  match compileLoaded o cancelled r id with
  | (r, none) => (d, r)
  | (r, some out) =>
    let r := r.withOutput d.cwd o out
    let (d, r) := match o.cache with
      | none => (d, r)
      | some dir =>
        match Cache.put d dir key r.display out with
        | .ok d => (d, r)
        | .error e => (d, r.record .warn [("error", .text e.message)] "cache write failed")
    writeIfAsked o d r

/-- Everything from loading a catalog to writing its module. -/
def process (d : Disk) (o : Options) (cancelled : Bool) (r : FileReport) : Disk × FileReport :=
  match d.read r.path with
  | .error e =>
    (d, (r.step .load "" (some e.message)).add
      (.error .unreadableFile .zero s!"failed to load file: {e.message}") |>.fail (.load e))
  | .ok raw =>
    let (files, id) := r.files.load r.path raw
    let r := { r.step .load "" none with files }
    let content := ((files.get? id).map (·.content)).getD []
    let key := Cache.key content o
    match o.cache with
    | none => compileAndStore d o cancelled r id key
    | some dir =>
      match Cache.get d dir key with
      | .hit out =>
        let r := { (r.step .cache "hit" none).withOutput d.cwd o out with cacheHit := true }
        writeIfAsked o d (r.record .debug [] "cache hit")
      | .miss => compileAndStore d o cancelled (r.step .cache "miss" none) id key
      | .unreadable why =>
        let r := r.step .cache "miss" none
        let r := r.record .warn [("error", .text why)] "cache read failed"
        compileAndStore d o cancelled r id key

/-- What the time of a file was spent on, as a document. -/
def timingDocument (r : FileReport) : Json :=
  .object ([("kind", .string "file"), ("path", .string r.display)] ++
    (if r.cacheHit then [("cache_hit", .bool true)] else []) ++
    [("total_ms", .ofNat 0), ("phases", .array (r.steps.map fun s =>
      .object ([("name", .string s.phase.name), ("duration_ms", .ofNat 0)] ++
        if s.note = "" then [] else [("note", .string s.note)])))])

def timingDiagnostic (r : FileReport) : Diagnostic :=
  ⟨.info, .timings, s!"timings (file): total {Decimal.fixed 2 r.timing.total} ms, {r.display}",
    .zero, [⟨.zero, (timingDocument r).compact true⟩], []⟩

/-- Adds a diagnostic even to a full bag. -/
def addAlways (b : Bag) (d : Diagnostic) : Bag :=
  if b.isFull then b.merge ((Bag.empty 1).add d) else b.add d

/-- The last words about a file. -/
def finish (o : Options) (r : FileReport) : FileReport :=
  let r := if o.timings then { r with bag := addAlways r.bag (timingDiagnostic r) } else r
  match r.failure with
  | some f => r.record .error [("error", .text f.message)] "compile failed"
  | none => r.record .debug [("cache_hit", .flag r.cacheHit), ("exports", .count r.exports.length),
      ("total_ms", .count 0)] "compile done"

/-- Builds one catalog. The disk changes where the cache and the output are kept. -/
def compileFile (d : Disk) (o : Options) (cancelled : Bool) (path : String) : Disk × FileReport :=
  let start := (FileReport.start d.cwd o path).record .debug [] "compile start"
  let (d, r) := process d o cancelled start
  (d, finish o r)

end Phrasebook.Build
