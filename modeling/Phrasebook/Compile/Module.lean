import Phrasebook.Compile.Message
import Phrasebook.Message.Parse
import Phrasebook.Scope.Validate
import Phrasebook.Source.File

/-!
Modules: messages are added one after the other and compiled to one program. What a message that
fails has added is rolled back, but for the names it used up. Once a module is built it takes no
more messages.
-/
namespace Phrasebook.Compile

/-- How a module is compiled. The file names the source of its messages. -/
structure Options where
  locale : String
  formats : Formats
  target : Target
  file : String

def Options.effectiveLocale (o : Options) : String :=
  if o.locale = "" then "en" else o.locale

/-- A failed message: which one, what is wrong and where. -/
structure CompileError where
  exported : Bytes
  path : String
  start : Position
  stop : Position
  diagnostic : Diagnostic

def CompileError.text (e : CompileError) : String :=
  s!"{e.diagnostic.code.id} {e.path}:{e.start.line}:{e.start.column}: {e.diagnostic.message}"

/-- The diagnostic of a message with its place in the file set. -/
def CompileError.of (fs : FileSet) (exported : Bytes) (d : Diagnostic) : CompileError :=
  let (start, stop) := fs.resolve d.primary
  let path := match fs.get? d.primary.file with
    | some f => f.path
    | none => exported.toText
  ⟨exported, path, start, stop, d⟩

/-- Why a module refuses a message or cannot be built. A hole and an overflow stop the program. -/
inductive ModuleError where
  | finalized
  | compile (e : CompileError)
  | unknownNode (kind : String)
  | hole
  | overflow (o : Overflow)
  | binding (e : ScopeTable.BindError)
  | inconsistent (flaws : List ScopeTable.Flaw)

def ModuleError.message : ModuleError → String
  | .finalized => "module already built"
  | .compile e => e.text
  | .unknownNode kind => s!"compiler: unexpected node kind {kind}"
  | .hole => ""
  | .overflow o => o.message
  | .binding e => e.message
  | .inconsistent flaws =>
    "scope table is inconsistent: " ++ "\n".intercalate (flaws.map (·.message))

/-- Compiled messages and the constants they share. -/
structure Module where
  options : Options
  formats : Formats
  files : FileSet
  table : ScopeTable
  root : ScopeId
  constants : List (String × Expr)
  shared : List (SharedKey × String)
  sharedOrder : List SharedKey
  functions : List Stmt
  exports : List Export
  arguments : List (Bytes × List Argument)
  finalized : Bool

namespace Module

/-- The module scope, with the names that generated code reads. -/
def startTable (target : Target) : ScopeTable × ScopeId :=
  let (t, root) := ScopeTable.empty.newScope .module 0 .zero
  let bindAll (names : List (String × SymbolKind)) : ScopeTable :=
    names.foldl (fun t (n, k) => ((t.bind root n k).toOption).getD t) t
  (bindAll ((intlName, .global) :: if target = .tree then [(markupName, .imported)] else []), root)

/-- A module without messages. -/
def new (files : FileSet) (o : Options) : Module :=
  let (table, root) := startTable o.target
  ⟨o, Formats.standard.overlay o.formats, files, table, root, [], [], [], [], [], [], false⟩

def exportedNames (m : Module) : List Bytes :=
  m.exports.map (·.name)

def returnType (m : Module) : String :=
  if m.options.target = .tree then "React.ReactNode" else "string"

/-- The path that the text of a message is registered under. -/
def messagePath (m : Module) (name : Bytes) : String :=
  if m.options.file = "" then name.toText else m.options.file ++ "#" ++ name.toText

/-- Compiles elements in a scope of their own. -/
def runMessage (m : Module) (span : Span) (ns : List Node) :
    Except Failure (Expr × Bool) × State :=
  let (table, scope) := m.table.newScope .message m.root span
  let ctx : Context :=
    ⟨m.options.target, m.options.effectiveLocale, m.formats, m.root, scope⟩
  let step : Step (Expr × Bool) := do return joinPieces (← nodes ctx none ns)
  step.run ⟨table, m.constants, m.shared, m.sharedOrder, [], [], []⟩

/-- The module with all that compiling a message has done to it so far. -/
def withState (m : Module) (s : State) : Module :=
  { m with
    table := s.table
    constants := s.constants
    shared := s.shared
    sharedOrder := s.sharedOrder }

/-- How many constants and shared keys there are. -/
structure Mark where
  constants : Nat
  shared : Nat

def mark (m : Module) : Mark :=
  ⟨m.constants.length, m.sharedOrder.length⟩

/-- Drops the constants added since a mark, and their keys. -/
def rollback (m : Module) (mark : Mark) : Module :=
  let dropped := m.sharedOrder.drop mark.shared
  { m with
    constants := m.constants.take mark.constants
    shared := m.shared.filter fun (key, _) => !dropped.contains key
    sharedOrder := m.sharedOrder.take mark.shared }

/-- Undoes what a failed message has added; its names stay used up. A hole stops everything where
it stands. -/
def afterFailure (m : Module) (s : State) : Failure → Module
  | .hole => m.withState s
  | _ => (m.withState s).rollback m.mark

def failureError (m : Module) (name : Bytes) : Failure → ModuleError
  | .diagnostic d => .compile (.of m.files name d)
  | .unknownNode kind => .unknownNode kind
  | .hole => .hole

/-- Adds the function of a compiled message under the name it is bound to. -/
def withFunction (m : Module) (name : Bytes) (binding : String) (s : State) (value : Expr)
    (table : ScopeTable) : Module :=
  let params := s.arguments.map fun a => ⟨a.name, a.binding, a.type.declared⟩
  let body := s.body.map (fun (n, e) => Stmt.const n e) ++ [.return value]
  { m.withState s with
    table
    functions := m.functions ++ [.function binding params body m.returnType]
    exports := m.exports ++ [⟨binding, name⟩]
    arguments := m.arguments ++ [(name, s.arguments.map fun a => ⟨a.name, a.binding, a.type⟩)] }

/-- Compiles elements as the export `name`; `span` covers the message. -/
def addCompiled (m : Module) (name : Bytes) (ns : List Node) (span : Span) :
    Module × Option ModuleError :=
  if m.exportedNames.contains name then
    (m, some (.compile (.of m.files name (.error .duplicateExport span
      s!"message {Text.quoteBytes name} is already defined"))))
  else
    match m.runMessage span ns with
    | (.error f, s) => (m.afterFailure s f, some (m.failureError name f))
    | (.ok (value, _), s) =>
      match bindName s.table m.root ((Utf8.decode? name).map String.ofList) (Utf8.shown name)
          .function with
      | .error e => (m.withState s, some (.binding e))
      | .ok (table, binding) => (m.withFunction name binding s value table, none)

/-- Adds elements that were made by hand. -/
def addNodes (m : Module) (name : Bytes) (ns : List Node) : Module × Option ModuleError :=
  if m.finalized then (m, some .finalized)
  else
    match ns.head?, ns.getLast? with
    | some first, some last =>
      match first, last with
      | .hole, _ => (m, some .hole)
      | _, .hole => (m, some .hole)
      | _, _ => m.addCompiled name ns (first.span.cover last.span)
    | _, _ => m.addCompiled name ns .zero

/-- The text of a message as it is registered and read: in normal form, with short line ends. -/
def registeredText (text : Bytes) : Bytes :=
  shortenLineEnds (Text.normalizeBytes text)

/-- Reads a text and adds it. Its normal form is registered in the file set in any case, unless its
lines cannot be told. -/
def addMessage (m : Module) (name text : Bytes) : Module × Option ModuleError :=
  if m.finalized then (m, some .finalized)
  else
    let content := registeredText text
    let (files, id) := m.files.add (m.messagePath name) content File.virtualFlag
    let added := { m with files }
    match Message.parse id Message.defaultLimit content with
    | .error .overflow =>
      let o := Overflow.of content
      (if o = .lineBreak then m else added, some (.overflow o))
    | .error (.fault fault) => (added, some (.compile (.of files name fault.diagnostic)))
    | .ok ns => added.addCompiled name ns (Span.between id 0 content.length)

/-- What a module is built to. -/
structure Built where
  program : Program
  arguments : List (Bytes × List Argument)
  exports : List Bytes

/-- The import of the markup namespace, shared constants in the order of their first use, the
functions of the messages, and one export list. -/
def program (m : Module) : Program :=
  (if m.options.target = .tree then [.importAll markupName markupSource] else []) ++
    m.constants.map (fun (n, e) => .const n e) ++ m.functions ++ [.exports m.exports]

/-- Builds the program, once. -/
def build (m : Module) : Module × Except ModuleError Built :=
  if m.finalized then (m, .error .finalized)
  else
    let done := { m with finalized := true }
    match m.table.flaws with
    | [] => (done, .ok ⟨m.program, m.arguments, m.exportedNames⟩)
    | flaws => (done, .error (.inconsistent flaws))

end Module

/-- A named message. -/
structure SourceMessage where
  name : Bytes
  text : Bytes

/-- Adds messages in order up to the first that fails. -/
def addMessages (m : Module) : List SourceMessage → Except ModuleError Module
  | [] => .ok m
  | msg :: r =>
    match m.addMessage msg.name msg.text with
    | (_, some e) => .error e
    | (m, none) => addMessages m r

/-- One module of all messages; the first failing message aborts. -/
def compile (messages : List SourceMessage) (o : Options) : Except ModuleError Module.Built := do
  let m ← addMessages (Module.new .empty o) messages
  (m.build).2

end Phrasebook.Compile
