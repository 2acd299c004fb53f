import Phrasebook.Command.Flags
import Phrasebook.Release

/-!
The commands of the tool with their flags.
-/
namespace Phrasebook.Command

/-- How many words a command takes. -/
inductive Arity where
  | any
  | exactly (n : Nat)
  | atMost (n : Nat)

/-- Why a command does not take so many words. -/
def Arity.refusal? (a : Arity) (count : Nat) : Option String :=
  match a with
  | .any => none
  | .exactly n => if count = n then none else some s!"accepts {n} arg(s), received {count}"
  | .atMost n => if count ≤ n then none else some s!"accepts at most {n} arg(s), received {count}"

/-- What a command does. -/
inductive Job where
  | compile
  | check
  | arguments
  | parse
  | init
  | version
  | completion
  | help
  deriving DecidableEq

structure Spec where
  job : Job
  name : String
  /-- What follows the name of the tool in a line that shows the use. -/
  use : String
  short : String
  long : String
  flags : List Flag
  arity : Arity
  /-- Names and descriptions of commands below this one, which then does nothing by itself. -/
  children : List (String × String)

namespace Spec

/-- The flags of all commands. -/
def globalFlags : List Flag := [
  { name := "color", letter := none, kind := .text, standard := "\"auto\""
    usage := "colorize output (auto|on|off)" },
  .ofText "config" "path to icuc.toml (default: search upward from the working directory)",
  .ofText "cpu-profile" "write CPU profile to file",
  .ofText "log-level" "log level (trace|debug|info|warn|error), overrides [log] level",
  { name := "max-diagnostics", letter := none, kind := .whole, standard := "100"
    usage := "maximum number of diagnostics per file" },
  .ofText "mem-profile" "write heap profile to file on exit",
  .ofTruth "quiet" "suppress non-essential output",
  .ofText "runtime-trace" "write runtime trace to file",
  .ofTruth "timings" "show timing information"]

/-- The flags of the commands that compile. -/
def compileFlags : List Flag := [
  .ofText "locale" "locale passed to Intl constructors",
  .ofText "target" "output kind (tree|string)",
  .ofTruth "ts" "emit TypeScript",
  .ofText "jsx" "fragment output (preserve|classic)",
  .ofTruth "declarations" "emit .d.ts next to JavaScript output",
  .ofText "out-dir" "directory for generated modules (default: next to inputs)",
  { name := "jobs", letter := none, kind := .whole, standard := ""
    usage := "max parallel workers (0=auto)" }]

def choice (name usage standard : String) : Flag :=
  ⟨name, none, .text, usage, Text.quote standard⟩

def helpFlag (name : String) : Flag :=
  ⟨"help", some 'h', .truth, "help for " ++ name, ""⟩

def versionFlag : Flag :=
  ⟨"version", some 'v', .truth, "version for " ++ toolName, ""⟩

def compile : Spec where
  job := .compile
  name := "compile"
  use := "compile [flags] [files|dirs|globs...]"
  short := "Compile message catalogs into JavaScript/TypeScript modules"
  long := "Compile reads JSON message catalogs (message name -> ICU text) and writes one\n" ++
    "module per catalog. Without arguments the [compile] inputs of icuc.toml are used."
  flags := compileFlags ++ [
    .ofTruth "no-cache" "disable the on-disk compile cache",
    choice "ui" "progress UI (auto|on|off)" "auto",
    choice "format" "diagnostics format (pretty|json|short)" "pretty",
    .ofTruth "with-notes" "include diagnostic notes in output"]
  arity := .any
  children := []

def check : Spec where
  job := .check
  name := "check"
  use := "check [flags] [files|dirs|globs...]"
  short := "Report problems in message catalogs without writing output"
  long := "Check compiles every message of every catalog and reports all diagnostics.\n" ++
    "Unlike compile it keeps going after the first broken message of a file."
  flags := compileFlags ++ [
    choice "format" "output format (pretty|json|short)" "pretty",
    .ofTruth "with-notes" "include diagnostic notes in output",
    .ofTruth "suggest" "include fix suggestions in output",
    .ofTruth "fullpath" "emit absolute file paths in output",
    choice "min-severity" "hide diagnostics below this severity (info|warning|error)" "info"]
  arity := .any
  children := []

def arguments : Spec where
  job := .arguments
  name := "args"
  use := "args [flags] [files|dirs|globs...]"
  short := "Print the inferred argument types of every message"
  long := "Args compiles the catalogs in memory and prints, per file and message,\n" ++
    "the arguments each generated function expects together with their types."
  flags := compileFlags ++ [choice "format" "output format (pretty|json)" "pretty"]
  arity := .any
  children := []

def parse : Spec where
  job := .parse
  name := "parse"
  use := "parse [flags] <message>"
  short := "Parse one ICU message and print its syntax tree"
  long := ""
  flags := [choice "name" "name used for the message in diagnostics" "message"]
  arity := .exactly 1
  children := []

def init : Spec where
  job := .init
  name := "init"
  use := "init [path] [flags]"
  short := "Create an icuc.toml with default settings"
  long := "Initialize a project by writing icuc.toml and, if missing, a sample\n" ++
    "messages/en.json catalog. If [path] is omitted the current directory is used;\n" ++
    "a non-existing path is created."
  flags := [.ofTruth "force" "overwrite an existing icuc.toml"]
  arity := .atMost 1
  children := []

def version : Spec where
  job := .version
  name := "version"
  use := "version [flags]"
  short := "Show icuc build information"
  long := ""
  flags := [
    .ofTruth "hash" "include git commit hash",
    .ofTruth "message" "include git commit message",
    .ofTruth "date" "include build timestamp",
    .ofTruth "full" "show every recorded bit of build metadata",
    choice "format" "output format (pretty|json)" "pretty"]
  arity := .any
  children := []

def completion : Spec where
  job := .completion
  name := "completion"
  use := "completion"
  short := "Generate the autocompletion script for the specified shell"
  long := "Generate the autocompletion script for icuc for the specified shell.\n" ++
    "See each sub-command's help for details on how to use the generated script."
  flags := []
  arity := .any
  children := ["bash", "fish", "powershell", "zsh"].map fun shell =>
    (shell, "Generate the autocompletion script for " ++ shell)

def help : Spec where
  job := .help
  name := "help"
  use := "help [command] [flags]"
  short := "Help about any command"
  long := "Help provides help for any command in the application.\n" ++
    "Simply type icuc help [path to command] for full details."
  flags := []
  arity := .any
  children := []

/-- All commands, in the order in which they are suggested. -/
def all : List Spec := [compile, check, arguments, parse, init, version, help, completion]

def find? (name : String) : Option Spec :=
  all.find? (·.name == name)

end Spec

/-! ### Which command a line means -/

/-- Whether the word after a flag is its value, as far as can be told from flags without letters. -/
def takesNext (flags : List Flag) (word : String) : Bool :=
  if word.toList.contains '=' then false
  else if word.startsWith "--" then
    !(flags.any fun f => "--" ++ f.name == word && f.kind = .truth)
  else word.startsWith "-" && word.utf8ByteSize = 2

/-- The words of a line that are no flags and no values. A valued flag before the last word ends
them. -/
def plainWords (flags : List Flag) : List String → List String
  | [] => []
  | word :: rest =>
    if word = "--" then []
    else if takesNext flags word then
      match rest with
      | _ :: next :: more => plainWords flags (next :: more)
      | _ => []
    else if word ≠ "" && !word.startsWith "-" then word :: plainWords flags rest
    else plainWords flags rest

/-- The line without the first plain word `x`. -/
def withoutFirst (flags : List Flag) (x : String) : List String → List String
  | [] => []
  | word :: rest =>
    if word = "--" then word :: rest
    else if takesNext flags word then
      match rest with
      | value :: more => word :: value :: withoutFirst flags x more
      | [] => [word]
    else if word = x then rest
    else word :: withoutFirst flags x rest

/-- The least number of insertions, deletions and replacements between two texts. -/
def editDistance (a b : List Char) : Nat :=
  let row (prev : List Nat) (i : Nat) (c : Char) : List Nat :=
    let cells := (b.zip (prev.zip prev.tail)).foldl (fun (left, out) (d, (diagonal, above)) =>
      let here := if c = d then diagonal else 1 + min (min left above) diagonal
      (here, out ++ [here])) (i, [])
    i :: cells.2
  let last := (a.zipIdx 1).foldl (fun prev (c, i) => row prev i c) (List.range (b.length + 1))
  last.getLast?.getD 0

/-- The commands that a mistyped word may mean. -/
def suggestions (typed : String) : List String :=
  let lower (s : String) : List Char := s.toList.map Char.toLower
  (Spec.all.filter fun s => s.job ≠ .help &&
    (editDistance (lower typed) (lower s.name) ≤ 2 || (lower typed).isPrefixOf (lower s.name))).map
      (·.name)

def unknownCommand (typed : String) : String :=
  let found := suggestions typed
  s!"unknown command {Text.quote typed} for {Text.quote toolName}" ++
    if found.isEmpty then ""
    else "\n\nDid you mean this?\n" ++ String.join (found.map fun s => "\t" ++ s ++ "\n")

/-- The command that a line means, if any, and the line without its name. -/
def choose (line : List String) : Except String (Option Spec × List String) :=
  match plainWords Spec.globalFlags line with
  | [] => .ok (none, line)
  | word :: _ =>
    match Spec.find? word with
    | some s => .ok (some s, withoutFirst Spec.globalFlags word line)
    | none => .error (unknownCommand word)

end Phrasebook.Command
