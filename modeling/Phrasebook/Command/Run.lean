import Phrasebook.Command.Catalogs
import Phrasebook.Command.Help
import Phrasebook.Command.Project
import Phrasebook.Message.Fault
import Phrasebook.Message.Tree
import Phrasebook.Text.Normal

/-!
The tool as a function: from a disk, an environment and the words of a command line to a disk, two
texts and an exit code.
-/
namespace Phrasebook.Command

open Effect

/-- Parses one message and shows its tree. -/
def parseMessage (g : Given) : Effect Unit := do
  let name := g.text "name" "message"
  let text := g.words.head?.getD ""
  let (files, id) := FileSet.empty.addVirtual name (Text.normalizeBytes (Bytes.ofText text))
  let content := ((files.get? id).map (·.content)).getD []
  let parsed := Message.parse id (Message.effectiveLimit 0) content
  match parsed with
  | .ok nodes => print ((Message.drawTree nodes).getD "")
  | .error .overflow => stop Overflow.length.message
  | .error (.fault _) =>
    let bag := (Bag.empty (g.whole "max-diagnostics" 100)).addAll
      (Message.Reporting.reported ⟨1, 0⟩ parsed)
    report (Pretty.text files (← disk).cwd ⟨isColored g, 2, .auto, 0, true, true, false⟩ bag)
    stop s!"message {Text.quote name} does not parse"

/-- Shows the release of the tool. -/
def showRelease (g : Given) : Effect Unit := do
  let format := g.text "format" "pretty"
  let full := g.truth "full"
  let parts : Release.Parts :=
    ⟨full || g.truth "hash", full || g.truth "message", full || g.truth "date"⟩
  match Text.lowerText format with
  | "pretty" => print (Release.current.pretty false parts)
  | "json" => print ((Release.current.document parts).pretty ++ "\n")
  | _ => stop s!"unsupported format {Text.quote format} (must be pretty or json)"

/-- Shows the help of the command that some words mean. -/
def showHelp (words : List String) : Effect Unit :=
  match choose words with
  | .ok (some s, _) => print s.helpText
  | .ok (none, _) => print toolHelp
  | .error _ =>
    let topics := Text.join " " (words.map fun w => "\x60" ++ w ++ "\x60")
    report ("Unknown help topic [" ++ topics ++ "]\n" ++ toolUsage Spec.globalFlags)

def execute [LocaleData] (env : Environment) (job : Job) (g : Given) : Effect Unit :=
  match job with
  | .compile => profiled g (compileCatalogs env g)
  | .check => profiled g (checkCatalogs env g)
  | .arguments => listArguments env g
  | .parse => parseMessage g
  | .init => initProject g
  | .version => showRelease g
  | .completion => print Spec.completion.helpText
  | .help => showHelp g.words

/-- Runs a command on the rest of its line. -/
def runSpec [LocaleData] (env : Environment) (s : Spec) (line : List String) : Effect Unit := do
  let flags := s.flags ++ Spec.globalFlags ++ [Spec.helpFlag s.name]
  let g ← lift FlagError.message (readFlags flags .none line)
  if g.truth "help" then print s.helpText
  else
    match s.arity.refusal? g.words.length with
    | some message => stop message
    | none => execute env s.job g

/-- Runs the tool without a command. -/
def runTool (line : List String) : Effect Unit := do
  let flags := Spec.globalFlags ++ [Spec.helpFlag toolName, Spec.versionFlag]
  let g ← lift FlagError.message (readFlags flags .none line)
  if !g.truth "help" && g.truth "version" then
    print s!"{toolName} version {Release.current.short}\n"
  else print toolHelp

def runLine [LocaleData] (env : Environment) (line : List String) : Effect Unit :=
  match choose line with
  | .error message => do
    report s!"Error: {message}\nRun '{toolName} --help' for usage.\n"
    throw .quietly
  | .ok (some s, rest) => runSpec env s rest
  | .ok (none, rest) => runTool rest

/-- What a run of the tool leaves behind. -/
structure Outcome where
  disk : Disk
  out : String
  err : String
  exit : Nat

/-- Runs the tool. -/
def run [LocaleData] (env : Environment) (d : Disk) (line : List String) : Outcome :=
  match (runLine env line).run.run ⟨d, "", ""⟩ with
  | (.ok _, c) => ⟨c.disk, c.out, c.err, 0⟩
  | (.error .quietly, c) => ⟨c.disk, c.out, c.err, 1⟩
  | (.error (.failed message), c) => ⟨c.disk, c.out, c.err ++ s!"Error: {message}\n", 1⟩

end Phrasebook.Command
