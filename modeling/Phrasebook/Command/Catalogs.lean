import Phrasebook.Command.Session
import Phrasebook.Progress.Display
import Phrasebook.Progress.Events
import Phrasebook.Timing.Stages

/-!
The commands that compile catalogs: to write modules, to look for problems, and to list the
arguments of messages.
-/
namespace Phrasebook.Command

open Effect Build

def findingsFormat (g : Given) : Effect FindingsFormat :=
  let name := g.text "format" "pretty"
  need (FindingsFormat.unknownName name) (FindingsFormat.ofName? name)

/-! ### Writing modules -/

def progressRecord (e : Progress.Event) : LogRecord :=
  ⟨.trace, [("file", .text e.file), ("stage", .text e.stage.name), ("status", .text e.status.name),
    ("elapsed", .count 0)], "progress"⟩

/-- The records of a file with those of its progress between them. -/
def recordsOf (reached : Progress.Reached) (r : FileReport) :
    Progress.Reached × List LogRecord :=
  let recordsAt (n : Nat) : List LogRecord := (r.log.filter (·.1 == n)).map (·.2)
  let (reached, records) := (r.steps.zipIdx).foldl (fun (reached, records) (s, n) =>
    let (reached, events) := Progress.begin reached r.display s.phase
    (reached, records ++ recordsAt n ++ events.map progressRecord)) (reached, [])
  (reached, records ++ recordsAt r.steps.length)

/-- The log of a build: file by file, and then how every file ended. -/
def buildRecords (run : Progress.Run) : List LogRecord :=
  let (_, records) := run.report.reports.foldl (fun (reached, records) r =>
    let (reached, more) := recordsOf reached r
    (reached, records ++ more)) ([], [])
  records ++ (run.events.filter fun e => e.file ≠ "" && e.status.isFinal).map progressRecord

def summaryRecord (files written cached failed : Nat) : LogRecord :=
  ⟨.info, [("files", .count files), ("written", .count written), ("cached", .count cached),
    ("failed", .count failed)], "compile finished"⟩

def compileCatalogs [LocaleData] (env : Environment) (g : Given) : Effect Unit := do
  let s ← (← openSession env g).override g
  let files ← s.inputs g.words
  let o ← s.buildOptions g
  let cache ← if g.truth "no-cache" then pure none else s.openCache env
  let ui := g.text "ui" "auto"
  let _ ← need (Progress.Display.unknownName ui) (Progress.Display.ofName? ui)
  let format ← findingsFormat g
  let (d, run) ← lift Progress.Refusal.message
    (Progress.run (← disk) { o with write := true, cache } false s.settings.root files)
  setDisk d
  s.log.writeAll (buildRecords run)
  let style : FindingsStyle := ⟨format, isColored g, g.truth "with-notes", false, false, .info⟩
  report (findings d.cwd style (run.report.reports.map (arrange style)))
  let written := run.report.reports.filter fun r => !r.failed && r.output ≠ ""
  if !g.truth "quiet" && format = .pretty then
    print (String.join (written.map fun r => r.path ++ " -> " ++ r.output ++ "\n"))
  let failed := run.report.failed.length
  s.log.write (summaryRecord files.length written.length (written.countP (·.cacheHit)) failed)
  if g.truth "timings" then print (StageTimes.summary (run.timed.map fun t => (t.name, 0)))
  if failed > 0 then stop s!"{failed} of {files.length} files failed to compile"

/-! ### Looking for problems -/

def checkCatalogs [LocaleData] (env : Environment) (g : Given) : Effect Unit := do
  let s ← (← openSession env g).override g
  let files ← s.inputs g.words
  let o ← s.buildOptions g
  let o := { o with keepGoing := true, timings := g.truth "timings" }
  let format ← findingsFormat g
  let least := g.text "min-severity" "info"
  let least ← need (Severity.unknownName least) (Severity.ofName? least)
  let (d, run) := compileFiles (← disk) o false files
  setDisk d
  s.log.writeAll (run.reports.flatMap (·.records))
  let style : FindingsStyle :=
    ⟨format, isColored g, g.truth "with-notes", g.truth "suggest", g.truth "fullpath", least⟩
  let reports := run.reports.map (arrange style)
  print (findings d.cwd style reports)
  let (errors, _) := countFindings reports
  if !g.truth "quiet" && format = .pretty then
    if o.timings then print (TimingReport.aggregate (reports.map (·.timing))).summary
    print (if errors = 0 then s!"checked {files.length} files, no problems\n"
      else s!"\nchecked {files.length} files, {errors} errors\n")
  if errors > 0 || run.failure.isSome then throw .quietly

/-! ### Arguments of messages -/

def unknownListing (name : String) : String :=
  s!"unknown format {Text.quote name} (expected pretty|json)"

def listArguments [LocaleData] (env : Environment) (g : Given) : Effect Unit := do
  let s ← (← openSession env g).override g
  let files ← s.inputs g.words
  let o ← s.buildOptions g
  let format := Text.lowerText (g.text "format" "pretty")
  if format ≠ "pretty" && format ≠ "json" then stop (unknownListing format)
  let (d, run) := compileFiles (← disk) o false files
  setDisk d
  s.log.writeAll (run.reports.flatMap (·.records))
  let style : FindingsStyle := ⟨.pretty, isColored g, false, false, false, .info⟩
  report (findings d.cwd style (run.reports.map (arrange style)))
  print (argumentsText d.cwd (format == "pretty" && isColored g) run.reports ++ "\n")
  if let some message := run.failure then stop message

end Phrasebook.Command
