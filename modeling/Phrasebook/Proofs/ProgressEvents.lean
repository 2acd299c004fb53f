import Mathlib.Data.List.Forall2
import Mathlib.Data.List.Nodup
import Phrasebook.Progress.Events
import Phrasebook.Proofs.FileNames
import Phrasebook.Proofs.Phases

/-!
The events of a build. However the phases of the files interleave, every file is queued, reaches its
stages one after the other and ends once; the last event is the only one about the whole build.
-/
namespace Phrasebook.Progress

open Build

/-! ### Interleavings -/

/-- Files, each with the phases that are left to it, begin them in the order of a trace. At every
step any file that is not through begins its next phase. -/
inductive Interleaves : List (String × List Phase) → List (String × Phase) → Prop where
  | through {files : List (String × List Phase)} : (∀ t ∈ files, t.2 = []) → Interleaves files []
  | next {before after : List (String × List Phase)} {file : String} {phase : Phase}
      {rest : List Phase} {trace : List (String × Phase)} :
      Interleaves (before ++ (file, rest) :: after) trace →
      Interleaves (before ++ (file, phase :: rest) :: after) ((file, phase) :: trace)

/-- The phases of one file in a trace. -/
def phasesIn (trace : List (String × Phase)) (file : String) : List Phase :=
  (trace.filter (·.1 = file)).map (·.2)

theorem phasesIn_cons (file : String) (phase : Phase) (trace : List (String × Phase))
    (name : String) : phasesIn ((file, phase) :: trace) name =
      if file = name then phase :: phasesIn trace name else phasesIn trace name := by
  unfold phasesIn
  by_cases h : file = name
  · rw [List.filter_cons_of_pos (by simpa using h), if_pos h]
    rfl
  · rw [List.filter_cons_of_neg (by simpa using h), if_neg h]

namespace Interleaves

variable {files : List (String × List Phase)} {trace : List (String × Phase)}

/-- Every file begins its own phases in their order. -/
theorem own (h : Interleaves files trace) (hnames : (files.map (·.1)).Nodup) :
    ∀ t ∈ files, phasesIn trace t.1 = t.2 := by
  induction h with
  | through hdone =>
    intro t ht
    rw [hdone t ht]
    rfl
  | @next before after file phase rest trace _ ih =>
    have hsame : (before ++ (file, rest) :: after).map (·.1) =
        (before ++ (file, phase :: rest) :: after).map (·.1) := by
      simp only [List.map_append, List.map_cons]
    have ih := ih (hsame ▸ hnames)
    intro t ht
    rw [phasesIn_cons]
    rw [List.map_append, List.map_cons, List.nodup_append, List.nodup_cons] at hnames
    obtain ⟨-, ⟨hafter, -⟩, hbefore⟩ := hnames
    -- The file that goes on is `file`, and no other entry has that name.
    rcases List.mem_append.mp ht with ht | ht
    · have hne : file ≠ t.1 :=
        (hbefore t.1 (List.mem_map_of_mem ht) file List.mem_cons_self).symm
      rw [if_neg hne]
      exact ih t (List.mem_append_left _ ht)
    · rcases List.mem_cons.mp ht with rfl | ht
      · rw [if_pos rfl, ih (file, rest) (List.mem_append_right _ List.mem_cons_self)]
      · have hne : file ≠ t.1 := fun h => hafter (List.mem_map.mpr ⟨t, ht, h.symm⟩)
        rw [if_neg hne]
        exact ih t (List.mem_append_right _ (List.mem_cons_of_mem _ ht))

/-- Only the files begin phases. -/
theorem only (h : Interleaves files trace) : ∀ e ∈ trace, e.1 ∈ files.map (·.1) := by
  induction h with
  | through => exact fun _ he => absurd he List.not_mem_nil
  | @next before after file phase rest trace _ ih =>
    refine List.forall_mem_cons.mpr ⟨?_, fun e he => ?_⟩
    · rw [List.map_append, List.map_cons]
      exact List.mem_append_right _ List.mem_cons_self
    · simpa only [List.map_append, List.map_cons] using ih e he

theorem cons_nil (h : Interleaves files trace) (file : String) :
    Interleaves ((file, []) :: files) trace := by
  induction h with
  | through hdone => exact .through (List.forall_mem_cons.mpr ⟨rfl, hdone⟩)
  | @next before after _ _ _ _ _ ih => exact @Interleaves.next ((file, []) :: before) _ _ _ _ _ ih

/-- A file may begin all its phases before the others go on. -/
theorem cons (h : Interleaves files trace) (file : String) (ps : List Phase) :
    Interleaves ((file, ps) :: files) (ps.map (file, ·) ++ trace) := by
  induction ps with
  | nil => exact h.cons_nil file
  | cons p ps ih => exact @Interleaves.next [] _ _ _ _ _ ih

end Interleaves

/-- One after the other is an interleaving as well. -/
theorem interleaves_phasesOf (reports : List FileReport) :
    Interleaves (reports.map fun r => (r.display, r.phases)) (phasesOf reports) := by
  induction reports with
  | nil => exact .through fun _ ht => absurd ht List.not_mem_nil
  | cons r rs ih =>
    have hown : (r.steps.map fun s => (r.display, s.phase)) = r.phases.map (r.display, ·) := by
      rw [FileReport.phases, List.map_map]
      rfl
    rw [phasesOf, List.flatMap_cons, hown]
    exact ih.cons r.display r.phases

/-! ### Stages -/

/-- The stages that phases begin, a stage that goes on left out. -/
def stagesFrom : Option Stage → List Phase → List Stage
  | _, [] => []
  | last, p :: ps =>
    if last = some (Stage.ofPhase p) then stagesFrom last ps
    else Stage.ofPhase p :: stagesFrom (some (Stage.ofPhase p)) ps

/-- A file comes to a stage. -/
def working (file : String) (stage : Stage) : Event :=
  ⟨file, stage, .working, none⟩

theorem get?_cons_filter (reached : Reached) (file name : String) (stage : Stage) :
    Reached.get? ((file, stage) :: reached.filter (·.1 != file)) name =
      if file = name then some stage else reached.get? name := by
  unfold Reached.get?
  by_cases h : file = name
  · rw [List.find?_cons_of_pos (by simpa using h), if_pos h]
    rfl
  · have hkeep : (reached.filter (·.1 != file)).find? (·.1 == name) =
        reached.find? (·.1 == name) := by
      rw [List.find?_filter]
      congr 1
      funext e
      rw [Bool.eq_iff_iff]
      simp only [decide_eq_true_eq, bne_iff_ne, beq_iff_eq, and_iff_right_iff_imp]
      exact fun he hf => h (hf.symm.trans he)
    rw [List.find?_cons_of_neg (by simpa using h), hkeep, if_neg h]

/-- When a phase begins, its file comes to the stage of the phase if it was not there; the other
files stay where they are. -/
theorem begin_spec (reached : Reached) (file : String) (phase : Phase) :
    (∀ name, (begin reached file phase).1.get? name =
      if file = name then some (Stage.ofPhase phase) else reached.get? name) ∧
      (begin reached file phase).2 =
        (stagesFrom (reached.get? file) [phase]).map (working file) := by
  unfold begin stagesFrom
  simp only
  split
  · rename_i hsame
    refine ⟨fun name => ?_, rfl⟩
    split
    · rename_i hname
      exact hname ▸ hsame
    · rfl
  · exact ⟨fun name => get?_cons_filter reached file name _, rfl⟩

/-- The events of one file depend on its own phases only. -/
theorem observe_spec (reached : Reached) (trace : List (String × Phase)) (name : String) :
    (observe reached trace).2.filter (·.file = name) =
        (stagesFrom (reached.get? name) (phasesIn trace name)).map (working name) ∧
      (observe reached trace).1.get? name =
        (stagesFrom (reached.get? name) (phasesIn trace name)).getLast?.or (reached.get? name) := by
  induction trace generalizing reached with
  | nil => exact ⟨rfl, rfl⟩
  | cons e trace ih =>
    obtain ⟨file, phase⟩ := e
    obtain ⟨hget, hevents⟩ := begin_spec reached file phase
    obtain ⟨ihevents, ihget⟩ := ih (begin reached file phase).1
    rw [hget name] at ihevents ihget
    have hfilter (stages : List Stage) : (stages.map (working file)).filter (·.file = name) =
        if file = name then stages.map (working name) else [] := by
      split
      · rename_i h
        subst h
        exact List.filter_eq_self.mpr fun e he => by
          obtain ⟨s, -, rfl⟩ := List.mem_map.mp he
          exact decide_eq_true rfl
      · rename_i h
        refine List.filter_eq_nil_iff.mpr fun e he => ?_
        obtain ⟨s, -, rfl⟩ := List.mem_map.mp he
        exact fun hf => h (of_decide_eq_true hf)
    simp only [observe]
    rw [List.filter_append, hevents, hfilter, ihevents, ihget, phasesIn_cons]
    by_cases h : file = name
    · subst h
      simp only [if_true]
      -- A stage that the file is in already makes no event.
      by_cases hsame : reached.get? file = some (Stage.ofPhase phase)
      · simp only [stagesFrom, hsame, if_true, List.map_nil, List.nil_append, and_self]
      · simp only [stagesFrom, hsame, if_false, List.map_cons, List.map_nil, List.cons_append,
          List.nil_append, true_and]
        rw [List.getLast?_cons]
        cases (stagesFrom (some (Stage.ofPhase phase)) (phasesIn trace file)).getLast? <;> rfl
    · simp only [h, if_false, List.nil_append, and_self]

theorem observe_events (reached : Reached) (trace : List (String × Phase)) :
    ∀ e ∈ (observe reached trace).2, e.file ∈ trace.map (·.1) := by
  induction trace generalizing reached with
  | nil => exact fun _ he => absurd he List.not_mem_nil
  | cons p trace ih =>
    obtain ⟨file, phase⟩ := p
    intro e he
    simp only [observe] at he
    rcases List.mem_append.mp he with he | he
    · rw [(begin_spec reached file phase).2] at he
      obtain ⟨s, -, rfl⟩ := List.mem_map.mp he
      exact List.mem_cons_self
    · exact List.mem_cons_of_mem _ (ih _ e he)

/-- On every course, the stages start with parsing, go on in their order and are not repeated. -/
theorem stages_of_course {ps : List Phase} (h : Course ps) :
    ∃ more, stagesFrom none ps = .parse :: more ∧ (.parse :: more).Sublist Stage.all := by
  cases h with
  | unread => exact ⟨[], rfl, by decide⟩
  | cached hwrite =>
    rcases hwrite with rfl | rfl
    · exact ⟨[], rfl, by decide⟩
    · exact ⟨[.emit], rfl, by decide⟩
  | refused hlook hps =>
    rcases hlook with rfl | rfl <;> cases hps with
    | unparsed => exact ⟨[], rfl, by decide⟩
    | uncompiled => exact ⟨[.compile], rfl, by decide⟩
  | built hlook hps hwrite =>
    cases hps
    rcases hlook with rfl | rfl <;> rcases hwrite with rfl | rfl <;>
      exact ⟨[.compile, .emit], rfl, by decide⟩

/-! ### Lists of distinct files -/

theorem filter_eq_singleton {α β : Type} [DecidableEq β] {f : α → β} {xs : List α} {x : α}
    (hdistinct : (xs.map f).Nodup) (hx : x ∈ xs) : xs.filter (fun y => f y = f x) = [x] := by
  induction xs with
  | nil => exact absurd hx List.not_mem_nil
  | cons y ys ih =>
    obtain ⟨hy, hys⟩ := List.nodup_cons.mp hdistinct
    rcases List.mem_cons.mp hx with rfl | hx
    · rw [List.filter_cons, if_pos (decide_eq_true rfl), List.filter_eq_nil_iff.mpr]
      intro z hz hsame
      exact hy (of_decide_eq_true hsame ▸ List.mem_map_of_mem hz)
    · have hne : f y ≠ f x := fun h => hy (h ▸ List.mem_map_of_mem hx)
      rw [List.filter_cons, if_neg fun h => hne (of_decide_eq_true h), ih hys hx]

theorem eraseDups_of_nodup {α : Type} [BEq α] [LawfulBEq α] {xs : List α} (h : xs.Nodup) :
    xs.eraseDups = xs := by
  induction xs with
  | nil => rfl
  | cons x xs ih =>
    obtain ⟨hx, hxs⟩ := List.nodup_cons.mp h
    have hkeep : xs.filter (fun y => !y == x) = xs :=
      List.filter_eq_self.mpr fun y hy => by
        rw [Bool.not_eq_true', beq_eq_false_iff_ne]
        exact fun hyx => hx (hyx ▸ hy)
    rw [List.eraseDups_cons, hkeep, ih hxs]

/-- Files that are apart have names of their own. -/
theorem nodup_names {cwd base : String} {files : List String}
    (hcwd : Path.isAbsolute cwd = true) (hne : ∀ f ∈ files, f ≠ "")
    (hdistinct : (files.map (Path.absolute cwd)).Nodup) : (files.map (name cwd base)).Nodup := by
  refine List.Nodup.map_on (fun f hf g hg hname => ?_) hdistinct.of_map
  have hplace := absolute_eq_of_name_eq hcwd (hne f hf) (hne g hg) hname
  exact List.inj_on_of_nodup_map hdistinct hf hg hplace

theorem names_perm {cwd base : String} {files : List String} (hne : ∀ f ∈ files, f ≠ "")
    (hdistinct : (files.map (name cwd base)).Nodup) :
    (names cwd base files).Perm (files.map (name cwd base)) := by
  have hall : files.filter (· ≠ "") = files :=
    List.filter_eq_self.mpr fun f hf => decide_eq_true (hne f hf)
  have hsame : files.map (nameFrom cwd (baseOf cwd base)) = files.map (name cwd base) :=
    List.map_congr_left fun f hf => by rw [name, if_neg (hne f hf)]
  rw [names, hall, hsame, eraseDups_of_nodup hdistinct]
  exact List.mergeSort_perm _ _

/-! ### The events of a build -/

/-- The events of a build of which the reports came, with phases that began in the order of a
trace. -/
def eventsOf (cwd base : String) (files : List String) (trace : List (String × Phase))
    (report : RunReport) : List Event :=
  let (reached, working) := observe [] trace
  (names cwd base files).map (⟨·, .parse, .queued, none⟩) ++ working ++
    (report.reports.filter (·.path ≠ "")).map (ending cwd base reached) ++
    [⟨"", .emit, if report.failure.isSome then .error else .done, report.failure⟩]

/-- A build that was not cancelled came to these reports and events. The disk answers every file
somehow, and the phases of the files interleave somehow. -/
structure Ran (cwd base : String) (o : Options) (files : List String) (reports : List FileReport)
    (events : List Event) : Prop where
  built : List.Forall₂ (fun f r => ∃ a, r = fileWith a cwd { o with baseDir := base } f)
    files reports
  observed : ∃ trace, Interleaves (reports.map fun r => (r.display, r.phases)) trace ∧
    events = eventsOf cwd base files trace ⟨reports.map some, runFailure? reports⟩

/-- The events of one file: it is queued, comes to its stages in their order, and ends at the last of
them, with its error if it has one. -/
structure FileEvents (r : FileReport) (events : List Event) : Prop where
  order : ∃ more last, (Stage.parse :: more).Sublist Stage.all ∧
    (Stage.parse :: more).getLast? = some last ∧
    events = [⟨r.display, .parse, .queued, none⟩] ++
      (Stage.parse :: more).map (⟨r.display, ·, .working, none⟩) ++
      [⟨r.display, last, if r.failed then .error else .done, r.failure.map Failure.message⟩]

/-- Every file has its events, and behind them all one event is about the whole build, which fails
if a file does. -/
structure Protocol (reports : List FileReport) (events : List Event) : Prop where
  files : ∀ r ∈ reports, FileEvents r (events.filter (·.file = r.display))
  whole : ∃ before text, events = before ++
      [⟨"", .emit, if reports.any (·.failed) then .error else .done, text⟩] ∧
    ∀ e ∈ before, e.file ≠ "" ∧ e.file ∈ reports.map (·.display)

theorem reports_mk (reports : List FileReport) (failure : Option String) :
    RunReport.reports ⟨reports.map some, failure⟩ = reports := by
  rw [RunReport.reports, List.filterMap_map]
  exact List.filterMap_some

theorem isSome_runFailure? (reports : List FileReport) :
    (runFailure? reports).isSome = reports.any (·.failed) := by
  have hnil : reports.filterMap (fun r => r.failure.map fun f => r.path ++ ": " ++ f.message) = [] ↔
      reports.any (·.failed) = false := by
    simp only [List.filterMap_eq_nil_iff, Option.map_eq_none_iff, List.any_eq_false,
      FileReport.failed, Option.not_isSome_iff_eq_none]
  rw [runFailure?]
  split
  · rename_i h
    rw [hnil.mp h]
    rfl
  · rename_i hsome
    cases hany : reports.any (·.failed) with
    | true => rfl
    | false => exact absurd (hnil.mpr hany) hsome

/-- A build on one disk, its files one after the other, is such a build. -/
theorem ran_run {d after : Disk} {o : Options} {base : String} {files : List String}
    {r : Progress.Run} (h : run d o false base files = .ok (after, r)) :
    Ran d.cwd (if base = "" then d.cwd else base) o files r.report.reports r.events := by
  unfold run at h
  split at h
  · exact nomatch h
  · rename_i hfiles
    generalize (if base = "" then d.cwd else base) = base at h ⊢
    simp only [compileFiles, hfiles, Bool.false_eq_true, if_false] at h
    obtain ⟨-, rfl⟩ := Prod.mk.inj (Except.ok.inj h)
    have hreports := reports_mk (compileEach d { o with baseDir := base } files).2
      (runFailure? (compileEach d { o with baseDir := base } files).2)
    simp only [hreports]
    refine ⟨compileEach_built d _ files, _, interleaves_phasesOf _, ?_⟩
    rw [eventsOf, hreports]

section Run

variable {cwd base : String} {o : Options} {files : List String} {reports : List FileReport}
variable {events : List Event}

/-- What is known of the report of each file, whatever the disk answered. -/
structure Reported (cwd base : String) (r : FileReport) : Prop where
  ne_empty : r.path ≠ ""
  named : name cwd base r.path = r.display
  course : Course r.phases

theorem reported_of_built (hne : ∀ f ∈ files, f ≠ "")
    (hnamed : ∀ f ∈ files, name cwd base f = displayPath cwd base f)
    (h : List.Forall₂ (fun f r => ∃ a, r = fileWith a cwd { o with baseDir := base } f)
      files reports) :
    reports.map (·.path) = files ∧ ∀ r ∈ reports, Reported cwd base r := by
  induction h with
  | nil => exact ⟨rfl, fun _ hr => absurd hr List.not_mem_nil⟩
  | @cons f r files reports hfile _ ih =>
    obtain ⟨hf, hfiles⟩ := List.forall_mem_cons.mp hne
    obtain ⟨hname, hnames⟩ := List.forall_mem_cons.mp hnamed
    obtain ⟨ihpaths, ihreports⟩ := ih hfiles hnames
    obtain ⟨a, rfl⟩ := hfile
    obtain ⟨hpath, hdisplay, hcourse⟩ := fileWith_course a cwd { o with baseDir := base } f
    refine ⟨by rw [List.map_cons, hpath, ihpaths], List.forall_mem_cons.mpr ⟨?_, ihreports⟩⟩
    exact ⟨hpath.symm ▸ hf, by rw [hpath, hdisplay, hname], hcourse⟩

theorem ending_eq {reached : Reached} {r : FileReport} (h : Reported cwd base r) :
    ending cwd base reached r = ⟨r.display, (reached.get? r.display).getD .parse,
      if r.failed then .error else .done, r.failure.map Failure.message⟩ := by
  unfold ending FileReport.failed
  rw [h.named]
  cases r.failure <;> rfl

theorem ending_file {reached : Reached} {r : FileReport} (h : Reported cwd base r) :
    (ending cwd base reached r).file = r.display := by
  rw [ending_eq h]

/-- The events of one file among those of the build. -/
theorem fileEvents_eventsOf {trace : List (String × Phase)} {failure : Option String}
    (hcwd : Path.isAbsolute cwd = true) (hreports : ∀ r ∈ reports, Reported cwd base r)
    (hnames : (names cwd base files).Perm (reports.map (·.display)))
    (hdistinct : (reports.map (·.display)).Nodup)
    (htrace : Interleaves (reports.map fun r => (r.display, r.phases)) trace) {r : FileReport}
    (hr : r ∈ reports) : FileEvents r
      ((eventsOf cwd base files trace ⟨reports.map some, failure⟩).filter (·.file = r.display)) := by
  have hpaths : reports.filter (·.path ≠ "") = reports :=
    List.filter_eq_self.mpr fun r hr => decide_eq_true (hreports r hr).ne_empty
  have hown : phasesIn trace r.display = r.phases := by
    refine htrace.own ?_ (r.display, r.phases) (List.mem_map_of_mem hr)
    rw [List.map_map]
    exact hdistinct
  -- the four parts of the events
  have hqueued : ((names cwd base files).map fun f => Event.mk f .parse .queued none).filter
      (·.file = r.display) = [⟨r.display, .parse, .queued, none⟩] := by
    have hone : (names cwd base files).filter (· = r.display) = [r.display] :=
      filter_eq_singleton (f := id) (by rw [List.map_id]; exact hnames.nodup_iff.mpr hdistinct)
        (hnames.mem_iff.mpr (List.mem_map_of_mem hr))
    rw [List.filter_map]
    exact congrArg (List.map _) hone
  obtain ⟨hworking, hreached⟩ := observe_spec [] trace r.display
  have hended (reached : Reached) : (reports.map (ending cwd base reached)).filter
      (·.file = r.display) = [ending cwd base reached r] := by
    have hsame : reports.filter (fun r' => (ending cwd base reached r').file = r.display) =
        reports.filter (fun r' => r'.display = r.display) :=
      List.filter_congr fun r' hr' => by rw [ending_file (hreports r' hr')]
    rw [List.filter_map]
    exact congrArg (List.map _) (hsame.trans (filter_eq_singleton hdistinct hr))
  have hwhole : "" ≠ r.display := by
    rw [← (hreports r hr).named]
    exact (name_ne_empty hcwd (hreports r hr).ne_empty).symm
  have hlast : [Event.mk "" .emit (if failure.isSome then .error else .done) failure].filter
      (·.file = r.display) = [] :=
    List.filter_eq_nil_iff.mpr fun e he hfile => by
      rw [List.mem_singleton.mp he] at hfile
      exact hwhole (of_decide_eq_true hfile)
  obtain ⟨more, hstages, hsub⟩ := stages_of_course (hreports r hr).course
  obtain ⟨last, hlastStage⟩ : ∃ last, (Stage.parse :: more).getLast? = some last :=
    ⟨_, List.getLast?_eq_some_getLast (List.cons_ne_nil _ _)⟩
  have hnone : Reached.get? [] r.display = none := rfl
  rw [hnone, hown, hstages] at hworking hreached
  rw [hlastStage] at hreached
  refine ⟨more, last, hsub, hlastStage, ?_⟩
  rw [eventsOf]
  simp only [reports_mk, hpaths, List.filter_append, hqueued, hworking, hended, hlast,
    List.append_nil]
  rw [ending_eq (hreports r hr), hreached]
  rfl

theorem events_of_files {trace : List (String × Phase)}
    (hcwd : Path.isAbsolute cwd = true) (hreports : ∀ r ∈ reports, Reported cwd base r)
    (hnames : (names cwd base files).Perm (reports.map (·.display)))
    (htrace : Interleaves (reports.map fun r => (r.display, r.phases)) trace) (reached : Reached) :
    ∀ e ∈ (names cwd base files).map (fun f => Event.mk f .parse .queued none) ++
        (observe [] trace).2 ++ reports.map (ending cwd base reached),
      e.file ≠ "" ∧ e.file ∈ reports.map (·.display) := by
  have hne : ∀ file ∈ reports.map (·.display), file ≠ "" := by
    intro file hfile
    obtain ⟨r, hr, rfl⟩ := List.mem_map.mp hfile
    rw [← (hreports r hr).named]
    exact name_ne_empty hcwd (hreports r hr).ne_empty
  intro e he
  suffices hfile : e.file ∈ reports.map (·.display) from ⟨hne _ hfile, hfile⟩
  rcases List.mem_append.mp he with he | he
  · rcases List.mem_append.mp he with he | he
    · obtain ⟨f, hf, rfl⟩ := List.mem_map.mp he
      exact hnames.mem_iff.mp hf
    · obtain ⟨p, hp, hfile⟩ := List.mem_map.mp (observe_events [] trace e he)
      have hthread := htrace.only p hp
      rw [List.map_map, hfile] at hthread
      exact hthread
  · obtain ⟨r, hr, rfl⟩ := List.mem_map.mp he
    rw [ending_file (hreports r hr)]
    exact List.mem_map_of_mem hr

/-- The progress of a build that was not cancelled, over files that are apart and that are named in
the progress as in the build. However the phases of the files interleave and whatever the disk
answers, every file is queued once, comes to stages from parsing on without going back or coming to
one twice, and ends once, well or with its error, at the last of them. The last event is the only
one about the whole build, and an error just if a file failed. -/
theorem progress_protocol (hcwd : Path.isAbsolute cwd = true) (hne : ∀ f ∈ files, f ≠ "")
    (hdistinct : (files.map (Path.absolute cwd)).Nodup)
    (hnamed : ∀ f ∈ files, name cwd base f = displayPath cwd base f)
    (h : Ran cwd base o files reports events) : Protocol reports events := by
  obtain ⟨hpaths, hreports⟩ := reported_of_built hne hnamed h.built
  obtain ⟨trace, htrace, rfl⟩ := h.observed
  have hdisplays : files.map (name cwd base) = reports.map (·.display) := by
    rw [← hpaths, List.map_map]
    exact List.map_congr_left fun r hr => (hreports r hr).named
  have hnodup : (files.map (name cwd base)).Nodup := nodup_names hcwd hne hdistinct
  have hnames := names_perm hne hnodup
  rw [hdisplays] at hnodup hnames
  constructor
  · exact fun r hr => fileEvents_eventsOf hcwd hreports hnames hnodup htrace hr
  · have hall : reports.filter (·.path ≠ "") = reports :=
      List.filter_eq_self.mpr fun r hr => decide_eq_true (hreports r hr).ne_empty
    rw [eventsOf]
    simp only [reports_mk, hall, isSome_runFailure?]
    exact ⟨_, _, rfl, events_of_files hcwd hreports hnames htrace _⟩

end Run

/-- Two catalogs in the working directory. -/
def twoFiles : List String := ["a.json", "/p/sub/b.json"]

def twoOptions : Options :=
  ⟨⟨"en", ⟨[], [], []⟩, .string, ""⟩, ⟨false, .preserve, ""⟩, false, "", "", false, false, 0, none, false⟩

/-- What the disk answers for the two: one catalog compiles, the other is not there. -/
def twoAnswers : List Answers :=
  [⟨.ok (Bytes.ofText "\x7b\"m\": \"Hi\"\x7d"), .miss, none, none⟩,
    ⟨.error ⟨"open", "/p/sub/b.json", .missing⟩, .miss, none, none⟩]

def twoReports : List FileReport :=
  twoAnswers.zipWith (fun a => fileWith a "/p" { twoOptions with baseDir := "/p" }) twoFiles

/-- The second is tried while the first is compiled. -/
def twoTrace : List (String × Phase) :=
  [("a.json", .load), ("a.json", .parse), ("sub/b.json", .load), ("a.json", .compile),
    ("a.json", .emit)]

def twoEvents : List Event :=
  eventsOf "/p" "/p" twoFiles twoTrace ⟨twoReports.map some, runFailure? twoReports⟩

theorem interleaves_twoTrace :
    Interleaves (twoReports.map fun r => (r.display, r.phases)) twoTrace := by
  have hphases : twoReports.map (fun r => (r.display, r.phases)) =
      [("a.json", [.load, .parse, .compile, .emit]), ("sub/b.json", [.load])] := by decide +kernel
  rw [hphases]
  -- the first file's steps have nothing before it, the second's have the first before it
  have hfirst (rest left : List Phase) (phase : Phase) (trace : List (String × Phase)) :
      Interleaves [("a.json", rest), ("sub/b.json", left)] trace →
      Interleaves [("a.json", phase :: rest), ("sub/b.json", left)] (("a.json", phase) :: trace) :=
    @Interleaves.next [] _ _ _ _ _
  have hsecond (rest left : List Phase) (phase : Phase) (trace : List (String × Phase)) :
      Interleaves [("a.json", left), ("sub/b.json", rest)] trace →
      Interleaves [("a.json", left), ("sub/b.json", phase :: rest)]
        (("sub/b.json", phase) :: trace) :=
    @Interleaves.next [("a.json", left)] [] _ _ _ _
  refine hfirst _ _ _ _ (hfirst _ _ _ _ (hsecond _ _ _ _ (hfirst _ _ _ _ (hfirst _ _ _ _ ?_))))
  exact .through (by decide)

theorem progress_protocol_twoFiles :
    twoReports.map (·.failed) = [false, true] ∧ Protocol twoReports twoEvents := by
  have hbuilt : Ran "/p" "/p" twoOptions twoFiles twoReports twoEvents :=
    ⟨.cons ⟨_, rfl⟩ (.cons ⟨_, rfl⟩ .nil), twoTrace, interleaves_twoTrace, rfl⟩
  have hfailed : twoReports.map (·.failed) = [false, true] := by decide +kernel
  exact ⟨hfailed, progress_protocol (by decide +kernel) (by decide +kernel) (by decide +kernel)
    (by decide +kernel) hbuilt⟩

end Phrasebook.Progress
