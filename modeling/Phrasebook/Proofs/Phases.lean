import Mathlib.Data.List.Forall2
import Phrasebook.Build.Run
import Phrasebook.Proofs.DiskFiles

/-!
The phases of building one catalog. The disk decides through what it answers, and it may be changed
by others while the catalog is built; whatever it answers, the phases follow one of a few courses.
-/
namespace Phrasebook.Build

/-! ### What steps leave alone -/

/-- The phases that were begun, in order. -/
def FileReport.phases (r : FileReport) : List Phase :=
  r.steps.map (·.phase)

/-- The report `r'` is about the catalog of `r`, and has begun the phases `ps` since. -/
structure Proceeds (r : FileReport) (ps : List Phase) (r' : FileReport) : Prop where
  path : r'.path = r.path
  display : r'.display = r.display
  phases : r'.phases = r.phases ++ ps

namespace Proceeds

variable {r r' r'' : FileReport} {ps ps' : List Phase}

theorem refl (r : FileReport) : Proceeds r [] r :=
  ⟨rfl, rfl, (List.append_nil _).symm⟩

theorem record (r : FileReport) (level : LogLevel) (fields : List (String × LogValue))
    (message : String) : Proceeds r [] (r.record level fields message) :=
  ⟨rfl, rfl, (List.append_nil _).symm⟩

theorem trans (h : Proceeds r ps r') (h' : Proceeds r' ps' r'') : Proceeds r (ps ++ ps') r'' where
  path := h'.path.trans h.path
  display := h'.display.trans h.display
  phases := by rw [h'.phases, h.phases, List.append_assoc]

theorem step (r : FileReport) (phase : Phase) (note : String) (error : Option String) :
    Proceeds r [phase] (r.step phase note error) :=
  ⟨rfl, rfl, List.map_append⟩

/-- What changes neither the catalog nor the steps begins no phase. -/
theorem idle (hpath : r'.path = r.path) (hdisplay : r'.display = r.display)
    (hsteps : r'.steps = r.steps) : Proceeds r [] r' :=
  ⟨hpath, hdisplay, by rw [FileReport.phases, hsteps, List.append_nil, FileReport.phases]⟩

theorem foldl_add (ds : List Diagnostic) (r : FileReport) :
    Proceeds r [] (ds.foldl FileReport.add r) := by
  induction ds generalizing r with
  | nil => exact refl r
  | cons d ds ih => exact (idle rfl rfl rfl : Proceeds r [] (r.add d)).trans (ih _)

theorem addMessages (keepGoing cancelled : Bool) (m : Compile.Module) (r : FileReport)
    (messages : List Compile.SourceMessage) :
    Proceeds r [] (addMessages keepGoing cancelled m r messages).report := by
  induction messages generalizing m r with
  | nil => exact refl r
  | cons msg rest ih =>
    unfold Build.addMessages
    split
    · exact refl r
    · split
      · exact ih _ r
      · rename_i e _
        have hfail : Proceeds r [] ((r.add e.diagnostic).fail (.module (.compile e))) :=
          idle rfl rfl rfl
        simp only
        split
        · exact hfail.trans (ih _ _)
        · exact hfail
      · exact refl r

end Proceeds

/-! ### Courses -/

/-- A phase that is begun or left out. -/
def Optional (phase : Phase) (ps : List Phase) : Prop :=
  ps = [] ∨ ps = [phase]

/-- The phases of compiling a catalog that was loaded, and whether text was generated. -/
inductive Compiling : Bool → List Phase → Prop where
  | unparsed : Compiling false [.parse]
  | uncompiled : Compiling false [.parse, .compile]
  | emitted : Compiling true [.parse, .compile, .emit]

/-- The courses that building a catalog can take: it is not loaded, found in the cache, or compiled,
with or without success. -/
inductive Course : List Phase → Prop where
  | unread : Course [.load]
  | cached {write : List Phase} : Optional .write write → Course (.load :: .cache :: write)
  | refused {look ps : List Phase} : Optional .cache look → Compiling false ps →
      Course (.load :: look ++ ps)
  | built {look ps write : List Phase} : Optional .cache look → Compiling true ps →
      Optional .write write → Course (.load :: look ++ ps ++ write)

/-- The report once a catalog was read. -/
def parsedReport (messages : List Compile.SourceMessage) (problems : List Diagnostic)
    (r : FileReport) : FileReport :=
  let r := problems.foldl FileReport.add (r.step .parse (messageCount messages) none)
  match problems with
  | [] => r
  | d :: _ => r.fail (.catalog d)

/-- What comes of a catalog once its messages were added. -/
def concluded (o : Options) (messages : List Compile.SourceMessage) (added : Adding) :
    FileReport × Option Output :=
  let r := { added.report with files := added.module.files }
  match added.stopped with
  | some (note, f) => ({ r.step .compile note (some f.message) with failure := some f }, none)
  | none =>
    let r := r.step .compile (messageCount messages) (r.failure.map Failure.message)
    if r.failed then (r, none)
    else
      match added.module.build with
      | (_, .error e) => (r.fail (.module e), none)
      | (_, .ok b) =>
        let out := emit o b
        (r.step .emit out.extension none, some out)

theorem compileLoaded_eq (o : Options) (cancelled : Bool) (r : FileReport) (id : UInt32) :
    compileLoaded o cancelled r id =
      let read := Catalog.read r.files id
      let r := parsedReport read.1 read.2 r
      if r.failed && !o.keepGoing then (r, none)
      else concluded o read.1 (addMessages o.keepGoing cancelled
        (Compile.Module.new r.files { o.compile with file := r.display }) r read.1) :=
  rfl

theorem parsedReport_proceeds (messages : List Compile.SourceMessage) (problems : List Diagnostic)
    (r : FileReport) : Proceeds r [.parse] (parsedReport messages problems r) := by
  have hadded := (Proceeds.step r .parse (messageCount messages) none).trans
    (Proceeds.foldl_add problems _)
  unfold parsedReport
  cases problems with
  | nil => exact hadded
  | cons d ds => exact hadded.trans (.idle rfl rfl rfl)

theorem concluded_proceeds (o : Options) (messages : List Compile.SourceMessage) (added : Adding) :
    ∃ ps, Proceeds added.report ps (concluded o messages added).1 ∧
      Compiling (concluded o messages added).2.isSome (.parse :: ps) := by
  have hcompile (note : String) (error : Option String) : Proceeds added.report [.compile]
      (FileReport.step { added.report with files := added.module.files } .compile note error) :=
    (Proceeds.idle rfl rfl rfl : Proceeds added.report [] { added.report with
      files := added.module.files }).trans (.step _ _ _ _)
  unfold concluded
  simp only
  split
  · exact ⟨_, (hcompile _ _).trans (.idle rfl rfl rfl), .uncompiled⟩
  · split
    · exact ⟨_, hcompile _ _, .uncompiled⟩
    · split
      · exact ⟨_, (hcompile _ _).trans (.idle rfl rfl rfl), .uncompiled⟩
      · exact ⟨_, (hcompile _ _).trans (.step _ _ _ _), .emitted⟩

theorem compileLoaded_proceeds (o : Options) (cancelled : Bool) (r : FileReport) (id : UInt32) :
    ∃ ps, Proceeds r ps (compileLoaded o cancelled r id).1 ∧
      Compiling (compileLoaded o cancelled r id).2.isSome ps := by
  rw [compileLoaded_eq]
  simp only
  generalize Catalog.read r.files id = read
  have hparse := parsedReport_proceeds read.1 read.2 r
  generalize parsedReport read.1 read.2 r = parsed at hparse
  split
  · exact ⟨_, hparse, .unparsed⟩
  · have hadd := Proceeds.addMessages o.keepGoing cancelled
      (Compile.Module.new parsed.files { o.compile with file := parsed.display }) parsed read.1
    generalize addMessages o.keepGoing cancelled
      (Compile.Module.new parsed.files { o.compile with file := parsed.display }) parsed read.1 =
        added at hadd
    obtain ⟨ps, hps, hcourse⟩ := concluded_proceeds o read.1 added
    exact ⟨_, (hparse.trans hadd).trans hps, hcourse⟩

/-! ### Answers of the disk -/

/-- What the disk answers while a catalog is built, whatever happens on it meanwhile: the content of
the catalog, what is found in the cache, and why keeping or writing the outcome failed. -/
structure Answers where
  loaded : Except DiskError Bytes
  found : Cache.Found
  stored : Option DiskError
  written : Option WriteError

/-- Writes the outcome if that is asked for. -/
def writeWith (a : Answers) (o : Options) (r : FileReport) : FileReport :=
  if o.write then
    let r := r.step .write r.output (a.written.map WriteError.message)
    match a.written with
    | none => r
    | some e => { r.add (.error .unwritableFile .zero e.message) with failure := some (.write e) }
  else r

/-- Compiles a catalog that was loaded, keeps the outcome in the cache and writes it. -/
def compileWith (a : Answers) (cwd : String) (o : Options) (cancelled : Bool) (r : FileReport)
    (id : UInt32) : FileReport :=
  match compileLoaded o cancelled r id with
  | (r, none) => r
  | (r, some out) =>
    let r := r.withOutput cwd o out
    let r := match o.cache, a.stored with
      | some _, some e => r.record .warn [("error", .text e.message)] "cache write failed"
      | _, _ => r
    writeWith a o r

/-- Looks a catalog that was loaded up in the cache, if there is one, and compiles it if need be. -/
def lookUpWith (a : Answers) (cwd : String) (o : Options) (cancelled : Bool) (r : FileReport)
    (id : UInt32) : FileReport :=
  match o.cache, a.found with
  | none, _ => compileWith a cwd o cancelled r id
  | some _, .hit out =>
    let r := { (r.step .cache "hit" none).withOutput cwd o out with cacheHit := true }
    writeWith a o (r.record .debug [] "cache hit")
  | some _, .miss => compileWith a cwd o cancelled (r.step .cache "miss" none) id
  | some _, .unreadable why =>
    let r := r.step .cache "miss" none
    let r := r.record .warn [("error", .text why)] "cache read failed"
    compileWith a cwd o cancelled r id

/-- Everything from loading a catalog to writing its module. -/
def processWith (a : Answers) (cwd : String) (o : Options) (cancelled : Bool) (r : FileReport) :
    FileReport :=
  match a.loaded with
  | .error e =>
    (r.step .load "" (some e.message)).add
      (.error .unreadableFile .zero s!"failed to load file: {e.message}") |>.fail (.load e)
  | .ok raw =>
    let (files, id) := r.files.load r.path raw
    lookUpWith a cwd o cancelled { r.step .load "" none with files } id

/-- Builds one catalog. -/
def fileWith (a : Answers) (cwd : String) (o : Options) (path : String) : FileReport :=
  finish o (processWith a cwd o false ((FileReport.start cwd o path).record .debug [] "compile start"))

/-- What follows the loading of a catalog. -/
def lookUp (d : Disk) (o : Options) (cancelled : Bool) (r : FileReport) (id : UInt32) :
    Disk × FileReport :=
  let key := Cache.key (((r.files.get? id).map (·.content)).getD []) o
  match o.cache with
  | none => compileAndStore d o cancelled r id key
  | some dir =>
    match Cache.get d dir key with
    | .hit out =>
      let r := { (r.step .cache "hit" none).withOutput d.cwd o out with cacheHit := true }
      writeIfAsked o d (r.record .debug [] "cache hit")
    | .miss => compileAndStore d o cancelled (r.step .cache "miss" none) id key
    | .unreadable why =>
      let r := r.step .cache "miss" none
      let r := r.record .warn [("error", .text why)] "cache read failed"
      compileAndStore d o cancelled r id key

theorem process_of_read {d : Disk} {o : Options} {cancelled : Bool} {r : FileReport} {raw : Bytes}
    (h : d.read r.path = .ok raw) : process d o cancelled r =
      lookUp d o cancelled { r.step .load "" none with files := (r.files.load r.path raw).1 }
        (r.files.load r.path raw).2 := by
  unfold process
  rw [h]
  rfl

theorem writeIfAsked_eq (a : Answers) (d : Disk) (o : Options) (r : FileReport) :
    ∃ written, (writeIfAsked o d r).2 = writeWith { a with written } o r := by
  unfold writeIfAsked writeWith
  split
  · unfold writeOutputs
    simp only
    split
    · rename_i e _
      exact ⟨some e, rfl⟩
    · split
      · exact ⟨none, rfl⟩
      · split
        · rename_i e _
          exact ⟨some e, rfl⟩
        · exact ⟨none, rfl⟩
  · exact ⟨none, rfl⟩

theorem compileAndStore_eq (a : Answers) (d : Disk) (o : Options) (cancelled : Bool)
    (r : FileReport) (id : UInt32) (key : Bytes) :
    ∃ stored written, (compileAndStore d o cancelled r id key).2 =
      compileWith { a with stored, written } d.cwd o cancelled r id := by
  unfold compileAndStore compileWith
  obtain ⟨r', _ | out⟩ := compileLoaded o cancelled r id
  · exact ⟨none, none, rfl⟩
  · simp only
    cases o.cache with
    | none =>
      obtain ⟨written, hwritten⟩ := writeIfAsked_eq { a with stored := none } d o
        (r'.withOutput d.cwd o out)
      exact ⟨none, written, hwritten⟩
    | some dir =>
      simp only
      cases Cache.put d dir key (r'.withOutput d.cwd o out).display out with
      | ok d' =>
        obtain ⟨written, hwritten⟩ := writeIfAsked_eq { a with stored := none } d' o
          (r'.withOutput d.cwd o out)
        exact ⟨none, written, hwritten⟩
      | error e =>
        obtain ⟨written, hwritten⟩ := writeIfAsked_eq { a with stored := some e } d o
          ((r'.withOutput d.cwd o out).record .warn [("error", .text e.message)]
            "cache write failed")
        exact ⟨some e, written, hwritten⟩

theorem lookUp_eq (a : Answers) (d : Disk) (o : Options) (cancelled : Bool) (r : FileReport)
    (id : UInt32) : ∃ found stored written, (lookUp d o cancelled r id).2 =
      lookUpWith { a with found, stored, written } d.cwd o cancelled r id := by
  unfold lookUp lookUpWith
  generalize Cache.key (((r.files.get? id).map (·.content)).getD []) o = key
  have hcompile (found : Cache.Found) (r : FileReport) : ∃ stored written,
      (compileAndStore d o cancelled r id key).2 =
        compileWith { a with found, stored, written } d.cwd o cancelled r id :=
    compileAndStore_eq { a with found } d o cancelled r id key
  cases o.cache with
  | none =>
    obtain ⟨stored, written, h⟩ := hcompile .miss r
    exact ⟨.miss, stored, written, h⟩
  | some dir =>
    simp only
    cases Cache.get d dir key with
    | hit out =>
      obtain ⟨written, h⟩ := writeIfAsked_eq { a with found := .hit out, stored := none } d o
        (FileReport.record { (r.step .cache "hit" none).withOutput d.cwd o out with
          cacheHit := true } .debug [] "cache hit")
      exact ⟨.hit out, none, written, h⟩
    | miss =>
      obtain ⟨stored, written, h⟩ := hcompile .miss (r.step .cache "miss" none)
      exact ⟨.miss, stored, written, h⟩
    | unreadable why =>
      obtain ⟨stored, written, h⟩ := hcompile (.unreadable why)
        ((r.step .cache "miss" none).record .warn [("error", .text why)] "cache read failed")
      exact ⟨.unreadable why, stored, written, h⟩

/-- On its own, a build is answered by the one disk. -/
theorem process_eq (d : Disk) (o : Options) (cancelled : Bool) (r : FileReport) :
    ∃ a, (process d o cancelled r).2 = processWith a d.cwd o cancelled r := by
  cases hread : d.read r.path with
  | error e =>
    refine ⟨⟨.error e, .miss, none, none⟩, ?_⟩
    unfold process
    rw [hread]
    rfl
  | ok raw =>
    obtain ⟨found, stored, written, h⟩ := lookUp_eq ⟨.ok raw, .miss, none, none⟩ d o cancelled
      { r.step .load "" none with files := (r.files.load r.path raw).1 }
      (r.files.load r.path raw).2
    refine ⟨⟨.ok raw, found, stored, written⟩, ?_⟩
    rw [process_of_read hread]
    exact h

/-- What comes of a catalog that is built on its own is what some answers of the disk make of it. -/
theorem compileFile_eq (d : Disk) (o : Options) (path : String) :
    ∃ a, (compileFile d o false path).2 = fileWith a d.cwd o path := by
  obtain ⟨a, h⟩ := process_eq d o false
    ((FileReport.start d.cwd o path).record .debug [] "compile start")
  refine ⟨a, ?_⟩
  unfold compileFile fileWith
  rw [← h]

/-! ### The course of a file -/

theorem writeWith_proceeds (a : Answers) (o : Options) (r : FileReport) :
    ∃ ps, Optional .write ps ∧ Proceeds r ps (writeWith a o r) := by
  unfold writeWith
  split
  · have hstep := Proceeds.step r .write r.output (a.written.map WriteError.message)
    refine ⟨[.write], .inr rfl, ?_⟩
    split
    · exact hstep
    · exact hstep.trans (.idle rfl rfl rfl)
  · exact ⟨[], .inl rfl, .refl r⟩

/-- From a catalog that was loaded, and looked for in vain in the cache if there is one. -/
theorem compileWith_course (a : Answers) (cwd : String) (o : Options) (cancelled : Bool)
    (r : FileReport) (id : UInt32) {look : List Phase} (hlook : Optional .cache look) :
    ∃ ps, Proceeds r ps (compileWith a cwd o cancelled r id) ∧ Course (.load :: look ++ ps) := by
  unfold compileWith
  obtain ⟨ps, hps, hcompiling⟩ := compileLoaded_proceeds o cancelled r id
  generalize compileLoaded o cancelled r id = compiled at hps hcompiling ⊢
  obtain ⟨r', _ | out⟩ := compiled
  · exact ⟨ps, hps, .refused hlook hcompiling⟩
  · have hkept : Proceeds r ps (match o.cache, a.stored with
        | some _, some e =>
          (r'.withOutput cwd o out).record .warn [("error", .text e.message)] "cache write failed"
        | _, _ => r'.withOutput cwd o out) := by
      have hout : Proceeds r' [] (r'.withOutput cwd o out) := .idle rfl rfl rfl
      rw [← List.append_nil ps]
      split
      · exact hps.trans (hout.trans (.idle rfl rfl rfl))
      · exact hps.trans hout
    obtain ⟨write, hwrite, hwritten⟩ := writeWith_proceeds a o _
    have hcourse := Course.built hlook hcompiling hwrite
    rw [List.append_assoc] at hcourse
    exact ⟨ps ++ write, hkept.trans hwritten, hcourse⟩

theorem processWith_course (a : Answers) (cwd : String) (o : Options) (cancelled : Bool)
    (r : FileReport) :
    ∃ ps, Proceeds r ps (processWith a cwd o cancelled r) ∧ Course ps := by
  unfold processWith
  split
  · exact ⟨_, (Proceeds.step r .load _ _).trans (.idle rfl rfl rfl), .unread⟩
  · rename_i raw _
    obtain ⟨files, id⟩ := r.files.load r.path raw
    have hload : Proceeds r [.load] { r.step .load "" none with files } :=
      (Proceeds.step r .load "" none).trans (.idle rfl rfl rfl)
    change ∃ ps, Proceeds r ps (lookUpWith a cwd o cancelled { r.step .load "" none with files } id) ∧
      Course ps
    generalize { r.step .load "" none with files } = loaded at hload ⊢
    have hlook (note : String) := hload.trans (Proceeds.step loaded .cache note none)
    unfold lookUpWith
    simp only
    split
    · obtain ⟨ps, hps, hcourse⟩ := compileWith_course a cwd o cancelled loaded id (.inl rfl)
      exact ⟨_, hload.trans hps, hcourse⟩
    · obtain ⟨write, hwrite, hwritten⟩ := writeWith_proceeds a o _
      refine ⟨[Phase.load, .cache] ++ write, Proceeds.trans ?_ hwritten, .cached hwrite⟩
      exact (hlook "hit").trans (.idle rfl rfl rfl)
    · obtain ⟨ps, hps, hcourse⟩ := compileWith_course a cwd o cancelled _ id (.inr rfl)
      exact ⟨_, (hlook _).trans hps, hcourse⟩
    · obtain ⟨ps, hps, hcourse⟩ := compileWith_course a cwd o cancelled _ id (.inr rfl)
      refine ⟨[Phase.load, .cache] ++ ps, Proceeds.trans ?_ hps, hcourse⟩
      exact (hlook "miss").trans (.idle rfl rfl rfl)

/-- Whatever the disk answers, building a catalog takes one of the courses. -/
theorem fileWith_course (a : Answers) (cwd : String) (o : Options) (path : String) :
    (fileWith a cwd o path).path = path ∧
      (fileWith a cwd o path).display = displayPath cwd o.baseDir path ∧
      Course (fileWith a cwd o path).phases := by
  obtain ⟨ps, hps, hcourse⟩ := processWith_course a cwd o false
    ((FileReport.start cwd o path).record .debug [] "compile start")
  have hfinish (r : FileReport) : Proceeds r [] (finish o r) := by
    have htimed : Proceeds r [] (if o.timings then
        { r with bag := addAlways r.bag (timingDiagnostic r) } else r) := by
      split <;> exact .idle rfl rfl rfl
    unfold finish
    generalize (if o.timings then { r with bag := addAlways r.bag (timingDiagnostic r) } else r) =
      timed at htimed ⊢
    simp only
    split <;> exact htimed.trans (.idle rfl rfl rfl)
  have hfile : Proceeds _ (ps ++ []) (fileWith a cwd o path) := hps.trans (hfinish _)
  have hstarted := (Proceeds.record _ .debug [] "compile start").trans hfile
  refine ⟨?_, ?_, ?_⟩
  · rw [hstarted.path, FileReport.start]
  · rw [hstarted.display, FileReport.start]
  · rw [hstarted.phases, FileReport.start, List.append_nil]
    exact hcourse

/-! ### The working directory -/

theorem cachePut_eq_ok_iff {d d' : Disk} {dir path : String} {key : Bytes} {out : Output} :
    Cache.put d dir key path out = .ok d' ↔
      ∃ d₁, d.makeDirectories (Path.dir (Cache.entryPath dir key)) = .ok d₁ ∧
        d₁.write (Cache.entryPath dir key) (Cache.encode Cache.schema path out) = .ok d' := by
  unfold Cache.put
  simp only
  cases d.makeDirectories (Path.dir (Cache.entryPath dir key)) with
  | error e => exact ⟨fun h => (nomatch h), fun ⟨_, h, _⟩ => (nomatch h)⟩
  | ok d₁ => exact ⟨fun h => ⟨d₁, rfl, h⟩, fun ⟨_, rfl, h⟩ => h⟩

theorem cachePut_cwd {d d' : Disk} {dir path : String} {key : Bytes} {out : Output}
    (h : Cache.put d dir key path out = .ok d') : d'.cwd = d.cwd := by
  obtain ⟨d₁, hmake, hwrite⟩ := cachePut_eq_ok_iff.mp h
  exact (Disk.write_cwd hwrite).trans (Disk.makeDirectories_cwd hmake)

theorem writeText_eq_ok {d d' : Disk} {path text : String} (h : writeText d path text = .ok d') :
    ∃ d₁, d.makeDirectories (Path.dir path) = .ok d₁ ∧ d₁.write path (Bytes.ofText text) = .ok d' := by
  unfold writeText at h
  split at h
  · exact nomatch h
  · rename_i d₁ hmake
    split at h
    · exact nomatch h
    · rename_i d₂ hwrite
      rw [← Except.ok.inj h]
      exact ⟨d₁, hmake, hwrite⟩

theorem writeText_cwd {d d' : Disk} {path text : String} (h : writeText d path text = .ok d') :
    d'.cwd = d.cwd := by
  obtain ⟨d₁, hmake, hwrite⟩ := writeText_eq_ok h
  exact (Disk.write_cwd hwrite).trans (Disk.makeDirectories_cwd hmake)

/-- What the two texts that are written leave true of the disk holds once they are written. -/
theorem writeIfAsked_induction {motive : Disk → Prop} {r : FileReport}
    (hcode : ∀ {d d'}, motive d → writeText d r.output r.code = .ok d' → motive d')
    (hdeclarations : r.declarationsPath ≠ "" → ∀ {d d'}, motive d →
      writeText d r.declarationsPath r.declarations = .ok d' → motive d')
    (o : Options) {d : Disk} (hd : motive d) : motive (writeIfAsked o d r).1 := by
  unfold writeIfAsked
  split
  · unfold writeOutputs
    simp only
    split
    · exact hd
    · rename_i d₁ hd₁
      split
      · exact hcode hd hd₁
      -- The declarations are written second, to the disk that the code left.
      · rename_i hne
        split
        · exact hcode hd hd₁
        · rename_i d₂ hd₂
          exact hdeclarations hne (hcode hd hd₁) hd₂
  · exact hd

theorem writeIfAsked_cwd (o : Options) (d : Disk) (r : FileReport) :
    (writeIfAsked o d r).1.cwd = d.cwd :=
  writeIfAsked_induction (motive := fun d' => d'.cwd = d.cwd)
    (fun hcwd h => (writeText_cwd h).trans hcwd) (fun _ _ _ hcwd h => (writeText_cwd h).trans hcwd)
    o rfl

theorem compileAndStore_cwd (d : Disk) (o : Options) (cancelled : Bool) (r : FileReport)
    (id : UInt32) (key : Bytes) : (compileAndStore d o cancelled r id key).1.cwd = d.cwd := by
  unfold compileAndStore
  obtain ⟨r', _ | out⟩ := compileLoaded o cancelled r id
  · rfl
  · simp only
    split
    · exact writeIfAsked_cwd o d _
    · rename_i dir _
      cases hput : Cache.put d dir key (r'.withOutput d.cwd o out).display out with
      | ok d₁ => exact (writeIfAsked_cwd o d₁ _).trans (cachePut_cwd hput)
      | error e => exact writeIfAsked_cwd o d _

/-- Building a catalog does not leave the working directory. -/
theorem compileFile_cwd (d : Disk) (o : Options) (cancelled : Bool) (path : String) :
    (compileFile d o cancelled path).1.cwd = d.cwd := by
  have hprocess (r : FileReport) : (process d o cancelled r).1.cwd = d.cwd := by
    cases hread : d.read r.path with
    | error e =>
      unfold process
      rw [hread]
    | ok raw =>
      rw [process_of_read hread]
      unfold lookUp
      simp only
      split
      · exact compileAndStore_cwd d o cancelled _ _ _
      · split
        · exact writeIfAsked_cwd o d _
        · exact compileAndStore_cwd d o cancelled _ _ _
        · exact compileAndStore_cwd d o cancelled _ _ _
  exact hprocess _

/-- The catalogs of a run are each built with some answers of the disk. -/
theorem compileEach_built (d : Disk) (o : Options) (paths : List String) :
    List.Forall₂ (fun path r => ∃ a, r = fileWith a d.cwd o path) paths
      (compileEach d o paths).2 := by
  induction paths generalizing d with
  | nil => exact .nil
  | cons path rest ih =>
    have hrest := ih (compileFile d o false path).1
    rw [compileFile_cwd] at hrest
    exact .cons (compileFile_eq d o path) hrest

end Phrasebook.Build
