import Mathlib
import Phrasebook.Proofs.Generating
import Phrasebook.Proofs.WrittenFiles

/-!
What building a catalog does to the disk, and what it reports. Generated text is written to places
that are never those of entries in the cache, an entry is named for its key, and a report tells of the
text that was generated or found.
-/
namespace Phrasebook.Build

/-! ### Where things are written -/

/-- The last letter of the last name. -/
def lastLetter (path : String) : Option Char :=
  (Path.parts path).getLast?.bind fun n => n.toList.getLast?

theorem lastLetter_of_endsIn {path s t : String} {c : Char} (h : Path.EndsIn path (s ++ t))
    (ht : t.toList.getLast? = some c) : lastLetter path = some c := by
  rw [lastLetter, h.last, Option.bind_some, String.toList_append, List.getLast?_append, ht]
  rfl

namespace Cache

theorem plain_hex (key : Bytes) : '/' ∉ (Sha256.hex key).toList := by
  have hdigit : ∀ d < 16, Nat.digitChar d ≠ '/' := by decide
  rw [Sha256.hex, String.toList_ofList]
  intro h
  obtain ⟨b, -, hb⟩ := List.mem_flatMap.mp h
  simp only [Text.hexDigits, List.nil_append, List.mem_append, List.mem_singleton] at hb
  rcases hb with hb | hb
  · exact hdigit _ (Nat.mod_lt _ (by decide)) hb.symm
  · exact hdigit _ (Nat.mod_lt _ (by decide)) hb.symm

/-- The file of an entry is named for its key. -/
theorem endsIn_entryPath (dir : String) (key : Bytes) :
    Path.EndsIn (entryPath dir key) (Sha256.hex key ++ ".mp") := by
  have hplain : '/' ∉ (Sha256.hex key ++ ".mp").toList := by
    rw [String.toList_append, List.mem_append, not_or]
    exact ⟨plain_hex key, by decide⟩
  have hname : Path.EndsIn (Sha256.hex key ++ ".mp") (Sha256.hex key ++ ".mp") := by
    refine ⟨?_, Path.isProper_append _ (c := 'p') rfl (by decide) hplain⟩
    rw [Path.parts, Text.splitAt_of_not_mem hplain, List.map_singleton, String.ofList_toList]
    rfl
  exact hname.join [dir, "modules", String.ofList ((Sha256.hex key).toList.take 2)]

theorem entryPath_injective {cwd dir dir' : String} {key key' : Bytes}
    (h : Path.absolute cwd (entryPath dir key) = Path.absolute cwd (entryPath dir' key')) :
    key = key' := by
  have hlast := ((endsIn_entryPath dir key).absolute cwd).last
  rw [h, ((endsIn_entryPath dir' key').absolute cwd).last] at hlast
  have hnames := congrArg String.toList (Option.some.inj hlast)
  rw [String.toList_append, String.toList_append] at hnames
  exact Sha256.hex_injective (String.toList_injective (List.append_cancel_right hnames)).symm

theorem lastLetter_entryPath (cwd dir : String) (key : Bytes) :
    lastLetter (Path.absolute cwd (entryPath dir key)) = some 'p' :=
  lastLetter_of_endsIn ((endsIn_entryPath dir key).absolute cwd) rfl

/-- Entries are kept by the first two digits of their keys. -/
theorem dir_entryPath (dir : String) (key : Bytes) : Path.dir (entryPath dir key) =
    Path.join [dir, "modules", String.ofList ((Sha256.hex key).toList.take 2)] := by
  have hmem : "modules" ∈ [dir, "modules", String.ofList ((Sha256.hex key).toList.take 2)].filter
      (· ≠ "") :=
    List.mem_filter.mpr ⟨List.mem_cons_of_mem _ List.mem_cons_self, by decide⟩
  have hpath : entryPath dir key =
      Path.join ([dir, "modules", String.ofList ((Sha256.hex key).toList.take 2)] ++
        [Sha256.hex key ++ ".mp"]) :=
    rfl
  rw [hpath, Path.dir_join (List.ne_nil_of_mem hmem) (endsIn_entryPath dir key).proper]

end Cache

/-- The extensions of modules. -/
def moduleExtensions : List String :=
  [".js", ".jsx", ".ts", ".tsx"]

/-- The extensions of what is generated. -/
def generatedExtensions : List String :=
  [".js", ".jsx", ".ts", ".tsx", declarationsExtension]

theorem generate?_moduleExtension {content : Bytes} {o : Options} {out : Output}
    (h : generate? content o = some out) : out.extension ∈ moduleExtensions := by
  obtain ⟨-, b, -, rfl⟩ := generate?_eq_some.mp h
  have hextension (style : Program.PrintStyle) (p : Program) :
      Program.extension style p ∈ moduleExtensions := by
    unfold Program.extension
    simp only
    split <;> split <;> simp [moduleExtensions]
  exact hextension _ _

theorem generate?_extension {content : Bytes} {o : Options} {out : Output}
    (h : generate? content o = some out) : out.extension ∈ generatedExtensions :=
  List.mem_append_left [declarationsExtension] (generate?_moduleExtension h)

/-- A place of generated text. -/
def IsPlace (cwd path : String) : Prop :=
  ∃ s, ∃ ext ∈ generatedExtensions, path = Path.absolute cwd (s ++ ext)

theorem IsPlace.lastLetter {cwd path : String} (h : IsPlace cwd path) :
    lastLetter path = some 's' ∨ lastLetter path = some 'x' := by
  obtain ⟨s, ext, hext, rfl⟩ := h
  have hletters : ∀ ext ∈ generatedExtensions, '/' ∉ ext.toList ∧
      (ext.toList.getLast? = some 's' ∨ ext.toList.getLast? = some 'x') := by decide
  obtain ⟨hplain, hletter⟩ := hletters ext hext
  refine hletter.imp (fun hs => ?_) fun hx => ?_
  · obtain ⟨t, hends⟩ := Path.endsIn_append s hs (by decide) hplain
    exact lastLetter_of_endsIn (hends.absolute cwd) hs
  · obtain ⟨t, hends⟩ := Path.endsIn_append s hx (by decide) hplain
    exact lastLetter_of_endsIn (hends.absolute cwd) hx

/-- Generated text is never written over an entry. -/
theorem IsPlace.ne_entryPath {cwd path : String} (h : IsPlace cwd path) (dir : String)
    (key : Bytes) : path ≠ Path.absolute cwd (Cache.entryPath dir key) := by
  rintro rfl
  have hletter := h.lastLetter
  rw [Cache.lastLetter_entryPath] at hletter
  revert hletter
  decide

/-! ### Reports of what was generated -/

/-- The report tells of `out`, and of the places where it goes. -/
structure Reports (cwd : String) (o : Options) (path : String) (out : Output) (r : FileReport) :
    Prop where
  code : r.code = out.code
  declarations : r.declarations = out.declarations
  exports : r.exports = out.exports
  arguments : r.arguments = out.arguments
  output : r.output = outputStem cwd o path ++ out.extension
  declarationsPath : r.declarationsPath =
    if out.declarations = "" then "" else outputStem cwd o path ++ declarationsExtension

namespace Reports

variable {cwd path : String} {o : Options} {out : Output} {r : FileReport}

theorem withOutput (r : FileReport) (cwd : String) (o : Options) (out : Output) :
    Reports cwd o r.path out (r.withOutput cwd o out) :=
  ⟨rfl, rfl, rfl, rfl, rfl, rfl⟩

/-- What is on record besides does not matter. -/
theorem idle (h : Reports cwd o path out r) (bag : Bag) (steps : List Step)
    (failure : Option Failure) (log : List (Nat × LogRecord)) :
    Reports cwd o path out { r with bag, steps, failure, log } :=
  ⟨h.code, h.declarations, h.exports, h.arguments, h.output, h.declarationsPath⟩

theorem writeIfAsked (h : Reports cwd o path out r) (o' : Options) (d : Disk) :
    Reports cwd o path out (writeIfAsked o' d r).2 := by
  unfold Build.writeIfAsked
  split
  · unfold writeOutputs
    simp only
    split
    · exact h.idle _ _ _ _
    · split
      · exact h.idle _ _ _ _
      · split
        · exact h.idle _ _ _ _
        · exact h.idle _ _ _ _
  · exact h

theorem finish (h : Reports cwd o path out r) (o' : Options) :
    Reports cwd o path out (finish o' r) := by
  have htimed : Reports cwd o path out
      (if o'.timings then { r with bag := addAlways r.bag (timingDiagnostic r) } else r) := by
    split
    · exact h.idle _ _ _ _
    · exact h
  unfold Build.finish
  simp only
  split <;> exact htimed.idle _ _ _ _

/-- What making directories and writing at places of generated text leave true of the disk holds once
all is written. -/
theorem writeIfAsked_induction {motive : Disk → Prop} (h : Reports cwd o path out r)
    (hextension : out.extension ∈ generatedExtensions)
    (hmake : ∀ {d d' path}, motive d → d.makeDirectories path = .ok d' → motive d')
    (hwrite : ∀ {d d' path bs}, motive d → IsPlace d.cwd (Path.absolute d.cwd path) →
      d.write path bs = .ok d' → motive d')
    (o' : Options) {d : Disk} (hd : motive d) : motive (Build.writeIfAsked o' d r).1 := by
  have htext {path text : String} (hplace : ∀ cwd, IsPlace cwd (Path.absolute cwd path)) {d d' : Disk}
      (hd : motive d) (hd' : writeText d path text = .ok d') : motive d' := by
    obtain ⟨d₁, hd₁, hd'⟩ := writeText_eq_ok hd'
    exact hwrite (hmake hd hd₁) (hplace _) hd'
  -- Both texts go where the reported stem and an extension of generated text tell.
  refine Build.writeIfAsked_induction (htext fun cwd' => ?_) (fun hne _ _ => htext fun cwd' => ?_) o' hd
  · exact ⟨_, _, hextension, by rw [h.output]⟩
  · rw [h.declarationsPath] at hne ⊢
    split at hne
    · exact absurd rfl hne
    · rename_i hempty
      rw [if_neg hempty]
      exact ⟨_, declarationsExtension, by decide, rfl⟩

/-- All written files are at places of generated text. -/
theorem writeIfAsked_adds {d : Disk} (h : Reports cwd o path out r)
    (hextension : out.extension ∈ generatedExtensions) (o' : Options) :
    Disk.Adds (fun path _ => IsPlace d.cwd path) d (Build.writeIfAsked o' d r).1 := by
  have hboth : (Build.writeIfAsked o' d r).1.cwd = d.cwd ∧
      Disk.Adds (fun path _ => IsPlace d.cwd path) d (Build.writeIfAsked o' d r).1 := by
    refine h.writeIfAsked_induction hextension
      (motive := fun d' => d'.cwd = d.cwd ∧ Disk.Adds (fun path _ => IsPlace d.cwd path) d d')
      ?_ ?_ o' ⟨rfl, .refl d⟩
    · exact fun hd hmake => ⟨(Disk.makeDirectories_cwd hmake).trans hd.1,
        hd.2.trans (.makeDirectories hmake)⟩
    · exact fun hd hplace hwrite => ⟨(Disk.write_cwd hwrite).trans hd.1,
        hd.2.trans (.write hwrite (hd.1 ▸ hplace))⟩
  exact hboth.2

/-- All other files are left alone. -/
theorem writeIfAsked_keeps {d : Disk} (hcwd : Path.isAbsolute d.cwd = true)
    (h : Reports cwd o path out r) (hextension : out.extension ∈ generatedExtensions)
    (o' : Options) : Disk.Keeps (IsPlace d.cwd) d (Build.writeIfAsked o' d r).1 := by
  refine h.writeIfAsked_induction hextension (motive := Disk.Keeps (IsPlace d.cwd) d) ?_ ?_ o'
    (.refl d)
  · exact fun hd hmake => hd.trans (.makeDirectories hmake)
  · intro d₁ d₂ path bs hd hplace hwrite
    have hcwd₁ : Path.isAbsolute d₁.cwd = true := hd.cwd ▸ hcwd
    refine hd.trans (.write hcwd₁ hwrite ?_)
    exact hd.cwd ▸ hplace

end Reports

/-! ### Building a catalog -/

/-- The text of a file once it is loaded. -/
def loaded (raw : Bytes) : Bytes :=
  shortenLineEnds (dropMark raw).1

/-- The report once a catalog was loaded. -/
def loadedReport (d : Disk) (o : Options) (path : String) (raw : Bytes) : FileReport :=
  let r := (FileReport.start d.cwd o path).record .debug [] "compile start"
  { r.step .load "" none with files := (FileSet.load ⟨[], o.baseDir⟩ path raw).1 }

/-- What is generated for a loaded catalog is what its content and the options make. -/
theorem compileLoaded_loadedReport (d : Disk) (o : Options) (path : String) (raw : Bytes)
    {r : FileReport} (hfailed : r.failed = false)
    (hfiles : r.files = (loadedReport d o path raw).files) :
    (compileLoaded o false r 0).2 = generate? (loaded raw) o := by
  obtain ⟨flags, hload⟩ : ∃ flags, (loadedReport d o path raw).files =
      ⟨[⟨0, Path.normalize path, loaded raw, flags⟩], o.baseDir⟩ := ⟨_, rfl⟩
  exact @compileLoaded_eq_generate? o r hfailed ⟨0, Path.normalize path, loaded raw, flags⟩
    o.baseDir (hfiles.trans hload)

/-! ### What tells a hit -/

theorem foldl_add_cacheHit (ds : List Diagnostic) (r : FileReport) :
    (ds.foldl FileReport.add r).cacheHit = r.cacheHit := by
  induction ds generalizing r with
  | nil => rfl
  | cons d ds ih => exact ih _

theorem addMessages_cacheHit (keepGoing : Bool) (m : Compile.Module) (r : FileReport)
    (messages : List Compile.SourceMessage) :
    (addMessages keepGoing false m r messages).report.cacheHit = r.cacheHit := by
  induction messages generalizing m r with
  | nil => rfl
  | cons msg rest ih =>
    unfold Build.addMessages
    rw [if_neg Bool.false_ne_true]
    split
    · exact ih _ r
    · simp only
      split
      · exact ih _ _
      · rfl
    · rfl

theorem compileLoaded_cacheHit (o : Options) (r : FileReport) (id : UInt32) :
    (compileLoaded o false r id).1.cacheHit = r.cacheHit := by
  have hparsed (messages : List Compile.SourceMessage) (problems : List Diagnostic) :
      (parsedReport messages problems r).cacheHit = r.cacheHit := by
    unfold parsedReport
    cases problems with
    | nil => rfl
    | cons d ds => exact foldl_add_cacheHit ds _
  have hconcluded (messages : List Compile.SourceMessage) (added : Adding) :
      (concluded o messages added).1.cacheHit = added.report.cacheHit := by
    unfold concluded
    simp only
    split
    · rfl
    · split
      · rfl
      · split <;> rfl
  rw [compileLoaded_eq]
  simp only
  split
  · exact hparsed _ _
  · rw [hconcluded, addMessages_cacheHit, hparsed]

theorem writeIfAsked_cacheHit (o : Options) (d : Disk) (r : FileReport) :
    (writeIfAsked o d r).2.cacheHit = r.cacheHit := by
  unfold writeIfAsked
  split
  · unfold writeOutputs
    simp only
    split
    · rfl
    · split
      · rfl
      · split <;> rfl
  · rfl

theorem finish_cacheHit (o : Options) (r : FileReport) : (finish o r).cacheHit = r.cacheHit := by
  have htimed : (if o.timings then { r with bag := addAlways r.bag (timingDiagnostic r) }
      else r).cacheHit = r.cacheHit := by
    split <;> rfl
  unfold finish
  simp only
  split <;> exact htimed

/-! ### Failures -/

theorem finish_failed (o : Options) (r : FileReport) : (finish o r).failed = r.failed := by
  have htimed : (if o.timings then { r with bag := addAlways r.bag (timingDiagnostic r) }
      else r).failed = r.failed := by
    split <;> rfl
  unfold finish
  simp only
  split <;> exact htimed

/-- Where nothing is generated, something went wrong. -/
theorem concluded_none {o : Options} {messages : List Compile.SourceMessage} {added : Adding}
    (h : (concluded o messages added).2 = none) : (concluded o messages added).1.failed = true := by
  unfold concluded at h ⊢
  cases hstopped : added.stopped with
  | some why => rfl
  | none =>
    simp only [hstopped] at h ⊢
    split at h
    · rename_i hfailed
      rw [if_pos hfailed]
      exact hfailed
    · rename_i hfailed
      rw [if_neg hfailed]
      split at h
      · exact failed_fail _ _
      · cases h

theorem compileLoaded_none {o : Options} {r : FileReport} {id : UInt32}
    (h : (compileLoaded o false r id).2 = none) : (compileLoaded o false r id).1.failed = true := by
  rw [compileLoaded_eq] at h ⊢
  simp only at h ⊢
  split at h
  · rename_i hfailed
    rw [if_pos hfailed]
    exact (Bool.and_eq_true_iff.mp hfailed).1
  · rename_i hfailed
    rw [if_neg hfailed]
    exact concluded_none h

/-! ### Entries -/

/-- An entry under a key that holds `out`. -/
def IsEntry (cwd : String) (o : Options) (key : Bytes) (out : Output) (path : String)
    (bs : Bytes) : Prop :=
  ∃ dir p, o.cache = some dir ∧ path = Path.absolute cwd (Cache.entryPath dir key) ∧
    bs = Cache.encode Cache.schema p out

namespace Cache

variable {d d' : Disk} {dir p : String} {key : Bytes} {out : Output}

theorem put_adds {o : Options} (hdir : o.cache = some dir) (h : put d dir key p out = .ok d') :
    Disk.Adds (IsEntry d.cwd o key out) d d' := by
  obtain ⟨d₁, hmake, hwrite⟩ := cachePut_eq_ok_iff.mp h
  refine (Disk.Adds.makeDirectories hmake).trans (.write hwrite ⟨dir, p, hdir, ?_, rfl⟩)
  rw [Disk.makeDirectories_cwd hmake]

/-- What leaves an entry alone leaves it to be found. -/
theorem get_of_keeps {written : String → Prop} (h : Disk.Keeps written d d')
    (hentry : ¬ written (Path.absolute d.cwd (entryPath dir key))) (hget : get d dir key = .hit out) :
    get d' dir key = .hit out := by
  unfold get at hget ⊢
  split at hget
  · split at hget <;> cases hget
  · rename_i bs hread
    rw [h.read hentry hread]
    exact hget

section Put

variable (hcwd : Path.isAbsolute d.cwd = true)

include hcwd

theorem put_keeps (h : put d dir key p out = .ok d') :
    Disk.Keeps (· = Path.absolute d.cwd (entryPath dir key)) d d' := by
  obtain ⟨d₁, hmake, hwrite⟩ := cachePut_eq_ok_iff.mp h
  have hsame := Disk.makeDirectories_cwd hmake
  refine (Disk.Keeps.makeDirectories hmake).trans (.write (hsame ▸ hcwd) hwrite ?_)
  rw [hsame]

/-- What is put there is found. -/
theorem get_of_put (h : put d dir key p out = .ok d') : get d' dir key = .hit out := by
  obtain ⟨d₁, hmake, hwrite⟩ := cachePut_eq_ok_iff.mp h
  have hcwd₁ : Path.isAbsolute d₁.cwd = true := Disk.makeDirectories_cwd hmake ▸ hcwd
  unfold get
  rw [Disk.read_of_write hcwd₁ hwrite]
  simp only [decode?_encode, if_true]

/-- Once its directory was made, an entry can be put there. -/
theorem exists_put_of_directory {d₁ : Disk}
    (hmake : d.makeDirectories (Path.dir (entryPath dir key)) = .ok d₁)
    (hdir : d₁.lookup (Path.dir (entryPath dir key)) = .ok .directory)
    (hfree : d₁.entry? (Path.absolute d₁.cwd (entryPath dir key)) ≠ some .directory)
    (p : String) (out : Output) : ∃ d', put d dir key p out = .ok d' := by
  have hcwd₁ : Path.isAbsolute d₁.cwd = true := Disk.makeDirectories_cwd hmake ▸ hcwd
  have hwritable := Disk.writable_of_lookup_dir hcwd₁ (endsIn_entryPath dir key) hdir hfree
  exact ⟨_, cachePut_eq_ok_iff.mpr ⟨d₁, hmake, hwritable.write hcwd₁ _⟩⟩

/-- Where one entry can be put, any other of the same key can be. -/
theorem exists_put (h : put d dir key p out = .ok d') (p' : String) (out' : Output) :
    ∃ d'', put d dir key p' out' = .ok d'' := by
  obtain ⟨d₁, hmake, hwrite⟩ := cachePut_eq_ok_iff.mp h
  have hcwd₁ : Path.isAbsolute d₁.cwd = true := Disk.makeDirectories_cwd hmake ▸ hcwd
  exact ⟨_, cachePut_eq_ok_iff.mpr ⟨d₁, hmake, (Disk.writable_of_write hcwd₁ hwrite).write hcwd₁ _⟩⟩

end Put

end Cache

/-- The disk once `out` was put into the cache, if there is one. -/
def stored (d : Disk) (o : Options) (key : Bytes) (path : String) (out : Output) : Disk :=
  match o.cache with
  | none => d
  | some dir =>
    match Cache.put d dir key path out with
    | .ok d' => d'
    | .error _ => d

section Stored

variable (d : Disk) (o : Options) (key : Bytes) (path : String) (out : Output)

theorem stored_cwd : (stored d o key path out).cwd = d.cwd := by
  unfold stored
  split
  · rfl
  · split
    · rename_i hput
      exact cachePut_cwd hput
    · rfl

theorem isAbsolute_stored_cwd (hcwd : Path.isAbsolute d.cwd = true) :
    Path.isAbsolute (stored d o key path out).cwd = true := by
  rw [stored_cwd]
  exact hcwd

theorem stored_adds : Disk.Adds (IsEntry d.cwd o key out) d (stored d o key path out) := by
  unfold stored
  split
  · exact .refl d
  · rename_i hdir
    split
    · rename_i hput
      exact Cache.put_adds hdir hput
    · exact .refl d

theorem stored_keeps (hcwd : Path.isAbsolute d.cwd = true) :
    Disk.Keeps (fun place => ∃ dir, o.cache = some dir ∧
      place = Path.absolute d.cwd (Cache.entryPath dir key)) d (stored d o key path out) := by
  unfold stored
  split
  · exact .refl d
  · rename_i dir hdir
    split
    · rename_i hput
      exact (Cache.put_keeps hcwd hput).mono fun _ hplace => ⟨dir, hdir, hplace⟩
    · exact .refl d

end Stored

theorem get_stored {d d' : Disk} {o : Options} {dir path' : String} {key : Bytes} {out' : Output}
    (hcwd : Path.isAbsolute d.cwd = true) (hdir : o.cache = some dir)
    (hput : Cache.put d dir key path' out' = .ok d') (path : String) (out : Output) :
    Cache.get (stored d o key path out) dir key = .hit out := by
  obtain ⟨d'', hput'⟩ := Cache.exists_put hcwd hput path out
  rw [stored, hdir]
  simp only [hput']
  exact Cache.get_of_put hcwd hput'

/-! ### Keeping and looking up -/

/-- Without text nothing is kept or written. -/
theorem compileAndStore_none {d : Disk} {o : Options} {r : FileReport} {id : UInt32}
    (h : (compileLoaded o false r id).2 = none) (key : Bytes) :
    compileAndStore d o false r id key = (d, (compileLoaded o false r id).1) := by
  unfold compileAndStore
  rcases hloaded : compileLoaded o false r id with ⟨r', _ | out⟩
  · rfl
  · rw [hloaded] at h
    cases h

/-- Text that was generated is reported, kept as an entry if there is a cache, and then written. -/
theorem compileAndStore_some {d : Disk} {o : Options} {r : FileReport} {id : UInt32} {out : Output}
    (h : (compileLoaded o false r id).2 = some out) (key : Bytes) :
    ∃ r', compileAndStore d o false r id key = writeIfAsked o (stored d o key r.display out) r' ∧
      Reports d.cwd o r.path out r' ∧ r'.cacheHit = r.cacheHit := by
  obtain ⟨ps, hproceeds, -⟩ := compileLoaded_proceeds o false r id
  have hhit := compileLoaded_cacheHit o r id
  unfold compileAndStore stored
  rcases hloaded : compileLoaded o false r id with ⟨r', _ | out'⟩
  · rw [hloaded] at h
    cases h
  · rw [hloaded] at h hproceeds hhit
    cases h
    have hreports := Reports.withOutput r' d.cwd o out
    have hdisplay : (r'.withOutput d.cwd o out).display = r.display := hproceeds.display
    rw [hproceeds.path] at hreports
    simp only [hdisplay]
    cases o.cache with
    | none => exact ⟨_, rfl, hreports, hhit⟩
    | some dir =>
      simp only
      cases Cache.put d dir key r.display out with
      | ok d₁ => exact ⟨_, rfl, hreports, hhit⟩
      | error e => exact ⟨_, rfl, hreports.idle _ _ _ _, hhit⟩

/-- What follows the loading of a catalog, with its key at hand. -/
def lookUpKey (d : Disk) (o : Options) (r : FileReport) (key : Bytes) : Disk × FileReport :=
  match o.cache with
  | none => compileAndStore d o false r 0 key
  | some dir =>
    match Cache.get d dir key with
    | .hit out =>
      let r := { (r.step .cache "hit" none).withOutput d.cwd o out with cacheHit := true }
      writeIfAsked o d (r.record .debug [] "cache hit")
    | .miss => compileAndStore d o false (r.step .cache "miss" none) 0 key
    | .unreadable why =>
      let r := r.step .cache "miss" none
      let r := r.record .warn [("error", .text why)] "cache read failed"
      compileAndStore d o false r 0 key

/-- A catalog that can be read is looked up under the key of its content. -/
theorem compileFile_of_read {d : Disk} {o : Options} {path : String} {raw : Bytes}
    (h : d.read path = .ok raw) : compileFile d o false path =
      ((lookUpKey d o (loadedReport d o path raw) (Cache.key (loaded raw) o)).1,
        finish o (lookUpKey d o (loadedReport d o path raw) (Cache.key (loaded raw) o)).2) := by
  have hprocess : process d o false ((FileReport.start d.cwd o path).record .debug []
      "compile start") = lookUpKey d o (loadedReport d o path raw) (Cache.key (loaded raw) o) :=
    process_of_read h
  rw [← hprocess]
  rfl

/-- A catalog that cannot be read changes nothing. -/
theorem compileFile_of_unreadable {d : Disk} {path : String} {e : DiskError}
    (h : d.read path = .error e) (o : Options) : (compileFile d o false path).1 = d := by
  unfold compileFile process
  simp only [FileReport.record, FileReport.start, h]

/-- What building a catalog with the text `raw` comes to, but for the last words about it. -/
inductive Outcome (d : Disk) (o : Options) (path : String) (raw : Bytes) : Disk × FileReport → Prop where
  | found {dir : String} {out : Output} {r : FileReport} : o.cache = some dir →
      Cache.get d dir (Cache.key (loaded raw) o) = .hit out → r.cacheHit = true →
      Reports d.cwd o path out r → Outcome d o path raw (writeIfAsked o d r)
  | failed {r : FileReport} : generate? (loaded raw) o = none → r.cacheHit = false →
      r.failed = true → Outcome d o path raw (d, r)
  | compiled {out : Output} {r : FileReport} (display : String) :
      generate? (loaded raw) o = some out → r.cacheHit = false → Reports d.cwd o path out r →
      Outcome d o path raw (writeIfAsked o (stored d o (Cache.key (loaded raw) o) display out) r)

theorem lookUpKey_outcome (d : Disk) (o : Options) (path : String) (raw : Bytes) :
    Outcome d o path raw
      (lookUpKey d o (loadedReport d o path raw) (Cache.key (loaded raw) o)) := by
  have hcompiled {r : FileReport} (hfailed : r.failed = false)
      (hfiles : r.files = (loadedReport d o path raw).files) (hpath : r.path = path)
      (hhit : r.cacheHit = false) :
      Outcome d o path raw (compileAndStore d o false r 0 (Cache.key (loaded raw) o)) := by
    have hgenerated := compileLoaded_loadedReport d o path raw hfailed hfiles
    cases hout : generate? (loaded raw) o with
    | none =>
      have hnone := hgenerated.trans hout
      rw [compileAndStore_none hnone]
      exact .failed hout ((compileLoaded_cacheHit o r 0).trans hhit) (compileLoaded_none hnone)
    | some out =>
      obtain ⟨r', hstore, hreports, hhit'⟩ :=
        compileAndStore_some (hgenerated.trans hout) (Cache.key (loaded raw) o)
      rw [hstore]
      exact .compiled _ hout (hhit'.trans hhit) (hpath ▸ hreports)
  unfold lookUpKey
  cases hdir : o.cache with
  | none => exact hcompiled rfl rfl rfl rfl
  | some dir =>
    simp only
    cases hget : Cache.get d dir (Cache.key (loaded raw) o) with
    | hit out => exact .found hdir hget rfl ⟨rfl, rfl, rfl, rfl, rfl, rfl⟩
    | miss => exact hcompiled rfl rfl rfl rfl
    | unreadable why => exact hcompiled rfl rfl rfl rfl

theorem compileFile_outcome {d : Disk} {o : Options} {path : String} {raw : Bytes}
    (h : d.read path = .ok raw) : ∃ built, Outcome d o path raw built ∧
      compileFile d o false path = (built.1, finish o built.2) :=
  ⟨_, lookUpKey_outcome d o path raw, compileFile_of_read h⟩

/-- A catalog whose entry is there is found. -/
theorem cacheHit_of_get {d : Disk} {o : Options} {path dir : String} {raw : Bytes} {out : Output}
    (h : d.read path = .ok raw) (hdir : o.cache = some dir)
    (hget : Cache.get d dir (Cache.key (loaded raw) o) = .hit out) :
    (compileFile d o false path).2.cacheHit = true := by
  rw [compileFile_of_read h, finish_cacheHit, lookUpKey, hdir]
  simp only [hget]
  exact writeIfAsked_cacheHit _ _ _

end Phrasebook.Build
