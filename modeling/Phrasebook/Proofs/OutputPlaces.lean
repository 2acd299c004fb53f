import Phrasebook.Proofs.CacheHits
import Phrasebook.Proofs.Extensions

/-!
Where the modules of a run go. A module is told by where its catalog goes without extension, and by
its own extension. So catalogs that differ in their extension alone share a module, and in an output
directory catalogs of one name share it as well unless they are below the base directory.
-/
namespace Phrasebook.Build

/-! ### Reports of a run -/

/-- A catalog that was built has a module, with an extension of modules. -/
theorem compileFile_reports {dir : String} {past : List Compiled} {d : Disk}
    (h : Filled dir past d) {o : Options} (hcache : o.cache = none ∨ o.cache = some dir)
    {path : String} (hdone : (compileFile d o false path).2.failed = false) :
    ∃ out, out.extension ∈ moduleExtensions ∧
      Reports d.cwd o path out (compileFile d o false path).2 := by
  cases hread : d.read path with
  | error e =>
    have hfailed : (compileFile d o false path).2.failed = true := by
      unfold compileFile process
      simp only [FileReport.record, FileReport.start, hread, finish_failed]
      exact failed_fail _ _
    rw [hdone] at hfailed
    cases hfailed
  | ok raw =>
    obtain ⟨after, houtcome, hfile⟩ := compileFile_outcome (o := o) hread
    rw [hfile] at hdone ⊢
    simp only [finish_failed] at hdone
    cases houtcome with
    | found hdir hget _ hreports =>
      obtain rfl := eq_of_cache hcache hdir
      obtain ⟨c, -, -, rfl⟩ := h.of_get hget
      exact ⟨c.out, generate?_moduleExtension c.generated, (hreports.writeIfAsked o d).finish o⟩
    | failed _ _ hfailed => cases hfailed.symm.trans hdone
    | compiled display hout _ hreports =>
      exact ⟨_, generate?_moduleExtension hout, (hreports.writeIfAsked o _).finish o⟩

/-- The reports of a run are those of catalogs that are built one after the other. -/
theorem exists_of_mem_reports {dir : String} {past : List Compiled} {d : Disk}
    (h : Kept dir past d) {o : Options} (hcache : o.cache = none ∨ o.cache = some dir)
    {cancelled : Bool} {paths : List String} {r : FileReport}
    (hr : r ∈ (compileFiles d o cancelled paths).2.reports) :
    ∃ past' d' path, Kept dir past' d' ∧ d'.cwd = d.cwd ∧
      r = (compileFile d' o false path).2 := by
  -- The disk changes from catalog to catalog, so the induction takes any disk and past.
  have heach (paths : List String) {past : List Compiled} {d : Disk} (h : Kept dir past d)
      (hr : r ∈ (compileEach d o paths).2) :
      ∃ past' d' path, Kept dir past' d' ∧ d'.cwd = d.cwd ∧
        r = (compileFile d' o false path).2 := by
    induction paths generalizing past d with
    | nil => exact absurd hr List.not_mem_nil
    | cons path rest ih =>
      rcases List.mem_cons.mp hr with rfl | hr
      · exact ⟨past, d, path, h, rfl, rfl⟩
      · obtain ⟨past', d', path', h', hcwd, hreport⟩ := ih (h.built path hcache) hr
        exact ⟨past', d', path', h', hcwd.trans (compileFile_cwd d o false path), hreport⟩
  unfold compileFiles at hr
  split at hr
  · exact absurd hr List.not_mem_nil
  · split at hr
    -- A run that was given up before it started has no reports.
    · obtain ⟨report, hreport, hsome⟩ := List.mem_filterMap.mp hr
      obtain ⟨-, -, rfl⟩ := List.mem_map.mp hreport
      cases hsome
    · refine heach paths h ?_
      simpa only [RunReport.reports, List.filterMap_map, Function.comp_def, id,
        List.filterMap_some] using hr

/-- A catalog of a run that was built has a module, with an extension of modules. -/
theorem reports_of_run {dir : String} {past : List Compiled} {d : Disk} (h : Kept dir past d)
    {o : Options} (hcache : o.cache = none ∨ o.cache = some dir) {cancelled : Bool}
    {paths : List String} {r : FileReport}
    (hr : r ∈ (compileFiles d o cancelled paths).2.reports) (hdone : r.failed = false) :
    ∃ out, out.extension ∈ moduleExtensions ∧ Reports d.cwd o r.path out r := by
  obtain ⟨past', d', path, hkept, hcwd, rfl⟩ := exists_of_mem_reports h hcache hr
  obtain ⟨a, ha⟩ := compileFile_eq d' o path
  have hpath : (compileFile d' o false path).2.path = path := by
    rw [ha]
    exact (fileWith_course a d'.cwd o path).1
  rw [hpath, ← hcwd]
  exact compileFile_reports hkept.filled hcache hdone

/-! ### Places of modules -/

theorem stem_append_extension (path : String) : stem path ++ Path.extension path = path := by
  obtain ⟨-, q, hq⟩ := Path.exists_extension path
  have hstem : stem path = q := by
    rw [stem]
    generalize Path.extension path = e at hq ⊢
    subst hq
    rw [String.length_append, Nat.add_sub_cancel, String.toList_append, ← String.length_toList,
      List.take_left, String.ofList_toList]
  rw [hstem, ← hq]

theorem dir_stem (path : String) : Path.dir (stem path) = Path.dir path := by
  rw [← Path.dir_append (Path.exists_extension path).1 (stem path), stem_append_extension]

theorem isExtension_of_mem {e : String} (h : e ∈ moduleExtensions) : Path.IsExtension e := by
  have hdot : ∀ e ∈ moduleExtensions, e.toList = '.' :: e.toList.tail ∧ '.' ∉ e.toList.tail ∧
      '/' ∉ e.toList := by decide
  obtain ⟨hcons, hdots, hplain⟩ := hdot e h
  exact ⟨⟨_, hcons, hdots⟩, hplain⟩

/-- With an extension that is generated, every name stands for itself. -/
theorem isProper_append_generated {e : String} (h : e ∈ generatedExtensions) {n : String}
    (hn : '/' ∉ n.toList) : Path.IsProper (n ++ e) := by
  have hlast : ∀ e ∈ generatedExtensions, '/' ∉ e.toList ∧
      (e.toList.getLast? = some 's' ∨ e.toList.getLast? = some 'x') := by decide
  obtain ⟨hplain, hlast⟩ := hlast e h
  have hboth : '/' ∉ (n ++ e).toList := by
    rw [String.toList_append, List.mem_append, not_or]
    exact ⟨hn, hplain⟩
  rcases hlast with hlast | hlast
  · exact Path.isProper_append n hlast (by decide) hboth
  · exact Path.isProper_append n hlast (by decide) hboth

/-- The names below the output directory that lead to the module of a catalog: those of the catalog
below the base directory, or its last name alone. -/
def keptNames (cwd : String) (o : Options) (path : String) : List String :=
  let above := Path.names (Path.absolute cwd o.baseDir)
  let names := Path.names (Path.absolute cwd (stem path))
  if o.baseDir ≠ "" ∧ above <+: names then names.drop above.length else [Path.base (stem path)]

/-- The module of a catalog has a name, and all names on the way to it stand for themselves. -/
structure IsNamed (cwd : String) (o : Options) (path : String) : Prop where
  ne_nil : keptNames cwd o path ≠ []
  proper : ∀ n ∈ keptNames cwd o path, Path.IsProper n

/-- The catalog lies below the base directory, and without its extension it still has a name that
stands for itself. -/
structure Mirrored (cwd : String) (o : Options) (path : String) : Prop where
  given : o.baseDir ≠ ""
  below : ∃ n rest, Path.names (Path.absolute cwd (stem path)) =
    Path.names (Path.absolute cwd o.baseDir) ++ n :: rest
  proper : Path.IsProper (Path.lastName (stem path))

/-- Without extensions, the modules of both catalogs go to one place. -/
def Together (cwd : String) (o : Options) (path path' : String) : Prop :=
  Path.Meet cwd (outputStem cwd o path) (outputStem cwd o path')

section Places

variable {cwd : String} {o : Options} {path path' : String}

/-- Next to their catalogs, modules are told by the directories and the names of the catalogs. -/
theorem together_beside (hout : o.outDir = "") : Together cwd o path path' ↔
    Path.absolute cwd (Path.dir path) = Path.absolute cwd (Path.dir path') ∧
      Path.lastName (stem path) = Path.lastName (stem path') := by
  have hstem (path : String) : outputStem cwd o path = stem path := if_pos hout
  rw [Together, hstem, hstem, Path.meet_iff, dir_stem, dir_stem]

theorem Mirrored.keptNames_eq (h : Mirrored cwd o path) :
    Path.names (Path.absolute cwd (stem path)) =
      Path.names (Path.absolute cwd o.baseDir) ++ keptNames cwd o path := by
  obtain ⟨n, rest, hbelow⟩ := h.below
  rw [keptNames]
  simp only [hbelow]
  rw [if_pos ⟨h.given, List.prefix_append _ _⟩, List.drop_left]

variable (hcwd : Path.isAbsolute cwd = true)

include hcwd

theorem Mirrored.isNamed (h : Mirrored cwd o path) : IsNamed cwd o path := by
  obtain ⟨n, rest, hbelow⟩ := h.below
  have hkept := h.keptNames_eq
  rw [hbelow] at hkept
  have hkept := (List.append_cancel_left hkept).symm
  refine ⟨hkept ▸ List.cons_ne_nil n rest, fun m hm => ?_⟩
  refine Path.isProper_of_mem_names (Path.isAbsolute_absolute hcwd (stem path)) ?_
  rw [hbelow, ← hkept]
  exact List.mem_append_right _ hm

/-- In an output directory a module goes where its names lead. -/
theorem outputStem_eq (hout : o.outDir ≠ "") (h : IsNamed cwd o path) :
    ∃ kept, Path.parts kept = keptNames cwd o path ∧
      outputStem cwd o path = Path.join [o.outDir, kept] := by
  have hstem (kept : String) (hkept : (if o.baseDir = "" then Path.base (stem path)
      else (insideOf? cwd o.baseDir (stem path)).getD (Path.base (stem path))) = kept) :
      outputStem cwd o path = Path.join [o.outDir, kept] := by
    rw [outputStem]
    simp only [if_neg hout, hkept]
  have hlast (hkept : keptNames cwd o path = [Path.base (stem path)]) :
      Path.parts (Path.base (stem path)) = keptNames cwd o path := by
    have hproper := h.proper
    rw [hkept] at hproper ⊢
    rw [Path.parts, Text.splitAt_of_not_mem (hproper _ List.mem_cons_self).plain,
      List.map_singleton, String.ofList_toList]
  by_cases hbase : o.baseDir = ""
  · have hkept : keptNames cwd o path = [Path.base (stem path)] :=
      if_neg fun hboth => hboth.1 hbase
    exact ⟨_, hlast hkept, hstem _ (if_pos hbase)⟩
  · rcases Path.relative?_cases (Path.isAbsolute_absolute hcwd o.baseDir)
      (Path.isAbsolute_absolute hcwd (stem path)) with
      ⟨hnames, hself⟩ | ⟨n, rest, hnames, hbelow⟩ | ⟨houtside, rest, hup⟩
    · -- a catalog that is the directory itself but for its extension has no name below it
      refine absurd ?_ h.ne_nil
      rw [keptNames]
      simp only [hnames]
      rw [if_pos ⟨hbase, List.prefix_refl _⟩, List.drop_length]
    · have hplain : ∀ m ∈ n :: rest, Path.IsProper m := fun m hm =>
        Path.isProper_of_mem_names (Path.isAbsolute_absolute hcwd (stem path))
          (hnames ▸ List.mem_append_right _ hm)
      have hleaves := Path.leaves_join_of_ne (fun m hm => (hplain m hm).plain)
        (hplain n List.mem_cons_self).ne_up
      refine ⟨Text.join "/" (n :: rest), ?_, hstem _ ?_⟩
      · rw [Path.parts_join (List.cons_ne_nil n rest) fun m hm => (hplain m hm).plain, keptNames]
        simp only [hnames]
        rw [if_pos ⟨hbase, List.prefix_append _ _⟩, List.drop_left]
      · rw [if_neg hbase, insideOf?, hbelow, Option.filter_some, hleaves, Bool.not_false, if_pos rfl,
          Option.getD_some]
    · have hkept : keptNames cwd o path = [Path.base (stem path)] :=
        if_neg fun hboth => houtside hboth.2
      refine ⟨_, hlast hkept, hstem _ ?_⟩
      rw [if_neg hbase, insideOf?, hup, Option.filter_some, Path.leaves_join_up, Bool.not_true,
        if_neg Bool.false_ne_true, Option.getD_none]

theorem names_outputStem (hout : o.outDir ≠ "") (h : IsNamed cwd o path) :
    Path.names (Path.absolute cwd (outputStem cwd o path)) =
        Path.names (Path.absolute cwd o.outDir) ++ keptNames cwd o path ∧
      Path.IsProper (Path.lastName (outputStem cwd o path)) := by
  obtain ⟨kept, hparts, hstem⟩ := outputStem_eq hcwd hout h
  have hproper := h.proper
  have hsome := h.ne_nil
  rw [← hparts] at hproper hsome
  have hlast : Path.EndsIn kept ((Path.parts kept).getLast hsome) :=
    ⟨List.getLast?_eq_some_getLast hsome, hproper _ (List.getLast_mem hsome)⟩
  constructor
  · rw [hstem, Path.join_pair hout hlast.ne_empty, Path.names_absolute_clean hcwd,
      Path.names_absolute hcwd, Path.names_absolute hcwd, Path.parts_append, String.append_assoc,
      Path.isAbsolute_append_of_ne hout, List.foldl_append, Path.foldl_proper _ _ hproper,
      List.reverse_append, List.reverse_reverse, hparts]
  · have hends : Path.EndsIn (Path.join [o.outDir, kept]) _ := hlast.join [o.outDir]
    rw [hstem, hends.lastName_eq]
    exact hends.proper

/-- In an output directory modules are told by the names that are kept. -/
theorem together_below (hout : o.outDir ≠ "") (h : IsNamed cwd o path) (h' : IsNamed cwd o path') :
    Together cwd o path path' ↔ keptNames cwd o path = keptNames cwd o path' := by
  obtain ⟨hnames, hproper⟩ := names_outputStem hcwd hout h
  obtain ⟨hnames', hproper'⟩ := names_outputStem hcwd hout h'
  rw [Together, ← Path.absolute_eq_iff hcwd hproper hproper', Path.absolute_inj hcwd, hnames,
    hnames', List.append_right_inj]

/-- Catalogs with one extension share no module if modules are next to them or mirror where they lie
below the base directory. -/
theorem absolute_eq_of_together (hextension : Path.extension path = Path.extension path')
    (h : o.outDir = "" ∨ Mirrored cwd o path ∧ Mirrored cwd o path')
    (htogether : Together cwd o path path') : Path.absolute cwd path = Path.absolute cwd path' := by
  have hstems : Path.Meet cwd (stem path) (stem path') := by
    by_cases hout : o.outDir = ""
    · have hstem (path : String) : outputStem cwd o path = stem path := if_pos hout
      rwa [Together, hstem, hstem] at htogether
    · obtain ⟨hbelow, hbelow'⟩ := h.resolve_left hout
      have hkept := (together_below hcwd hout (hbelow.isNamed hcwd) (hbelow'.isNamed hcwd)).mp
        htogether
      rw [← Path.absolute_eq_iff hcwd hbelow.proper hbelow'.proper, Path.absolute_inj hcwd,
        hbelow.keptNames_eq, hbelow'.keptNames_eq, hkept]
  have hmeet := (Path.meet_append_iff (Path.exists_extension path).1).mpr hstems
  rw [stem_append_extension, hextension, stem_append_extension] at hmeet
  exact hmeet.absolute hcwd

end Places

/-! ### Modules of one run -/

/-- When the modules of two catalogs of a run are one file. It takes one extension of modules, and
one place without it, and the same place makes the declarations one file. Next to the catalogs that
place is told by the directory and by the name without extension, in an output directory by the names
that are kept. So catalogs with the same extension have modules of their own where the modules are
next to them, or all catalogs lie below the base directory; others need not. -/
theorem outputs_meet_iff {dir : String} {past : List Compiled} {d : Disk} (hkept : Kept dir past d)
    (hcwd : Path.isAbsolute d.cwd = true) {o : Options}
    (hcache : o.cache = none ∨ o.cache = some dir) {cancelled : Bool} {paths : List String}
    {r r' : FileReport} (hr : r ∈ (compileFiles d o cancelled paths).2.reports)
    (hr' : r' ∈ (compileFiles d o cancelled paths).2.reports) (hdone : r.failed = false)
    (hdone' : r'.failed = false) :
    (r.output = r'.output ↔ Path.extension r.output = Path.extension r'.output ∧
      outputStem d.cwd o r.path = outputStem d.cwd o r'.path) ∧
    (Path.absolute d.cwd r.output = Path.absolute d.cwd r'.output ↔
      Path.extension r.output = Path.extension r'.output ∧ Together d.cwd o r.path r'.path) ∧
    (r.declarationsPath ≠ "" → r'.declarationsPath ≠ "" →
      (Path.absolute d.cwd r.declarationsPath = Path.absolute d.cwd r'.declarationsPath ↔
        Together d.cwd o r.path r'.path)) ∧
    (o.outDir = "" → (Together d.cwd o r.path r'.path ↔
      Path.absolute d.cwd (Path.dir r.path) = Path.absolute d.cwd (Path.dir r'.path) ∧
        Path.lastName (stem r.path) = Path.lastName (stem r'.path))) ∧
    (o.outDir ≠ "" → IsNamed d.cwd o r.path → IsNamed d.cwd o r'.path →
      (Together d.cwd o r.path r'.path ↔
        keptNames d.cwd o r.path = keptNames d.cwd o r'.path)) ∧
    (Path.extension r.path = Path.extension r'.path →
      (o.outDir = "" ∨ Mirrored d.cwd o r.path ∧ Mirrored d.cwd o r'.path) →
      Together d.cwd o r.path r'.path →
      Path.absolute d.cwd r.path = Path.absolute d.cwd r'.path) := by
  obtain ⟨out, hextension, hreports⟩ := reports_of_run hkept hcache hr hdone
  obtain ⟨out', hextension', hreports'⟩ := reports_of_run hkept hcache hr' hdone'
  have he := isExtension_of_mem hextension
  have he' := isExtension_of_mem hextension'
  have hproper {e : String} (he : e ∈ generatedExtensions) (path : String) :
      Path.IsProper (Path.lastName (outputStem d.cwd o path) ++ e) :=
    isProper_append_generated he (Path.plain_lastName _)
  have hmodule {e : String} (he : e ∈ moduleExtensions) : e ∈ generatedExtensions :=
    List.mem_append_left [declarationsExtension] he
  refine ⟨?_, ?_, fun hsome hsome' => ?_, together_beside, together_below hcwd,
    absolute_eq_of_together hcwd⟩
  · rw [hreports.output, hreports'.output, Path.extension_append he, Path.extension_append he',
      Path.append_inj he he']
  · rw [hreports.output, hreports'.output, Path.extension_append he, Path.extension_append he',
      Path.absolute_append_eq_iff hcwd he he' (hproper (hmodule hextension) _)
        (hproper (hmodule hextension') _)]
    rfl
  -- Declarations have one extension, so only the stems decide.
  · have hpath {r : FileReport} {path : String} {out : Output} (h : Reports d.cwd o path out r)
        (hsome : r.declarationsPath ≠ "") :
        r.declarationsPath = outputStem d.cwd o path ++ declarationsExtension := by
      rw [h.declarationsPath] at hsome ⊢
      split at hsome
      · exact absurd rfl hsome
      · rename_i hnone
        exact if_neg hnone
    have hdeclarations : declarationsExtension ∈ generatedExtensions := by decide
    have hplain : '/' ∉ declarationsExtension.toList := by decide
    have hlast (path : String) : Path.IsProper
        (Path.lastName (outputStem d.cwd o path ++ declarationsExtension)) := by
      rw [Path.lastName_append hplain]
      exact hproper hdeclarations path
    rw [hpath hreports hsome, hpath hreports' hsome',
      Path.absolute_eq_iff hcwd (hlast _) (hlast _), Path.meet_append_iff hplain]
    rfl

/-- Two catalogs of one name in different directories. -/
def namesakes : Disk :=
  ⟨"/work", [("/work/x", .directory), ("/work/x/en.json", .file totalText), ("/work/y", .directory),
    ("/work/y/en.txt", .file totalText)]⟩

/-- The reports of building both into one directory. -/
def namesakeReports : List FileReport :=
  (compileFiles namesakes (priced "out").uncached false ["x/en.json", "y/en.txt"]).2.reports

theorem namesakeReports_hold : namesakeReports.map (fun r =>
      (r.failed, r.path, Path.extension r.output, decide (r.declarationsPath = ""))) =
    [(false, "x/en.json", ".js", false), (false, "y/en.txt", ".js", false)] := by
  decide +kernel

/-- Both are built into one file, as only their names are kept. -/
theorem outputs_meet_iff_namesakes :
    ∃ r ∈ namesakeReports, ∃ r' ∈ namesakeReports, r.failed = false ∧ r'.failed = false ∧
      Path.absolute "/work" r.path ≠ Path.absolute "/work" r'.path ∧
      Path.absolute "/work" r.output = Path.absolute "/work" r'.output ∧
      Path.absolute "/work" r.declarationsPath = Path.absolute "/work" r'.declarationsPath := by
  obtain ⟨r, rest, hreports, hr, hrest⟩ := List.map_eq_cons_iff.mp namesakeReports_hold
  obtain ⟨r', none, rfl, hr', -⟩ := List.map_eq_cons_iff.mp hrest
  simp only [Prod.mk.injEq, decide_eq_false_iff_not] at hr hr'
  obtain ⟨hdone, hpath, hextension, hsome⟩ := hr
  obtain ⟨hdone', hpath', hextension', hsome'⟩ := hr'
  have hmem : r ∈ namesakeReports := hreports ▸ List.mem_cons_self
  have hmem' : r' ∈ namesakeReports := hreports ▸ List.mem_cons_of_mem r List.mem_cons_self
  have hkept : Kept "/cache" [] namesakes := .unused (by decide) "/cache"
  obtain ⟨-, houtput, hdeclarations, -, hkeptNames, -⟩ :=
    outputs_meet_iff hkept (by decide) (.inl rfl) hmem hmem' hdone hdone'
  have hnames (path : String) (h : path = "x/en.json" ∨ path = "y/en.txt") :
      keptNames namesakes.cwd (priced "out").uncached path = ["en"] := by
    rcases h with rfl | rfl <;> decide +kernel
  have hproper : Path.IsProper "en" := ⟨⟨by decide, by decide, by decide⟩, by decide⟩
  have hnamed (path : String) (h : path = "x/en.json" ∨ path = "y/en.txt") :
      IsNamed namesakes.cwd (priced "out").uncached path := by
    refine ⟨?_, ?_⟩
    · rw [hnames path h]
      exact List.cons_ne_nil _ _
    · rw [hnames path h]
      exact List.forall_mem_singleton.mpr hproper
  have htogether := (hkeptNames (by decide) (hnamed _ (.inl hpath)) (hnamed _ (.inr hpath'))).mpr
    ((hnames _ (.inl hpath)).trans (hnames _ (.inr hpath')).symm)
  refine ⟨r, hmem, r', hmem', hdone, hdone', ?_, ?_, ?_⟩
  · rw [hpath, hpath']
    decide +kernel
  · exact houtput.mpr ⟨hextension.trans hextension'.symm, htogether⟩
  · exact (hdeclarations hsome hsome').mpr htogether

end Phrasebook.Build
