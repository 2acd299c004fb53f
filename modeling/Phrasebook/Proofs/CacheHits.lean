import Mathlib
import Phrasebook.Proofs.Storing

/-!
What the cache gives back. A cache that was only filled by building catalogs holds under every key
what was generated for a content and options of that key. So a catalog that is found there is
reported as if it were compiled, but for one thing: styles that list the same options in another
order have the same key, and the code shows the order.
-/
namespace Phrasebook.Build

open Compile (ProgramRestyled SameCanonical)

/-! ### The history of a cache -/

/-- A compilation that was successful. -/
structure Compiled where
  content : Bytes
  options : Options
  out : Output
  generated : generate? content options = some out

namespace Compiled

def key (c : Compiled) : Bytes :=
  Cache.key c.content c.options

/-- The compilation of a content, if it is successful. -/
def ofContent (content : Bytes) (o : Options) : List Compiled :=
  match h : generate? content o with
  | none => []
  | some out => [⟨content, o, out, h⟩]

theorem mem_ofContent {content : Bytes} {o : Options} {out : Output}
    (h : generate? content o = some out) : ⟨content, o, out, h⟩ ∈ ofContent content o := by
  unfold ofContent
  split
  · rename_i hnone
    cases hnone.symm.trans h
  · rename_i out' hsome
    cases hsome.symm.trans h
    exact List.mem_singleton.mpr rfl

end Compiled

/-- The successful compilation that building a catalog takes, if it takes one: none if the catalog is
found in the cache. -/
def compiled (d : Disk) (o : Options) (path : String) : List Compiled :=
  match d.read path with
  | .error _ => []
  | .ok raw =>
    if (compileFile d o false path).2.cacheHit then [] else Compiled.ofContent (loaded raw) o

theorem compiled_of_read {d : Disk} {o : Options} {path : String} {raw : Bytes}
    (hread : d.read path = .ok raw) {c : Compiled} (h : c ∈ compiled d o path) :
    c.content = loaded raw ∧ c.options = o := by
  rw [compiled, hread] at h
  simp only at h
  split at h
  · exact absurd h List.not_mem_nil
  · unfold Compiled.ofContent at h
    split at h
    · exact absurd h List.not_mem_nil
    · rw [List.mem_singleton.mp h]
      exact ⟨rfl, rfl⟩

/-- The file of an entry. -/
def entryFile (d : Disk) (dir : String) (key : Bytes) : Option DiskEntry :=
  d.find? (Path.absolute d.cwd (Cache.entryPath dir key))

/-- What has become of a disk with a cache in the directory `dir`, and the compilations that were
taken. At first there are no entries. Catalogs are built with the cache or without one, and the disk
may be changed in any other way that adds no entry to the cache. -/
inductive Kept (dir : String) : List Compiled → Disk → Prop where
  | empty {d : Disk} : (∀ key bs, entryFile d dir key ≠ some (.file bs)) → Kept dir [] d
  | built {past : List Compiled} {d : Disk} {o : Options} (path : String) :
      Kept dir past d → (o.cache = none ∨ o.cache = some dir) →
      Kept dir (past ++ compiled d o path) (compileFile d o false path).1
  | changed {past : List Compiled} {d d' : Disk} : Kept dir past d →
      (∀ key bs, entryFile d' dir key = some (.file bs) → entryFile d dir key = some (.file bs)) →
      Kept dir past d'

/-- A disk has no entries if none of its files has a name that ends as theirs do. -/
theorem entryFile_eq_none {d : Disk} (h : ∀ p ∈ d.entries, lastLetter p.1 ≠ some 'p')
    (dir : String) (key : Bytes) : entryFile d dir key = none := by
  refine Option.map_eq_none_iff.mpr (List.find?_eq_none.mpr fun p hp hpath => h p hp ?_)
  rw [beq_iff_eq.mp hpath, Cache.lastLetter_entryPath]

/-- Then there is nothing at all where an entry goes, unless the working directory is below it. -/
theorem entry_eq_none {d : Disk} (hcwd : Path.isAbsolute d.cwd = true)
    (h : ∀ p ∈ d.entries, lastLetter p.1 ≠ some 'p') (dir : String) {key : Bytes}
    (hlong : d.cwd.toList.length ≤ (Sha256.hex key).toList.length) :
    d.entry? (Path.absolute d.cwd (Cache.entryPath dir key)) = none := by
  have hbelow : d.isAbove (Path.absolute d.cwd (Cache.entryPath dir key)) = false := by
    refine Bool.eq_false_iff.mpr fun habove => ?_
    have hle := Disk.length_of_isAbove hcwd habove
    have hname := ((Cache.endsIn_entryPath dir key).absolute d.cwd).length_le
    have hextension : ".mp".toList.length = 3 := rfl
    rw [String.toList_append, List.length_append, hextension] at hname
    omega
  unfold Disk.entry?
  rw [hbelow, if_neg Bool.false_ne_true]
  exact entryFile_eq_none h dir key

/-- A history begins on such a disk. -/
theorem Kept.unused {d : Disk} (h : ∀ p ∈ d.entries, lastLetter p.1 ≠ some 'p') (dir : String) :
    Kept dir [] d := by
  refine .empty fun key bs => ?_
  rw [entryFile_eq_none h]
  exact (Option.some_ne_none _).symm

/-- Building catalogs one after the other is part of a history. -/
theorem Kept.compileEach {dir : String} {past : List Compiled} {d : Disk} (h : Kept dir past d)
    {o : Options} (hcache : o.cache = none ∨ o.cache = some dir) (paths : List String) :
    ∃ more, Kept dir (past ++ more) (compileEach d o paths).1 := by
  induction paths generalizing past d with
  | nil => exact ⟨[], by rwa [List.append_nil]⟩
  | cons path rest ih =>
    obtain ⟨more, hmore⟩ := ih (h.built path hcache)
    exact ⟨compiled d o path ++ more, by rwa [← List.append_assoc]⟩

/-- Every entry holds what one of the compilations generated, under its key. -/
def Filled (dir : String) (past : List Compiled) (d : Disk) : Prop :=
  ∀ key bs, entryFile d dir key = some (.file bs) →
    ∃ c ∈ past, c.key = key ∧ ∃ path, bs = Cache.encode Cache.schema path c.out

theorem eq_of_cache {o : Options} {dir dir' : String} (h : o.cache = none ∨ o.cache = some dir)
    (h' : o.cache = some dir') : dir' = dir := by
  rcases h with h | h
  · cases h.symm.trans h'
  · exact Option.some.inj (h'.symm.trans h)

namespace Filled

variable {dir : String} {past : List Compiled} {d : Disk}

/-- What is found was generated by one of the compilations. -/
theorem of_get (h : Filled dir past d) {key : Bytes} {out : Output}
    (hget : Cache.get d dir key = .hit out) : ∃ c ∈ past, c.key = key ∧ c.out = out := by
  unfold Cache.get at hget
  split at hget
  · split at hget <;> cases hget
  · rename_i bs hread
    obtain ⟨c, hc, hkey, path, rfl⟩ := h key bs (Disk.find?_of_read hread)
    rw [Cache.decode?_encode] at hget
    simp only [if_true] at hget
    exact ⟨c, hc, hkey, Cache.Found.hit.inj hget⟩

/-- Only entries count. -/
theorem of_adds (h : Filled dir past d) {d' : Disk} (hcwd : d'.cwd = d.cwd)
    {written : String → Bytes → Prop} (hadds : Disk.Adds written d d') (more : List Compiled)
    (hwritten : ∀ key bs, written (Path.absolute d.cwd (Cache.entryPath dir key)) bs →
      ∃ c ∈ more, c.key = key ∧ ∃ path, bs = Cache.encode Cache.schema path c.out) :
    Filled dir (past ++ more) d' := by
  intro key bs hfile
  rw [entryFile, hcwd] at hfile
  rcases hadds _ bs hfile with hold | hnew
  · obtain ⟨c, hc, hentry⟩ := h key bs hold
    exact ⟨c, List.mem_append_left more hc, hentry⟩
  · obtain ⟨c, hc, hentry⟩ := hwritten key bs hnew
    exact ⟨c, List.mem_append_right past hc, hentry⟩

/-- Building a catalog adds an entry for what it compiled, and no other. -/
theorem built (h : Filled dir past d) {o : Options} (hcache : o.cache = none ∨ o.cache = some dir)
    (path : String) : Filled dir (past ++ compiled d o path) (compileFile d o false path).1 := by
  have hcwd := compileFile_cwd d o false path
  cases hread : d.read path with
  | error e =>
    rw [compileFile_of_unreadable hread, compiled, hread, List.append_nil]
    exact h
  | ok raw =>
    obtain ⟨after, houtcome, hfile⟩ := compileFile_outcome (o := o) hread
    rw [compiled, hread]
    rw [hfile] at hcwd ⊢
    simp only [finish_cacheHit] at hcwd ⊢
    cases houtcome with
    | found hdir hget _ hreports =>
      obtain rfl := eq_of_cache hcache hdir
      obtain ⟨c, -, -, rfl⟩ := h.of_get hget
      refine h.of_adds hcwd (hreports.writeIfAsked_adds (generate?_extension c.generated) o) _ ?_
      -- Only the written module is added, and no written module stands where an entry would.
      exact fun key bs hplace => absurd rfl (hplace.ne_entryPath _ key)
    | failed _ hhit _ =>
      rw [hhit]
      exact h.of_adds rfl (.refl d : Disk.Adds (fun _ _ => False) d d) _ fun _ _ => False.elim
    | @compiled out r display hout hhit hreports =>
      rw [writeIfAsked_cacheHit, hhit, if_neg Bool.false_ne_true]
      have hstored := stored_adds d o (Cache.key (loaded raw) o) display out
      have hwritten := hreports.writeIfAsked_adds (d := stored d o (Cache.key (loaded raw) o) display out)
        (generate?_extension hout) o
      rw [stored_cwd] at hwritten
      -- The entry is stored before the module is written, so what is added is one or the other.
      have hboth : Disk.Adds (fun path bs => IsPlace d.cwd path ∨
          IsEntry d.cwd o (Cache.key (loaded raw) o) out path bs) d _ :=
        (hstored.mono fun _ _ => .inr).trans (hwritten.mono fun _ _ => .inl)
      refine h.of_adds hcwd hboth _ ?_
      rintro key bs (hplace | ⟨dir', p, -, hentry, rfl⟩)
      · exact absurd rfl (hplace.ne_entryPath dir key)
      · refine ⟨_, Compiled.mem_ofContent hout, ?_, p, rfl⟩
        exact (Cache.entryPath_injective hentry).symm

section Absolute

variable {o : Options} {path : String} (hcwd : Path.isAbsolute d.cwd = true)

include hcwd

/-- Building a catalog leaves all files alone but entries, and what stands where generated text goes. -/
theorem keeps (h : Filled dir past d) (hcache : o.cache = none ∨ o.cache = some dir) :
    Disk.Keeps (fun place => IsPlace d.cwd place ∨
      ∃ key, place = Path.absolute d.cwd (Cache.entryPath dir key)) d
      (compileFile d o false path).1 := by
  cases hread : d.read path with
  | error e =>
    rw [compileFile_of_unreadable hread]
    exact .refl d
  | ok raw =>
    obtain ⟨after, houtcome, hfile⟩ := compileFile_outcome (o := o) hread
    rw [hfile]
    cases houtcome with
    | found hdir hget _ hreports =>
      obtain rfl := eq_of_cache hcache hdir
      obtain ⟨c, -, -, rfl⟩ := h.of_get hget
      have hwritten := hreports.writeIfAsked_keeps hcwd (generate?_extension c.generated) o
      exact hwritten.mono fun _ => .inl
    | failed => exact .refl d
    | @compiled out r display hout _ hreports =>
      have hstored := stored_keeps d o (Cache.key (loaded raw) o) display out hcwd
      have hcwd' := isAbsolute_stored_cwd d o (Cache.key (loaded raw) o) display out hcwd
      have hwritten := hreports.writeIfAsked_keeps hcwd' (generate?_extension hout) o
      rw [stored_cwd] at hwritten
      refine (hstored.mono ?_).trans (hwritten.mono fun _ => .inl)
      rintro place ⟨dir', hdir, rfl⟩
      rw [eq_of_cache hcache hdir]
      exact .inr ⟨_, rfl⟩

/-- A catalog that was built is found from then on, if there is room for its entry. -/
theorem found (h : Filled dir past d) (hdir : o.cache = some dir) {raw : Bytes}
    (hread : d.read path = .ok raw) {out out' : Output} (hout : generate? (loaded raw) o = some out)
    {path' : String} {d' : Disk}
    (hput : Cache.put d dir (Cache.key (loaded raw) o) path' out' = .ok d') :
    ∃ out, Cache.get (compileFile d o false path).1 dir (Cache.key (loaded raw) o) = .hit out := by
  obtain ⟨after, houtcome, hfile⟩ := compileFile_outcome (o := o) hread
  rw [hfile]
  cases houtcome with
  | failed hnone => cases hnone.symm.trans hout
  | found hdir' hget _ hreports =>
    cases hdir.symm.trans hdir'
    obtain ⟨c, -, -, rfl⟩ := h.of_get hget
    have hwritten := hreports.writeIfAsked_keeps hcwd (generate?_extension c.generated) o
    exact ⟨_, Cache.get_of_keeps hwritten (fun hplace => hplace.ne_entryPath dir _ rfl) hget⟩
  | @compiled out r display hout _ hreports =>
    have hget := get_stored hcwd hdir hput display out
    have hcwd' := isAbsolute_stored_cwd d o (Cache.key (loaded raw) o) display out hcwd
    have hwritten := hreports.writeIfAsked_keeps hcwd' (generate?_extension hout) o
    exact ⟨_, Cache.get_of_keeps hwritten (fun hplace => hplace.ne_entryPath dir _ rfl) hget⟩

end Absolute

end Filled

/-- So it is at every time. -/
theorem Kept.filled {dir : String} {past : List Compiled} {d : Disk} (h : Kept dir past d) :
    Filled dir past d := by
  induction h with
  | empty hnone => exact fun key bs hfile => absurd hfile (hnone key bs)
  | built path _ hcache ih => exact ih.built hcache path
  | changed _ hsub ih => exact fun key bs hfile => ih key bs (hsub key bs hfile)

/-! ### Hits and fresh compilations -/

/-- The reports agree in everything that was generated but for the code, and in where it goes. -/
structure SameInterface (r r' : FileReport) : Prop where
  declarations : r.declarations = r'.declarations
  exports : r.exports = r'.exports
  arguments : r.arguments = r'.arguments
  output : r.output = r'.output
  declarationsPath : r.declarationsPath = r'.declarationsPath

/-- The texts that are hashed for a key. -/
def hashedTexts (content : Bytes) (o : Options) : List Bytes :=
  [content, Cache.keyStream (Sha256.hash content) o]

/-- The texts that were hashed for the keys of compilations. -/
def textsOf (past : List Compiled) : List Bytes :=
  past.flatMap fun c => hashedTexts c.content c.options

/-- Keys tell contents and options as long as no two of the hashed texts have one hash. -/
theorem key_inj {content content' : Bytes} {o o' : Options}
    (hapart : Sha256.TellsApart (hashedTexts content o ++ hashedTexts content' o'))
    (h : Cache.key content o = Cache.key content' o') : content = content' ∧ o.Alike o' := by
  have hstream := hapart _ (by simp [hashedTexts]) _ (by simp [hashedTexts]) h
  have hlength : (Sha256.hash content).length = (Sha256.hash content').length := by
    rw [Sha256.length_hash, Sha256.length_hash]
  obtain ⟨hcontent, halike⟩ := Cache.keyStream_inj hlength hstream
  exact ⟨hapart _ (by simp [hashedTexts]) _ (by simp [hashedTexts]) hcontent, halike⟩

instance (xs : List Bytes) : Decidable (Sha256.TellsApart xs) :=
  inferInstanceAs (Decidable (∀ x ∈ xs, ∀ y ∈ xs, Sha256.hash x = Sha256.hash y → x = y))

/-- Once a catalog was built, each catalog with the same content is found, whatever its path, if its
options agree in all that is part of a key. -/
theorem Filled.cacheHit_again {dir : String} {past : List Compiled} {d : Disk}
    (h : Filled dir past d) (hcwd : Path.isAbsolute d.cwd = true) {o : Options}
    (hdir : o.cache = some dir) {path : String} {raw : Bytes} (hread : d.read path = .ok raw)
    {out out' : Output} (hout : generate? (loaded raw) o = some out) {p : String} {d' : Disk}
    (hput : Cache.put d dir (Cache.key (loaded raw) o) p out' = .ok d') {o' : Options}
    (halike : o'.Alike o) (hdir' : o'.cache = some dir) {path' : String} {raw' : Bytes}
    (hread' : (compileFile d o false path).1.read path' = .ok raw')
    (hcontent : loaded raw' = loaded raw) :
    (compileFile (compileFile d o false path).1 o' false path').2.cacheHit = true := by
  obtain ⟨found, hget⟩ := h.found hcwd hdir hread hout hput
  rw [← hcontent, ← Cache.key_eq halike] at hget
  exact cacheHit_of_get hread' hdir' hget

/-- What a build without a cache reports. -/
theorem compileFile_fresh {d : Disk} {o : Options} {path : String} {raw : Bytes}
    (hread : d.read path = .ok raw) (hcache : o.cache = none) {out : Output}
    (hout : generate? (loaded raw) o = some out) :
    Reports d.cwd o path out (compileFile d o false path).2 := by
  obtain ⟨after, houtcome, hfile⟩ := compileFile_outcome (o := o) hread
  rw [hfile]
  cases houtcome with
  | found hdir => cases hcache.symm.trans hdir
  | failed hnone => cases hnone.symm.trans hout
  | compiled display hout' _ hreports =>
    cases hout.symm.trans hout'
    exact (hreports.writeIfAsked o _).finish o

/-- A catalog that is found in the cache was compiled before, with the same content and with options
that agree in all that is part of a key. What is reported is what compiling it without a cache
reports, except that the code may pass formatters their options in the order in which the styles
listed them then. Where they list them in the same order, the code is the same. -/
theorem cacheHit_alike {dir : String} {past : List Compiled} {d : Disk} (hkept : Kept dir past d)
    {o : Options} (hcache : o.cache = some dir) {path : String} {raw : Bytes}
    (hread : d.read path = .ok raw)
    (hapart : Sha256.TellsApart (textsOf past ++ hashedTexts (loaded raw) o))
    (hhit : (compileFile d o false path).2.cacheHit = true) :
    ∃ c ∈ past, c.content = loaded raw ∧ c.options.Alike o ∧
      c.out.code = (compileFile d o false path).2.code ∧
      SameInterface (compileFile d o false path).2
        (compileFile d o.uncached false path).2 ∧
      (∃ p p', ProgramRestyled SameCanonical p p' ∧
        (compileFile d o false path).2.code = Program.print o.print p ∧
        (compileFile d o.uncached false path).2.code = Program.print o.print p') ∧
      (c.options.compile.formats.Ordinary → o.compile.formats.Ordinary →
        c.options.compile.formats.SameOrder o.compile.formats →
        (compileFile d o false path).2.code =
          (compileFile d o.uncached false path).2.code) := by
  obtain ⟨after, houtcome, hfile⟩ := compileFile_outcome (o := o) hread
  rw [hfile] at hhit ⊢
  simp only [finish_cacheHit] at hhit ⊢
  cases houtcome with
  | failed _ hmiss _ => cases hmiss.symm.trans hhit
  | compiled _ _ hmiss _ =>
    rw [writeIfAsked_cacheHit, hmiss] at hhit
    cases hhit
  | found hdir hget _ hreports =>
    cases hcache.symm.trans hdir
    -- The entry that was found is that of an earlier compilation `c` under an equal key.
    obtain ⟨c, hc, hkey, rfl⟩ := hkept.filled.of_get hget
    have hhashed : Sha256.TellsApart
        (hashedTexts c.content c.options ++ hashedTexts (loaded raw) o) := by
      have hsub : hashedTexts c.content c.options ++ hashedTexts (loaded raw) o ⊆
          textsOf past ++ hashedTexts (loaded raw) o :=
        List.append_subset.mpr
          ⟨fun x hx => List.mem_append_left _ (List.mem_flatMap.mpr ⟨c, hc, hx⟩),
            List.subset_append_right _ _⟩
      exact fun x hx y hy => hapart x (hsub hx) y (hsub hy)
    obtain ⟨hcontent, halike⟩ := key_inj hhashed hkey
    -- Compiling the content now is compared with what was compiled for `c`.
    obtain ⟨out', hout', hsame⟩ := generate?_alike halike.uncached c.generated
    rw [hcontent] at hout'
    have hreports' := compileFile_fresh hread rfl hout'
    have hfound := (hreports.writeIfAsked o d).finish o
    refine ⟨c, hc, hcontent, halike, hfound.code.symm, ?_, ?_, ?_⟩
    · exact {
        declarations := by rw [hfound.declarations, hreports'.declarations, hsame.declarations]
        exports := by rw [hfound.exports, hreports'.exports, hsame.exports]
        arguments := by rw [hfound.arguments, hreports'.arguments, hsame.arguments]
        output := by
          rw [hfound.output, hreports'.output, hsame.extension]
          rfl
        declarationsPath := by
          rw [hfound.declarationsPath, hreports'.declarationsPath, hsame.declarations]
          rfl }
    · obtain ⟨p, p', hprograms, hcode, hcode'⟩ := hsame.code
      exact ⟨p, p', hprograms, hfound.code.trans hcode, hreports'.code.trans hcode'⟩
    · intro hordinary hordinary' horder
      have hequal := generate?_sameOrder halike.uncached hordinary hordinary' horder c.generated
      rw [hcontent, hout'] at hequal
      rw [hfound.code, hreports'.code, Option.some.inj hequal]

/-- A catalog with one message. -/
def totalText : Bytes :=
  Bytes.ofText "\x7b\"total\": \"\x7bx, number, price\x7d\"\x7d"

/-- Two catalogs with the same content. -/
def twoCatalogs : Disk :=
  ⟨"/work", [("/work/a.json", .file totalText), ("/work/b.json", .file totalText)]⟩

/-- Options whose style `price` has one option only. Output goes to `outDir`. -/
def priced (outDir : String) : Options where
  compile := ⟨"en", ⟨[("price", [("style", .text "percent")])], [], []⟩, .string, ""⟩
  print := ⟨false, .preserve, ""⟩
  declarations := true
  outDir := outDir
  baseDir := ""
  write := false
  keepGoing := false
  maxDiagnostics := 0
  cache := some "/cache"
  timings := false

/-- The disk once the first catalog was built. -/
def builtOnce : Disk :=
  (compileFile twoCatalogs (priced "first") false "a.json").1

/-- The key of both catalogs. -/
def totalKey : Bytes :=
  [15, 27, 42, 145, 186, 58, 251, 253, 198, 79, 100, 8, 100, 84, 10, 25, 248, 206, 92, 212, 129, 61,
    194, 227, 169, 22, 34, 60, 91, 24, 135, 245]

/-- The digest of their content. -/
def totalDigest : Bytes :=
  [170, 102, 184, 81, 35, 173, 255, 62, 100, 75, 63, 231, 181, 228, 63, 180, 11, 131, 144, 112, 105,
    102, 88, 73, 31, 195, 173, 81, 139, 129, 129, 216]

/-- What is hashed to the key. -/
def totalStream : Bytes :=
  [49, 58, 49, 57, 58, 48, 46, 49, 46, 48, 45, 100, 101, 118, 48, 58, 170, 102, 184, 81, 35,
    173, 255, 62, 100, 75, 63, 231, 181, 228, 63, 180, 11, 131, 144, 112, 105, 102, 88, 73, 31,
    195, 173, 81, 139, 129, 129, 216, 50, 58, 101, 110, 54, 58, 115, 116, 114, 105, 110, 103,
    53, 58, 102, 97, 108, 115, 101, 56, 58, 112, 114, 101, 115, 101, 114, 118, 101, 48, 58, 52,
    58, 116, 114, 117, 101, 54, 58, 110, 117, 109, 98, 101, 114, 49, 58, 49, 53, 58, 112, 114,
    105, 99, 101, 50, 48, 58, 123, 34, 115, 116, 121, 108, 101, 34, 58, 115, 34, 112, 101, 114,
    99, 101, 110, 116, 34, 125, 52, 58, 100, 97, 116, 101, 49, 58, 48, 52, 58, 116, 105, 109,
    101, 49, 58, 48]

theorem alike_priced (outDir outDir' : String) : (priced outDir).Alike (priced outDir') :=
  ⟨rfl, rfl, rfl, rfl, fun _ => rfl⟩

theorem kept_twoCatalogs : Kept "/cache" [] twoCatalogs :=
  .unused (by decide) "/cache"

/-- What has to be computed about the two catalogs, but for their key. -/
structure Computed : Prop where
  read_first : (twoCatalogs.read "a.json").toOption = some totalText
  read_second : (twoCatalogs.read "b.json").toOption = some totalText
  letter : lastLetter (Path.absolute twoCatalogs.cwd "b.json") = some 'n'
  loaded : loaded totalText = totalText
  generated : (generate? totalText (priced "first")).isSome
  dir : Path.dir (Cache.entryPath "/cache" totalKey) = "/cache/modules/0f"
  made : (twoCatalogs.makeDirectories "/cache/modules/0f").toOption.any fun d =>
    (d.lookup "/cache/modules/0f").toOption.any (·.isDirectory) &&
      d.entries.all fun p => lastLetter p.1 != some 'p'

theorem computed : Computed where
  read_first := by decide +kernel
  read_second := by decide +kernel
  letter := by decide +kernel
  loaded := by decide +kernel
  generated := by decide +kernel
  dir := by
    rw [Cache.dir_entryPath, Sha256.hex, String.toList_ofList]
    decide +kernel
  made := by decide +kernel

theorem generated_totalText : ∃ out, generate? (loaded totalText) (priced "first") = some out := by
  rw [computed.loaded]
  exact Option.isSome_iff_exists.mp computed.generated

theorem read_twoCatalogs {path : String} (h : path = "a.json" ∨ path = "b.json") :
    twoCatalogs.read path = .ok totalText := by
  rcases h with rfl | rfl
  · exact eq_ok_of_toOption computed.read_first
  · exact eq_ok_of_toOption computed.read_second

/-- There is room for the entry. -/
theorem room_twoCatalogs (path : String) (out : Output) :
    ∃ d, Cache.put twoCatalogs "/cache" totalKey path out = .ok d := by
  have hmade := computed.made
  cases hmake : twoCatalogs.makeDirectories "/cache/modules/0f" with
  | error e =>
    rw [hmake] at hmade
    cases hmade
  | ok d =>
    rw [hmake] at hmade
    obtain ⟨hlookup, hletters⟩ := Bool.and_eq_true_iff.mp hmade
    have hcwd : d.cwd = "/work" := Disk.makeDirectories_cwd hmake
    have hnames : ∀ p ∈ d.entries, lastLetter p.1 ≠ some 'p' :=
      fun p hp => bne_iff_ne.mp (List.all_eq_true.mp hletters p hp)
    have hlong : d.cwd.toList.length ≤ (Sha256.hex totalKey).toList.length := by
      rw [hcwd, Sha256.hex, String.toList_ofList]
      decide
    rw [← computed.dir] at hmake hlookup
    refine Cache.exists_put_of_directory rfl hmake (Disk.lookup_eq_directory hlookup) ?_ path out
    rw [entry_eq_none (hcwd ▸ rfl) hnames "/cache" hlong]
    exact (Option.some_ne_none _).symm

/-- The disk once a catalog was built. -/
def diskAfter (d : Disk) (o : Options) (path : String) : Disk :=
  (compileFile d o false path).1

theorem diskAfter_eq (d : Disk) (o : Options) (path : String) :
    diskAfter d o path = (compileFile d o false path).1 :=
  rfl

-- both sides are unfolded alike here; against the pair itself, the whole build would be computed
theorem builtOnce_eq_diskAfter : builtOnce = diskAfter twoCatalogs (priced "first") "a.json" :=
  rfl

/-- The second catalog is still there once the first was built. -/
theorem read_builtOnce : builtOnce.read "b.json" = .ok totalText := by
  have hkeeps := @Filled.keeps _ _ _ (priced "first") "a.json" rfl kept_twoCatalogs.filled (.inr rfl)
  rw [builtOnce_eq_diskAfter, diskAfter_eq]
  refine hkeeps.read (fun hwritten => ?_) (read_twoCatalogs (.inr rfl))
  -- neither text that is generated nor an entry has a name that ends in `n`
  have hletter := computed.letter
  rcases hwritten with hplace | ⟨key, hentry⟩
  · have hplace := hplace.lastLetter
    rw [hletter] at hplace
    revert hplace
    decide
  · rw [hentry, Cache.lastLetter_entryPath] at hletter
    cases hletter

/-- The blocks that `totalStream` is hashed in. -/
def totalBlock (i : Nat) : Bytes :=
  ((Sha256.padded totalStream).drop (64 * i)).take 64

/-- What hashing them has reached behind each. -/
def totalState : Nat → Sha256.State
  | 0 => .initial
  | 1 => ⟨0x4C9E6002, 0xF4B930D0, 0x9DC9F5FA, 0xC08905BA, 0xD4BC7C90, 0x5C7EF95B, 0x8F8ED54A,
      0x10245A22⟩
  | 2 => ⟨0x7DBF6BD7, 0xEE5AED19, 0x9C5BC2A6, 0xD0CA8980, 0x9D66F86F, 0xCC9685E1, 0xCE7CC9D1,
      0x2A0B2A24⟩
  | _ => ⟨0x0F1B2A91, 0xBA3AFBFD, 0xC64F6408, 0x64540A19, 0xF8CE5CD4, 0x813DC2E3, 0xA916223C,
      0x5B1887F5⟩

/-- What has to be computed about their key. Hashing takes long, so all bytes are put in before they
are hashed, and each block is hashed on its own. -/
structure Hashed : Prop where
  digest : Sha256.hash totalText = totalDigest
  stream : Cache.keyStream totalDigest (priced "first") = totalStream
  blocks : Sha256.blocks 64 ((Sha256.padded totalStream).length / 64) (Sha256.padded totalStream) =
    [totalBlock 0, totalBlock 1, totalBlock 2]
  first_block : Sha256.compress (totalState 0) (totalBlock 0) = totalState 1
  second_block : Sha256.compress (totalState 1) (totalBlock 1) = totalState 2
  third_block : Sha256.compress (totalState 2) (totalBlock 2) = totalState 3

theorem hashed : Hashed where
  digest := by decide +kernel
  stream := by decide +kernel
  blocks := by decide +kernel
  first_block := by decide +kernel
  second_block := by decide +kernel
  third_block := by decide +kernel

theorem hash_totalStream : Sha256.hash totalStream = totalKey := by
  have hall : [totalBlock 0, totalBlock 1, totalBlock 2].foldl Sha256.compress .initial =
      totalState 3 := by
    calc
      _ = Sha256.compress (Sha256.compress (Sha256.compress (totalState 0) (totalBlock 0))
          (totalBlock 1)) (totalBlock 2) := rfl
      _ = totalState 3 := by rw [hashed.first_block, hashed.second_block, hashed.third_block]
  simp only [Sha256.hash, hashed.blocks, hall]
  rfl

theorem hashes_totalText : Sha256.hash (loaded totalText) = totalDigest ∧
    Cache.key (loaded totalText) (priced "first") = totalKey := by
  have hdigest : Sha256.hash (loaded totalText) = totalDigest := by
    rw [computed.loaded]
    exact hashed.digest
  refine ⟨hdigest, ?_⟩
  rw [Cache.key, hdigest, hashed.stream]
  exact hash_totalStream

theorem cacheHit_builtOnce :
    (compileFile builtOnce (priced "second") false "b.json").2.cacheHit = true := by
  obtain ⟨out, hout⟩ := generated_totalText
  obtain ⟨d, hroom⟩ := room_twoCatalogs "" out
  rw [← hashes_totalText.2] at hroom
  have hread := read_builtOnce
  rw [builtOnce_eq_diskAfter, diskAfter_eq] at hread ⊢
  exact kept_twoCatalogs.filled.cacheHit_again rfl rfl (read_twoCatalogs (.inl rfl)) hout hroom
    (alike_priced "second" "first") rfl hread rfl

theorem tellsApart_totalText : Sha256.TellsApart
    (textsOf (compiled twoCatalogs (priced "first") "a.json") ++
      hashedTexts (loaded totalText) (priced "second")) := by
  have hhash : Sha256.hash (loaded totalText) ≠ totalKey := by
    rw [hashes_totalText.1]
    decide
  have hkey : Sha256.hash (Cache.keyStream (Sha256.hash (loaded totalText)) (priced "first")) =
      totalKey := by
    rw [← hashes_totalText.2, Cache.key]
  -- there are but the two texts of one key
  have htexts : ∀ x ∈ textsOf (compiled twoCatalogs (priced "first") "a.json") ++
      hashedTexts (loaded totalText) (priced "second"),
      x ∈ hashedTexts (loaded totalText) (priced "first") := by
    intro x hx
    rcases List.mem_append.mp hx with hx | hx
    · obtain ⟨c, hc, hx⟩ := List.mem_flatMap.mp hx
      obtain ⟨hcontent, hoptions⟩ := compiled_of_read (read_twoCatalogs (.inl rfl)) hc
      rw [hcontent, hoptions] at hx
      exact hx
    · rw [hashedTexts, Cache.keyStream_eq (alike_priced "second" "first")] at hx
      exact hx
  intro x hx y hy hsame
  have hx := htexts x hx
  have hy := htexts y hy
  simp only [hashedTexts, List.mem_cons, List.not_mem_nil, or_false] at hx hy
  rcases hx with rfl | rfl <;> rcases hy with rfl | rfl
  · rfl
  · exact absurd (hsame.trans hkey) hhash
  · exact absurd (hsame.symm.trans hkey) hhash
  · rfl

/-- The second catalog is found. It goes elsewhere, and is the same as if it were compiled. -/
theorem cacheHit_alike_twoCatalogs :
    (compileFile builtOnce (priced "second") false "b.json").2.cacheHit = true ∧
      SameInterface (compileFile builtOnce (priced "second") false "b.json").2
        (compileFile builtOnce (priced "second").uncached false "b.json").2 ∧
      (compileFile builtOnce (priced "second") false "b.json").2.code =
        (compileFile builtOnce (priced "second").uncached false "b.json").2.code := by
  have hkept : Kept "/cache" (compiled twoCatalogs (priced "first") "a.json") builtOnce := by
    rw [← List.nil_append (compiled _ _ _), builtOnce_eq_diskAfter, diskAfter_eq]
    exact kept_twoCatalogs.built "a.json" (.inr rfl)
  have hhit := cacheHit_builtOnce
  obtain ⟨c, hc, -, -, -, hsame, -, hcode⟩ :=
    cacheHit_alike hkept rfl read_builtOnce tellsApart_totalText hhit
  obtain ⟨-, hoptions⟩ := compiled_of_read (read_twoCatalogs (.inl rfl)) hc
  rw [hoptions] at hcode
  have hordinary (outDir : String) : (priced outDir).compile.formats.Ordinary := by
    intro kind p hp
    cases kind
    · rw [List.mem_singleton.mp hp]
      decide
    · exact absurd hp List.not_mem_nil
    · exact absurd hp List.not_mem_nil
  refine ⟨hhit, hsame, hcode (hordinary _) (hordinary _) ?_⟩
  intro kind p hp p' hp' _ _
  cases kind
  · rw [List.mem_singleton.mp hp, List.mem_singleton.mp hp']
  · exact absurd hp List.not_mem_nil
  · exact absurd hp List.not_mem_nil

end Phrasebook.Build
