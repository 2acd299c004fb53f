import Mathlib.Data.List.TakeWhile
import Phrasebook.Build.Options
import Phrasebook.Proofs.FileNames

/-!
The two names of a file. A build names a file as it is seen from the base directory, and so does the
progress of the build, but each decides on its own what lies below the directory and how to spell a
path from elsewhere. Here it is told for which files the names agree.
-/
namespace Phrasebook

namespace Path

/-! ### Clean absolute paths -/

/-- Below a root no name steps upwards. -/
theorem isProper_of_mem_names {p n : String} (hp : isAbsolute p = true) (hn : n ∈ names p) :
    IsProper n := by
  have hresolved := resolved_names p
  rw [hp] at hresolved
  have hup : ∀ done, Resolved true done → ∀ m ∈ done, m ≠ ".." := by
    intro done h
    induction h with
    | nil => exact fun _ hm => absurd hm List.not_mem_nil
    | up hrooted => exact absurd hrooted (by decide)
    | name _ hne _ ih => exact List.forall_mem_cons.mpr ⟨hne, ih⟩
  exact ⟨isName_of_mem_names hn, hup _ hresolved n (List.mem_reverse.mpr hn)⟩

theorem resolved_of_proper {rooted : Bool} {done : List String} (h : ∀ n ∈ done, IsProper n) :
    Resolved rooted done := by
  induction done with
  | nil => exact .nil
  | cons n done ih =>
    obtain ⟨hn, hdone⟩ := List.forall_mem_cons.mp h
    exact .name hn.toIsName hn.ne_up (ih hdone)

/-- The path below the root that spells out the names. -/
def rooted (ns : List String) : String :=
  "" ++ "/" ++ Text.join "/" ns

theorem isAbsolute_rooted (ns : List String) : isAbsolute (rooted ns) = true := by
  rw [isAbsolute, rooted, String.toList_append, String.toList_append]
  rfl

theorem parts_rooted {ns : List String} (h : ∀ n ∈ ns, '/' ∉ n.toList) :
    parts (rooted ns) = "" :: if ns = [] then [""] else ns := by
  have hroot : parts "" = [""] := rfl
  rw [rooted, parts_append, hroot, List.singleton_append]
  split
  · rename_i hnil
    rw [hnil]
    rfl
  · rename_i hne
    rw [parts_join hne h]

theorem clean_of_isAbsolute {p : String} (hp : isAbsolute p = true) : clean p = rooted (names p) := by
  rw [clean, hp, ofNames, if_pos rfl, rooted, String.empty_append]

/-- A path that spells out its names is clean if all of them stand for themselves, and there is one
more: the root itself. -/
theorem clean_rooted_iff {ns : List String} (hne : ns ≠ []) (h : ∀ n ∈ ns, '/' ∉ n.toList) :
    clean (rooted ns) = rooted ns ↔ (∀ n ∈ ns, IsProper n) ∨ ns = [""] := by
  have hparts := parts_rooted h
  rw [if_neg hne] at hparts
  constructor
  · intro hclean
    have hnames : ∀ n ∈ names (rooted ns), IsProper n := fun n hn =>
      isProper_of_mem_names (isAbsolute_rooted ns) hn
    have hplain : ∀ n ∈ names (rooted ns), '/' ∉ n.toList := fun n hn => (hnames n hn).plain
    rw [clean_of_isAbsolute (isAbsolute_rooted ns)] at hclean
    have hsame := congrArg parts hclean
    rw [parts_rooted hplain, hparts, List.cons.injEq] at hsame
    have hsame := hsame.2
    split at hsame
    · exact .inr hsame.symm
    · exact .inl (hsame ▸ hnames)
  · rintro (hproper | rfl)
    · have hresolved : Resolved true ns.reverse :=
        resolved_of_proper fun n hn => hproper n (List.mem_reverse.mp hn)
      have hspelled : rooted ns = ofNames true ns := by
        rw [ofNames, if_pos rfl, rooted, String.empty_append]
      rw [hspelled, clean, names_ofNames hresolved,
        isAbsolute_ofNames fun n hn => (hproper n hn).toIsName]
    · decide

/-! ### Joined names -/

theorem join_cons_append (m : String) (ns : List String) (n : String) (after : List String) :
    Text.join "/" (m :: (ns ++ n :: after)) = m ++ "/" ++ Text.join "/" (ns ++ n :: after) := by
  cases ns <;> exact String.intercalate_cons_cons

/-- Joined names can be cut inside of a name. -/
theorem exists_join_append (before after : List String) (s u : String) :
    ∃ more, Text.join "/" (before ++ (s ++ u) :: after) =
      Text.join "/" (before ++ [s]) ++ (u ++ more) := by
  induction before with
  | nil =>
    have hlast (t : String) : Text.join "/" [t] = t := String.intercalate_singleton
    cases after with
    | nil => exact ⟨"", by rw [List.nil_append, List.nil_append, hlast, hlast, String.append_empty]⟩
    | cons m after =>
      refine ⟨"/" ++ Text.join "/" (m :: after), ?_⟩
      have hcons := join_cons_append (s ++ u) [] m after
      rw [List.nil_append] at hcons
      rw [List.nil_append, List.nil_append, hlast, hcons]
      simp only [String.append_assoc]
  | cons m before ih =>
    obtain ⟨more, hmore⟩ := ih
    refine ⟨more, ?_⟩
    rw [List.cons_append, List.cons_append, join_cons_append, join_cons_append, hmore]
    simp only [String.append_assoc]

theorem not_mem_join {c : Char} (hc : c ≠ '/') {ns : List String} (h : ∀ n ∈ ns, c ∉ n.toList) :
    c ∉ (Text.join "/" ns).toList := by
  induction ns with
  | nil => exact List.not_mem_nil
  | cons n ns ih =>
    obtain ⟨hn, hns⟩ := List.forall_mem_cons.mp h
    cases ns with
    | nil =>
      have hlast : Text.join "/" [n] = n := String.intercalate_singleton
      rw [hlast]
      exact hn
    | cons m ns =>
      rw [← List.nil_append (m :: ns), join_cons_append, List.nil_append, String.toList_append,
        String.toList_append, List.mem_append, List.mem_append, not_or, not_or]
      exact ⟨⟨hn, fun hmem => hc (List.mem_singleton.mp hmem)⟩, ih hns⟩

/-! ### Relative paths -/

/-- How many names two paths start with together. -/
def shared (base target : List String) : Nat :=
  ((base.zip target).takeWhile fun (x, y) => x == y).length

theorem shared_of_prefix {base target : List String} (h : base <+: target) :
    shared base target = base.length := by
  induction base generalizing target with
  | nil => rfl
  | cons n base ih =>
    obtain ⟨rest, rfl⟩ := h
    have hrest := ih (List.prefix_append base rest)
    have hsame : (n == n) = true := beq_self_eq_true n
    rw [shared] at hrest ⊢
    rw [List.cons_append, List.zip_cons_cons, List.takeWhile_cons]
    simp only [hsame, if_true, List.length_cons, hrest]

/-- What leads from one absolute path to another: nothing if they are the same, the names below the
base if the target is inside of it, and steps upwards first if it is not. -/
theorem relative?_cases {base target : String} (hbase : isAbsolute base = true)
    (htarget : isAbsolute target = true) :
    (names target = names base ∧ relative? base target = some ".") ∨
    (∃ n rest, names target = names base ++ n :: rest ∧
      relative? base target = some (Text.join "/" (n :: rest))) ∨
    (¬names base <+: names target ∧
      ∃ rest, relative? base target = some (Text.join "/" (".." :: rest))) := by
  have hspelled : clean base = clean target ↔ names base = names target := by
    constructor
    · intro hclean
      rw [← names_clean base, hclean, names_clean]
    · intro hnames
      rw [clean_of_isAbsolute hbase, clean_of_isAbsolute htarget, hnames]
  by_cases hsame : names base = names target
  · refine .inl ⟨hsame.symm, ?_⟩
    rw [relative?, if_pos (hspelled.mpr hsame)]
  · have hcommon : (names base).take (shared (names base) (names target)) =
        (names target).take (shared (names base) (names target)) :=
      take_common (names base) (names target)
    have hlength : names base <+: names target →
        shared (names base) (names target) = (names base).length := shared_of_prefix
    have hrelative : relative? base target =
        let up := (names base).drop (shared (names base) (names target))
        if up.contains ".." then none
        else
          let out := up.map (fun _ => "..") ++
            (names target).drop (shared (names base) (names target))
          some (if out.isEmpty then "." else Text.join "/" out) := by
      rw [relative?]
      simp only [names_clean, isAbsolute_clean, hbase, htarget, if_neg (hspelled.not.mpr hsame),
        ne_eq, not_true_eq_false, if_false]
      rfl
    rw [hrelative]
    -- From here on only two things matter of the number of shared names.
    generalize shared (names base) (names target) = k at hcommon hlength ⊢
    cases hup : (names base).drop k with
    | nil =>
      have hall : (names base).take k = names base := by
        have hsplit := List.take_append_drop k (names base)
        rwa [hup, List.append_nil] at hsplit
      have hbelow : names target = names base ++ (names target).drop k := by
        have hsplit := List.take_append_drop k (names target)
        rw [← hcommon, hall] at hsplit
        exact hsplit.symm
      cases hdown : (names target).drop k with
      | nil =>
        rw [hdown, List.append_nil] at hbelow
        exact absurd hbelow.symm hsame
      | cons n rest =>
        rw [hdown] at hbelow
        refine .inr (.inl ⟨n, rest, hbelow, ?_⟩)
        rfl
    | cons m up =>
      -- An absolute path has no steps upwards left in it, so the way up can be told.
      have hproper : ∀ n ∈ m :: up, n ≠ ".." := fun n hn =>
        (isProper_of_mem_names hbase (List.mem_of_mem_drop (hup ▸ hn))).ne_up
      have hno : (m :: up).contains ".." = false := by
        rw [Bool.eq_false_iff, ne_eq, List.contains_iff_mem]
        exact fun hmem => hproper _ hmem rfl
      refine .inr (.inr ⟨fun hprefix => ?_, up.map (fun _ => "..") ++ (names target).drop k, ?_⟩)
      · rw [hlength hprefix, List.drop_length] at hup
        cases hup
      · simp only [hno, Bool.false_eq_true, if_false]
        rfl

/-! ### Marks -/

/-- What stands before the first `#`. -/
def beforeMark (s : String) : String :=
  String.ofList (s.toList.takeWhile (· != '#'))

/-- The first `#` and what follows it. -/
def fromMark (s : String) : String :=
  String.ofList (s.toList.dropWhile (· != '#'))

theorem beforeMark_append_fromMark (s : String) : beforeMark s ++ fromMark s = s := by
  rw [beforeMark, fromMark, ← String.ofList_append, List.takeWhile_append_dropWhile,
    String.ofList_toList]

theorem not_mem_beforeMark (s : String) : '#' ∉ (beforeMark s).toList := by
  rw [beforeMark, String.toList_ofList]
  intro hmem
  have hmark := List.mem_takeWhile_imp hmem
  simp only [bne_self_eq_false, Bool.false_eq_true] at hmark

theorem exists_fromMark {s : String} (h : '#' ∈ s.toList) : ∃ rest, fromMark s = "#" ++ rest := by
  cases hdrop : s.toList.dropWhile (· != '#') with
  | nil =>
    have hnone := List.dropWhile_eq_nil_iff.mp hdrop '#' h
    simp only [bne_self_eq_false, Bool.false_eq_true] at hnone
  | cons c rest =>
    have hhead := List.head?_dropWhile_not (· != '#') s.toList
    rw [hdrop] at hhead
    obtain rfl : c = '#' := bne_eq_false_iff_eq.mp hhead
    refine ⟨String.ofList rest, ?_⟩
    rw [fromMark, hdrop, ← List.singleton_append, String.ofList_append]

/-- Where there is no mark yet, the first mark is further on. -/
theorem beforeMark_append {s : String} (h : '#' ∉ s.toList) (t : String) :
    beforeMark (s ++ t) = s ++ beforeMark t := by
  have hpass : ∀ c ∈ s.toList, (c != '#') = true := fun c hc =>
    bne_iff_ne.mpr fun hmark => h (hmark ▸ hc)
  rw [beforeMark, beforeMark, String.toList_append, List.takeWhile_append_of_pos hpass,
    String.ofList_append, String.ofList_toList]

/-- A stored path is spelled as it was just if what stands before its first mark is clean. -/
theorem normalize_eq_self_iff (p : String) :
    normalize p = p ↔ clean (beforeMark p) = beforeMark p := by
  have hnormalize : normalize p = clean (beforeMark p) ++ fromMark p := rfl
  calc normalize p = p ↔ clean (beforeMark p) ++ fromMark p = beforeMark p ++ fromMark p := by
        rw [hnormalize, beforeMark_append_fromMark]
    _ ↔ clean (beforeMark p) = beforeMark p := String.append_left_inj _

/-- Names before the first marked one stay, and of that one what stands before the mark. -/
theorem beforeMark_rooted {before after : List String} {n : String}
    (hbefore : ∀ m ∈ before, '#' ∉ m.toList) (hn : '#' ∈ n.toList) :
    beforeMark (rooted (before ++ n :: after)) = rooted (before ++ [beforeMark n]) := by
  obtain ⟨rest, hrest⟩ := exists_fromMark hn
  obtain ⟨more, hmore⟩ := exists_join_append before after (beforeMark n) (fromMark n)
  rw [beforeMark_append_fromMark] at hmore
  have hfree : '#' ∉ (rooted (before ++ [beforeMark n])).toList := by
    rw [rooted, String.toList_append, List.mem_append, not_or]
    refine ⟨by decide, not_mem_join (by decide) ?_⟩
    exact List.forall_mem_append.mpr
      ⟨hbefore, List.forall_mem_singleton.mpr (not_mem_beforeMark n)⟩
  have hmark : beforeMark (fromMark n ++ more) = "" := by
    rw [hrest, beforeMark, String.append_assoc, String.toList_append]
    rfl
  calc beforeMark (rooted (before ++ n :: after))
      = beforeMark (rooted (before ++ [beforeMark n]) ++ (fromMark n ++ more)) := by
        rw [rooted, rooted, hmore]
        simp only [String.append_assoc]
    _ = rooted (before ++ [beforeMark n]) := by
        rw [beforeMark_append hfree, hmark, String.append_empty]

/-- The first name with a mark has a name of its own before the mark. Just below the root there may
be nothing before it. -/
def MarkedLate (ns : List String) : Prop :=
  ∀ before n after, ns = before ++ n :: after → (∀ m ∈ before, '#' ∉ m.toList) → '#' ∈ n.toList →
    IsProper (beforeMark n) ∨ beforeMark n = "" ∧ before = []

/-- Storing a clean path spells it anew only if a name starts with a mark, or with dots and a
mark. -/
theorem normalize_rooted_iff {ns : List String} (h : ∀ n ∈ ns, IsProper n) :
    normalize (rooted ns) = rooted ns ↔ MarkedLate ns := by
  have hplain : ∀ n ∈ ns, '/' ∉ n.toList := fun n hn => (h n hn).plain
  have hcut {before after : List String} {n : String} (hns : ns = before ++ n :: after) :
      ∀ m ∈ before ++ [beforeMark n], '/' ∉ m.toList := by
    rw [hns] at hplain
    obtain ⟨hbefore, hrest⟩ := List.forall_mem_append.mp hplain
    refine List.forall_mem_append.mpr ⟨hbefore, List.forall_mem_singleton.mpr fun hslash => ?_⟩
    rw [beforeMark, String.toList_ofList] at hslash
    exact hrest n List.mem_cons_self ((List.takeWhile_sublist _).subset hslash)
  rw [normalize_eq_self_iff]
  constructor
  · intro hclean before n after hns hbefore hn
    rw [hns, beforeMark_rooted hbefore hn] at hclean
    have hne : before ++ [beforeMark n] ≠ [] := List.append_ne_nil_of_right_ne_nil _ (by simp)
    rcases (clean_rooted_iff hne (hcut hns)).mp hclean with hproper | hroot
    · exact .inl (hproper _ (List.mem_append_right _ List.mem_cons_self))
    · have hroot' : before ++ [beforeMark n] = [] ++ [""] := hroot
      obtain ⟨hnone, hempty⟩ := List.append_inj' hroot' rfl
      exact .inr ⟨List.singleton_inj.mp hempty, hnone⟩
  · intro hlate
    -- Only what stands before the first mark is made clean.
    cases hfind : ns.find? fun n => decide ('#' ∈ n.toList) with
    | some n =>
      obtain ⟨hn, before, after, hns, hfree⟩ := List.find?_eq_some_iff_append.mp hfind
      have hn : '#' ∈ n.toList := of_decide_eq_true hn
      have hbefore : ∀ m ∈ before, '#' ∉ m.toList := by
        intro m hm
        have hm := hfree m hm
        simpa only [Bool.not_eq_true', decide_eq_false_iff_not] using hm
      have hne : before ++ [beforeMark n] ≠ [] := List.append_ne_nil_of_right_ne_nil _ (by simp)
      rw [hns, beforeMark_rooted hbefore hn]
      apply (clean_rooted_iff hne (hcut hns)).mpr
      rcases hlate before n after hns hbefore hn with hproper | ⟨hempty, rfl⟩
      · refine .inl (List.forall_mem_append.mpr ⟨fun m hm => ?_, ?_⟩)
        · exact h m (hns ▸ List.mem_append_left _ hm)
        · exact List.forall_mem_singleton.mpr hproper
      · exact .inr (by rw [hempty, List.nil_append])
    | none =>
      have hfree : ∀ n ∈ ns, '#' ∉ n.toList := by
        intro n hn
        have hn := List.find?_eq_none.mp hfind n hn
        simpa only [decide_eq_true_eq] using hn
      have hunmarked : '#' ∉ (rooted ns).toList := by
        rw [rooted, String.toList_append, List.mem_append, not_or]
        exact ⟨by decide, not_mem_join (by decide) hfree⟩
      have hwhole : beforeMark (rooted ns) = rooted ns := by
        have hempty : beforeMark "" = "" := rfl
        have happend := beforeMark_append hunmarked ""
        rw [hempty, String.append_empty] at happend
        exact happend
      rw [hwhole]
      by_cases hnil : ns = []
      · rw [hnil]
        decide
      · exact (clean_rooted_iff hnil hplain).mpr (.inl h)

/-! ### Starting upwards -/

/-- Names that are joined start as the first of them does. -/
theorem isPrefixOf_join (n : String) (rest : List String) :
    "..".isPrefixOf (Text.join "/" (n :: rest)) = "..".isPrefixOf n := by
  cases rest with
  | nil =>
    have hlast : Text.join "/" [n] = n := String.intercalate_singleton
    rw [hlast]
  | cons m rest =>
    have hcons := join_cons_append n [] m rest
    rw [List.nil_append] at hcons
    have hdots : "..".toList = ['.', '.'] := rfl
    rw [Bool.eq_iff_iff, String.isPrefixOf, String.isPrefixOf, String.startsWith_string_iff,
      String.startsWith_string_iff, hcons, String.append_assoc, String.toList_append,
      String.toList_append, hdots]
    -- a slash is no dot, so both dots stand in the first name
    rcases n.toList with _ | ⟨c, _ | ⟨d, cs⟩⟩ <;> simp

/-- A path that starts with a step upwards leaves the directory. -/
theorem leaves_join_up (ns : List String) : leaves (Text.join "/" (".." :: ns)) = true := by
  cases ns with
  | nil => decide
  | cons m ns =>
    have hcons := join_cons_append ".." [] m ns
    rw [List.nil_append] at hcons
    rw [leaves, Bool.or_eq_true, String.isPrefixOf, String.startsWith_string_iff, hcons,
      String.toList_append]
    exact .inr (List.prefix_append _ _)

/-- Only a step upwards leaves the directory. -/
theorem leaves_join_of_ne {ns : List String} {n : String} (h : ∀ m ∈ n :: ns, '/' ∉ m.toList)
    (hn : n ≠ "..") : leaves (Text.join "/" (n :: ns)) = false := by
  have hparts := parts_join (List.cons_ne_nil n ns) h
  have hdots : parts ".." = [".."] := rfl
  rw [Bool.eq_false_iff]
  intro hleaves
  rw [leaves, Bool.or_eq_true, beq_iff_eq] at hleaves
  rcases hleaves with hup | hup
  · rw [hup, hdots] at hparts
    exact hn (List.cons.inj hparts).1.symm
  · rw [String.isPrefixOf, String.startsWith_string_iff] at hup
    obtain ⟨more, hmore⟩ := hup
    have hspelled : Text.join "/" (n :: ns) = ".." ++ "/" ++ String.ofList more := by
      apply String.toList_injective
      rw [← hmore, String.toList_append, String.toList_append, String.toList_ofList (l := more)]
      rfl
    rw [hspelled, parts_append, hdots] at hparts
    exact hn (List.cons.inj hparts).1.symm

end Path

namespace Progress

open Phrasebook.Path

/-- The file lies inside of the directory, below a name that does not start with two dots, or it lies
elsewhere and no mark is near the start of a name. -/
def NamedAlike (directory file : List String) : Prop :=
  (∃ n rest, file = directory ++ n :: rest ∧ "..".isPrefixOf n = false) ∨
    ¬directory <+: file ∧ MarkedLate file

section Names

variable {cwd base file : String}

theorem baseOf_of_trimmed (hbase : base ≠ "") (htrimmed : Text.trimText base = base) :
    baseOf cwd base = absolute cwd base := by
  rw [baseOf, htrimmed]
  exact if_neg hbase

theorem name_eq (hcwd : isAbsolute cwd = true) (hfile : file ≠ "") (hbase : base ≠ "")
    (htrimmed : Text.trimText base = base) {r : String}
    (h : relative? (absolute cwd base) (absolute cwd file) = some r) :
    name cwd base file =
      if r = "." || "..".isPrefixOf r then absolute cwd file else r := by
  have hplace := ne_empty_of_isAbsolute (isAbsolute_absolute hcwd base)
  rw [name, if_neg hfile, baseOf_of_trimmed hbase htrimmed, nameFrom]
  simp only [if_neg hplace, absolute_clean hcwd hfile, h]

theorem displayPath_eq (hbase : base ≠ "") {r : String}
    (h : relative? (absolute cwd base) (absolute cwd file) = some r) :
    Build.displayPath cwd base file =
      if leaves r then normalize (absolute cwd file) else r := by
  rw [Build.displayPath, if_neg hbase, relativeTo, h]
  rfl

/-- In the list of all files a single file has its name. -/
theorem names_singleton (hfile : file ≠ "") : names cwd base [file] = [name cwd base file] := by
  have hkept : [file].filter (· ≠ "") = [file] :=
    List.filter_eq_self.mpr fun f hf => decide_eq_true (List.mem_singleton.mp hf ▸ hfile)
  have honce (s : String) : [s].eraseDups = [s] := by
    rw [List.eraseDups_cons, List.filter_nil, List.eraseDups_nil]
  rw [names, hkept, List.map_singleton, honce, List.mergeSort_singleton, name, if_neg hfile]

/-- The name of a file in the progress is its name in the build just if the file lies below a name of
the directory that does not start with two dots, or lies outside of the directory and no name on its
way starts with a mark, or with dots and a mark. -/
theorem name_eq_displayPath_iff (hcwd : isAbsolute cwd = true) (hfile : file ≠ "")
    (hbase : base ≠ "") (htrimmed : Text.trimText base = base) :
    names cwd base [file] = [name cwd base file] ∧
    (name cwd base file = Build.displayPath cwd base file ↔
      NamedAlike (Path.names (absolute cwd base)) (Path.names (absolute cwd file))) := by
  refine ⟨names_singleton hfile, ?_⟩
  have hbasePlace := isAbsolute_absolute hcwd base
  have hplace := isAbsolute_absolute hcwd file
  have hproper : ∀ n ∈ Path.names (absolute cwd file), IsProper n := fun n hn =>
    isProper_of_mem_names hplace hn
  -- a relative name is not the absolute path
  have hapart {r : String} (h : relative? (absolute cwd base) (absolute cwd file) = some r) :
      absolute cwd file ≠ r := by
    intro hsame
    have hrelative := (relative?_spec h).2
    rw [← hsame, hplace] at hrelative
    exact nomatch hrelative
  rcases relative?_cases hbasePlace hplace with
    ⟨hnames, h⟩ | ⟨n, rest, hnames, h⟩ | ⟨houtside, rest, h⟩
  · -- the directory itself
    have hleaves : leaves "." = false := by decide
    rw [name_eq hcwd hfile hbase htrimmed h, displayPath_eq hbase h, hleaves]
    refine iff_of_false (hapart h) ?_
    rintro (⟨n, rest, hbelow, -⟩ | ⟨houtside, -⟩)
    · rw [hnames] at hbelow
      have hlength := congrArg List.length hbelow
      rw [List.length_append, List.length_cons] at hlength
      omega
    · rw [hnames] at houtside
      exact houtside (List.prefix_refl _)
  · -- below the directory
    have hmem : ∀ m ∈ n :: rest, m ∈ Path.names (absolute cwd file) := fun m hm =>
      hnames ▸ List.mem_append_right _ hm
    have hplain : ∀ m ∈ n :: rest, '/' ∉ m.toList := fun m hm => (hproper m (hmem m hm)).plain
    have hn := hproper n (hmem n List.mem_cons_self)
    have hleaves := leaves_join_of_ne hplain hn.ne_up
    have hself : Text.join "/" (n :: rest) ≠ "." := by
      intro hself
      have hparts := parts_join (List.cons_ne_nil n rest) hplain
      rw [hself] at hparts
      exact hn.ne_dot (List.cons.inj hparts).1.symm
    have hdots := isPrefixOf_join n rest
    rw [name_eq hcwd hfile hbase htrimmed h, displayPath_eq hbase h, hleaves, hdots]
    simp only [hself, decide_false, Bool.false_or, Bool.false_eq_true, if_false]
    constructor
    · intro hsame
      refine .inl ⟨n, rest, hnames, Bool.eq_false_iff.mpr fun htwo => ?_⟩
      rw [if_pos htwo] at hsame
      exact hapart h hsame
    · rintro (⟨n', rest', hbelow, htwo⟩ | ⟨houtside, -⟩)
      · rw [hnames] at hbelow
        obtain ⟨rfl, -⟩ := List.cons.inj (List.append_cancel_left hbelow)
        rw [if_neg (Bool.eq_false_iff.mp htwo)]
      · exact absurd ⟨n :: rest, hnames.symm⟩ houtside
  · -- elsewhere
    have hdots : "..".isPrefixOf (Text.join "/" (".." :: rest)) = true := by
      rw [isPrefixOf_join, String.isPrefixOf]
      exact String.startsWith_string_iff.mpr List.prefix_rfl
    have hspelled : absolute cwd file = rooted (Path.names (absolute cwd file)) := by
      rw [← clean_of_isAbsolute hplace, clean_absolute cwd file (ne_empty_of_isAbsolute hplace)]
    rw [name_eq hcwd hfile hbase htrimmed h, displayPath_eq hbase h, leaves_join_up rest, hdots,
      Bool.or_true, if_pos rfl, if_pos rfl]
    have hstored := normalize_rooted_iff hproper
    rw [← hspelled] at hstored
    constructor
    · exact fun hsame => .inr ⟨houtside, hstored.mp hsame.symm⟩
    · rintro (⟨n, more, hbelow, -⟩ | ⟨-, hlate⟩)
      · exact absurd ⟨n :: more, hbelow.symm⟩ houtside
      · exact (hstored.mpr hlate).symm

end Names

/-- A mark inside of a name does no harm, two dots at its start do. -/
theorem name_eq_displayPath_iff_dots :
    NamedAlike (Path.names (absolute "/work" "lib")) (Path.names (absolute "/work" "../x#y.json")) ∧
      name "/work" "lib" "lib/sub/../..m.json" ≠
        Build.displayPath "/work" "lib" "lib/sub/../..m.json" := by
  have hcwd : isAbsolute "/work" = true := by decide
  have htrimmed : Text.trimText "lib" = "lib" := by decide +kernel
  have hbaseGiven : "lib" ≠ "" := by decide
  have hmarkedGiven : "../x#y.json" ≠ "" := by decide
  have hdotsGiven : "lib/sub/../..m.json" ≠ "" := by decide
  have hmarked := name_eq_displayPath_iff hcwd hmarkedGiven hbaseGiven htrimmed
  have hdots := name_eq_displayPath_iff hcwd hdotsGiven hbaseGiven htrimmed
  refine ⟨hmarked.2.mp (by decide +kernel), hdots.2.not.mpr ?_⟩
  have hbase : Path.names (absolute "/work" "lib") = ["work", "lib"] := by decide +kernel
  have hfile : Path.names (absolute "/work" "lib/sub/../..m.json") =
      ["work", "lib", "..m.json"] := by decide +kernel
  rw [hbase, hfile]
  rintro (⟨n, rest, hbelow, htwo⟩ | ⟨houtside, -⟩)
  · have hparts : ["work", "lib"] ++ ["..m.json"] = ["work", "lib"] ++ n :: rest := hbelow
    obtain ⟨rfl, -⟩ := List.cons.inj (List.append_cancel_left hparts)
    exact absurd htwo (by decide +kernel)
  · exact houtside ⟨["..m.json"], rfl⟩

end Progress

end Phrasebook
