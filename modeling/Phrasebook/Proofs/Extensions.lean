import Phrasebook.Proofs.ReportedNames

/-!
Paths and their extensions. A path is the text up to its last slash and a name behind it. What an
extension is added to stays in its directory, and it is known by the directory, the name and the
extension.
-/
namespace Phrasebook.Path

/-! ### The last name -/

theorem eq_of_dropWhile {c d : Char} {cs r : List Char} (h : cs.dropWhile (· != c) = d :: r) :
    d = c := by
  have hhead := List.head?_dropWhile_not (· != c) cs
  rw [h] at hhead
  exact bne_eq_false_iff_eq.mp hhead

/-- The text up to the last slash. -/
def folder (p : String) : String :=
  String.ofList (p.toList.reverse.dropWhile (· != '/')).reverse

/-- The text behind the last slash. -/
def lastName (p : String) : String :=
  String.ofList (p.toList.reverse.takeWhile (· != '/')).reverse

theorem dir_eq (p : String) : dir p = clean (folder p) :=
  rfl

theorem folder_append_lastName (p : String) : folder p ++ lastName p = p := by
  rw [folder, lastName, ← String.ofList_append, ← List.reverse_append,
    List.takeWhile_append_dropWhile, List.reverse_reverse, String.ofList_toList]

theorem plain_lastName (p : String) : '/' ∉ (lastName p).toList := by
  rw [lastName, String.toList_ofList, List.mem_reverse]
  intro hmem
  have hslash := List.mem_takeWhile_imp hmem
  simp only [bne_self_eq_false, Bool.false_eq_true] at hslash

theorem folder_cases (p : String) : folder p = "" ∨ ∃ q, folder p = q ++ "/" := by
  rw [folder]
  cases hdrop : p.toList.reverse.dropWhile (· != '/') with
  | nil => exact .inl rfl
  | cons c r =>
    obtain rfl : c = '/' := eq_of_dropWhile hdrop
    refine .inr ⟨String.ofList r.reverse, ?_⟩
    rw [List.reverse_cons, String.ofList_append]

theorem reverse_append (p e : String) :
    (p ++ e).toList.reverse = e.toList.reverse ++ p.toList.reverse := by
  rw [String.toList_append, List.reverse_append]

section

variable {e : String} (he : '/' ∉ e.toList)

include he

theorem plain_reverse : ∀ c ∈ e.toList.reverse, (c != '/') = true := by
  intro c hc
  refine bne_iff_ne.mpr fun hslash => he ?_
  rw [← hslash]
  exact List.mem_reverse.mp hc

theorem folder_append (p : String) : folder (p ++ e) = folder p := by
  rw [folder, reverse_append, List.dropWhile_append_of_pos (plain_reverse he), folder]

theorem lastName_append (p : String) : lastName (p ++ e) = lastName p ++ e := by
  rw [lastName, reverse_append, List.takeWhile_append_of_pos (plain_reverse he),
    List.reverse_append, List.reverse_reverse, String.ofList_append, String.ofList_toList, lastName]

theorem dir_append (p : String) : dir (p ++ e) = dir p := by
  rw [dir_eq, dir_eq, folder_append he]

end

/-! ### Extensions -/

/-- A dot with letters behind it that are neither dots nor slashes. -/
structure IsExtension (e : String) : Prop where
  dot : ∃ r, e.toList = '.' :: r ∧ '.' ∉ r
  plain : '/' ∉ e.toList

theorem toList_lastName (p : String) :
    (lastName p).toList = (p.toList.reverse.takeWhile (· != '/')).reverse := by
  rw [lastName, String.toList_ofList]

theorem extension_eq (p : String) :
    extension p =
      if (lastName p).toList.contains '.' then
        String.ofList ('.' :: ((lastName p).toList.reverse.takeWhile (· != '.')).reverse)
      else "" := by
  rw [toList_lastName]
  rfl

theorem extension_append {e : String} (he : IsExtension e) (p : String) : extension (p ++ e) = e := by
  obtain ⟨⟨r, hr, hdots⟩, hplain⟩ := he
  have hpass : ∀ c ∈ r.reverse, (c != '.') = true := by
    intro c hc
    refine bne_iff_ne.mpr fun hdot => hdots ?_
    rw [← hdot]
    exact List.mem_reverse.mp hc
  have hdot : ('.' != '.') = false := bne_self_eq_false '.'
  have hmem : '.' ∈ (lastName p).toList ++ '.' :: r := List.mem_append_right _ List.mem_cons_self
  rw [extension_eq, lastName_append hplain, String.toList_append, hr,
    if_pos (List.contains_iff_mem.mpr hmem), List.reverse_append, List.reverse_cons,
    List.append_assoc, List.takeWhile_append_of_pos hpass, List.singleton_append,
    List.takeWhile_cons, hdot, if_neg Bool.false_ne_true, List.append_nil, List.reverse_reverse,
    ← hr, String.ofList_toList]

theorem append_inj {e e' : String} (he : IsExtension e) (he' : IsExtension e') {p p' : String} :
    p ++ e = p' ++ e' ↔ e = e' ∧ p = p' := by
  constructor
  · intro h
    have hsame := congrArg extension h
    rw [extension_append he, extension_append he'] at hsame
    subst hsame
    have hlist := congrArg String.toList h
    rw [String.toList_append, String.toList_append] at hlist
    exact ⟨rfl, String.toList_injective (List.append_cancel_right hlist)⟩
  · rintro ⟨rfl, rfl⟩
    rfl

/-- The extension is the end of the last name, from its last dot on. -/
theorem exists_extension (p : String) :
    '/' ∉ (extension p).toList ∧ ∃ q, p = q ++ extension p := by
  by_cases hdot : (lastName p).toList.contains '.' = true
  · have hsplit := List.takeWhile_append_dropWhile (p := (· != '.')) (l := (lastName p).toList.reverse)
    cases hdrop : (lastName p).toList.reverse.dropWhile (· != '.') with
    | nil =>
      have hnone := List.dropWhile_eq_nil_iff.mp hdrop '.'
        (List.mem_reverse.mpr (List.contains_iff_mem.mp hdot))
      simp only [bne_self_eq_false, Bool.false_eq_true] at hnone
    | cons c before =>
      obtain rfl : c = '.' := eq_of_dropWhile hdrop
      -- the last name is cut at its last dot
      have hname : lastName p = String.ofList before.reverse ++ extension p := by
        rw [extension_eq, if_pos hdot, ← String.ofList_append]
        rw [hdrop] at hsplit
        have hlist := congrArg List.reverse hsplit
        rw [List.reverse_append, List.reverse_cons, List.reverse_reverse, List.append_assoc,
          List.singleton_append] at hlist
        rw [hlist, String.ofList_toList]
      have hplain : '/' ∉ (extension p).toList := by
        intro hslash
        have hmem := List.mem_append_right (String.ofList before.reverse).toList hslash
        rw [← String.toList_append, ← hname] at hmem
        exact plain_lastName p hmem
      have hwhole : p = folder p ++ String.ofList before.reverse ++ extension p := by
        rw [String.append_assoc, ← hname, folder_append_lastName]
      exact ⟨hplain, folder p ++ String.ofList before.reverse, hwhole⟩
  · have hnone : extension p = "" := by
      rw [extension_eq, if_neg hdot]
    rw [hnone]
    exact ⟨List.not_mem_nil, p, String.append_empty.symm⟩

/-! ### Places -/

theorem lastName_of_folder {p : String} (h : folder p = "") : lastName p = p := by
  have hwhole := folder_append_lastName p
  rwa [h, String.empty_append] at hwhole

/-- The last name is the last of the parts. -/
theorem parts_cases (p : String) :
    (folder p = "" ∧ parts p = [lastName p]) ∨
      ∃ q, folder p = q ++ "/" ∧ parts p = parts q ++ [lastName p] := by
  have hname : parts (lastName p) = [lastName p] := by
    rw [parts, Text.splitAt_of_not_mem (plain_lastName p), List.map_singleton, String.ofList_toList]
  rcases folder_cases p with hfolder | ⟨q, hfolder⟩
  · rw [lastName_of_folder hfolder] at hname ⊢
    exact .inl ⟨hfolder, hname⟩
  · have hsplit := parts_append q (lastName p)
    rw [← hfolder, folder_append_lastName, hname] at hsplit
    exact .inr ⟨q, hfolder, hsplit⟩

theorem getLast?_parts (p : String) : (parts p).getLast? = some (lastName p) := by
  rcases parts_cases p with ⟨-, hparts⟩ | ⟨q, -, hparts⟩
  · rw [hparts, List.getLast?_singleton]
  · rw [hparts, List.getLast?_concat]

theorem EndsIn.lastName_eq {p n : String} (h : EndsIn p n) : lastName p = n :=
  Option.some.inj ((getLast?_parts p).symm.trans h.last)

theorem EndsIn.length_le {p n : String} (h : EndsIn p n) : n.toList.length ≤ p.toList.length := by
  have hlength := congrArg (fun s => s.toList.length) (folder_append_lastName p)
  simp only [h.lastName_eq, String.toList_append, List.length_append] at hlength
  omega

/-- What follows the last slash is resolved last. -/
theorem foldl_parts (rooted : Bool) (done : List String) (p : String) :
    (parts p).foldl (step rooted) done =
      step rooted ((parts (folder p)).foldl (step rooted) done) (lastName p) := by
  have hempty : parts "" = [""] := rfl
  have hskip (done : List String) : step rooted done "" = done := step_skip rooted done (.inl rfl)
  rcases parts_cases p with ⟨hfolder, hparts⟩ | ⟨q, hfolder, hparts⟩
  · rw [hparts, hfolder, hempty, List.foldl_cons, List.foldl_nil, List.foldl_cons, List.foldl_nil,
      hskip]
  · have hslash : q ++ "/" = q ++ "/" ++ "" := String.append_empty.symm
    rw [hparts, hfolder, hslash, parts_append, hempty, List.foldl_append, List.foldl_append,
      List.foldl_cons, List.foldl_nil, List.foldl_cons, List.foldl_nil, hskip]

theorem isAbsolute_append_of_ne {p : String} (h : p ≠ "") (q : String) :
    isAbsolute (p ++ q) = isAbsolute p := by
  obtain ⟨c, r, hlist⟩ := List.exists_cons_of_ne_nil
    fun hnil => h (String.toList_eq_nil_iff.mp hnil)
  rw [isAbsolute, isAbsolute, String.toList_append, hlist]
  rfl

theorem isAbsolute_folder (p : String) : isAbsolute (folder p) = isAbsolute p := by
  have hplain := plain_lastName p
  rcases folder_cases p with hfolder | ⟨q, hfolder⟩
  · rw [lastName_of_folder hfolder] at hplain
    rw [hfolder]
    cases hlist : p.toList with
    | nil => rw [String.toList_eq_nil_iff.mp hlist]
    | cons c r =>
      rw [hlist] at hplain
      have hc : c ≠ '/' := fun hslash => hplain (hslash ▸ List.mem_cons_self)
      rw [isAbsolute, isAbsolute, hlist]
      exact (beq_eq_false_iff_ne.mpr fun hsome => hc (Option.some.inj hsome)).symm
  · have hsome : folder p ≠ "" := by
      intro hempty
      have hlist := congrArg String.toList (hfolder.symm.trans hempty)
      rw [String.toList_append] at hlist
      exact absurd hlist (List.append_ne_nil_of_right_ne_nil _ (List.cons_ne_nil _ _))
    have hwhole := isAbsolute_append_of_ne hsome (lastName p)
    rw [folder_append_lastName] at hwhole
    exact hwhole.symm

theorem isAbsolute_dir (p : String) : isAbsolute (dir p) = isAbsolute p := by
  rw [dir_eq, isAbsolute_clean, isAbsolute_folder]

theorem clean_dir (p : String) : clean (dir p) = dir p := by
  rw [dir_eq, clean_clean]

/-- What stands behind the directory of a path is its last name. -/
theorem names_of_endsIn {p n : String} (h : EndsIn p n) : names p = names (dir p) ++ [n] := by
  rw [dir_eq, names_clean, names, names, foldl_parts, h.lastName_eq, isAbsolute_folder,
    step_of_isName _ h.proper.toIsName h.proper.ne_up, List.reverse_cons]

theorem join_concat (q : String) (qs : List String) (n : String) :
    Text.join "/" (q :: qs ++ [n]) = Text.join "/" (q :: qs) ++ "/" ++ n := by
  have hlast (t : String) : Text.join "/" [t] = t := String.intercalate_singleton
  induction qs generalizing q with
  | nil => rw [List.singleton_append, hlast, ← List.nil_append [n], join_cons_append, List.nil_append,
      hlast]
  | cons m ms ih =>
    have hcons := join_cons_append q [] m ms
    rw [List.nil_append] at hcons
    rw [hcons, List.cons_append, join_cons_append, ih m]
    simp only [String.append_assoc]

/-- The directory of a joined path is what comes before its last name. -/
theorem dir_clean_append {p n : String} (hp : p ≠ "") (hn : IsProper n) :
    dir (clean (p ++ "/" ++ n)) = clean p := by
  have hlast : parts n = [n] := by
    rw [parts, Text.splitAt_of_not_mem hn.plain, List.map_singleton, String.ofList_toList]
  have habsolute : isAbsolute (p ++ "/" ++ n) = isAbsolute p := by
    rw [String.append_assoc, isAbsolute_append_of_ne hp]
  have hends : EndsIn (p ++ "/" ++ n) n :=
    ⟨by rw [parts_append, hlast, List.getLast?_concat], hn⟩
  have hnames : names (clean (p ++ "/" ++ n)) = names p ++ [n] := by
    rw [names_clean, names, names, parts_append, hlast, List.foldl_append, habsolute,
      List.foldl_cons, List.foldl_nil, step_of_isName _ hn.toIsName hn.ne_up, List.reverse_cons]
  rw [names_of_endsIn hends.clean, List.append_left_inj] at hnames
  rw [← clean_dir, clean, hnames, isAbsolute_dir, isAbsolute_clean, habsolute, ← clean]

theorem dir_join {qs : List String} {n : String} (hqs : qs.filter (· ≠ "") ≠ [])
    (hn : IsProper n) : dir (join (qs ++ [n])) = join qs := by
  have hname : [n].filter (· ≠ "") = [n] :=
    List.filter_cons_of_pos (decide_eq_true hn.ne_empty)
  rw [join, join, List.filter_append, hname]
  cases hfilter : qs.filter (· ≠ "") with
  | nil => exact absurd hfilter hqs
  | cons q rest =>
    have hmem : q ∈ qs.filter (· ≠ "") := hfilter ▸ List.mem_cons_self
    have hq : q ≠ "" := of_decide_eq_true (List.mem_filter.mp hmem).2
    have hne : Text.join "/" (q :: rest) ≠ "" := by
      obtain ⟨more, hmore⟩ := exists_join_append [] rest q ""
      rw [List.nil_append, String.append_empty] at hmore
      have hone : Text.join "/" [q] = q := String.intercalate_singleton
      rw [hmore, List.nil_append, hone]
      exact fun hempty => hq (String.append_eq_empty_iff.mp hempty).1
    have hconcat := congrArg (fun p => dir (clean p)) (join_concat q rest n)
    exact hconcat.trans (dir_clean_append hne hn)

/-- Names that stand for themselves are kept as they are. -/
theorem foldl_proper (rooted : Bool) (done : List String) {ns : List String}
    (h : ∀ n ∈ ns, IsProper n) : ns.foldl (step rooted) done = ns.reverse ++ done := by
  induction ns generalizing done with
  | nil => rfl
  | cons n ns ih =>
    obtain ⟨hn, hns⟩ := List.forall_mem_cons.mp h
    rw [List.foldl_cons, step_of_isName done hn.toIsName hn.ne_up, ih _ hns, List.reverse_cons,
      List.append_assoc, List.singleton_append]

section Absolute

variable {cwd : String} (hcwd : isAbsolute cwd = true)

include hcwd

/-- The names of a place, for a path of any form. -/
theorem names_absolute (p : String) : names (absolute cwd p) =
    ((parts p).foldl (step true)
      (if isAbsolute p then [] else (parts cwd).foldl (step true) [])).reverse := by
  cases hp : isAbsolute p with
  | true => rw [absolute, hp, if_pos rfl, if_pos rfl, names_clean, names, hp]
  | false =>
    rw [if_neg Bool.false_ne_true]
    by_cases hne : p = ""
    · subst hne
      have hone : [cwd, ""].filter (· ≠ "") = [cwd] := by
        simp only [ne_eq, ne_empty_of_isAbsolute hcwd, not_false_eq_true, decide_true,
          List.filter_cons_of_pos, not_true_eq_false, decide_false, Bool.false_eq_true,
          List.filter_cons_of_neg, List.filter_nil]
      have hplace : absolute cwd "" = clean cwd := by
        rw [absolute, hp, if_neg Bool.false_ne_true, join, hone]
        rfl
      rw [hplace, names_clean, names, hcwd]
      rfl
    · rw [absolute_of_relative hcwd hp hne, names_clean, names, isAbsolute_append hcwd,
        parts_append, List.foldl_append]

theorem names_absolute_clean (p : String) :
    names (absolute cwd (clean p)) = names (absolute cwd p) := by
  by_cases hne : p = ""
  · subst hne
    rw [names_absolute hcwd, names_absolute hcwd]
    rfl
  · rw [absolute_clean hcwd hne]

/-- A place is reached by a step from its directory. -/
theorem names_absolute_eq_step (p : String) : names (absolute cwd p) =
    (step true (names (absolute cwd (dir p))).reverse (lastName p)).reverse := by
  rw [dir_eq, names_absolute_clean hcwd, names_absolute hcwd, names_absolute hcwd, foldl_parts,
    List.reverse_reverse, isAbsolute_folder]

theorem absolute_eq_rooted (p : String) : absolute cwd p = rooted (names (absolute cwd p)) := by
  have hplace := isAbsolute_absolute hcwd p
  rw [← clean_of_isAbsolute hplace, clean_absolute cwd p (ne_empty_of_isAbsolute hplace)]

/-- Places are told by their names. -/
theorem absolute_inj {p p' : String} :
    absolute cwd p = absolute cwd p' ↔ names (absolute cwd p) = names (absolute cwd p') := by
  refine ⟨congrArg names, fun hnames => ?_⟩
  rw [absolute_eq_rooted hcwd, hnames, ← absolute_eq_rooted hcwd]

end Absolute

/-- The paths lead to one directory and go on with the same name. -/
structure Meet (cwd p p' : String) : Prop where
  dir : absolute cwd (dir p) = absolute cwd (Path.dir p')
  name : lastName p = lastName p'

theorem meet_iff (cwd p p' : String) : Meet cwd p p' ↔
    absolute cwd (dir p) = absolute cwd (dir p') ∧ lastName p = lastName p' :=
  ⟨fun h => ⟨h.dir, h.name⟩, fun h => ⟨h.1, h.2⟩⟩

instance (cwd p p' : String) : Decidable (Meet cwd p p') :=
  decidable_of_iff _ (meet_iff cwd p p').symm

/-- An extension that both have does not matter. -/
theorem meet_append_iff {cwd p p' e : String} (he : '/' ∉ e.toList) :
    Meet cwd (p ++ e) (p' ++ e) ↔ Meet cwd p p' := by
  rw [meet_iff, meet_iff, dir_append he, dir_append he, lastName_append he, lastName_append he,
    String.append_left_inj]

section Meet

variable {cwd p p' : String} (hcwd : isAbsolute cwd = true)

include hcwd

theorem Meet.absolute (h : Meet cwd p p') : Path.absolute cwd p = Path.absolute cwd p' := by
  rw [absolute_inj hcwd, names_absolute_eq_step hcwd, names_absolute_eq_step hcwd p', h.dir, h.name]

/-- Paths that end in names that stand for themselves lead to one place just if they meet. -/
theorem absolute_eq_iff (h : IsProper (lastName p)) (h' : IsProper (lastName p')) :
    Path.absolute cwd p = Path.absolute cwd p' ↔ Meet cwd p p' := by
  refine ⟨fun hsame => ?_, Meet.absolute hcwd⟩
  have hnames := (absolute_inj hcwd).mp hsame
  rw [names_absolute_eq_step hcwd, names_absolute_eq_step hcwd p', List.reverse_inj,
    step_of_isName _ h.toIsName h.ne_up, step_of_isName _ h'.toIsName h'.ne_up] at hnames
  obtain ⟨hname, hdir⟩ := List.cons.inj hnames
  exact ⟨(absolute_inj hcwd).mpr (List.reverse_inj.mp hdir), hname⟩

/-- Where extensions are put on, places tell the extensions too. -/
theorem absolute_append_eq_iff {e e' : String} (he : IsExtension e) (he' : IsExtension e')
    (h : IsProper (lastName p ++ e)) (h' : IsProper (lastName p' ++ e')) :
    Path.absolute cwd (p ++ e) = Path.absolute cwd (p' ++ e') ↔ e = e' ∧ Meet cwd p p' := by
  rw [← lastName_append he.plain] at h
  rw [← lastName_append he'.plain] at h'
  rw [absolute_eq_iff hcwd h h', meet_iff, meet_iff, dir_append he.plain, dir_append he'.plain,
    lastName_append he.plain, lastName_append he'.plain, append_inj he he', and_left_comm]

end Meet

end Phrasebook.Path
