import Mathlib.Data.List.Induction
import Phrasebook.Source.Path

/-!
Paths and the names they are made of. A clean path is told by its names, cleaning and seeing a path
from a directory do not depend on how the path was spelled, and a relative path tells which path it
leads to.
-/
namespace Phrasebook

/-! ### Cutting texts -/

namespace Text

-- the equations are made once, ahead of the lemmas that rewrite with them
attribute [local simp] splitAt

theorem splitAt_ne_nil (sep : Char) (cs : List Char) : splitAt sep cs ≠ [] := by
  cases cs with
  | nil => exact List.cons_ne_nil _ _
  | cons c r =>
    rw [splitAt]
    split
    · exact List.cons_ne_nil _ _
    · split <;> exact List.cons_ne_nil _ _

theorem splitAt_append (sep : Char) (cs ds : List Char) :
    splitAt sep (cs ++ sep :: ds) = splitAt sep cs ++ splitAt sep ds := by
  induction cs with
  | nil => simp only [List.nil_append, splitAt, if_true, List.singleton_append]
  | cons c r ih =>
    rw [List.cons_append, splitAt, splitAt, ih]
    split
    · rfl
    · obtain ⟨part, parts, hr⟩ := List.exists_cons_of_ne_nil (splitAt_ne_nil sep r)
      rw [hr]
      rfl

theorem splitAt_of_not_mem {sep : Char} {cs : List Char} (h : sep ∉ cs) : splitAt sep cs = [cs] := by
  induction cs with
  | nil => rfl
  | cons c r ih =>
    obtain ⟨hc, hr⟩ := not_or.mp (List.mem_cons.not.mp h)
    rw [splitAt, if_neg (Ne.symm hc), ih hr]

theorem not_mem_splitAt {sep : Char} {cs part : List Char} (h : part ∈ splitAt sep cs) :
    sep ∉ part := by
  induction cs generalizing part with
  | nil =>
    rw [List.mem_singleton.mp h]
    exact List.not_mem_nil
  | cons c r ih =>
    rw [splitAt] at h
    split at h
    · rcases List.mem_cons.mp h with rfl | h
      · exact List.not_mem_nil
      · exact ih h
    · rename_i hc
      split at h
      · rw [List.mem_singleton.mp h, List.mem_singleton]
        exact Ne.symm hc
      · rename_i p ps hr
        rcases List.mem_cons.mp h with rfl | h
        · rw [List.mem_cons, not_or]
          exact ⟨Ne.symm hc, ih (hr ▸ List.mem_cons_self)⟩
        · exact ih (hr ▸ List.mem_cons_of_mem p h)

/-- What a text ends in, its last part ends in, unless there is a separator in it. -/
theorem getLast?_splitAt_append {sep : Char} {ds : List Char} (h : sep ∉ ds) (cs : List Char) :
    ∃ part, (splitAt sep (cs ++ ds)).getLast? = some (part ++ ds) := by
  induction cs with
  | nil => exact ⟨[], by rw [List.nil_append, splitAt_of_not_mem h]; rfl⟩
  | cons c r ih =>
    obtain ⟨part, hlast⟩ := ih
    rw [List.cons_append, splitAt]
    split
    · obtain ⟨p, ps, hr⟩ := List.exists_cons_of_ne_nil (splitAt_ne_nil sep (r ++ ds))
      rw [hr] at hlast ⊢
      exact ⟨part, hlast⟩
    · split
      · rename_i hr
        exact absurd hr (splitAt_ne_nil sep _)
      · rename_i p ps hr
        rw [hr] at hlast
        -- `c` joins the first part, which is the last one only if it stands alone
        cases ps with
        | nil =>
          have hp : p = part ++ ds := Option.some.inj hlast
          exact ⟨c :: part, by rw [hp]; rfl⟩
        | cons q ps => exact ⟨part, hlast⟩

/-- Texts without the separator are those that the joined text is cut into. -/
theorem splitAt_intercalate {sep : Char} {ts : List (List Char)} (hne : ts ≠ [])
    (h : ∀ t ∈ ts, sep ∉ t) : splitAt sep ([sep].intercalate ts) = ts := by
  induction ts with
  | nil => exact absurd rfl hne
  | cons t ts ih =>
    obtain ⟨ht, hts⟩ := List.forall_mem_cons.mp h
    cases ts with
    | nil => rw [List.intercalate_singleton, splitAt_of_not_mem ht]
    | cons t' ts =>
      rw [List.intercalate_cons_cons, List.append_assoc, List.singleton_append, splitAt_append,
        splitAt_of_not_mem ht, ih (List.cons_ne_nil _ _) hts]
      rfl

end Text

namespace Path

/-! ### Names -/

/-- A name that stands for itself or for the directory above. -/
structure IsName (n : String) : Prop where
  ne_empty : n ≠ ""
  ne_dot : n ≠ "."
  plain : '/' ∉ n.toList

theorem parts_append (p q : String) : parts (p ++ "/" ++ q) = parts p ++ parts q := by
  have hslash : (p ++ "/" ++ q).toList = p.toList ++ '/' :: q.toList := by
    rw [String.toList_append, String.toList_append, List.append_assoc]
    rfl
  rw [parts, hslash, Text.splitAt_append, List.map_append]
  rfl

theorem plain_of_mem_parts {p n : String} (h : n ∈ parts p) : '/' ∉ n.toList := by
  obtain ⟨part, hpart, rfl⟩ := List.mem_map.mp h
  rw [String.toList_ofList]
  exact Text.not_mem_splitAt hpart

theorem parts_join {ns : List String} (hne : ns ≠ []) (h : ∀ n ∈ ns, '/' ∉ n.toList) :
    parts (Text.join "/" ns) = ns := by
  have hslash : "/".toList = ['/'] := rfl
  rw [parts, Text.join, String.toList_intercalate, hslash, Text.splitAt_intercalate,
    List.map_map]
  · simp only [Function.comp_def, String.ofList_toList, List.map_id']
  · simpa only [ne_eq, List.map_eq_nil_iff] using hne
  · simpa only [List.forall_mem_map] using h

/-! ### Resolving names -/

/-- Reversed names in which nothing is left to resolve: those of a relative path may start with
steps upwards. -/
inductive Resolved (rooted : Bool) : List String → Prop where
  | nil : Resolved rooted []
  | up {done : List String} : rooted = false → (∀ n ∈ done, n = "..") →
      Resolved rooted done → Resolved rooted (".." :: done)
  | name {n : String} {done : List String} : IsName n → n ≠ ".." → Resolved rooted done →
      Resolved rooted (n :: done)

theorem Resolved.isName {rooted : Bool} {done : List String} (h : Resolved rooted done) :
    ∀ n ∈ done, IsName n := by
  induction h with
  | nil => exact fun _ hn => absurd hn List.not_mem_nil
  | up _ _ _ ih => exact List.forall_mem_cons.mpr ⟨⟨by decide, by decide, by decide⟩, ih⟩
  | name hn _ _ ih => exact List.forall_mem_cons.mpr ⟨hn, ih⟩

theorem step_skip (rooted : Bool) (done : List String) {n : String} (h : n = "" ∨ n = ".") :
    step rooted done n = done := by
  rcases h with rfl | rfl <;> rfl

theorem step_of_isName {rooted : Bool} {n : String} (done : List String) (h : IsName n)
    (hup : n ≠ "..") : step rooted done n = n :: done := by
  unfold step
  simp only [h.ne_empty, h.ne_dot, hup, decide_false, Bool.or_self, Bool.false_eq_true, if_false]

theorem step_up_nil (rooted : Bool) : step rooted [] ".." = if rooted then [] else [".."] :=
  rfl

theorem step_up_cons (rooted : Bool) (top : String) (below : List String) :
    step rooted (top :: below) ".." = if top = ".." then ".." :: top :: below else below :=
  rfl

theorem Resolved.step {rooted : Bool} {done : List String} {n : String}
    (h : Resolved rooted done) (hn : '/' ∉ n.toList) : Resolved rooted (Path.step rooted done n) := by
  by_cases hskip : n = "" ∨ n = "."
  · rw [step_skip rooted done hskip]
    exact h
  · obtain ⟨hempty, hdot⟩ := not_or.mp hskip
    by_cases hup : n = ".."
    · subst hup
      cases h with
      | nil =>
        cases rooted with
        | true => exact .nil
        | false => exact .up rfl (fun _ hm => absurd hm List.not_mem_nil) .nil
      | up hrooted hall hbelow =>
        exact .up hrooted (List.forall_mem_cons.mpr ⟨rfl, hall⟩) (.up hrooted hall hbelow)
      | name _ hne hbelow =>
        rw [step_up_cons, if_neg hne]
        exact hbelow
    · rw [step_of_isName done ⟨hempty, hdot, hn⟩ hup]
      exact .name ⟨hempty, hdot, hn⟩ hup h

theorem resolved_foldl (rooted : Bool) {ns : List String} (h : ∀ n ∈ ns, '/' ∉ n.toList) :
    Resolved rooted (ns.foldl (step rooted) []) := by
  induction ns using List.reverseRecOn with
  | nil => exact .nil
  | append_singleton ns n ih =>
    obtain ⟨hns, hn⟩ := List.forall_mem_append.mp h
    rw [List.foldl_append]
    exact (ih hns).step (hn n List.mem_cons_self)

/-- Resolving again changes nothing. -/
theorem Resolved.foldl_reverse {rooted : Bool} {done : List String} (h : Resolved rooted done) :
    done.reverse.foldl (Path.step rooted) [] = done := by
  induction h with
  | nil => rfl
  | @up done hrooted hall _ ih =>
    rw [List.reverse_cons, List.foldl_append, ih, List.foldl_cons, List.foldl_nil]
    cases done with
    | nil => rw [step_up_nil, hrooted, if_neg Bool.false_ne_true]
    | cons top below => rw [step_up_cons, if_pos (hall top List.mem_cons_self)]
  | @name n done hn hup _ ih =>
    rw [List.reverse_cons, List.foldl_append, ih, List.foldl_cons, List.foldl_nil,
      step_of_isName done hn hup]

/-- Below a root, resolved names lead where the names they came from lead. -/
theorem foldl_foldl (done : List String) {ns : List String} (h : ∀ n ∈ ns, '/' ∉ n.toList) :
    (ns.foldl (step false) []).reverse.foldl (step true) done = ns.foldl (step true) done := by
  induction ns using List.reverseRecOn with
  | nil => rfl
  | append_singleton ns n ih =>
    obtain ⟨hns, hn⟩ := List.forall_mem_append.mp h
    have hn := hn n List.mem_cons_self
    have hresolved := resolved_foldl false hns
    have ih := ih hns
    rw [List.foldl_append, List.foldl_append, ← ih]
    generalize ns.foldl (step false) [] = resolved at hresolved
    rw [List.foldl_cons, List.foldl_nil, List.foldl_cons, List.foldl_nil]
    by_cases hskip : n = "" ∨ n = "."
    · rw [step_skip false resolved hskip, step_skip true _ hskip]
    · obtain ⟨hempty, hdot⟩ := not_or.mp hskip
      by_cases hup : n = ".."
      · subst hup
        cases hresolved with
        | nil => rfl
        | @up above _ _ _ =>
          rw [step_up_cons, if_pos rfl, @List.reverse_cons _ _ (".." :: above),
            List.foldl_append]
          rfl
        | @name top below htop hne _ =>
          -- the step upwards takes back the step into the last name
          rw [step_up_cons, if_neg hne, List.reverse_cons, List.foldl_append, List.foldl_cons,
            List.foldl_nil, step_of_isName _ htop hne, step_up_cons, if_neg hne]
      · rw [step_of_isName resolved ⟨hempty, hdot, hn⟩ hup, List.reverse_cons, List.foldl_append]
        rfl

/-! ### Clean paths -/

theorem resolved_names (p : String) : Resolved (isAbsolute p) (names p).reverse := by
  rw [names, List.reverse_reverse]
  exact resolved_foldl _ fun _ => plain_of_mem_parts

theorem isName_of_mem_names {p n : String} (h : n ∈ names p) : IsName n :=
  (resolved_names p).isName n (List.mem_reverse.mpr h)

theorem isAbsolute_ofNames {rooted : Bool} {ns : List String} (h : ∀ n ∈ ns, IsName n) :
    isAbsolute (ofNames rooted ns) = rooted := by
  cases rooted with
  | true =>
    have hslash : (ofNames true ns).toList.head? = some '/' := by
      rw [ofNames, if_pos rfl, String.toList_append]
      rfl
    rw [isAbsolute, hslash]
    rfl
  | false =>
    rw [ofNames]
    cases ns with
    | nil => rfl
    | cons n ns =>
      have hn := h n List.mem_cons_self
      obtain ⟨c, r, hcr⟩ := List.exists_cons_of_ne_nil
        fun hnil => hn.ne_empty (String.toList_eq_nil_iff.mp hnil)
      have hhead : (Text.join "/" (n :: ns)).toList.head? = some c := by
        rw [Text.join, String.toList_intercalate, List.map_cons, hcr]
        cases ns <;> rfl
      have hc : c ≠ '/' := fun hslash => hn.plain (hcr ▸ hslash ▸ List.mem_cons_self)
      simp only [List.isEmpty_cons, Bool.false_eq_true, if_false, isAbsolute, hhead]
      exact beq_eq_false_iff_ne.mpr fun hsome => hc (Option.some.inj hsome)

theorem names_ofNames {rooted : Bool} {ns : List String} (h : Resolved rooted ns.reverse) :
    names (ofNames rooted ns) = ns := by
  have hname : ∀ n ∈ ns, IsName n := fun n hn => h.isName n (List.mem_reverse.mpr hn)
  have hplain : ∀ n ∈ ns, '/' ∉ n.toList := fun n hn => (hname n hn).plain
  have hfold := h.foldl_reverse
  rw [List.reverse_reverse] at hfold
  rw [names, isAbsolute_ofNames hname]
  cases ns with
  | nil => cases rooted <;> rfl
  | cons n ns =>
    have hparts : parts (Text.join "/" (n :: ns)) = n :: ns := parts_join (List.cons_ne_nil _ _) hplain
    cases rooted with
    | true =>
      have hroot : parts (ofNames true (n :: ns)) = "" :: n :: ns := by
        have happend := parts_append "" (Text.join "/" (n :: ns))
        rw [hparts, String.empty_append] at happend
        exact happend
      have hfirst : step true [] "" = [] := rfl
      rw [hroot, List.foldl_cons, hfirst, hfold, List.reverse_reverse]
    | false =>
      have hrelative : parts (ofNames false (n :: ns)) = n :: ns := hparts
      rw [hrelative, hfold, List.reverse_reverse]

theorem isAbsolute_clean (p : String) : isAbsolute (clean p) = isAbsolute p :=
  isAbsolute_ofNames fun _ => isName_of_mem_names

theorem names_clean (p : String) : names (clean p) = names p :=
  names_ofNames (resolved_names p)

theorem clean_clean (p : String) : clean (clean p) = clean p := by
  rw [clean, isAbsolute_clean, names_clean, ← clean]

theorem join_ne_empty {ns : List String} (hne : ns ≠ []) (h : ∀ n ∈ ns, IsName n) :
    Text.join "/" ns ≠ "" := by
  intro hempty
  have hparts := parts_join hne fun n hn => (h n hn).plain
  rw [hempty] at hparts
  have hname := h "" (hparts ▸ List.mem_singleton.mpr rfl)
  exact hname.ne_empty rfl

theorem ofNames_ne_empty {rooted : Bool} {ns : List String} (h : ∀ n ∈ ns, IsName n) :
    ofNames rooted ns ≠ "" := by
  cases rooted with
  | true =>
    intro hempty
    have hlist := congrArg String.toList hempty
    rw [ofNames, if_pos rfl, String.toList_append] at hlist
    exact nomatch hlist
  | false =>
    cases ns with
    | nil => decide
    | cons n ns => exact join_ne_empty (List.cons_ne_nil _ _) h

theorem clean_ne_empty (p : String) : clean p ≠ "" :=
  ofNames_ne_empty fun _ => isName_of_mem_names

theorem join_pair {p q : String} (hp : p ≠ "") (hq : q ≠ "") :
    join [p, q] = clean (p ++ "/" ++ q) := by
  have hboth : [p, q].filter (· ≠ "") = [p, q] := by
    simp only [ne_eq, hp, hq, not_false_eq_true, decide_true, List.filter_cons_of_pos,
      List.filter_nil]
  rw [join, hboth]
  rfl

/-! ### Absolute paths -/

section Absolute

variable {cwd : String} (hcwd : isAbsolute cwd = true)

include hcwd

theorem ne_empty_of_isAbsolute : cwd ≠ "" := by
  rintro rfl
  exact nomatch hcwd

theorem isAbsolute_append (p : String) : isAbsolute (cwd ++ "/" ++ p) = true := by
  rw [isAbsolute] at hcwd ⊢
  cases hlist : cwd.toList with
  | nil =>
    rw [hlist] at hcwd
    exact nomatch hcwd
  | cons c r =>
    rw [hlist] at hcwd
    rw [String.toList_append, String.toList_append, hlist]
    exact hcwd

theorem absolute_of_relative {p : String} (hp : isAbsolute p = false) (hne : p ≠ "") :
    absolute cwd p = clean (cwd ++ "/" ++ p) := by
  rw [absolute, hp, if_neg Bool.false_ne_true, join_pair (ne_empty_of_isAbsolute hcwd) hne]

/-- How a path is spelled does not matter to where it leads. -/
theorem absolute_clean {p : String} (hne : p ≠ "") : absolute cwd (clean p) = absolute cwd p := by
  cases hp : isAbsolute p with
  | true => rw [absolute, absolute, isAbsolute_clean, hp, if_pos rfl, if_pos rfl, clean_clean]
  | false =>
    have hp' : isAbsolute (clean p) = false := by rw [isAbsolute_clean, hp]
    have hjoined (q : String) : clean (cwd ++ "/" ++ q) =
        ofNames true ((parts q).foldl (step true) ((parts cwd).foldl (step true) [])).reverse := by
      rw [clean, names, isAbsolute_append hcwd, parts_append, List.foldl_append]
    have hparts : parts (clean p) = ["."] ∧ names p = [] ∨ parts (clean p) = names p := by
      rw [clean, hp, ofNames, if_neg Bool.false_ne_true]
      cases hnames : names p with
      | nil => exact .inl ⟨rfl, rfl⟩
      | cons n ns =>
        refine .inr (parts_join (List.cons_ne_nil _ _) fun m hm => ?_)
        exact (isName_of_mem_names (hnames ▸ hm)).plain
    have hfold (done : List String) :
        (parts (clean p)).foldl (step true) done = (names p).foldl (step true) done := by
      rcases hparts with ⟨hdot, hnil⟩ | hsame
      · rw [hdot, hnil]
        rfl
      · rw [hsame]
    rw [absolute_of_relative hcwd hp' (clean_ne_empty p), absolute_of_relative hcwd hp hne,
      hjoined, hjoined, hfold, names, hp, foldl_foldl _ fun _ => plain_of_mem_parts]

theorem isAbsolute_absolute (p : String) : isAbsolute (absolute cwd p) = true := by
  cases hp : isAbsolute p with
  | true => rw [absolute, hp, if_pos rfl, isAbsolute_clean, hp]
  | false =>
    by_cases hne : p = ""
    · subst hne
      have hone : [cwd, ""].filter (· ≠ "") = [cwd] := by
        simp only [ne_eq, ne_empty_of_isAbsolute hcwd, not_false_eq_true, decide_true,
          List.filter_cons_of_pos, not_true_eq_false, decide_false, Bool.false_eq_true,
          List.filter_cons_of_neg, List.filter_nil]
      rw [absolute, hp, if_neg Bool.false_ne_true, join, hone]
      exact (isAbsolute_clean _).trans hcwd
    · rw [absolute_of_relative hcwd hp hne, isAbsolute_clean, isAbsolute_append hcwd]

end Absolute

theorem clean_absolute (cwd p : String) (h : absolute cwd p ≠ "") :
    clean (absolute cwd p) = absolute cwd p := by
  rw [absolute] at h ⊢
  split
  · exact clean_clean p
  · rename_i hp
    rw [if_neg hp] at h
    rw [join] at h ⊢
    split
    · rename_i hnil
      rw [hnil] at h
      exact absurd rfl h
    · exact clean_clean _

/-! ### Last names -/

/-- A name that stands for itself. -/
structure IsProper (n : String) : Prop extends IsName n where
  ne_up : n ≠ ".."

/-- The last name of the path is `n`, and it stands for itself. -/
structure EndsIn (p n : String) : Prop where
  last : (parts p).getLast? = some n
  proper : IsProper n

namespace EndsIn

variable {p n : String}

theorem names (h : EndsIn p n) : (names p).getLast? = some n := by
  obtain ⟨before, hparts⟩ := List.getLast?_eq_some_iff.mp h.last
  rw [Path.names, hparts, List.foldl_append, List.foldl_cons, List.foldl_nil,
    step_of_isName _ h.proper.toIsName h.proper.ne_up, List.reverse_cons, List.getLast?_concat]

theorem clean (h : EndsIn p n) : EndsIn (clean p) n := by
  refine ⟨?_, h.proper⟩
  have hnames := h.names
  have hplain : ∀ m ∈ Path.names p, '/' ∉ m.toList := fun m hm => (isName_of_mem_names hm).plain
  cases hlist : Path.names p with
  | nil =>
    rw [hlist] at hnames
    cases hnames
  | cons m ms =>
    have hparts : parts (Text.join "/" (m :: ms)) = m :: ms :=
      parts_join (List.cons_ne_nil _ _) (hlist ▸ hplain)
    rw [hlist] at hnames
    rw [Path.clean, hlist]
    cases isAbsolute p with
    | false => exact (congrArg List.getLast? hparts).trans hnames
    | true =>
      have hroot := parts_append "" (Text.join "/" (m :: ms))
      rw [hparts, String.empty_append] at hroot
      exact (congrArg List.getLast? hroot).trans hnames

theorem ne_empty (h : EndsIn p n) : p ≠ "" := by
  rintro rfl
  have hlast := h.last
  exact h.proper.ne_empty (Option.some.inj hlast).symm

/-- Whatever stands before, a joined path ends as its last part does. -/
theorem join (h : EndsIn p n) (ps : List String) : EndsIn (join (ps ++ [p])) n := by
  -- the parts of joined texts end with those of the last one
  have hparts (qs : List String) :
      ∃ before, parts (Text.join "/" (qs ++ [p])) = before ++ parts p := by
    induction qs with
    | nil => exact ⟨[], rfl⟩
    | cons q qs ih =>
      obtain ⟨before, hbefore⟩ := ih
      obtain ⟨m, ms, hcons⟩ := List.exists_cons_of_ne_nil (List.append_ne_nil_of_right_ne_nil qs
        (List.cons_ne_nil p []))
      refine ⟨parts q ++ before, ?_⟩
      rw [List.cons_append, hcons, Text.join, String.intercalate_cons_cons, ← hcons, parts_append,
        ← Text.join, hbefore, List.append_assoc]
  have hfilter : (ps ++ [p]).filter (· ≠ "") = ps.filter (· ≠ "") ++ [p] := by
    have hp : [p].filter (· ≠ "") = [p] := by
      simp only [ne_eq, h.ne_empty, not_false_eq_true, decide_true, List.filter_cons_of_pos,
        List.filter_nil]
    rw [List.filter_append, hp]
  obtain ⟨before, hbefore⟩ := hparts (ps.filter (· ≠ ""))
  have hjoin : Path.join (ps ++ [p]) = Path.clean (Text.join "/" (ps.filter (· ≠ "") ++ [p])) := by
    rw [Path.join, hfilter]
    split
    · rename_i hnil
      exact absurd hnil (List.append_ne_nil_of_right_ne_nil _ (List.cons_ne_nil p []))
    · rfl
  rw [hjoin]
  refine EndsIn.clean ⟨?_, h.proper⟩
  rw [hbefore, List.getLast?_append, h.last]
  rfl

theorem absolute (h : EndsIn p n) (cwd : String) : EndsIn (absolute cwd p) n := by
  rw [Path.absolute]
  split
  · exact h.clean
  · exact h.join [cwd]

end EndsIn

/-- A name that does not end in a dot stands for itself. -/
theorem isProper_append (s : String) {t : String} {c : Char} (hlast : t.toList.getLast? = some c)
    (hc : c ≠ '.') (hplain : '/' ∉ (s ++ t).toList) : IsProper (s ++ t) := by
  have hend : (s ++ t).toList.getLast? = some c := by
    rw [String.toList_append, List.getLast?_append, hlast]
    rfl
  have hne {n : String} (hn : n.toList.getLast? = none ∨ n.toList.getLast? = some '.') :
      s ++ t ≠ n := by
    intro hsame
    rw [← hsame, hend] at hn
    rcases hn with hn | hn
    · cases hn
    · exact hc (Option.some.inj hn)
  exact ⟨⟨hne (.inl rfl), hne (.inr rfl), hplain⟩, hne (.inr rfl)⟩

/-- A path with an extension ends in a name with that extension. -/
theorem endsIn_append (p : String) {t : String} {c : Char} (hlast : t.toList.getLast? = some c)
    (hc : c ≠ '.') (hplain : '/' ∉ t.toList) : ∃ s, EndsIn (p ++ t) (s ++ t) := by
  obtain ⟨part, hpart⟩ := Text.getLast?_splitAt_append hplain p.toList
  have hparts : (parts (p ++ t)).getLast? = some (String.ofList part ++ t) := by
    rw [parts, String.toList_append, List.getLast?_map, hpart, Option.map_some, String.ofList_append,
      String.ofList_toList]
  refine ⟨String.ofList part, hparts, isProper_append _ hlast hc ?_⟩
  exact plain_of_mem_parts (List.mem_of_getLast? hparts)

/-! ### Relative paths -/

/-- Two lists are the same as far as they agree from the start on. -/
theorem take_common {α : Type} [BEq α] [LawfulBEq α] (xs ys : List α) :
    let n := ((xs.zip ys).takeWhile fun (x, y) => x == y).length
    xs.take n = ys.take n := by
  induction xs generalizing ys with
  | nil => rw [List.zip_nil_left]; rfl
  | cons x xs ih =>
    cases ys with
    | nil => rfl
    | cons y ys =>
      simp only [List.zip_cons_cons, List.takeWhile_cons]
      split
      · rename_i hsame
        have hrest := ih ys
        simp only at hrest
        rw [List.length_cons, List.take_succ_cons, List.take_succ_cons, hrest, eq_of_beq hsame]
      · rfl

/-- A relative path leads up from the base to what both share, and down from there. -/
theorem relative?_eq_some {base target r : String} (h : relative? base target = some r)
    (hself : r ≠ ".") :
    isAbsolute target = isAbsolute base ∧ ∃ shared up down, names base = shared ++ up ∧
      names target = shared ++ down ∧ up.map (fun _ => "..") ++ down ≠ [] ∧
      r = Text.join "/" (up.map (fun _ => "..") ++ down) := by
  rw [relative?] at h
  simp only [names_clean, isAbsolute_clean] at h
  split at h
  · exact absurd (Option.some.inj h).symm hself
  · split at h
    · exact nomatch h
    · rename_i hrooted
      split at h
      · exact nomatch h
      · have hcommon := take_common (names base) (names target)
        generalize ((((names base).zip (names target)).takeWhile _).length) = n at h hcommon
        have h := Option.some.inj h
        split at h
        · exact absurd h.symm hself
        · rename_i hsome
          refine ⟨(not_not.mp hrooted).symm, (names base).take n, (names base).drop n,
            (names target).drop n, (List.take_append_drop n _).symm, ?_, ?_, h.symm⟩
          · rw [hcommon, List.take_append_drop]
          · exact fun hnil => hsome (List.isEmpty_iff.mpr hnil)

/-- A relative path that does not start upwards spells the names below the base. -/
theorem names_of_relative? {base target r : String} (h : relative? base target = some r)
    (hself : r ≠ ".") (hdown : "..".isPrefixOf r = false) :
    isAbsolute target = isAbsolute base ∧ names target = names base ++ parts r := by
  obtain ⟨hrooted, shared, up, down, hbase, htarget, hne, rfl⟩ := relative?_eq_some h hself
  have hdown' : ∀ n ∈ down, '/' ∉ n.toList := fun n hn =>
    (isName_of_mem_names (htarget ▸ List.mem_append_right shared hn)).plain
  cases up with
  | nil =>
    rw [List.append_nil] at hbase
    rw [List.map_nil, List.nil_append] at hne ⊢
    exact ⟨hrooted, by rw [parts_join hne hdown', htarget, hbase]⟩
  | cons n up =>
    have hstart : "..".toList <+: (Text.join "/" ((n :: up).map (fun _ => "..") ++ down)).toList := by
      rw [Text.join, String.toList_intercalate, List.map_cons, List.cons_append, List.map_cons]
      cases up.map (fun _ => "..") ++ down with
      | nil => exact List.prefix_refl _
      | cons m rest =>
        rw [List.map_cons, List.intercalate_cons_cons, List.append_assoc]
        exact List.prefix_append _ _
    rw [String.isPrefixOf, String.startsWith_string_eq_false_iff] at hdown
    exact absurd hstart hdown

/-- A relative path that does not start upwards tells where it leads. -/
theorem eq_of_relative? {base target target' r : String} (h : relative? base target = some r)
    (h' : relative? base target' = some r) (hself : r ≠ ".") (hdown : "..".isPrefixOf r = false) :
    clean target = clean target' := by
  obtain ⟨hrooted, hnames⟩ := names_of_relative? h hself hdown
  obtain ⟨hrooted', hnames'⟩ := names_of_relative? h' hself hdown
  rw [clean, clean, hrooted, hrooted', hnames, hnames']

theorem relative?_spec {base target r : String} (h : relative? base target = some r) :
    r ≠ "" ∧ isAbsolute r = false := by
  by_cases hself : r = "."
  · subst hself
    exact ⟨by decide, by decide⟩
  · obtain ⟨-, shared, up, down, -, htarget, hne, rfl⟩ := relative?_eq_some h hself
    have hname : ∀ n ∈ up.map (fun _ => "..") ++ down, IsName n := by
      refine List.forall_mem_append.mpr ⟨fun n hn => ?_, fun n hn => ?_⟩
      · obtain ⟨-, -, rfl⟩ := List.mem_map.mp hn
        exact ⟨by decide, by decide, by decide⟩
      · exact isName_of_mem_names (htarget ▸ List.mem_append_right shared hn)
    have hofNames : ofNames false (up.map (fun _ => "..") ++ down) =
        Text.join "/" (up.map (fun _ => "..") ++ down) := by
      rw [ofNames, if_neg Bool.false_ne_true,
        if_neg fun hempty => hne (List.isEmpty_iff.mp hempty)]
    exact ⟨join_ne_empty hne hname, hofNames ▸ isAbsolute_ofNames hname⟩

end Path

end Phrasebook
