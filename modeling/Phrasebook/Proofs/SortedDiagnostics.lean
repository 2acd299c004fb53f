import Mathlib.Data.Prod.Lex
import Mathlib.Data.String.Basic
import Phrasebook.Diagnostic.Short

/-!
Diagnostics in order. Lines of diagnostics are ordered by everything that they say, so they come out
the same whatever order the diagnostics were found in. A bag is ordered by place, severity and code;
of the diagnostics with one code and one span it then keeps the first, which is one of the worst.
-/
namespace Phrasebook

/-! ### Sorting by a key -/

section Keyed

variable {α κ : Type} [LinearOrder κ] {key : α → κ} {first : α → α → Bool}

/-- One level of an order: what differs decides, the levels behind it are asked only if nothing
does. -/
theorem lex_iff {rank : α → κ} [DecidableEq α] (hrank : Function.Injective rank) {a b : α}
    {less later : Bool} (hless : less = true ↔ rank a < rank b) :
    (if a ≠ b then less else later) = true ↔ rank a < rank b ∨ rank a = rank b ∧ later = true := by
  by_cases hab : a = b
  · subst hab
    rw [if_neg (fun h => h rfl)]
    constructor
    · exact fun h => .inr ⟨rfl, h⟩
    · rintro (h | ⟨-, h⟩)
      · exact absurd h (lt_irrefl _)
      · exact h
  · rw [if_pos hab, hless]
    constructor
    · exact .inl
    · rintro (h | ⟨h, -⟩)
      · exact h
      · exact absurd (hrank h) hab

variable (hfirst : ∀ a b, first a b = true ↔ key a < key b)

include hfirst

theorem not_first_iff (a b : α) : (!first b a) = true ↔ key a ≤ key b := by
  rw [Bool.not_eq_true', ← Bool.not_eq_true, hfirst, not_lt]

theorem pairwise_sorted (l : List α) :
    (List.mergeSort l fun a b => !first b a).Pairwise fun a b => key a ≤ key b := by
  have htrans (a b c : α) (hab : (!first b a) = true) (hbc : (!first c b) = true) :
      (!first c a) = true := by
    rw [not_first_iff hfirst] at hab hbc ⊢
    exact hab.trans hbc
  have htotal (a b : α) : (!first b a || !first a b) = true := by
    rw [Bool.or_eq_true_iff, not_first_iff hfirst, not_first_iff hfirst]
    exact le_total (key a) (key b)
  exact (List.pairwise_mergeSort htrans htotal l).imp fun h => (not_first_iff hfirst _ _).mp h

theorem sorted_eq_self {l : List α} (h : l.Pairwise fun a b => key a ≤ key b) :
    (List.mergeSort l fun a b => !first b a) = l :=
  List.mergeSort_of_pairwise (h.imp fun h => (not_first_iff hfirst _ _).mpr h)

/-- If a key tells everything, the order of a list before it is sorted does not matter. -/
theorem sorted_eq_of_perm (hkey : Function.Injective key) {l l' : List α} (h : l.Perm l') :
    (List.mergeSort l fun a b => !first b a) = List.mergeSort l' fun a b => !first b a := by
  have hperm := (List.mergeSort_perm l fun a b => !first b a).trans
    (h.trans (List.mergeSort_perm l' fun a b => !first b a).symm)
  exact hperm.eq_of_pairwise (fun a b _ _ hab hba => hkey (le_antisymm hab hba))
    (pairwise_sorted hfirst l) (pairwise_sorted hfirst l')

end Keyed

/-! ### Lines of diagnostics -/

namespace Short

/-- What lines are ordered by. -/
def Record.key (r : Record) : String ×ₗ ℕ ×ₗ ℕ ×ₗ String ×ₗ String ×ₗ String :=
  toLex (r.path, toLex (r.line, toLex (r.column, toLex (r.severity, toLex (r.code, r.message)))))

theorem Record.key_injective : Function.Injective Record.key := by
  rintro ⟨severity, code, path, line, column, message⟩ ⟨_, _, _, _, _, _⟩ h
  simp only [key, toLex_inj, Prod.mk.injEq] at h
  obtain ⟨rfl, rfl, rfl, rfl, rfl, rfl⟩ := h
  rfl

theorem comesFirst_iff (a b : Record) : comesFirst a b = true ↔ a.key < b.key := by
  have hid {α : Type} : Function.Injective (fun a : α => a) := fun _ _ h => h
  rw [comesFirst, lex_iff hid decide_eq_true_iff, lex_iff hid decide_eq_true_iff,
    lex_iff hid decide_eq_true_iff, lex_iff hid decide_eq_true_iff, lex_iff hid decide_eq_true_iff,
    decide_eq_true_iff]
  simp only [Record.key, Prod.Lex.toLex_lt_toLex]

/-- Something to be told: what it is called, its code, where it stands and what it says. -/
structure Remark where
  label : String
  code : Code
  span : Span
  message : String

/-- The line of a remark, if its file is known. -/
def Remark.record? (fs : FileSet) (cwd : String) (m : Remark) : Option Record :=
  Short.record? fs cwd m.label m.code m.span m.message

/-- What a diagnostic has to tell: itself and, if asked for, each of its notes. -/
def remarks (notes : Bool) (d : Diagnostic) : List Remark :=
  ⟨severityLabel d.severity, d.code, d.primary, d.message⟩ ::
    if notes then d.notes.map fun n => ⟨"note", d.code, n.span, n.message⟩ else []

/-- A line tells a remark: its file is known, and the line says where in it the remark stands. -/
structure Tells (fs : FileSet) (cwd : String) (m : Remark) (r : Record) : Prop where
  severity : r.severity = m.label
  code : r.code = m.code.id
  message : r.message = flatten m.message
  place : ∃ f, fs.get? m.span.file = some f ∧
    r.path = String.ofList (dropHere (f.showPath cwd .relative (fs.baseDir cwd)).toList) ∧
    ⟨r.line, r.column⟩ = f.positionOf m.span.start

variable (fs : FileSet) (cwd : String)

theorem records_eq (notes : Bool) (d : Diagnostic) : records fs cwd notes d =
    (remarks notes d).filterMap (Remark.record? fs cwd) := by
  rw [records, remarks, List.filterMap_cons, Remark.record?]
  cases notes with
  | false => cases record? fs cwd (severityLabel d.severity) d.code d.primary d.message <;> rfl
  | true =>
    rw [if_pos rfl, if_pos rfl, List.filterMap_map]
    cases record? fs cwd (severityLabel d.severity) d.code d.primary d.message <;> rfl

/-- The remarks that are told are those whose file is known, each by one line. -/
theorem forall₂_tells (ms : List Remark) :
    List.Forall₂ (Tells fs cwd) (ms.filter fun m => (fs.get? m.span.file).isSome)
      (ms.filterMap (Remark.record? fs cwd)) := by
  induction ms with
  | nil => exact .nil
  | cons m r ih =>
    cases hfile : fs.get? m.span.file with
    | none =>
      have hrecord : m.record? fs cwd = none := by
        rw [Remark.record?, record?, place?, hfile]
        rfl
      rw [List.filter_cons_of_neg (by rw [hfile]; decide), List.filterMap_cons_none hrecord]
      exact ih
    | some f =>
      have hrecord : m.record? fs cwd =
          some ⟨m.label, m.code.id,
            String.ofList (dropHere (f.showPath cwd .relative (fs.baseDir cwd)).toList),
            (f.positionOf m.span.start).line, (f.positionOf m.span.start).column,
            flatten m.message⟩ := by
        simp only [Remark.record?, record?, place?, FileSet.resolve, hfile, Option.map_some]
      rw [List.filter_cons_of_pos (by rw [hfile]; rfl), List.filterMap_cons_some hrecord]
      exact .cons ⟨rfl, rfl, rfl, f, hfile, rfl, rfl⟩ ih

/-- Lines do not depend on the order in which diagnostics were found. Each diagnostic whose file is
known has one line and, if asked for, so has each of its notes; the lines ascend by path, line,
column, severity, code and message. -/
theorem text_of_perm (notes : Bool) {ds ds' : List Diagnostic} (h : ds.Perm ds') :
    text fs cwd notes ds' = text fs cwd notes ds ∧
      ∃ rs, text fs cwd notes ds = "\n".intercalate (rs.map Record.text) ∧
        (rs.Pairwise fun a b => a.key ≤ b.key) ∧
        ∃ told, told.Perm rs ∧ List.Forall₂ (Tells fs cwd)
          ((ds.flatMap (remarks notes)).filter fun m => (fs.get? m.span.file).isSome) told := by
  constructor
  · have hrecords := h.flatMap_right (records fs cwd notes)
    rw [text, text, sorted_eq_of_perm comesFirst_iff Record.key_injective hrecords]
  · refine ⟨_, rfl, pairwise_sorted comesFirst_iff _, _, (List.mergeSort_perm _ _).symm, ?_⟩
    have hflat : ds.flatMap (records fs cwd notes) =
        (ds.flatMap (remarks notes)).filterMap (Remark.record? fs cwd) := by
      rw [List.filterMap_flatMap]
      exact congrArg (ds.flatMap ·) (funext (records_eq fs cwd notes))
    rw [hflat]
    exact forall₂_tells fs cwd _

/-- Diagnostics of one place, the later one with a note. -/
def unclosed : Diagnostic :=
  .error .unclosedBrace ⟨0, 1, 2⟩ "unclosed"

def unexpected : Diagnostic :=
  (Diagnostic.error .unexpectedEnd ⟨0, 1, 2⟩ "unexpected").withNote ⟨0, 0, 1⟩ "here"

theorem text_of_perm_swapped :
    [unclosed, unexpected].Perm [unexpected, unclosed] ∧
      text ⟨[⟨0, "a.json", [0x7B, 0x61], 0⟩], ""⟩ "/" true [unexpected, unclosed] =
        text ⟨[⟨0, "a.json", [0x7B, 0x61], 0⟩], ""⟩ "/" true [unclosed, unexpected] := by
  have hswap : [unclosed, unexpected].Perm [unexpected, unclosed] := .swap unexpected unclosed []
  exact ⟨hswap, (text_of_perm ⟨[⟨0, "a.json", [0x7B, 0x61], 0⟩], ""⟩ "/" true hswap).1⟩

end Short

/-! ### Bags -/

namespace Bag

/-- What bags are ordered by: file, start, end, severity from the worst down, and code. -/
def key (d : Diagnostic) : ℕ ×ₗ ℕ ×ₗ ℕ ×ₗ ℕᵒᵈ ×ₗ String :=
  toLex (d.primary.file.toNat, toLex (d.primary.start.toNat, toLex (d.primary.stop.toNat,
    toLex (OrderDual.toDual d.severity.rank.toNat, d.code.text))))

theorem comesFirst_iff (a b : Diagnostic) : comesFirst a b = true ↔ key a < key b := by
  have hword : Function.Injective UInt32.toNat := fun _ _ h => UInt32.toNat_inj.mp h
  have hseverity : Function.Injective fun s : Severity => OrderDual.toDual s.rank.toNat := by
    rintro ⟨m⟩ ⟨n⟩ h
    exact congrArg Severity.mk (UInt8.toNat_inj.mp (OrderDual.toDual.injective h))
  rw [comesFirst,
    lex_iff hword (decide_eq_true_iff.trans UInt32.lt_iff_toNat_lt),
    lex_iff hword (decide_eq_true_iff.trans UInt32.lt_iff_toNat_lt),
    lex_iff hword (decide_eq_true_iff.trans UInt32.lt_iff_toNat_lt),
    lex_iff hseverity (decide_eq_true_iff.trans UInt8.lt_iff_toNat_lt), decide_eq_true_iff]
  simp only [key, Prod.Lex.toLex_lt_toLex]

/-- Of two diagnostics with one span the worse one comes first. -/
theorem rank_le_of_key_le {x y : Diagnostic} (h : key x ≤ key y) (hspan : x.primary = y.primary) :
    y.severity.rank ≤ x.severity.rank := by
  simp only [key, Prod.Lex.toLex_le_toLex, hspan, lt_irrefl, false_or, true_and] at h
  rw [UInt8.le_iff_toNat_le]
  rcases h with h | ⟨h, -⟩
  · exact Nat.le_of_lt h
  · exact Nat.le_of_eq (OrderDual.toDual.injective h).symm

/-- What of a list is kept, one item after the other. -/
def kept {σ : Type} (keep : σ → Diagnostic → Bool × σ) : σ → List Diagnostic → List Diagnostic
  | _, [] => []
  | s, d :: r =>
    match keep s d with
    | (true, s) => d :: kept keep s r
    | (false, s) => kept keep s r

section Kept

variable {σ : Type} (keep : σ → Diagnostic → Bool × σ)

/-- Items are kept in place: what is written stands in front of all that is still looked at. -/
theorem toList_compact (s : σ) (items : Array Diagnostic) (n next : Nat) (h : n ≤ next) :
    (compact keep s items n next h).toList =
      items.toList.take n ++ kept keep s (items.toList.drop next) := by
  fun_induction compact keep s items n next h with
  | case1 s items n next h hnext hn s' hkeep ih =>
    -- the write at `n` changes nothing behind `next`
    have hwritten : (items.toList.set n items[next]).take (n + 1) =
        items.toList.take n ++ [items[next]] := by
      rw [List.take_add_one, List.take_set_of_le (Nat.le_refl n), List.getElem?_set_self hn]
      rfl
    rw [ih, Array.toList_set, hwritten, List.drop_set_of_lt (Nat.lt_succ_of_le h),
      List.drop_eq_getElem_cons (i := next) hnext, kept]
    simp only [Array.getElem_toList, hkeep, List.append_assoc, List.singleton_append]
  | case2 s items n next h hnext hn s' hkeep ih =>
    rw [ih, List.drop_eq_getElem_cons (i := next) hnext, kept]
    simp only [Array.getElem_toList, hkeep]
  | case3 s items n next h hnext =>
    rw [List.drop_eq_nil_of_le (Nat.not_lt.mp hnext), kept, List.append_nil, Array.take_eq_extract,
      Array.toList_extract, List.extract_eq_take_drop, Nat.sub_zero, List.drop_zero]

theorem items_select (b : Bag) (s : σ) : (b.select keep s).items = kept keep s b.items := by
  rw [select, toList_compact, List.take_zero, List.nil_append, List.drop_zero]

theorem kept_sublist (s : σ) (ds : List Diagnostic) : (kept keep s ds).Sublist ds := by
  induction ds generalizing s with
  | nil => exact .slnil
  | cons d r ih =>
    rw [kept]
    split
    · exact (ih _).cons_cons d
    · exact (ih _).cons d

end Kept

/-- What repeats of a diagnostic have in common. -/
def site (d : Diagnostic) : Code × Span :=
  (d.code, d.primary)

theorem isNew_eq (seen : List (Code × Span)) (d : Diagnostic) :
    isNew seen d = if site d ∈ seen then (false, seen) else (true, site d :: seen) := by
  rw [isNew]
  simp only [List.contains_iff_mem]
  rfl

theorem kept_isNew_cons (seen : List (Code × Span)) (d : Diagnostic) (r : List Diagnostic) :
    kept isNew seen (d :: r) =
      if site d ∈ seen then kept isNew seen r else d :: kept isNew (site d :: seen) r := by
  rw [kept, isNew_eq]
  by_cases hseen : site d ∈ seen
  · rw [if_pos hseen, if_pos hseen]
  · rw [if_neg hseen, if_neg hseen]

/-- The first diagnostic of each code and span is kept, unless one was seen before. -/
theorem filter_kept_isNew (seen : List (Code × Span)) (ds : List Diagnostic) (p : Code × Span) :
    (kept isNew seen ds).filter (site · = p) =
      if p ∈ seen then [] else ((ds.filter (site · = p)).head?).toList := by
  induction ds generalizing seen with
  | nil => rw [kept, List.filter_nil, List.head?_nil, Option.toList_none, ite_self]
  | cons d r ih =>
    rw [kept_isNew_cons]
    -- Only diagnostics of the site that is asked for decide; the others pass by.
    by_cases hp : site d = p
    · subst hp
      by_cases hseen : site d ∈ seen
      · rw [if_pos hseen, if_pos hseen, ih, if_pos hseen]
      · have hd : decide (site d = site d) = true := decide_eq_true rfl
        rw [if_neg hseen, if_neg hseen, List.filter_cons, if_pos hd, List.filter_cons, if_pos hd, ih,
          if_pos List.mem_cons_self, List.head?_cons, Option.toList_some]
    · have hd : ¬decide (site d = p) = true := fun h => hp (of_decide_eq_true h)
      have hmem : p ∈ site d :: seen ↔ p ∈ seen := by
        rw [List.mem_cons, or_iff_right fun h => hp h.symm]
      rw [List.filter_cons, if_neg hd]
      split
      · exact ih seen
      · rw [List.filter_cons, if_neg hd, ih]
        simp only [hmem]

/-- Without repeats there is nothing to drop. -/
theorem kept_isNew_kept {seen seen' : List (Code × Span)} (h : seen' ⊆ seen)
    (ds : List Diagnostic) : kept isNew seen' (kept isNew seen ds) = kept isNew seen ds := by
  induction ds generalizing seen seen' with
  | nil => rfl
  | cons d r ih =>
    rw [kept_isNew_cons]
    split
    · exact ih h
    · rename_i hnew
      rw [kept_isNew_cons, if_neg fun hseen => hnew (h hseen), ih (List.cons_subset_cons _ h)]

/-- Putting a bag in order and dropping repeats loses nothing but repeats: what is left is in order,
and for every code and span that there were, one diagnostic has them, as severe as any that had them
before. Doing both again changes nothing. -/
theorem sort_dedup (b : Bag) :
    (∃ ds, ds.Perm b.items ∧ b.sort.dedup.items.Sublist ds) ∧
      (b.sort.dedup.items.Pairwise fun x y => key x ≤ key y) ∧
      (∀ p ∈ b.items.map site, ∃ d, b.sort.dedup.items.filter (site · = p) = [d] ∧
        ∀ e ∈ b.items, site e = p → e.severity.rank ≤ d.severity.rank) ∧
      b.sort.dedup.sort.dedup = b.sort.dedup := by
  have hperm : b.sort.items.Perm b.items := List.mergeSort_perm _ _
  have hsorted : b.sort.items.Pairwise fun x y => key x ≤ key y := pairwise_sorted comesFirst_iff _
  have hitems (c : Bag) : c.dedup.items = kept isNew [] c.items := items_select isNew c []
  have hsublist : b.sort.dedup.items.Sublist b.sort.items := by
    rw [hitems]
    exact kept_sublist isNew [] _
  refine ⟨⟨_, hperm, hsublist⟩, hsorted.sublist hsublist, fun p hp => ?_, ?_⟩
  · have hfilter := filter_kept_isNew [] b.sort.items p
    rw [if_neg List.not_mem_nil, ← hitems] at hfilter
    have hmem (e : Diagnostic) : e ∈ b.sort.items.filter (site · = p) ↔ e ∈ b.items ∧ site e = p := by
      rw [List.mem_filter, hperm.mem_iff, decide_eq_true_iff]
    cases hsame : b.sort.items.filter (site · = p) with
    | nil =>
      obtain ⟨e, he, hsite⟩ := List.mem_map.mp hp
      have hin := (hmem e).mpr ⟨he, hsite⟩
      rw [hsame] at hin
      exact nomatch hin
    | cons d rest =>
      rw [hsame] at hfilter
      refine ⟨d, hfilter, fun e he hsite => ?_⟩
      have hd := (hmem d).mp (hsame ▸ List.mem_cons_self)
      have hin := (hmem e).mpr ⟨he, hsite⟩
      rw [hsame] at hin
      rcases List.mem_cons.mp hin with rfl | hin
      · exact UInt8.le_refl _
      · -- the others of this code and span come later, so they are no worse
        have hpairs := hsorted.filter (site · = p)
        rw [hsame] at hpairs
        apply rank_le_of_key_le (List.rel_of_pairwise_cons hpairs hin)
        exact congrArg Prod.snd (hd.2.trans hsite.symm)
  · have hstays : b.sort.dedup.sort = b.sort.dedup :=
      congrArg (Bag.mk · b.limit) (sorted_eq_self comesFirst_iff (hsorted.sublist hsublist))
    have hagain : b.sort.dedup.dedup.items = b.sort.dedup.items := by
      rw [hitems, hitems, kept_isNew_kept (List.Subset.refl _)]
    rw [hstays]
    exact congrArg (Bag.mk · b.limit) hagain

/-- A diagnostic that is found as a warning first and as an error then. -/
def repeated : Bag :=
  ⟨[⟨.warning, .unclosedTag, "first", ⟨0, 1, 2⟩, [], []⟩,
    ⟨.error, .unclosedTag, "then", ⟨0, 1, 2⟩, [], []⟩], 10⟩

theorem sort_dedup_repeated : ∃ d,
    repeated.sort.dedup.items.filter (site · = (.unclosedTag, ⟨0, 1, 2⟩)) = [d] ∧
      Severity.error.rank ≤ d.severity.rank := by
  obtain ⟨-, -, hkept, -⟩ := sort_dedup repeated
  obtain ⟨d, hd, hworst⟩ := hkept (.unclosedTag, ⟨0, 1, 2⟩) List.mem_cons_self
  exact ⟨d, hd, hworst _ (List.mem_cons_of_mem _ List.mem_cons_self) rfl⟩

end Bag

end Phrasebook
