import Phrasebook.Proofs.Writing

/-!
Writing and reading are inverse. Every well-formed tree whose styles and offsets can be spelled is
written as a text that is read as the same tree, up to the places of its elements.
-/
namespace Phrasebook.Message

open Cursor

/-! ### Passing written characters -/

/-- The characters start with one that is not blank. -/
def Solid (cs : List Char) : Prop :=
  ∃ x r, cs = x :: r ∧ Text.isPatternBlank x = false

theorem Solid.append {cs : List Char} (h : Solid cs) (more : List Char) : Solid (cs ++ more) := by
  obtain ⟨x, r, rfl, hx⟩ := h
  exact ⟨x, r ++ more, rfl, hx⟩

namespace Cursor.Passes

variable {c c' c'' : Cursor} {run run' : List Char} {x : Char}

/-- There is a cursor between two runs. -/
theorem split (h : c.Passes (run ++ run') c'') : ∃ c', c.Passes run c' ∧ c'.Passes run' c'' := by
  have hrest : c.rest = run ++ (run' ++ c''.rest) := by
    rw [h.rest, List.append_assoc]
  refine ⟨c.skip run (run' ++ c''.rest), passes_skip hrest, rfl, ?_⟩
  rw [h.offset, Skeleton.byteLength_append, ← Nat.add_assoc]
  rfl

theorem split_cons (h : c.Passes (x :: run) c'') : ∃ c', c.Passes [x] c' ∧ c'.Passes run c'' :=
  split h

theorem stops {p : Char → Bool} (h : c.Passes (x :: run) c') (hx : p x = false) : c.Stops p := by
  intro y hy
  rw [h.head?] at hy
  rw [← Option.some.inj hy]
  exact hx

/-- No blank stands before a character that is none. -/
theorem skipBlank (h : c.Passes run c') (hsolid : Solid run) : c.skipBlank.Passes run c' := by
  obtain ⟨x, r, rfl, hx⟩ := hsolid
  rw [skipBlank_of_stops (h.stops hx)]
  exact h

/-- One space is skipped. -/
theorem skipBlank_space (h : c.Passes (' ' :: run) c') (hsolid : Solid run) :
    c.skipBlank.Passes run c' := by
  obtain ⟨x, r, rfl, hx⟩ := hsolid
  obtain ⟨c₁, hspace, hrun⟩ := h.split_cons
  have hskip : c.skipBlank = c₁ := by
    refine skipBlank_eq_iff.mpr ⟨[' '], hspace, ?_, hrun.stops hx⟩
    intro y hy
    rw [List.mem_singleton.mp hy]
    decide
  rw [hskip]
  exact hrun

end Cursor.Passes

/-! ### Names, types and keys -/

section Names

variable {file : UInt32} {c c' : Cursor} {name : String}

theorem solid_of_isName (h : IsName name) : Solid name.toList := by
  cases hlist : name.toList with
  | nil => exact absurd (String.toList_eq_nil_iff.mp hlist) h.1
  | cons x r =>
    have hx := h.2 x (by rw [hlist]; exact List.mem_cons_self)
    rw [isNameChar, Bool.and_eq_true, Bool.and_eq_true, Bool.not_eq_true'] at hx
    exact ⟨x, r, rfl, hx.1.1⟩

theorem nameAt_of_passes (hname : IsName name) (h : c.Passes name.toList c')
    (hstop : c'.Stops isNameChar) : NameAt c name c' :=
  ⟨hname.1, h, hname.2, hstop⟩

theorem tagNameAt_of_passes (hname : IsTagName name) (h : c.Passes name.toList c')
    (hstop : c'.Stops isTagChar) : TagNameAt c name c' :=
  ⟨hname.1, h, hname.2, hstop⟩

theorem namedAt_of_passes (file : UInt32) (hname : IsName name) (h : c.Passes ('{' :: name.toList) c')
    (hstop : c'.Stops isNameChar) : ∃ nameSpan, NamedAt file c name nameSpan c' := by
  obtain ⟨inside, hopen, hrun⟩ := h.split_cons
  have hinside := hrun.skipBlank (solid_of_isName hname)
  exact ⟨_, inside, hopen, nameAt_of_passes hname hinside hstop, rfl⟩

theorem typeAt_of_passes (hname : IsName name) (h : c.Passes (',' :: ' ' :: name.toList) c')
    (hstop : c'.Stops isNameChar) : TypeAt c name c' := by
  obtain ⟨c₁, hcomma, hrun⟩ := h.split_cons
  have htype := hrun.skipBlank_space (solid_of_isName hname)
  exact ⟨c₁, hcomma.skipBlank ⟨_, _, rfl, by decide⟩, nameAt_of_passes hname htype hstop⟩

theorem isName_of_mem_pluralCategories (h : name ∈ pluralCategories) : IsName name := by
  have hall : pluralCategories.all (fun k => k != "" && k.toList.all isNameChar) = true := rfl
  have hname := List.all_eq_true.mp hall name h
  rw [Bool.and_eq_true, bne_iff_ne, List.all_eq_true] at hname
  exact hname

theorem solid_of_isKey {plural : Bool} {key : String} (h : IsKey plural key) :
    Solid key.toList := by
  rw [IsKey] at h
  split at h
  · rcases h with hcategory | ⟨digits, _, rfl, -⟩
    · exact solid_of_isName (isName_of_mem_pluralCategories hcategory)
    · exact ⟨'=', digits, String.toList_ofList, by decide⟩
  · exact solid_of_isName h

theorem keyAt_of_passes {plural : Bool} {key : String} (hkey : IsKey plural key)
    (h : c.Passes key.toList c') (hname : c'.Stops isNameChar) (hnumber : c'.Stops isNumberChar) :
    KeyAt plural c key c' := by
  rw [IsKey] at hkey
  split at hkey
  · rename_i hplural
    rcases hkey with hcategory | ⟨digits, x, rfl, hdigits, hvalue, -⟩
    · exact .name (nameAt_of_passes (isName_of_mem_pluralCategories hcategory) h hname)
        fun _ => hcategory
    · rw [exactValue?_ofList] at hvalue
      rw [String.toList_ofList] at h
      obtain ⟨start, hsign, hrun⟩ := h.split_cons
      exact .exact hplural hsign ⟨hrun, hdigits, hnumber⟩ (by rw [hvalue]; rfl)
  · rename_i hplural
    exact .name (nameAt_of_passes hkey h hname) fun hp => absurd hp hplural

end Names

/-! ### Styles -/

theorem trimBlank_eq_self {cs : List Char} (hhead : ∀ x ∈ cs.head?, Text.isBlank x = false)
    (hlast : ∀ x ∈ cs.getLast?, Text.isBlank x = false) : Text.trimBlank cs = cs := by
  have hdrop {l : List Char} (h : ∀ x ∈ l.head?, Text.isBlank x = false) :
      l.dropWhile Text.isBlank = l := by
    cases l with
    | nil => rfl
    | cons x r => rw [List.dropWhile_cons, h x rfl, if_neg Bool.false_ne_true]
  have hreverse : ∀ x ∈ cs.reverse.head?, Text.isBlank x = false := by
    rw [List.head?_reverse]
    exact hlast
  rw [Text.trimBlank, Text.trim, Text.trimLeft, Text.trimRight, hdrop hhead, hdrop hreverse,
    List.reverse_reverse]

section Styles

variable {file : UInt32} {kind : FormatKind} {c c' : Cursor}

theorem styleAt_named {name : String} {span : Span} (h : (Style.named name span).Spelled kind)
    (hpasses : c.Passes (' ' :: (name.toList ++ ['}'])) c') :
    ∃ span', StyleAt file kind c (.named name span') c' := by
  obtain ⟨hne, hchars, hhead, hlast, hmark⟩ := h
  have hsolid : Solid name.toList := by
    cases hlist : name.toList with
    | nil => exact absurd (String.toList_eq_nil_iff.mp hlist) hne
    | cons x r => exact ⟨x, r, rfl, (hhead x (by rw [hlist]; rfl)).1⟩
  have hstart := hpasses.skipBlank_space (hsolid.append _)
  have hnone : c.skipBlank.eatWord? [':', ':'] = none := by
    rw [Option.eq_none_iff_forall_ne_some]
    intro stop hstop
    have hprefix : [':', ':'] <+: name.toList ++ '}' :: c'.rest := by
      refine ⟨stop.rest, ?_⟩
      rw [← (eatWord?_eq_some_iff.mp hstop).rest, hstart.rest, List.append_assoc]
      rfl
    -- the brace is no colon, so both colons belong to the name
    match hlist : name.toList with
    | [] => exact hne (String.toList_eq_nil_iff.mp hlist)
    | [x] =>
      rw [hlist, List.singleton_append] at hprefix
      exact absurd (List.cons_prefix_cons.mp (List.cons_prefix_cons.mp hprefix).2).1 (by decide)
    | x :: y :: r =>
      rw [hlist, List.cons_append, List.cons_append] at hprefix
      obtain ⟨rfl, htail⟩ := List.cons_prefix_cons.mp hprefix
      obtain ⟨rfl, -⟩ := List.cons_prefix_cons.mp htail
      exact hmark ⟨r, hlist.symm⟩
  obtain ⟨stop, hraw, hbrace⟩ := hstart.split
  have htrim : Text.trimBlank name.toList = name.toList :=
    trimBlank_eq_self (fun x hx => (hhead x hx).2) hlast
  have hname : String.ofList (Text.trimBlank name.toList) = name := by
    rw [htrim, String.ofList_toList]
  have hstyle : StyleAt file kind c (.named (String.ofList (Text.trimBlank name.toList)) _) c' :=
    .named hnone ⟨hraw, hchars, hbrace.stops (by decide)⟩ (by rw [hname]; exact hne) hbrace
  rw [hname] at hstyle
  exact ⟨_, hstyle⟩

theorem styleAt_skeleton {text : String} {options : FormatOptions} {span : Span}
    (h : (Style.skeleton text options span).Spelled kind)
    (hpasses : c.Passes (' ' :: ':' :: ':' :: (text.toList ++ ['}'])) c') :
    ∃ span', StyleAt file kind c (.skeleton text options span') c' := by
  obtain ⟨hchars, htrim, hread⟩ := h
  have hstart : c.skipBlank.Passes ([':', ':'] ++ (text.toList ++ ['}'])) c' :=
    hpasses.skipBlank_space ⟨_, _, rfl, by decide⟩
  obtain ⟨start, hmark, hrest⟩ := hstart.split
  obtain ⟨stop, hraw, hbrace⟩ := hrest.split
  have hstyle : StyleAt file kind c
      (.skeleton (String.ofList (Text.trimBlank text.toList)) options _) c' :=
    .skeleton hmark ⟨hraw, hchars, hbrace.stops (by decide)⟩ hread hbrace
  rw [htrim, String.ofList_toList] at hstyle
  exact ⟨_, hstyle⟩

theorem formatAt_of_passes (file : UInt32) {style : Style} (h : style.Spelled kind)
    (hpasses : c.Passes (style.written ++ ['}']) c') :
    ∃ style', FormatAt file kind c style' c' ∧ style'.bare = style.bare := by
  cases style with
  | default => exact ⟨_, .default (hpasses.skipBlank ⟨_, _, rfl, by decide⟩), rfl⟩
  | named name span =>
    obtain ⟨c₁, hcomma, hrest⟩ := hpasses.split_cons
    obtain ⟨span', hstyle⟩ := styleAt_named h hrest
    exact ⟨_, .styled (hcomma.skipBlank ⟨_, _, rfl, by decide⟩) hstyle, rfl⟩
  | skeleton text options span =>
    obtain ⟨c₁, hcomma, hrest⟩ := hpasses.split_cons
    obtain ⟨span', hstyle⟩ := styleAt_skeleton h hrest
    exact ⟨_, .styled (hcomma.skipBlank ⟨_, _, rfl, by decide⟩) hstyle, rfl⟩

end Styles

/-! ### Cases -/

/-- A reader reads written elements back where they end. -/
def Restores (inPlural : Bool) (read : Reader (List Node)) (ns : List Node) : Prop :=
  ∀ c c', c.Passes (Node.listWritten inPlural ns) c' → AtEnd c' →
    ∃ ns', read c = .ok (ns', c') ∧ ns'.map Node.bare = ns.map Node.bare

section Cases

variable {file : UInt32} {plural inPlural : Bool} {read : Reader (List Node)} {c c' : Cursor}

theorem bodyAt_of_passes {ns : List Node} (hread : Restores inPlural read ns)
    (h : c.Passes (' ' :: '{' :: (Node.listWritten inPlural ns ++ ['}'])) c') :
    ∃ ns', BodyAt (some read) c ns' c' ∧ ns'.map Node.bare = ns.map Node.bare := by
  obtain ⟨inside, hopen, hrest⟩ := (h.skipBlank_space ⟨_, _, rfl, by decide⟩).split_cons
  obtain ⟨stop, hbody, hclosed⟩ := hrest.split
  have hend : AtEnd stop := .inr (.inl hclosed.head?)
  obtain ⟨ns', hnodes, hbare⟩ := hread inside stop hbody hend
  exact ⟨ns', ⟨read, inside, stop, rfl, hopen, hnodes, hclosed⟩, hbare⟩

theorem caseAt_of_passes (file : UInt32) {b : Branch Node} {earlier : List (Branch Node)}
    (hread : Restores inPlural read b.body) (hkey : IsKey plural b.key)
    (hfresh : ∀ d ∈ earlier, d.key ≠ b.key)
    (h : c.Passes (Node.branchWritten inPlural b) c') :
    ∃ b', CaseAt file plural (some read) earlier c.skipBlank b' c' ∧
      b'.bare Node.bare = b.bare Node.bare := by
  obtain ⟨key, keySpan, span, body⟩ := b
  rw [Node.branchWritten] at h
  obtain ⟨k, hname, hrest⟩ := (h.skipBlank_space ((solid_of_isKey hkey).append _)).split
  obtain ⟨body', hbody, hbare⟩ := bodyAt_of_passes hread hrest
  have hkeyAt := keyAt_of_passes hkey hname (hrest.stops (by decide)) (hrest.stops (by decide))
  refine ⟨_, .intro hkeyAt hfresh hbody, ?_⟩
  simp only [Branch.bare, hbare]

/-- Cases are read one after the other, behind those that were read before. -/
theorem casesAt_of_passes (file : UInt32) {cases : List (Branch Node)} (done : Cases)
    (hread : ∀ b ∈ cases, Restores inPlural read b.body) (hkey : ∀ b ∈ cases, IsKey plural b.key)
    (hdistinct : (cases.map (·.key)).Nodup)
    (hfresh : ∀ d ∈ done.cases, ∀ b ∈ cases, d.key ≠ b.key) (hne : done.cases ≠ [] ∨ cases ≠ [])
    (h : c.Passes (Node.branchesWritten inPlural cases ++ ['}']) c') :
    ∃ cs, CasesAt file plural (some read) done c ⟨done.cases ++ cs, done.offset⟩ c' ∧
      cs.map (·.bare Node.bare) = cases.map (·.bare Node.bare) := by
  induction cases generalizing done c with
  | nil =>
    have hdone : done.cases ≠ [] := hne.elim id fun hnil => absurd rfl hnil
    refine ⟨[], ?_, rfl⟩
    rw [List.append_nil]
    exact .close (h.skipBlank ⟨_, _, rfl, by decide⟩) hdone
  | cons b r ih =>
    rw [Node.branchesWritten, List.append_assoc] at h
    obtain ⟨c₁, hcase, hrest⟩ := h.split
    rw [List.map_cons, List.nodup_cons] at hdistinct
    obtain ⟨b', hb', hbare⟩ := caseAt_of_passes file (hread b List.mem_cons_self)
      (hkey b List.mem_cons_self) (fun d hd => hfresh d hd b List.mem_cons_self) hcase
    have hsame : b'.key = b.key := by
      have hkeys := congrArg Branch.key hbare
      exact hkeys
    -- the key of this case is none of those that follow
    have hfresh' : ∀ d ∈ done.cases ++ [b'], ∀ e ∈ r, d.key ≠ e.key := by
      intro d hd e he
      rcases List.mem_append.mp hd with hd | hd
      · exact hfresh d hd e (List.mem_cons_of_mem _ he)
      · rw [List.mem_singleton.mp hd, hsame]
        intro heq
        exact hdistinct.1 (List.mem_map.mpr ⟨e, he, heq.symm⟩)
    obtain ⟨cs, hcases, hbares⟩ := @ih c₁ { done with cases := done.cases ++ [b'] }
      (fun e he => hread e (List.mem_cons_of_mem _ he))
      (fun e he => hkey e (List.mem_cons_of_mem _ he)) hdistinct.2 hfresh' (.inl (by simp)) hrest
    refine ⟨b' :: cs, ?_, ?_⟩
    · rw [List.append_cons]
      exact .case hb' hcases
    · rw [List.map_cons, List.map_cons, hbare, hbares]

theorem casesAt_of_isCases (file : UInt32) {cases : List (Branch Node)} (offset : Float)
    (hcases : IsCases plural cases) (hread : ∀ b ∈ cases, Restores inPlural read b.body)
    (h : c.Passes (Node.branchesWritten inPlural cases ++ ['}']) c') :
    ∃ cs, CasesAt file plural (some read) ⟨[], offset⟩ c ⟨cs, offset⟩ c' ∧
      cs.map (·.bare Node.bare) = cases.map (·.bare Node.bare) :=
  casesAt_of_passes file ⟨[], offset⟩ hread hcases.key hcases.distinct
    (fun _ hd => nomatch hd) (.inr hcases.ne) h

theorem isPatternBlank_of_isDigit {x : Char} (h : x.isDigit = true) :
    Text.isPatternBlank x = false := by
  have hx := Char.isDigit_iff_toNat.mp h
  have h0 : '0'.toNat = 48 := rfl
  have h9 : '9'.toNat = 57 := rfl
  simp only [Text.isPatternBlank, Bool.or_eq_false_iff, Bool.and_eq_false_iff, decide_eq_false_iff_not,
    beq_eq_false_iff_ne]
  omega

theorem offsetAt_of_passes {offset : Float} (hwhole : Floats.IsWhole offset)
    (h : c.Passes (Nat.toDigits 10 (Floats.wholePart offset)) c') (hstop : c'.Stops Char.isDigit) :
    OffsetAt c offset c' := by
  have hdigits : ∀ x ∈ Nat.toDigits 10 (Floats.wholePart offset), x.isDigit = true :=
    fun x hx => Nat.isDigit_of_mem_toDigits (by decide) (by decide) hx
  have hsolid : Solid (Nat.toDigits 10 (Floats.wholePart offset)) := by
    obtain ⟨x, r, hlist⟩ := List.exists_cons_of_ne_nil (Nat.toDigits_ne_nil (b := 10)
      (n := Floats.wholePart offset))
    have hx := hdigits x (by rw [hlist]; exact List.mem_cons_self)
    exact ⟨x, r, hlist, isPatternBlank_of_isDigit hx⟩
  exact ⟨_, Nat.toDigits_ne_nil, ⟨h.skipBlank hsolid, hdigits, hstop⟩,
    Decimal.read?_toDigits hwhole⟩

theorem casesAt_of_offset (file : UInt32) {cases : List (Branch Node)} {offset : Float}
    (hcases : IsCases true cases) (hwhole : Floats.IsWhole offset)
    (hread : ∀ b ∈ cases, Restores true read b.body)
    (h : c.Passes (writtenOffset offset ++ (Node.branchesWritten true cases ++ ['}'])) c') :
    ∃ cs, CasesAt file true (some read) ⟨[], 0⟩ c ⟨cs, offset⟩ c' ∧
      cs.map (·.bare Node.bare) = cases.map (·.bare Node.bare) := by
  rw [writtenOffset] at h
  split at h
  · rename_i hzero
    obtain rfl := Decimal.eq_zero_of_wholePart hwhole hzero
    exact casesAt_of_isCases file 0 hcases hread h
  · rw [List.cons_append, List.append_assoc] at h
    obtain ⟨c₁, hword, hrest⟩ := (h.skipBlank_space ⟨_, _, rfl, by decide⟩).split
    obtain ⟨c₂, hdigits, hrest⟩ := hrest.split
    have hstop : c₂.Stops Char.isDigit := by
      cases cases with
      | nil => exact hrest.stops rfl
      | cons b r =>
        rw [Node.branchesWritten, Node.branchWritten.eq_def] at hrest
        exact hrest.stops rfl
    obtain ⟨cs, hcs, hbare⟩ := casesAt_of_isCases file offset hcases hread hrest
    exact ⟨cs, .offset rfl rfl hword (offsetAt_of_passes hwhole hdigits hstop) hcs, hbare⟩

end Cases

/-! ### Elements -/

theorem innerAt_tagBody (ctx : Context) {budget : Nat} (h : 1 ≤ budget) :
    (innerAt ctx budget).tagBody = some (readNodes ctx (budget - 1)) := by
  match budget with
  | 1 => rfl
  | _ + 2 => rfl

theorem isSome_tagBody (ctx : Context) {budget : Nat} (h : 1 ≤ budget) :
    (innerAt ctx budget).tagBody.isSome = true := by
  rw [innerAt_tagBody ctx h]
  rfl

theorem innerAt_bodyReader (ctx : Context) {budget : Nat} (h : 2 ≤ budget) (inPlural : Bool) :
    (innerAt ctx budget).bodyReader inPlural = some (readNodes ctx (budget - 2) inPlural) := by
  match budget with
  | _ + 2 => rfl

/-- An element is read back wherever it is written. What follows literal text is not literal. -/
def ReadBack (ctx : Context) (n : Node) : Prop :=
  ∀ budget inPlural c c', n.WellFormed inPlural → n.All Node.Spelled → n.depth ≤ budget →
    c.Passes (n.written inPlural) c' → (n.isLiteral = true → ¬IsPlain inPlural c'.rest) →
    ∃ n', ElementAt ctx.file (innerAt ctx budget) inPlural c n' c' ∧ n'.bare = n.bare

section Elements

variable {ctx : Context} {budget : Nat} {inPlural : Bool} {c c' : Cursor}

theorem isLiteral_of_bare_eq {m n : Node} (h : m.bare = n.bare) : m.isLiteral = n.isLiteral := by
  have hbare (k : Node) : k.bare.isLiteral = k.isLiteral := by
    cases k <;> rfl
  rw [← hbare m, h, hbare n]

/-- An element that is no literal starts with a character that opens one. -/
theorem ElementAt.opens {file : UInt32} {inner : Inner} {n : Node}
    (h : ElementAt file inner inPlural c n c') (hn : n.isLiteral = false) :
    ∃ x r, c.rest = x :: r ∧ isSyntax inPlural x r = true ∧ x ≠ '}' ∧
      ¬(x = '<' ∧ r.head? = some '/') := by
  cases h with
  | literal => exact Bool.noConfusion hn
  | pound hplural hsign =>
    subst hplural
    exact ⟨'#', _, hsign.rest, rfl, by decide, fun heq => absurd heq.1 (by decide)⟩
  | argument _ hname _ =>
    obtain ⟨inside, hopen, -⟩ := hname
    exact ⟨'{', _, hopen.rest, rfl, by decide, fun heq => absurd heq.1 (by decide)⟩
  | tag htag =>
    obtain ⟨inside, hopen, hletter⟩ := htag.opens
    refine ⟨'<', inside.rest, hopen.rest, ?_, by decide, ?_⟩
    · cases hhead : inside.rest.head? with
      | none =>
        rw [hhead] at hletter
        exact Bool.noConfusion hletter
      | some y =>
        rw [hhead, Option.any_some] at hletter
        cases inPlural <;> simp [isSyntax, hhead, hletter]
    · rintro ⟨-, hhead⟩
      rw [hhead] at hletter
      exact absurd hletter (by decide)

theorem ElementAt.not_atEnd {inner : Inner} {file : UInt32} {n : Node}
    (h : ElementAt file inner inPlural c n c') : ¬AtEnd c := by
  cases hn : n.isLiteral with
  | true => exact not_atEnd_of_isPlain (h.isPlain hn).1
  | false =>
    obtain ⟨x, r, hrest, -, hbrace, hclose⟩ := h.opens hn
    rintro (hnil | hhead | ⟨r', hrest'⟩)
    · exact nomatch hrest.symm.trans hnil
    · rw [hrest] at hhead
      exact hbrace (Option.some.inj hhead)
    · obtain ⟨rfl, rfl⟩ := List.cons.inj (hrest.symm.trans hrest')
      exact hclose ⟨rfl, rfl⟩

/-- Text does not go on where siblings of a literal are read. -/
theorem SiblingsAt.not_isPlain {inner : Inner} {file : UInt32} {ns : List Node}
    (h : SiblingsAt (ElementAt file inner inPlural) c ns c')
    (hhead : ∀ n ∈ ns.head?, n.isLiteral = false) : ¬IsPlain inPlural c.rest := by
  cases h with
  | nil hend => exact fun hplain => not_atEnd_of_isPlain hplain hend
  | @cons _ _ _ n _ _ helement _ =>
    obtain ⟨x, r, hrest, hmark, -⟩ := helement.opens (hhead n rfl)
    rintro ⟨y, r', hrest', hplain⟩
    obtain ⟨rfl, rfl⟩ := List.cons.inj (hrest.symm.trans hrest')
    rw [hmark] at hplain
    exact Bool.noConfusion hplain

/-- Siblings are read back where they end. -/
theorem restores_of_readBack {ns : List Node} (hback : ∀ n ∈ ns, ReadBack ctx n)
    (hseparate : Separate ns) (hformed : ∀ n ∈ ns, n.WellFormed inPlural)
    (hspelled : ∀ n ∈ ns, n.All Node.Spelled) (hdepth : Node.listDepth ns ≤ budget) :
    Restores inPlural (readNodes ctx budget inPlural) ns := by
  intro c c' h hend
  simp only [readNodes_eq_ok_iff]
  induction ns generalizing c with
  | nil =>
    obtain rfl : c' = c := h.eq_of_same (.refl c)
    exact ⟨[], .nil hend, rfl⟩
  | cons n r ih =>
    rw [Node.listWritten] at h
    rw [Node.listDepth, Nat.max_le] at hdepth
    obtain ⟨c₁, hhead, htail⟩ := h.split
    -- the siblings behind the element tell where literal text ends
    obtain ⟨r', hsiblings, hbares⟩ := ih (fun m hm => hback m (List.mem_cons_of_mem _ hm))
      hseparate.tail (fun m hm => hformed m (List.mem_cons_of_mem _ hm))
      (fun m hm => hspelled m (List.mem_cons_of_mem _ hm)) hdepth.2 c₁ htail
    have hfollow : n.isLiteral = true → ¬IsPlain inPlural c₁.rest := by
      intro hn
      refine hsiblings.not_isPlain fun m hm => ?_
      cases r with
      | nil =>
        rw [List.map_eq_nil_iff.mp hbares] at hm
        cases hm
      | cons k r =>
        obtain ⟨m', r'', rfl, hbare, -⟩ := List.map_eq_cons_iff.mp hbares
        obtain rfl := Option.some.inj hm
        rw [isLiteral_of_bare_eq hbare, ← Bool.not_eq_true]
        exact fun hk => (List.isChain_cons_cons.mp hseparate).1 ⟨hn, hk⟩
    obtain ⟨n', helement, hbare⟩ := hback n List.mem_cons_self budget inPlural c c₁
      (hformed n List.mem_cons_self) (hspelled n List.mem_cons_self) hdepth.1 hhead hfollow
    refine ⟨n' :: r', .cons helement.not_atEnd helement hsiblings, ?_⟩
    rw [List.map_cons, List.map_cons, hbare, hbares]

/-- The head of a written argument is read back. -/
theorem head_of_passes (file : UInt32) {name type : String} (hname : IsName name)
    (htype : IsName type) (h : c.Passes (writtenHead name type) c') (hstop : c'.Stops isNameChar) :
    ∃ nameSpan c₁, NamedAt file c name nameSpan c₁ ∧ TypeAt c₁ type c' := by
  have hsplit : c.Passes (('{' :: name.toList) ++ (',' :: ' ' :: type.toList)) c' := h
  obtain ⟨c₁, hhead, htail⟩ := hsplit.split
  obtain ⟨nameSpan, hnamed⟩ := namedAt_of_passes file hname hhead (htail.stops (by decide))
  exact ⟨nameSpan, c₁, hnamed, typeAt_of_passes htype htail hstop⟩

/-- The words for the types of arguments. -/
theorem isName_of_all {type : String} (hne : type ≠ "") (hall : type.toList.all isNameChar = true) :
    IsName type :=
  ⟨hne, List.all_eq_true.mp hall⟩

theorem isName_select : IsName "select" :=
  isName_of_all (by decide) rfl

theorem isName_name (kind : FormatKind) : IsName kind.name := by
  cases kind <;> exact isName_of_all (by decide) rfl

theorem isName_keyword (kind : PluralKind) : IsName kind.keyword := by
  cases kind <;> exact isName_of_all (by decide) rfl

/-- The bodies of cases are read back one level down. -/
theorem restores_of_cases {plural : Bool} {cases : List (Branch Node)}
    (hback : ∀ b ∈ cases, ∀ n ∈ b.body, ReadBack ctx n) (hcases : IsCases plural cases)
    (hformed : ∀ b ∈ cases, ∀ n ∈ b.body, n.WellFormed inPlural)
    (hspelled : ∀ b ∈ cases, ∀ n ∈ b.body, n.All Node.Spelled)
    (hdepth : Node.branchesDepth cases + 2 ≤ budget) :
    ∀ b ∈ cases, Restores inPlural (readNodes ctx (budget - 2) inPlural) b.body := by
  intro b hb
  have hbody := Node.listDepth_le_branchesDepth hb
  exact restores_of_readBack (hback b hb) (hcases.body b hb) (hformed b hb) (hspelled b hb)
    (by omega)

/-- Every element is read back. -/
theorem readBack (ctx : Context) : ∀ n, ReadBack ctx n := by
  apply Node.Hereditary.holds
  constructor
  case literal =>
    intro span text budget inPlural c c' hformed _ _ h hfollow
    -- text is read on as far as it is plain, so nothing plain may follow
    have hplain := hfollow rfl
    cases hformed with
    | literal hne =>
      have htext : text.toList ≠ [] := fun hnil => hne (String.toList_eq_nil_iff.mp hnil)
      rw [Node.written] at h
      have hliteral : LiteralAt inPlural c text c' := by
        refine ⟨?_, h.leads, ?_⟩
        · rw [h.rest]
          exact isPlain_writtenText htext _
        · rw [h.rest]
          exact readText_writtenText hplain _
      exact ⟨_, .literal hliteral, rfl⟩
  case argument =>
    intro span name nameSpan budget inPlural c c' hformed _ hdepth h _
    cases hformed with
    | argument hname =>
      rw [Node.written, ← List.cons_append] at h
      obtain ⟨c₁, hhead, hbrace⟩ := h.split
      obtain ⟨nameSpan', hnamed⟩ := namedAt_of_passes ctx.file hname hhead (hbrace.stops (by decide))
      exact ⟨_, .argument (isSome_tagBody ctx hdepth) hnamed
        (.plain (hbrace.skipBlank ⟨_, _, rfl, by decide⟩)), rfl⟩
  case select =>
    intro span name nameSpan cases ih budget inPlural c c' hformed hspelled hdepth h _
    cases hformed with
    | select hname hcases hbodies =>
      rw [Node.written] at h
      rw [Node.depth] at hdepth
      obtain ⟨c₁, hhead, hrest⟩ := h.split
      obtain ⟨nameSpan', c₀, hnamed, htype⟩ := head_of_passes ctx.file hname isName_select hhead
        (hrest.stops (by decide))
      obtain ⟨c₂, hcomma, hrest⟩ := hrest.split_cons
      obtain ⟨cs, hcs, hbare⟩ := casesAt_of_isCases ctx.file 0 hcases
        (restores_of_cases ih hcases hbodies hspelled.of_select hdepth) hrest
      rw [← innerAt_bodyReader ctx (by omega)] at hcs
      refine ⟨_, .argument (isSome_tagBody ctx (by omega)) hnamed
        (.select htype ⟨c₂, hcomma.skipBlank ⟨_, _, rfl, by decide⟩, hcs⟩), ?_⟩
      simp only [Node.bare, Node.branchesBare_eq_map, hbare]
  case plural =>
    intro span name nameSpan offset kind cases ih budget inPlural c c' hformed hspelled hdepth h _
    cases hformed with
    | plural hname _ _ hcases hbodies =>
      rw [Node.written] at h
      rw [Node.depth] at hdepth
      obtain ⟨c₁, hhead, hrest⟩ := h.split
      obtain ⟨nameSpan', c₀, hnamed, htype⟩ := head_of_passes ctx.file hname (isName_keyword kind)
        hhead (hrest.stops (by decide))
      obtain ⟨c₂, hcomma, hrest⟩ := hrest.split_cons
      obtain ⟨cs, hcs, hbare⟩ := casesAt_of_offset ctx.file hcases hspelled.self
        (restores_of_cases ih hcases hbodies hspelled.of_plural hdepth) hrest
      rw [← innerAt_bodyReader ctx (by omega)] at hcs
      refine ⟨_, .argument (isSome_tagBody ctx (by omega)) hnamed
        (.plural htype ⟨c₂, hcomma.skipBlank ⟨_, _, rfl, by decide⟩, hcs⟩), ?_⟩
      simp only [Node.bare, Node.branchesBare_eq_map, hbare]
  case format =>
    intro span kind name nameSpan style budget inPlural c c' hformed hspelled hdepth h _
    cases hformed with
    | format hname =>
      rw [Node.written] at h
      obtain ⟨c₁, hhead, hrest⟩ := h.split
      -- a comma or the closing brace ends the name of the kind
      have hstop : c₁.Stops isNameChar := by
        cases style with
        | default => exact hrest.stops (by decide)
        | named | skeleton => exact hrest.stops (by decide)
      obtain ⟨nameSpan', c₀, hnamed, htype⟩ := head_of_passes ctx.file hname (isName_name kind)
        hhead hstop
      obtain ⟨style', hformat, hbare⟩ := formatAt_of_passes ctx.file hspelled.self hrest
      refine ⟨_, .argument (isSome_tagBody ctx hdepth) hnamed (.format htype hformat), ?_⟩
      simp only [Node.bare, hbare]
  case pound =>
    intro span budget inPlural c c' hformed _ _ h _
    cases hformed with
    | pound => exact ⟨_, .pound rfl h, rfl⟩
  case tag =>
    intro span name nameSpan selfClosing children ih budget inPlural c c' hformed hspelled hdepth h _
    rw [Node.depth] at hdepth
    cases hformed with
    | tag hname hsingle hseparate hbodies =>
      cases selfClosing with
      | true =>
        obtain rfl := hsingle rfl
        rw [Node.written] at h
        obtain ⟨inside, hopen, hrest⟩ := h.split_cons
        obtain ⟨c₁, hrun, hclosed⟩ := hrest.split
        have hnamed := tagNameAt_of_passes hname hrun (hclosed.stops (by decide))
        exact ⟨_, .tag (.single (isSome_tagBody ctx (by omega)) hopen hnamed
          (hclosed.skipBlank ⟨_, _, rfl, by decide⟩)), rfl⟩
      | false =>
        rw [Node.written] at h
        obtain ⟨inside, hopen, hrest⟩ := h.split_cons
        obtain ⟨c₁, hrun, hrest⟩ := hrest.split
        have hnamed := tagNameAt_of_passes hname hrun (hrest.stops (by decide))
        obtain ⟨c₂, hend, hrest⟩ := hrest.split_cons
        obtain ⟨closing, hchildren, hrest⟩ := hrest.split
        -- behind the children the closing tag is read, name and all
        have hclosing : closing.Passes (['<', '/'] ++ (name.toList ++ ['>'])) c' := hrest
        obtain ⟨c₃, hword, hrest⟩ := hclosing.split
        obtain ⟨c₄, hrun', hclosed⟩ := hrest.split
        have hnamed' := tagNameAt_of_passes hname hrun' (hclosed.stops (by decide))
        obtain ⟨children', hread, hbare⟩ := restores_of_readBack ih hseparate hbodies
          hspelled.of_tag (Nat.le_sub_one_of_lt hdepth) c₂ closing hchildren
          (.inr (.inr ⟨_, hword.rest⟩))
        refine ⟨_, .tag (.paired (innerAt_tagBody ctx (by omega)) hopen hnamed
          (hend.skipBlank ⟨_, _, rfl, by decide⟩) hread hword hnamed'
          (hclosed.skipBlank ⟨_, _, rfl, by decide⟩)), ?_⟩
        simp only [Node.bare, Node.listBare_eq_map, hbare]
  case unknown =>
    intro span budget inPlural c c' hformed
    exact nomatch hformed
  case hole =>
    intro budget inPlural c c' hformed
    exact nomatch hformed

end Elements

/-! ### Messages -/

/-- A well-formed tree whose offsets are whole numbers and whose styles a text can choose is read back
from its spelling, if 32 bits count its bytes, but for the places of its elements. -/
theorem parse_written (file : UInt32) {limit : Nat} {ns : List Node} (hseparate : Separate ns)
    (hformed : ∀ n ∈ ns, n.WellFormed false) (hspelled : ∀ n ∈ ns, n.All Node.Spelled)
    (hdepth : Node.listDepth ns ≤ limit)
    (hsize : (Utf8.encode (Node.listWritten false ns)).length < 2 ^ 32) :
    ∃ ns', parse file limit (Utf8.encode (Node.listWritten false ns)) = .ok ns' ∧
      ns'.map Node.bare = ns.map Node.bare := by
  let start : Cursor := ⟨0, Node.listWritten false ns⟩
  have hpasses : start.Passes (Node.listWritten false ns) (start.skip (Node.listWritten false ns) []) :=
    passes_skip (List.append_nil _).symm
  obtain ⟨ns', hread, hbare⟩ := restores_of_readBack (fun n _ => readBack ⟨file, limit⟩ n) hseparate
    hformed hspelled hdepth _ _ hpasses (.inl rfl)
  have hchars : parseChars file limit (Node.listWritten false ns) = .ok ns' :=
    parseChars_eq_ok_iff.mpr ⟨_, rfl, hread⟩
  exact ⟨ns', parse_eq_ok_iff.mpr ⟨hsize, _, rfl, hchars⟩, hbare⟩

/-- Literal text with an apostrophe and a brace, and a plural with an offset, an exact selector, a
tag, a number sign and a skeleton. -/
def partyTree : List Node := [
  .literal .zero "it's \x7b",
  .plural .zero "n" .zero 1 .cardinal [
    ⟨"=1", .zero, .zero, [.tag .zero "b" .zero false [.literal .zero "#1"]]⟩,
    ⟨"other", .zero, .zero, [.pound .zero,
      .format .zero .number "n" .zero (.skeleton "percent" [("style", .text "percent")] .zero)]⟩]]

example : Node.listWritten false partyTree =
    ("it''s '\x7b'\x7bn, plural, offset:1 =1 \x7b<b>'#1'</b>\x7d " ++
      "other \x7b#\x7bn, number, ::percent\x7d\x7d\x7d").toList := by
  rfl

theorem wellFormed_partyTree : ∀ n ∈ partyTree, n.WellFormed false := by
  have hname : IsName "n" := isName_of_all (by decide) rfl
  have hexact : IsPluralKey "=1" := .inr ⟨['1'], 1, rfl, List.all_eq_true.mp rfl, rfl, rfl⟩
  have hother : IsPluralKey "other" := .inl (by decide)
  have htag : (Node.tag .zero "b" .zero false [.literal .zero "#1"]).WellFormed true := by
    refine .tag ⟨rfl, List.all_eq_true.mp rfl⟩ Bool.noConfusion (List.isChain_singleton _) ?_
    exact List.forall_mem_singleton.mpr (.literal (by decide))
  refine List.forall_mem_cons.mpr ⟨.literal (by decide), List.forall_mem_singleton.mpr ?_⟩
  refine .plural hname rfl (by decide) ⟨List.cons_ne_nil _ _, by decide, ?_, ?_⟩ ?_
  · exact List.forall_mem_cons.mpr ⟨hexact, List.forall_mem_singleton.mpr hother⟩
  · refine List.forall_mem_cons.mpr ⟨List.isChain_singleton _, List.forall_mem_singleton.mpr ?_⟩
    exact List.isChain_pair.mpr fun h => Bool.noConfusion h.1
  · refine List.forall_mem_cons.mpr ⟨List.forall_mem_singleton.mpr htag, ?_⟩
    refine List.forall_mem_singleton.mpr (List.forall_mem_cons.mpr ⟨.pound, ?_⟩)
    exact List.forall_mem_singleton.mpr (.format hname)

theorem spelled_partyTree : ∀ n ∈ partyTree, n.All Node.Spelled := by
  refine List.forall_mem_cons.mpr ⟨.leaf trivial fun m hm => by cases hm; rfl, ?_⟩
  refine List.forall_mem_singleton.mpr (.plural ⟨rfl, 1, rfl⟩ ?_)
  refine List.forall_mem_cons.mpr ⟨List.forall_mem_singleton.mpr (.tag trivial ?_), ?_⟩
  · exact List.forall_mem_singleton.mpr (.leaf trivial fun m hm => by cases hm; rfl)
  · refine List.forall_mem_singleton.mpr (List.forall_mem_cons.mpr
      ⟨.leaf trivial fun m hm => by cases hm; rfl, List.forall_mem_singleton.mpr ?_⟩)
    refine .leaf ⟨List.all_eq_true.mp rfl, rfl, rfl⟩ fun m hm => by cases hm; rfl

theorem parse_written_partyTree :
    ∃ ns', parse 0 defaultLimit (Utf8.encode (Node.listWritten false partyTree)) = .ok ns' ∧
      ns'.map Node.bare = partyTree.map Node.bare :=
  parse_written 0 (List.isChain_pair.mpr fun h => Bool.noConfusion h.2) wellFormed_partyTree
    spelled_partyTree (by decide) (by decide +kernel)

end Phrasebook.Message
