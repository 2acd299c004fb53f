import Phrasebook.Proofs.Grammar
import Phrasebook.Proofs.Writing

/-!
The nesting limit is exact. A text that is read with some budget of levels is read with any budget
that has the levels of its tree, as the same tree, and any smaller budget is refused as too small. No
tree has more levels than its text has characters, so a limit above that is none.
-/
namespace Phrasebook.Message

open Cursor Node

/-! ### Reading within a budget -/

/-- What a reader with a budget does where something of so many levels stands: it reads that, or it
refuses to nest deeper. -/
structure Limited {α : Type} (ctx : Context) (budget levels : ℕ) (x : Read α)
    (result : Except Fault (Read α)) : Prop where
  reads : levels ≤ budget → result = .ok x
  refuses : budget < levels → ∃ span, result = fail (.tooDeep ctx.limit) span

namespace Limited

variable {α β : Type} {ctx : Context} {budget levels levels' : ℕ} {x : Read α} {y : Read β}
  {result : Except Fault (Read α)}

theorem ok (h : levels ≤ budget) : Limited ctx budget levels x (.ok x) :=
  ⟨fun _ => rfl, fun hless => absurd h (Nat.not_le.mpr hless)⟩

theorem refused (h : budget < levels) {span : Span} :
    Limited ctx budget levels x (fail (.tooDeep ctx.limit) span) :=
  ⟨fun hle => absurd h (Nat.not_lt.mpr hle), fun _ => ⟨span, rfl⟩⟩

/-- Of two readers one behind the other, the deeper one decides. -/
theorem bind {f : Read α → Except Fault (Read β)} (h : Limited ctx budget levels x result)
    (hf : Limited ctx budget levels' y (f x)) :
    Limited ctx budget (max levels levels') y (result >>= f) := by
  constructor
  · intro hle
    rw [h.reads (le_of_max_le_left hle)]
    exact hf.reads (le_of_max_le_right hle)
  · intro hless
    by_cases hle : levels ≤ budget
    · rw [h.reads hle]
      exact hf.refuses (by omega)
    · obtain ⟨span, hresult⟩ := h.refuses (by omega)
      exact ⟨span, by rw [hresult]; rfl⟩

/-- What follows a reader and nests no deeper does not count. -/
theorem map {f : Read α → Except Fault (Read β)} (h : Limited ctx budget levels x result)
    (hf : f x = .ok y) : Limited ctx budget levels y (result >>= f) := by
  have hlast : Limited ctx budget 0 y (f x) := hf ▸ ok (Nat.zero_le _)
  simpa only [Nat.max_zero] using h.bind hlast

/-- The levels around what is read are taken off the budget. -/
theorem around (n : ℕ) (h : Limited ctx budget levels x result) :
    Limited ctx (budget + n) (levels + n) x result :=
  ⟨fun hle => h.reads (by omega), fun hless => h.refuses (by omega)⟩

end Limited

/-- A reader of bodies that is entered with `around` levels. It is missing where the budget has fewer
of them, and else it reads what `read` does, as far as the budget goes. -/
structure Enters (ctx : Context) (budget around : ℕ) (read : Reader (List Node))
    (body : Option (Reader (List Node))) : Prop where
  missing : budget < around → body = none
  present : around ≤ budget → ∃ read', body = some read' ∧ ∀ c ns c', read c = .ok (ns, c') →
    Limited ctx budget (listDepth ns + around) (ns, c') (read' c)

/-- Readers one level down with a budget, compared with others: a tag takes one level of the budget,
an argument and a case in it take two. -/
structure Inner.Enters (ctx : Context) (budget : ℕ) (inner inner' : Inner) : Prop where
  tagBody : ∀ read ∈ inner.tagBody, ∀ inPlural,
    Message.Enters ctx budget 1 (read inPlural) (inner'.tagBody.map fun read' => read' inPlural)
  caseBody : ∀ read ∈ inner.caseBody, ∀ inPlural,
    Message.Enters ctx budget 2 (read inPlural) (inner'.bodyReader inPlural)
  missing : budget = 0 → inner'.tagBody = none
  present : 1 ≤ budget → inner'.tagBody.isSome = true

/-! ### Choices -/

/-- The levels that cases take in their argument, which takes one of them. -/
def casesLevels : List (Branch Node) → ℕ
  | [] => 0
  | b :: r => max (listDepth b.body + 2) (casesLevels r)

theorem casesLevels_eq {l : List (Branch Node)} (h : l ≠ []) :
    casesLevels l = branchesDepth l + 2 := by
  induction l with
  | nil => exact absurd rfl h
  | cons b r ih =>
    rw [casesLevels, branchesDepth, branchDepth.eq_def]
    cases r with
    | nil => rw [casesLevels, branchesDepth, Nat.max_zero, Nat.max_zero]
    | cons b' r' => rw [ih (List.cons_ne_nil _ _), Nat.add_max_add_right]

section Choices

variable {ctx : Context} {budget : ℕ} {plural : Bool} {body body' : Option (Reader (List Node))}
  {start c c' : Cursor}

theorem limited_readBody (hbody : ∀ read ∈ body, Enters ctx budget 2 read body') {key : String}
    {ns : List Node} (h : BodyAt body c ns c') :
    Limited ctx budget (listDepth ns + 2) (ns, c') (readBody ctx body' start key c) := by
  obtain ⟨read, inside, stop, hread, hopen, hns, hclosed⟩ := h
  have henters := hbody read hread
  rw [readBody]
  simp only [eat?_eq_some_iff.mpr hopen]
  by_cases hroom : 2 ≤ budget
  · obtain ⟨read', hread', hlimited⟩ := henters.present hroom
    simp only [hread']
    apply (hlimited inside ns stop hns).map
    simp only [isDone_eq_false hclosed (List.cons_ne_nil _ _), eat?_eq_some_iff.mpr hclosed]
    rfl
  · -- the brace of the case is where the budget ends
    simp only [henters.missing (by omega)]
    exact .refused (by omega)

theorem limited_readCase (hbody : ∀ read ∈ body, Enters ctx budget 2 read body')
    {earlier : List (Branch Node)} {b : Branch Node}
    (h : CaseAt ctx.file plural body earlier c b c') :
    Limited ctx budget (listDepth b.body + 2) (b, c')
      (readCase ctx plural body' start earlier c) := by
  obtain ⟨hkey, hfresh, hns⟩ := h
  rw [readCase, readKey_eq_ok_iff.mpr hkey]
  simp only [bind, Except.bind, find?_key_eq_none_iff.mpr hfresh]
  exact (limited_readBody hbody hns).map rfl

/-- The cases that are left are read one behind the other, each within the budget. -/
theorem limited_readCases (start : Cursor) (hforward : ∀ read ∈ body, Forward read)
    (hbody : ∀ read ∈ body, Enters ctx budget 2 read body') {fuel : ℕ} {done cs : Cases}
    (hfuel : c.rest.length < fuel) (h : CasesAt ctx.file plural body done c cs c') :
    ∃ l, cs.cases = done.cases ++ l ∧
      Limited ctx budget (casesLevels l) (cs, c')
        (readCases ctx plural body' start fuel done c) := by
  induction h generalizing fuel with
  | close hclosed hne =>
    obtain ⟨fuel, rfl⟩ : ∃ n, fuel = n + 1 := ⟨fuel - 1, by omega⟩
    rw [readCases_of_close hclosed hne]
    exact ⟨[], (List.append_nil _).symm, .ok (Nat.zero_le _)⟩
  | offset hplural hnil hword hoffset _ ih =>
    obtain ⟨fuel, rfl⟩ : ∃ n, fuel = n + 1 := ⟨fuel - 1, by omega⟩
    have hless := hoffset.length_lt hword
    rw [readCases_of_offset hplural hnil hword hoffset]
    exact ih (by omega)
  | @case done cs c c₁ c' b hcase _ ih =>
    obtain ⟨fuel, rfl⟩ : ∃ n, fuel = n + 1 := ⟨fuel - 1, by omega⟩
    obtain ⟨k, hkey⟩ := hcase.key
    have hless := hcase.length_lt hforward
    obtain ⟨l, hl, hlimited⟩ := ih (by omega : c₁.rest.length < fuel)
    refine ⟨b :: l, by rw [hl, List.append_assoc, List.singleton_append], ?_⟩
    rw [readCases_of_key hkey]
    exact (limited_readCase hbody hcase).bind hlimited

/-- A choice has a case, so it takes two levels at least. -/
theorem CasesAt.cases_ne_nil {file : UInt32} {done cs : Cases}
    (h : CasesAt file plural body done c cs c') : cs.cases ≠ [] := by
  induction h with
  | close _ hne => exact hne
  | offset _ _ _ _ _ ih => exact ih
  | case _ _ ih => exact ih

theorem limited_readChoice {inner inner' : Inner} (hforward : inner.Forward)
    (henters : inner.Enters ctx budget inner') {inPlural : Bool} {cs : Cases}
    (h : ChoiceAt ctx.file plural (inner.bodyReader (inPlural || plural)) c cs c') :
    Limited ctx budget (branchesDepth cs.cases + 2) (cs, c')
      (readChoice ctx inner' inPlural plural start c) := by
  obtain ⟨c₁, hcomma, hcases⟩ := h
  have hbody : ∀ read ∈ inner.bodyReader (inPlural || plural),
      Enters ctx budget 2 read (inner'.bodyReader (inPlural || plural)) := by
    intro read hread
    obtain ⟨read', hread', rfl⟩ := Option.map_eq_some_iff.mp hread
    exact henters.caseBody read' hread' _
  obtain ⟨l, hl, hlimited⟩ := limited_readCases start (hforward.bodyReader _) hbody
    (Nat.lt_succ_self _) hcases
  rw [List.nil_append] at hl
  rw [readChoice]
  simp only [isDone_eq_false hcomma (List.cons_ne_nil _ _), eat?_eq_some_iff.mpr hcomma]
  rw [← casesLevels_eq hcases.cases_ne_nil, hl]
  exact hlimited

end Choices

/-! ### Elements -/

section Elements

variable {ctx : Context} {budget : ℕ} {inner inner' : Inner} {inPlural : Bool} {c c' : Cursor}
  {n : Node}

/-- What follows the name of an argument, for which there was a level. -/
theorem limited_readNamed (hforward : inner.Forward) (hforward' : inner'.Forward)
    (henters : inner.Enters ctx budget inner') (hroom : 1 ≤ budget) {start : Cursor} {name : String}
    {nameSpan : Span}
    (h : ArgumentAt ctx.file inner inPlural start name nameSpan c n c') :
    Limited ctx budget n.depth (n, c') (readNamed ctx inner' inPlural start name nameSpan c) := by
  cases h with
  | plain hclosed =>
    rw [(readNamed_eq_ok_iff hforward').mpr (.plain hclosed)]
    exact .ok hroom
  | format htype hformat =>
    rw [(readNamed_eq_ok_iff hforward').mpr (.format htype hformat)]
    exact .ok hroom
  | @select c₁ _ cs htype hcases =>
    -- Choices take one level for themselves and one for each case.
    obtain ⟨typeSpan, hread⟩ : ∃ typeSpan,
        readNamed ctx inner' inPlural start name nameSpan c =
          readTyped ctx inner' inPlural start name nameSpan "select" typeSpan c₁ :=
      readNamed_of_typeAt htype
    have hchoice : ChoiceAt ctx.file false (inner.bodyReader (inPlural || false)) c₁ cs c' := by
      rwa [Bool.or_false]
    rw [hread, readTyped, depth]
    exact (limited_readChoice hforward henters hchoice).map rfl
  | @plural kind c₁ _ cs htype hcases =>
    obtain ⟨typeSpan, hread⟩ : ∃ typeSpan,
        readNamed ctx inner' inPlural start name nameSpan c =
          readTyped ctx inner' inPlural start name nameSpan kind.keyword typeSpan c₁ :=
      readNamed_of_typeAt htype
    have hchoice : ChoiceAt ctx.file true (inner.bodyReader (inPlural || true)) c₁ cs c' := by
      rwa [Bool.or_true]
    have hlimited : Limited ctx budget (branchesDepth cs.cases + 2) (cs, c')
        (readChoice ctx inner' inPlural true start c₁) :=
      limited_readChoice hforward henters hchoice
    rw [hread, depth]
    cases kind with
    | cardinal =>
      rw [PluralKind.keyword, readTyped]
      exact hlimited.map rfl
    | ordinal =>
      rw [PluralKind.keyword, readTyped]
      exact hlimited.map rfl

theorem limited_readTag (henters : inner.Enters ctx budget inner')
    (h : TagAt ctx.file inner inPlural c n c') {inside : Cursor} (hopen : c.Passes ['<'] inside) :
    Limited ctx budget n.depth (n, c') (readTag ctx inner' inPlural c inside) := by
  by_cases hroom : 1 ≤ budget
  · cases h with
    | single _ hopen' hname hclosed =>
      obtain rfl := hopen.eq_of_same hopen'
      have hsingle : TagAt ctx.file inner' inPlural c _ c' :=
        .single (henters.present hroom) hopen hname hclosed
      rw [(readTag_eq_ok_iff hopen hname.head).mpr hsingle]
      exact .ok hroom
    | @paired name read _ c₁ c₂ closing c₃ c₄ _ children hread hopen' hname hend hbody hword hclose
        hclosed =>
      obtain rfl := hopen.eq_of_same hopen'
      obtain ⟨read', hread', hlimited⟩ := (henters.tagBody read hread inPlural).present hroom
      obtain ⟨read', hread'', rfl⟩ := Option.map_eq_some_iff.mp hread'
      have hhead : ¬closing.rest.head? ≠ some '<' := not_not.mpr hword.head?
      rw [readTag_of_opening hread'' hname hend, readTagBody, depth]
      apply (hlimited c₂ children closing hbody).map
      simp only [if_neg hhead, eatWord?_eq_some_iff.mpr hword, Option.getD_some,
        scanTagName_eq_of_at hclose, eat?_eq_some_iff.mpr hclosed, ne_eq, not_true_eq_false,
        if_false]
      rfl
  · have hdeep : budget < n.depth := by
      cases h <;> rw [depth] <;> omega
    rw [readTag]
    simp only [henters.missing (by omega)]
    exact .refused hdeep

theorem limited_readElement (hforward : inner.Forward) (hforward' : inner'.Forward)
    (henters : inner.Enters ctx budget inner') (h : ElementAt ctx.file inner inPlural c n c') :
    Limited ctx budget n.depth (n, c') (readElement ctx inner' inPlural c) := by
  cases h with
  | literal hliteral =>
    rw [readElement_of_elementAt hforward' (.literal hliteral)]
    exact .ok (Nat.zero_le _)
  | pound hplural hsign =>
    rw [readElement_of_elementAt hforward' (.pound hplural hsign)]
    exact .ok (Nat.zero_le _)
  | argument _ hname hargument =>
    obtain ⟨inside, hopen, -⟩ := id hname
    rw [readElement_of_brace hopen]
    by_cases hroom : 1 ≤ budget
    · rw [readArgument_of_namedAt (henters.present hroom) hopen hname]
      exact limited_readNamed hforward hforward' henters hroom hargument
    · have hdeep : budget < n.depth := by
        cases hargument <;> rw [depth] <;> omega
      rw [readArgument, henters.missing (by omega)]
      exact .refused hdeep
  | tag htag =>
    obtain ⟨inside, hopen, hletter⟩ := htag.opens
    rw [readElement_of_tagStart hopen hletter]
    exact limited_readTag henters htag hopen

/-- Siblings are read one behind the other, and the deepest of them decides. -/
theorem limited_readSiblings (hforward : inner.Forward) (hforward' : inner'.Forward)
    (henters : inner.Enters ctx budget inner') {ns : List Node} {fuel : ℕ}
    (hfuel : c.rest.length ≤ fuel) (h : SiblingsAt (ElementAt ctx.file inner inPlural) c ns c') :
    Limited ctx budget (listDepth ns) (ns, c')
      (readSiblings (readElement ctx inner' inPlural) fuel c) := by
  induction h generalizing fuel with
  | nil hend =>
    rw [readSiblings_of_atEnd hend]
    exact .ok (Nat.zero_le _)
  | @cons c c₁ c' n ns hend helement _ ih =>
    have hless := (helement.leads hforward).2
    obtain ⟨fuel, rfl⟩ : ∃ k, fuel = k + 1 := ⟨fuel - 1, by omega⟩
    rw [readSiblings_of_not_atEnd hend, listDepth]
    -- The budget is not used up by an element: its siblings have all of it again.
    apply (limited_readElement hforward hforward' henters helement).bind
    exact (ih (by omega : c₁.rest.length ≤ fuel)).map rfl

end Elements

/-! ### Budgets -/

/-- What is read with one budget is read with any other one that is large enough. -/
theorem limited_readNodes (ctx ctx' : Context) (hfile : ctx.file = ctx'.file) (full : ℕ) :
    ∀ inPlural budget c ns c', readNodes ctx full inPlural c = .ok (ns, c') →
      Limited ctx' budget (listDepth ns) (ns, c') (readNodes ctx' budget inPlural c) := by
  refine readNodes_induction (P := fun inPlural read => ∀ budget c ns c', read c = .ok (ns, c') →
    Limited ctx' budget (listDepth ns) (ns, c') (readNodes ctx' budget inPlural c)) ?_ full
  intro full hinner inPlural budget c ns c' h
  rw [readNodes_eq_ok_iff, hfile] at h
  rw [readNodes_eq_readSiblings]
  apply limited_readSiblings (forward_innerAt ctx full) (forward_innerAt ctx' budget) ?_
    (Nat.le_refl _) h
  -- the levels below are read with one and with two levels less
  constructor
  case tagBody =>
    intro read hread inPlural
    match budget with
    | 0 => exact ⟨fun _ => rfl, fun hle => absurd hle (by omega)⟩
    | 1 =>
      exact ⟨fun hless => absurd hless (by omega), fun _ => ⟨_, rfl, fun c ns c' h =>
        (hinner.tagBody read hread inPlural 0 c ns c' h).around 1⟩⟩
    | budget + 2 =>
      exact ⟨fun hless => absurd hless (by omega), fun _ => ⟨_, rfl, fun c ns c' h =>
        (hinner.tagBody read hread inPlural (budget + 1) c ns c' h).around 1⟩⟩
  case caseBody =>
    intro read hread inPlural
    match budget with
    | 0 => exact ⟨fun _ => rfl, fun hle => absurd hle (by omega)⟩
    | 1 => exact ⟨fun _ => rfl, fun hle => absurd hle (by omega)⟩
    | budget + 2 =>
      exact ⟨fun hless => absurd hless (by omega), fun _ => ⟨_, rfl, fun c ns c' h =>
        (hinner.caseBody read hread inPlural budget c ns c' h).around 2⟩⟩
  case missing =>
    rintro rfl
    rfl
  case present =>
    intro hle
    match budget with
    | 0 => exact absurd hle (by omega)
    | 1 => rfl
    | _ + 2 => rfl

/-! ### Levels and characters -/

/-- A reader gives trees with no more levels than it takes characters. -/
def Roomy (read : Reader (List Node)) : Prop :=
  ∀ c ns c', read c = .ok (ns, c') → listDepth ns + c'.rest.length ≤ c.rest.length

section Lengths

variable {file : UInt32} {plural inPlural : Bool} {body : Option (Reader (List Node))}
  {inner : Inner} {c c' : Cursor} {n : Node}

/-- A body stands in two braces. -/
theorem BodyAt.levels_le (hbody : ∀ read ∈ body, Roomy read) {ns : List Node}
    (h : BodyAt body c ns c') : listDepth ns + 2 + c'.rest.length ≤ c.rest.length := by
  obtain ⟨read, inside, stop, hread, hopen, hns, hclosed⟩ := h
  have hblank := c.leads_skipBlank.length_le
  have hinside := hopen.length_rest
  have hbelow := hbody read hread _ _ _ hns
  have hbehind := hclosed.length_rest
  rw [List.length_singleton] at hinside hbehind
  omega

theorem CasesAt.levels_le (hforward : ∀ read ∈ body, Forward read)
    (hbody : ∀ read ∈ body, Roomy read) {done cs : Cases}
    (h : CasesAt file plural body done c cs c') :
    ∃ l, cs.cases = done.cases ++ l ∧ casesLevels l + c'.rest.length ≤ c.rest.length := by
  induction h with
  | @close done c c' hclosed _ =>
    have hle := (c.leads_skipBlank.trans hclosed.leads).length_le
    exact ⟨[], (List.append_nil _).symm, by rw [casesLevels]; omega⟩
  | offset _ _ hword hoffset _ ih =>
    obtain ⟨l, hl, hle⟩ := ih
    have hless := hoffset.length_lt hword
    exact ⟨l, hl, by omega⟩
  | @case done cs c c₁ c' b hcase hcases ih =>
    obtain ⟨l, hl, hle⟩ := ih
    have hbehind := (hcases.leads hforward).length_le
    have hblank := c.leads_skipBlank.length_le
    have hb : listDepth b.body + 2 + c₁.rest.length ≤ c.skipBlank.rest.length := by
      obtain ⟨hkey, -, hns⟩ := hcase
      have hkeyed := hkey.leads.1.length_le
      have hbody := hns.levels_le hbody
      exact hbody.trans hkeyed
    refine ⟨b :: l, by rw [hl, List.append_assoc, List.singleton_append], ?_⟩
    rw [casesLevels]
    omega

theorem ChoiceAt.levels_le (hforward : ∀ read ∈ body, Forward read)
    (hbody : ∀ read ∈ body, Roomy read) {cs : Cases} (h : ChoiceAt file plural body c cs c') :
    branchesDepth cs.cases + 2 + c'.rest.length ≤ c.rest.length := by
  obtain ⟨c₁, hcomma, hcases⟩ := h
  have hle := (c.leads_skipBlank.trans hcomma.leads).length_le
  obtain ⟨l, hl, hlevels⟩ := hcases.levels_le hforward hbody
  rw [List.nil_append] at hl
  rw [← casesLevels_eq hcases.cases_ne_nil, hl]
  omega

theorem ElementAt.levels_le (hforward : inner.Forward) (hinner : inner.All fun _ => Roomy)
    (h : ElementAt file inner inPlural c n c') : n.depth + c'.rest.length ≤ c.rest.length := by
  have hless := (h.leads hforward).2
  cases h with
  | literal => rw [depth]; omega
  | pound => rw [depth]; omega
  | @argument name nameSpan c₁ _ _ _ hname hargument =>
    -- The opening brace has been read by then, which pays for the level.
    have hnamed : c₁.rest.length < c.rest.length := by
      obtain ⟨inside, hopen, hname, -⟩ := hname
      exact (advances_of_passes hopen (inside.leads_skipBlank.trans hname.run.passes.leads)).2
    cases hargument with
    | plain => rw [depth]; omega
    | format => rw [depth]; omega
    | select htype hcases =>
      have hle := htype.leads.length_le
      have hlevels := hcases.levels_le (hforward.bodyReader _) (hinner.bodyReader _)
      rw [depth]
      omega
    | plural htype hcases =>
      have hle := htype.leads.length_le
      have hlevels := hcases.levels_le (hforward.bodyReader _) (hinner.bodyReader _)
      rw [depth]
      omega
  | tag htag =>
    cases htag with
    | single => rw [depth, listDepth]; omega
    | @paired _ read inside c₁ c₂ closing _ c₄ _ children hread hopen hname hend hbody hword hclose
        hclosed =>
      have hopening := advances_of_passes hopen
        ((hname.run.passes.leads.trans c₁.leads_skipBlank).trans hend.leads)
      have hchildren := hinner.tagBody read hread inPlural _ _ _ hbody
      have hclosing := (((hword.leads.trans hclose.run.passes.leads).trans
        c₄.leads_skipBlank).trans hclosed.leads).length_le
      rw [depth]
      omega

theorem SiblingsAt.levels_le (hforward : inner.Forward) (hinner : inner.All fun _ => Roomy)
    {ns : List Node} (h : SiblingsAt (ElementAt file inner inPlural) c ns c') :
    listDepth ns + c'.rest.length ≤ c.rest.length := by
  induction h with
  | nil => rw [listDepth]; omega
  | cons _ helement hsiblings ih =>
    have hlevels := helement.levels_le hforward hinner
    have hle := (helement.leads hforward).1.length_le
    have hbehind := (hsiblings.leads hforward).length_le
    rw [listDepth]
    omega

end Lengths

theorem roomy_readNodes (ctx : Context) (budget : ℕ) :
    ∀ inPlural, Roomy (readNodes ctx budget inPlural) := by
  refine readNodes_induction (P := fun _ => Roomy) ?_ budget
  intro budget hinner inPlural c ns c' h
  rw [readNodes_eq_ok_iff] at h
  exact h.levels_le (forward_innerAt ctx budget) hinner

/-! ### Texts -/

section Texts

variable {file : UInt32} {limit : ℕ} {content : Bytes} {ns : List Node}

/-- A tree that was read takes as many levels as its text has bytes, at most. -/
theorem listDepth_le_of_parse (h : parse file limit content = .ok ns) :
    listDepth ns ≤ content.length := by
  obtain ⟨-, cs, rfl, hchars⟩ := parse_eq_ok_iff.mp h
  obtain ⟨c', -, hread⟩ := parseChars_eq_ok_iff.mp hchars
  have hlevels := roomy_readNodes _ _ _ _ _ _ hread
  calc
    listDepth ns ≤ cs.length := by
      change listDepth ns + c'.rest.length ≤ cs.length at hlevels
      omega
    _ ≤ Skeleton.byteLength cs := Skeleton.length_le_byteLength cs
    _ = (Utf8.encode cs).length := (Skeleton.length_encode cs).symm

/-- A text that is read with one limit, read with another one. -/
theorem parse_of_parse (h : parse file limit content = .ok ns) (limit' : ℕ) :
    (listDepth ns ≤ limit' → parse file limit' content = .ok ns) ∧
      (limit' < listDepth ns → ∃ span,
        parse file limit' content = .error (.fault ⟨.tooDeep limit', span⟩)) := by
  obtain ⟨hsize, cs, rfl, hchars⟩ := parse_eq_ok_iff.mp h
  obtain ⟨c', hdone, hread⟩ := parseChars_eq_ok_iff.mp hchars
  have hlimited := limited_readNodes ⟨file, limit⟩ ⟨file, limit'⟩ rfl limit false limit' _ _ _ hread
  constructor
  · intro hle
    have hchars' := parseChars_eq_ok_iff.mpr ⟨c', hdone, hlimited.reads hle⟩
    exact parse_eq_ok_iff.mpr ⟨hsize, cs, rfl, hchars'⟩
  · intro hless
    obtain ⟨span, hfault⟩ := hlimited.refuses hless
    refine ⟨span, ?_⟩
    rw [parse_encode hsize, parseChars, hfault]
    rfl

/-- A text is read with a limit just if it is read without one, as which no text can tell a limit
above its length, and its tree keeps to the limit. A tree that does not is refused for that. -/
theorem nesting_limited (file : UInt32) (limit : Int) (content : Bytes) (hlimit : 1 ≤ limit) :
    (∀ ns, parse file (effectiveLimit limit) content = .ok ns ↔
      parse file (effectiveLimit (content.length + 1)) content = .ok ns ∧ listDepth ns ≤ limit) ∧
    ∀ ns, parse file (effectiveLimit (content.length + 1)) content = .ok ns → limit < listDepth ns →
      ∃ f, parse file (effectiveLimit limit) content = .error (.fault f) ∧
        f.cause = .tooDeep limit.toNat ∧ f.diagnostic.code = .nestingTooDeep := by
  have heffective {n : Int} (hn : 1 ≤ n) : effectiveLimit n = n.toNat := if_neg (by omega)
  rw [heffective hlimit, heffective (by omega : 1 ≤ (content.length : Int) + 1)]
  constructor
  · intro ns
    constructor
    · intro h
      have hdepth : listDepth ns ≤ limit.toNat := by
        by_contra hdeep
        obtain ⟨span, hfault⟩ := (parse_of_parse h limit.toNat).2 (by omega)
        exact nomatch h.symm.trans hfault
      have hlength := listDepth_le_of_parse h
      exact ⟨(parse_of_parse h _).1 (by omega), by omega⟩
    · rintro ⟨h, hdepth⟩
      exact (parse_of_parse h limit.toNat).1 (by omega)
  · intro ns h hdeep
    obtain ⟨span, hfault⟩ := (parse_of_parse h limit.toNat).2 (by omega)
    exact ⟨_, hfault, rfl, rfl⟩

/-- A tag in a case with an argument in it nests four levels deep. -/
def tagInCase : Bytes :=
  Utf8.encode "{a, select, other {<b>{x}</b>}}".toList

theorem nesting_limited_tagInCase : (1 : Int) ≤ 3 ∧ (1 : Int) ≤ 4 ∧
    ∃ ns, listDepth ns = 4 ∧ parse 0 (effectiveLimit (tagInCase.length + 1)) tagInCase = .ok ns ∧
      parse 0 (effectiveLimit 4) tagInCase = .ok ns ∧
      ∃ f, parse 0 (effectiveLimit 3) tagInCase = .error (.fault f) ∧
        f.diagnostic.code = .nestingTooDeep := by
  have hdepth : (parse 0 (effectiveLimit (tagInCase.length + 1)) tagInCase).toOption.map listDepth =
      some 4 := by decide +kernel
  obtain ⟨ns, hns, hfour⟩ := Option.map_eq_some_iff.mp hdepth
  have hparse : parse 0 (effectiveLimit (tagInCase.length + 1)) tagInCase = .ok ns := by
    cases h : parse 0 (effectiveLimit (tagInCase.length + 1)) tagInCase with
    | ok ns' =>
      rw [h] at hns
      exact congrArg Except.ok (Option.some.inj hns)
    | error f =>
      rw [h] at hns
      exact nomatch hns
  refine ⟨by decide, by decide, ns, hfour, hparse, ?_, ?_⟩
  · exact ((nesting_limited 0 4 tagInCase (by decide)).1 ns).mpr ⟨hparse, by omega⟩
  · obtain ⟨f, hfault, -, hcode⟩ := (nesting_limited 0 3 tagInCase (by decide)).2 ns hparse (by omega)
    exact ⟨f, hfault, hcode⟩

end Texts

end Phrasebook.Message
