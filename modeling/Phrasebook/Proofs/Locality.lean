import Phrasebook.Proofs.Writing

/-!
Reading is local. What a reader takes from a text does not depend on what stands behind it, as long
as the texts behind it agree up to a closing brace; only the places of what was read move.
-/
namespace Phrasebook.Message

open Cursor

/-! ### Texts that agree -/

/-- Two texts are the same, or they are up to a closing brace that stands in both. -/
inductive Agree : List Char → List Char → Prop where
  | refl (r : List Char) : Agree r r
  | brace (r y : List Char) : Agree ('}' :: r) ('}' :: y)
  | cons (x : Char) {r y : List Char} : Agree r y → Agree (x :: r) (x :: y)

namespace Agree

variable {r y : List Char}

theorem append (h : Agree r y) (run : List Char) : Agree (run ++ r) (run ++ y) := by
  induction run with
  | nil => exact h
  | cons x run ih => exact .cons x ih

theorem symm (h : Agree r y) : Agree y r := by
  induction h with
  | refl r => exact .refl r
  | brace r y => exact .brace y r
  | cons x _ ih => exact .cons x ih

theorem head? (h : Agree r y) : r.head? = y.head? := by
  cases h <;> rfl

theorem eq_nil (h : Agree r y) (hr : r = []) : y = [] := by
  subst hr
  cases h
  rfl

/-- A word without a closing brace does not tell the texts apart. -/
theorem isPrefix {word : List Char} (h : Agree r y) (hword : '}' ∉ word) (hr : word <+: r) :
    word <+: y := by
  induction h generalizing word with
  | refl => exact hr
  | brace r y =>
    cases word with
    | nil => exact List.nil_prefix
    | cons x word =>
      have hx : x = '}' := (List.cons_prefix_cons.mp hr).1
      exact absurd (by rw [hx]; exact List.mem_cons_self) hword
  | cons x _ ih =>
    cases word with
    | nil => exact List.nil_prefix
    | cons z word =>
      obtain ⟨hz, htail⟩ := List.cons_prefix_cons.mp hr
      exact List.cons_prefix_cons.mpr ⟨hz, ih (fun hmem => hword (List.mem_cons_of_mem _ hmem)) htail⟩

theorem isPlain {inPlural : Bool} (h : Agree r y) (hr : IsPlain inPlural r) : IsPlain inPlural y := by
  obtain ⟨x, tail, rfl, hmark⟩ := hr
  cases h with
  | refl => exact ⟨x, tail, rfl, hmark⟩
  | brace => exact Bool.noConfusion hmark
  | @cons _ _ tail' htail =>
    refine ⟨x, tail', rfl, ?_⟩
    rw [isSyntax, ← htail.head?]
    exact hmark

theorem atEnd {c d : Cursor} (h : Agree c.rest d.rest) (hc : AtEnd c) : AtEnd d := by
  rcases hc with hnil | hbrace | ⟨tail, hclose⟩
  · exact .inl (h.eq_nil hnil)
  · exact .inr (.inl (h.head? ▸ hbrace))
  · have hword : ['<', '/'] <+: d.rest := h.isPrefix (by decide) ⟨tail, hclose.symm⟩
    obtain ⟨tail', hrest⟩ := hword
    exact .inr (.inr ⟨tail', hrest.symm⟩)

end Agree

/-! ### Local readers -/

/-- What a relation tells of the text between two cursors it tells of the same characters elsewhere,
where the texts behind them agree. `strip` forgets places. -/
def Local {α β : Type} (strip : α → β) (R : Cursor → α → Cursor → Prop) : Prop :=
  ∀ c x c', R c x c' → ∃ run, c.Passes run c' ∧ ∀ (d : Cursor) (y : List Char),
    d.rest = run ++ y → Agree c'.rest y → ∃ x' d', R d x' d' ∧ d'.rest = y ∧ strip x' = strip x

/-- What ends with a closing brace is told whatever stands behind the brace. -/
def Braced {α β : Type} (strip : α → β) (R : Cursor → α → Cursor → Prop) : Prop :=
  ∀ c x c', R c x c' → ∃ run, c.Passes (run ++ ['}']) c' ∧ ∀ (d : Cursor) (y : List Char),
    d.rest = run ++ '}' :: y → ∃ x' d', R d x' d' ∧ d'.rest = y ∧ strip x' = strip x

section Parts

variable {α β : Type} {strip : α → β} {R : Cursor → α → Cursor → Prop}

variable {c c' d : Cursor} {run y : List Char}

theorem Cursor.Longest.again {p : Char → Bool} (h : Longest p c run c') (hd : d.rest = run ++ y)
    (hhead : c'.rest.head? = y.head?) : Longest p d run (d.skip run y) := by
  refine ⟨passes_skip hd, h.all, fun x hx => h.stops x ?_⟩
  rw [hhead]
  exact hx

/-- The same blanks are skipped before another text with the same first character. -/
theorem skipBlank_again (c : Cursor) : ∃ blanks, c.Passes blanks c.skipBlank ∧
    ∀ (d : Cursor) (y : List Char), d.rest = blanks ++ y →
      c.skipBlank.rest.head? = y.head? → d.skipBlank.rest = y := by
  obtain ⟨blanks, hblanks⟩ := skipBlank_eq_iff.mp (rfl : c.skipBlank = c.skipBlank)
  refine ⟨blanks, hblanks.passes, fun d y hd hhead => ?_⟩
  rw [skipBlank_eq_iff.mpr ⟨blanks, hblanks.again hd hhead⟩]
  rfl

theorem Local.afterBlank (h : Local strip R) : Local strip fun c => R c.skipBlank := by
  intro c x c' hx
  obtain ⟨blanks, hblanks, hskip⟩ := skipBlank_again c
  obtain ⟨run, hrun, hagain⟩ := h _ x c' hx
  refine ⟨blanks ++ run, hblanks.trans hrun, fun d y hd hy => ?_⟩
  have hstart : d.skipBlank.rest = run ++ y := by
    refine hskip d (run ++ y) (by rw [hd, List.append_assoc]) ?_
    rw [hrun.rest]
    exact (hy.append run).head?
  exact hagain _ y hstart hy

/-- A word behind blanks. -/
theorem word_again {word : List Char} (hword : word ≠ []) (h : c.skipBlank.Passes word c') :
    ∃ run, c.Passes (run ++ word) c' ∧ ∀ (d : Cursor) (y : List Char),
      d.rest = run ++ (word ++ y) → ∃ d', d.skipBlank.Passes word d' ∧ d'.rest = y := by
  obtain ⟨blanks, hblanks, hskip⟩ := skipBlank_again c
  refine ⟨blanks, hblanks.trans h, fun d y hd => ?_⟩
  have hstart : d.skipBlank.rest = word ++ y := by
    refine hskip d _ hd ?_
    rw [h.rest]
    cases word with
    | nil => exact absurd rfl hword
    | cons x r => rfl
  exact ⟨_, passes_skip hstart, rfl⟩

end Parts

/-! ### Names, selectors and offsets -/

theorem nameAt_local : Local id NameAt := by
  intro c name c' h
  refine ⟨_, h.run.passes, fun d y hd hy => ?_⟩
  exact ⟨name, _, ⟨h.ne, h.run.again hd hy.head?⟩, rfl, rfl⟩

theorem tagNameAt_local : Local id TagNameAt := by
  intro c name c' h
  refine ⟨_, h.run.passes, fun d y hd hy => ?_⟩
  exact ⟨name, _, ⟨h.start, h.run.again hd hy.head?⟩, rfl, rfl⟩

theorem keyAt_local (plural : Bool) : Local id (KeyAt plural) := by
  intro c key c' h
  cases h with
  | @exact start _ digits hplural hsign hdigits hsome =>
    refine ⟨['='] ++ digits, hsign.trans hdigits.passes, fun d y hd hy => ?_⟩
    rw [List.append_assoc] at hd
    exact ⟨_, _, .exact hplural (passes_skip hd) (hdigits.again rfl hy.head?) hsome, rfl, rfl⟩
  | name hname hcategory =>
    obtain ⟨run, hrun, hagain⟩ := nameAt_local _ _ _ hname
    refine ⟨run, hrun, fun d y hd hy => ?_⟩
    obtain ⟨key', d', hname', hrest, hkey⟩ := hagain d y hd hy
    rw [id, id] at hkey
    subst hkey
    exact ⟨_, d', .name hname' hcategory, hrest, rfl⟩

theorem offsetAt_local : Local id OffsetAt := by
  have hdigits : Local id fun c x c' =>
      ∃ digits, digits ≠ [] ∧ Longest Char.isDigit c digits c' ∧ Decimal.read? digits = some x := by
    rintro c x c' ⟨digits, hne, hrun, hread⟩
    refine ⟨digits, hrun.passes, fun d y hd hy => ?_⟩
    exact ⟨x, _, ⟨digits, hne, hrun.again hd hy.head?, hread⟩, rfl, rfl⟩
  exact hdigits.afterBlank

/-! ### Formatted arguments -/

theorem styleAt_braced (file : UInt32) (kind : FormatKind) :
    Braced Style.bare (StyleAt file kind) := by
  intro c style c' h
  obtain ⟨blanks, hblanks, hskip⟩ := skipBlank_again c
  cases h with
  | @named raw stop _ hmark hraw hne hbrace =>
    refine ⟨blanks ++ raw, ?_, fun d y hd => ?_⟩
    · rw [List.append_assoc]
      exact hblanks.trans (hraw.passes.trans hbrace)
    · have hagree : Agree (raw ++ stop.rest) (raw ++ '}' :: y) := by
        rw [hbrace.rest]
        exact (Agree.brace _ _).append raw
      have hstart : d.skipBlank.rest = raw ++ '}' :: y := by
        refine hskip d _ (by rw [hd, List.append_assoc]) ?_
        rw [hraw.passes.rest]
        exact hagree.head?
      have hraw' := hraw.again hstart (by rw [hbrace.rest]; rfl)
      -- two colons in the other text would stand in the first one too
      have hmark' : d.skipBlank.eatWord? [':', ':'] = none := by
        rw [Option.eq_none_iff_forall_ne_some] at hmark ⊢
        intro start hword
        have hprefix : [':', ':'] <+: c.skipBlank.rest := by
          rw [hraw.passes.rest]
          refine hagree.symm.isPrefix (by decide) ?_
          rw [← hstart]
          exact ⟨start.rest, (eatWord?_eq_some_iff.mp hword).rest.symm⟩
        obtain ⟨rest, hrest⟩ := hprefix
        exact hmark _ (eatWord?_eq_some_iff.mpr (passes_skip hrest.symm))
      exact ⟨_, _, .named hmark' hraw' hne (passes_skip rfl), rfl, rfl⟩
  | @skeleton raw start stop _ o hmark hraw hread hbrace =>
    refine ⟨blanks ++ ([':', ':'] ++ raw), ?_, fun d y hd => ?_⟩
    · rw [List.append_assoc, List.append_assoc]
      exact hblanks.trans (hmark.trans (hraw.passes.trans hbrace))
    · have hstart : d.skipBlank.rest = [':', ':'] ++ (raw ++ '}' :: y) := by
        refine hskip d _ ?_ ?_
        · rw [hd, List.append_assoc, List.append_assoc]
        · rw [hmark.rest]
          rfl
      have hraw' := hraw.again (d := d.skipBlank.skip [':', ':'] (raw ++ '}' :: y)) rfl
        (by rw [hbrace.rest]; rfl)
      exact ⟨_, _, .skeleton (passes_skip hstart) hraw' hread (passes_skip rfl), rfl, rfl⟩

theorem formatAt_braced (file : UInt32) (kind : FormatKind) :
    Braced Style.bare (FormatAt file kind) := by
  intro c style c' h
  cases h with
  | default hbrace =>
    obtain ⟨blanks, hrun, hagain⟩ := word_again (List.cons_ne_nil _ _) hbrace
    refine ⟨blanks, hrun, fun d y hd => ?_⟩
    obtain ⟨d', hbrace', hrest⟩ := hagain d y hd
    exact ⟨_, d', .default hbrace', hrest, rfl⟩
  | styled hcomma hstyle =>
    obtain ⟨blanks, hrun, hagain⟩ := word_again (List.cons_ne_nil _ _) hcomma
    obtain ⟨run', hrun', hagain'⟩ := styleAt_braced file kind _ _ _ hstyle
    refine ⟨blanks ++ [','] ++ run', ?_, fun d y hd => ?_⟩
    · rw [List.append_assoc]
      exact hrun.trans hrun'
    · obtain ⟨d₁, hcomma', hrest₁⟩ := hagain d (run' ++ '}' :: y) (by simpa using hd)
      obtain ⟨style', d', hstyle', hrest, hbare⟩ := hagain' d₁ y hrest₁
      exact ⟨style', d', .styled hcomma' hstyle', hrest, hbare⟩

/-! ### Choices -/

/-- What a reader of siblings accepts, up to places, does not depend on what follows. -/
def Reader.Local (read : Reader (List Node)) : Prop :=
  Message.Local (List.map Node.bare) fun c ns c' => read c = .ok (ns, c')

section Choices

variable {file : UInt32} {plural : Bool} {body : Option (Reader (List Node))} {c c' : Cursor}

theorem bodyAt_braced (hbody : ∀ read ∈ body, read.Local) :
    Braced (List.map Node.bare) (BodyAt body) := by
  rintro c ns c' ⟨read, inside, stop, hread, hopen, hnodes, hclosed⟩
  obtain ⟨blanks, hrun, hagain⟩ := word_again (List.cons_ne_nil _ _) hopen
  obtain ⟨run', hrun', hagain'⟩ := hbody read hread _ _ _ hnodes
  refine ⟨blanks ++ ['{'] ++ run', (hrun.trans hrun').trans hclosed, fun d y hd => ?_⟩
  obtain ⟨inside', hopen', hrest₁⟩ := hagain d (run' ++ '}' :: y) (by simpa using hd)
  have hagree : Agree stop.rest ('}' :: y) := by
    rw [hclosed.rest]
    exact .brace _ _
  obtain ⟨ns', stop', hnodes', hrest₂, hbare⟩ := hagain' inside' ('}' :: y) hrest₁ hagree
  exact ⟨ns', _, ⟨read, inside', stop', hread, hopen', hnodes', passes_skip hrest₂⟩, rfl, hbare⟩

/-- Branches without their spans. -/
abbrev bareCases (cases : List (Branch Node)) : List (Branch Node) :=
  cases.map (·.bare Node.bare)

/-- Cases with the same selectors, and the same offset. -/
structure Cases.Alike (done' done : Cases) : Prop where
  keys : done'.cases.map (·.key) = done.cases.map (·.key)
  offset : done'.offset = done.offset

theorem fresh_of_keys {key : String} {cases cases' : List (Branch Node)}
    (h : cases'.map (·.key) = cases.map (·.key)) (hfresh : ∀ b ∈ cases, b.key ≠ key) :
    ∀ b ∈ cases', b.key ≠ key := by
  intro b hb
  have hmem : b.key ∈ cases.map (·.key) := h ▸ List.mem_map_of_mem hb
  obtain ⟨b', hb', heq⟩ := List.mem_map.mp hmem
  rw [← heq]
  exact hfresh b' hb'

namespace Cases.Alike

variable {done done' : Cases}

theorem eq_nil (h : done'.Alike done) (hnil : done.cases = []) : done'.cases = [] := by
  have hkeys := h.keys
  rw [hnil] at hkeys
  exact List.map_eq_nil_iff.mp hkeys

theorem ne_nil (h : done'.Alike done) (hne : done.cases ≠ []) : done'.cases ≠ [] := by
  intro hnil
  have hkeys := h.keys
  rw [hnil] at hkeys
  exact hne (List.map_eq_nil_iff.mp hkeys.symm)

theorem withOffset (h : done'.Alike done) (x : Float) :
    Cases.Alike { done' with offset := x } { done with offset := x } :=
  ⟨h.keys, rfl⟩

theorem addCase {b b' : Branch Node} (h : done'.Alike done) (hb : b'.key = b.key) :
    Cases.Alike { done' with cases := done'.cases ++ [b'] }
      { done with cases := done.cases ++ [b] } := by
  refine ⟨?_, h.offset⟩
  simp only [List.map_append, h.keys, List.map_singleton, hb]

end Cases.Alike

theorem key_of_bare {b b' : Branch Node} (h : b'.bare Node.bare = b.bare Node.bare) :
    b'.key = b.key := by
  have hkey := congrArg Branch.key h
  exact hkey

/-- A case may stand behind cases with the same selectors elsewhere. -/
theorem caseAt_braced (hbody : ∀ read ∈ body, read.Local) {earlier : List (Branch Node)}
    {b : Branch Node} (h : CaseAt file plural body earlier c b c') :
    ∃ run, c.Passes (run ++ ['}']) c' ∧ ∀ (earlier' : List (Branch Node)) (d : Cursor)
      (y : List Char), earlier'.map (·.key) = earlier.map (·.key) → d.rest = run ++ '}' :: y →
      ∃ b' d', CaseAt file plural body earlier' d b' d' ∧ d'.rest = y ∧
        b'.bare Node.bare = b.bare Node.bare := by
  cases h with
  | @intro key k _ ns hkey hfresh hnodes =>
    obtain ⟨run, hrun, hagain⟩ := keyAt_local plural _ _ _ hkey
    obtain ⟨run', hrun', hagain'⟩ := bodyAt_braced hbody _ _ _ hnodes
    refine ⟨run ++ run', ?_, fun earlier' d y hearlier hd => ?_⟩
    · rw [List.append_assoc]
      exact hrun.trans hrun'
    · have hagree : Agree k.rest (run' ++ '}' :: y) := by
        rw [hrun'.rest, List.append_assoc]
        exact (Agree.brace _ _).append run'
      rw [List.append_assoc] at hd
      obtain ⟨key', k', hkey', hrest₁, heq⟩ := hagain d _ hd hagree
      rw [id, id] at heq
      subst heq
      obtain ⟨ns', d', hnodes', hrest, hbare⟩ := hagain' k' y hrest₁
      refine ⟨_, d', .intro hkey' (fresh_of_keys hearlier hfresh) hnodes', hrest, ?_⟩
      simp only [Branch.bare, hbare]

/-- The cases that are left may stand behind cases with the same selectors elsewhere. -/
theorem casesAt_braced (hbody : ∀ read ∈ body, read.Local) {done cs : Cases}
    (h : CasesAt file plural body done c cs c') :
    ∃ l, cs.cases = done.cases ++ l ∧ ∃ run, c.Passes (run ++ ['}']) c' ∧
      ∀ (done' : Cases) (d : Cursor) (y : List Char), done'.Alike done → d.rest = run ++ '}' :: y →
        ∃ l' d', CasesAt file plural body done' d ⟨done'.cases ++ l', cs.offset⟩ d' ∧
          d'.rest = y ∧ bareCases l' = bareCases l := by
  induction h with
  | @close done c c' hbrace hne =>
    obtain ⟨blanks, hrun, hagain⟩ := word_again (List.cons_ne_nil _ _) hbrace
    refine ⟨[], (List.append_nil _).symm, blanks, hrun, fun done' d y hdone hd => ?_⟩
    obtain ⟨d', hbrace', hrest⟩ := hagain d y hd
    refine ⟨[], d', ?_, hrest, rfl⟩
    rw [List.append_nil, ← hdone.offset]
    exact .close hbrace' (hdone.ne_nil hne)
  | @offset done cs c c₁ c₂ c' x hplural hnil hword hoffset _ ih =>
    obtain ⟨blanks, hrun₁, hagain₁⟩ := word_again (by decide) hword
    obtain ⟨run₂, hrun₂, hagain₂⟩ := offsetAt_local _ _ _ hoffset
    obtain ⟨l, hl, run₃, hrun₃, hagain₃⟩ := ih
    refine ⟨l, hl, blanks ++ "offset:".toList ++ (run₂ ++ run₃), ?_, fun done' d y hdone hd => ?_⟩
    · have hpasses := (hrun₁.trans hrun₂).trans hrun₃
      rwa [List.append_assoc _ run₂, ← List.append_assoc run₂, ← List.append_assoc] at hpasses
    · obtain ⟨d₁, hword', hrest₁⟩ := hagain₁ d (run₂ ++ (run₃ ++ '}' :: y))
        (by simpa only [List.append_assoc] using hd)
      -- behind the number the texts still agree for long enough to end it
      have hagree : Agree c₂.rest (run₃ ++ '}' :: y) := by
        rw [hrun₃.rest, List.append_assoc]
        exact (Agree.brace _ _).append run₃
      obtain ⟨x', d₂, hoffset', hrest₂, heq⟩ := hagain₂ d₁ _ hrest₁ hagree
      rw [id, id] at heq
      subst heq
      obtain ⟨l', d', hcs', hrest, hbare⟩ := hagain₃ _ d₂ y (hdone.withOffset x') hrest₂
      exact ⟨l', d', .offset hplural (hdone.eq_nil hnil) hword' hoffset' hcs', hrest, hbare⟩
  | @case done cs c c₁ c' b hcase _ ih =>
    obtain ⟨blanks, hblanks, hskip⟩ := skipBlank_again c
    obtain ⟨run₁, hrun₁, hagain₁⟩ := caseAt_braced hbody hcase
    obtain ⟨l, hl, run₂, hrun₂, hagain₂⟩ := ih
    refine ⟨b :: l, by rw [hl, List.append_assoc, List.singleton_append],
      blanks ++ (run₁ ++ ['}'] ++ run₂), ?_, fun done' d y hdone hd => ?_⟩
    · have hpasses := hblanks.trans (hrun₁.trans hrun₂)
      rwa [← List.append_assoc _ run₂, ← List.append_assoc blanks] at hpasses
    · have hstart : d.skipBlank.rest = run₁ ++ '}' :: (run₂ ++ '}' :: y) := by
        refine hskip d _ (by simpa using hd) ?_
        rw [hrun₁.rest, List.append_assoc]
        exact ((Agree.brace _ _).append run₁).head?
      obtain ⟨b', d₁, hcase', hrest₁, hb⟩ := hagain₁ done'.cases _ _ hdone.keys hstart
      obtain ⟨l', d', hcs', hrest, hbare⟩ :=
        hagain₂ _ d₁ y (hdone.addCase (key_of_bare hb)) hrest₁
      refine ⟨b' :: l', d', .case hcase' ?_, hrest, congrArg₂ List.cons hb hbare⟩
      rw [List.append_assoc] at hcs'
      exact hcs'

/-- Cases and an offset without spans. -/
def Cases.bare (cs : Cases) : Cases :=
  ⟨bareCases cs.cases, cs.offset⟩

theorem choiceAt_braced (hbody : ∀ read ∈ body, read.Local) :
    Braced Cases.bare (ChoiceAt file plural body) := by
  rintro c cs c' ⟨c₁, hcomma, hcases⟩
  obtain ⟨blanks, hrun₁, hagain₁⟩ := word_again (List.cons_ne_nil _ _) hcomma
  obtain ⟨l, hl, run₂, hrun₂, hagain₂⟩ := casesAt_braced hbody hcases
  refine ⟨blanks ++ [','] ++ run₂, ?_, fun d y hd => ?_⟩
  · rw [List.append_assoc]
    exact hrun₁.trans hrun₂
  · obtain ⟨d₁, hcomma', hrest₁⟩ := hagain₁ d (run₂ ++ '}' :: y) (by simpa using hd)
    obtain ⟨l', d', hcases', hrest, hbare⟩ := hagain₂ ⟨[], 0⟩ d₁ y ⟨rfl, rfl⟩ hrest₁
    refine ⟨_, d', ⟨d₁, hcomma', hcases'⟩, hrest, ?_⟩
    rw [Cases.bare, Cases.bare, hl]
    exact congrArg (Cases.mk · cs.offset) hbare

end Choices

/-! ### Elements -/

theorem typeAt_local : Local id TypeAt := by
  rintro c type c' ⟨c₁, hcomma, hname⟩
  obtain ⟨blanks, hrun₁, hagain₁⟩ := word_again (List.cons_ne_nil _ _) hcomma
  obtain ⟨run₂, hrun₂, hagain₂⟩ := nameAt_local.afterBlank _ _ _ hname
  refine ⟨blanks ++ [','] ++ run₂, hrun₁.trans hrun₂, fun d y hd hy => ?_⟩
  obtain ⟨d₁, hcomma', hrest₁⟩ := hagain₁ d (run₂ ++ y) (by simpa using hd)
  obtain ⟨type', d', hname', hrest, heq⟩ := hagain₂ d₁ y hrest₁ hy
  exact ⟨type', d', ⟨d₁, hcomma', hname'⟩, hrest, heq⟩

theorem namedAt_local (file : UInt32) :
    Local Prod.fst fun c (name : String × Span) c' => NamedAt file c name.1 name.2 c' := by
  rintro c ⟨name, nameSpan⟩ c' ⟨inside, hopen, hname, -⟩
  obtain ⟨run₂, hrun₂, hagain₂⟩ := nameAt_local.afterBlank _ _ _ hname
  refine ⟨['{'] ++ run₂, hopen.trans hrun₂, fun d y hd hy => ?_⟩
  rw [List.append_assoc] at hd
  obtain ⟨name', d', hname', hrest, heq⟩ := hagain₂ (d.skip ['{'] (run₂ ++ y)) y rfl hy
  exact ⟨(name', _), d', ⟨_, passes_skip hd, hname', rfl⟩, hrest, heq⟩

section Elements

variable {file : UInt32} {inner : Inner} {inPlural : Bool} {c c' : Cursor}

/-- The readers one level down are local. -/
def Inner.Local (inner : Inner) : Prop :=
  inner.All fun _ => Reader.Local

/-- A type, and what is braced behind it. -/
theorem typed_braced {α β : Type} {strip : α → β} {R : Cursor → α → Cursor → Prop} {type : String}
    {c₁ : Cursor} {x : α} (hR : Braced strip R) (htype : TypeAt c type c₁) (hx : R c₁ x c') :
    ∃ run, c.Passes (run ++ ['}']) c' ∧ ∀ (d : Cursor) (y : List Char),
      d.rest = run ++ '}' :: y → ∃ d₁ x' d', TypeAt d type d₁ ∧ R d₁ x' d' ∧ d'.rest = y ∧
        strip x' = strip x := by
  obtain ⟨run₁, hrun₁, hagain₁⟩ := typeAt_local _ _ _ htype
  obtain ⟨run₂, hrun₂, hagain₂⟩ := hR _ _ _ hx
  refine ⟨run₁ ++ run₂, ?_, fun d y hd => ?_⟩
  · rw [List.append_assoc]
    exact hrun₁.trans hrun₂
  · have hagree : Agree c₁.rest (run₂ ++ '}' :: y) := by
      rw [hrun₂.rest, List.append_assoc]
      exact (Agree.brace _ _).append run₂
    rw [List.append_assoc] at hd
    obtain ⟨type', d₁, htype', hrest₁, heq⟩ := hagain₁ d _ hd hagree
    rw [id, id] at heq
    subst heq
    obtain ⟨x', d', hx', hrest, hstrip⟩ := hagain₂ d₁ y hrest₁
    exact ⟨d₁, x', d', htype', hx', hrest, hstrip⟩

theorem argumentAt_braced (hinner : inner.Local) {start : Cursor} {name : String} {nameSpan : Span}
    {n : Node} (h : ArgumentAt file inner inPlural start name nameSpan c n c') :
    ∃ run, c.Passes (run ++ ['}']) c' ∧ ∀ (start' : Cursor) (nameSpan' : Span) (d : Cursor)
      (y : List Char), d.rest = run ++ '}' :: y →
      ∃ n' d', ArgumentAt file inner inPlural start' name nameSpan' d n' d' ∧ d'.rest = y ∧
        n'.bare = n.bare := by
  cases h with
  | plain hbrace =>
    obtain ⟨blanks, hrun, hagain⟩ := word_again (List.cons_ne_nil _ _) hbrace
    refine ⟨blanks, hrun, fun start' nameSpan' d y hd => ?_⟩
    obtain ⟨d', hbrace', hrest⟩ := hagain d y hd
    exact ⟨_, d', .plain hbrace', hrest, rfl⟩
  | format htype hformat =>
    obtain ⟨run, hrun, hagain⟩ := typed_braced (formatAt_braced file _) htype hformat
    refine ⟨run, hrun, fun start' nameSpan' d y hd => ?_⟩
    obtain ⟨d₁, style', d', htype', hformat', hrest, hbare⟩ := hagain d y hd
    refine ⟨_, d', .format htype' hformat', hrest, ?_⟩
    rw [Node.bare, Node.bare, hbare]
  | select htype hchoice =>
    obtain ⟨run, hrun, hagain⟩ := typed_braced (choiceAt_braced (hinner.bodyReader _)) htype hchoice
    refine ⟨run, hrun, fun start' nameSpan' d y hd => ?_⟩
    obtain ⟨d₁, cs', d', htype', hchoice', hrest, hbare⟩ := hagain d y hd
    obtain ⟨hcases, -⟩ := Cases.mk.inj hbare
    refine ⟨_, d', .select htype' hchoice', hrest, ?_⟩
    rw [Node.bare, Node.bare, Node.branchesBare_eq_map, Node.branchesBare_eq_map]
    rw [show cs'.cases.map (·.bare Node.bare) = _ from hcases]
  | plural htype hchoice =>
    obtain ⟨run, hrun, hagain⟩ := typed_braced (choiceAt_braced (hinner.bodyReader _)) htype hchoice
    refine ⟨run, hrun, fun start' nameSpan' d y hd => ?_⟩
    obtain ⟨d₁, cs', d', htype', hchoice', hrest, hbare⟩ := hagain d y hd
    obtain ⟨hcases, hoffset⟩ := Cases.mk.inj hbare
    refine ⟨_, d', .plural htype' hchoice', hrest, ?_⟩
    rw [Node.bare, Node.bare, Node.branchesBare_eq_map, Node.branchesBare_eq_map]
    rw [show cs'.cases.map (·.bare Node.bare) = _ from hcases, hoffset]

/-- A tag name with blanks and a word behind it. -/
theorem tagEnd_again {name : String} {word : List Char} {c₁ : Cursor} (hword : word ≠ [])
    (hname : TagNameAt c name c₁) (hend : c₁.skipBlank.Passes word c') :
    ∃ run, c.Passes run c' ∧ ∀ (d : Cursor) (y : List Char), d.rest = run ++ y → Agree c'.rest y →
      ∃ d₁ d', TagNameAt d name d₁ ∧ d₁.skipBlank.Passes word d' ∧ d'.rest = y := by
  obtain ⟨run₁, hrun₁, hagain₁⟩ := tagNameAt_local _ _ _ hname
  obtain ⟨blanks, hrun₂, hagain₂⟩ := word_again hword hend
  refine ⟨run₁ ++ (blanks ++ word), hrun₁.trans hrun₂, fun d y hd hy => ?_⟩
  have hagree : Agree c₁.rest (blanks ++ word ++ y) := by
    rw [hrun₂.rest]
    exact hy.append _
  rw [List.append_assoc] at hd
  obtain ⟨name', d₁, hname', hrest₁, heq⟩ := hagain₁ d _ hd hagree
  rw [id, id] at heq
  subst heq
  rw [List.append_assoc] at hrest₁
  obtain ⟨d', hend', hrest⟩ := hagain₂ d₁ y hrest₁
  exact ⟨d₁, d', hname', hend', hrest⟩

theorem tagAt_local (hinner : inner.Local) : Local Node.bare (TagAt file inner inPlural) := by
  intro c n c' h
  cases h with
  | @single name inside c₁ _ hdeep hopen hname hclosed =>
    obtain ⟨run, hrun, hagain⟩ := tagEnd_again (List.cons_ne_nil _ _) hname hclosed
    refine ⟨['<'] ++ run, hopen.trans hrun, fun d y hd hy => ?_⟩
    rw [List.append_assoc] at hd
    obtain ⟨d₁, d', hname', hclosed', hrest⟩ := hagain (d.skip ['<'] (run ++ y)) y rfl hy
    exact ⟨_, d', .single hdeep (passes_skip hd) hname' hclosed', hrest, rfl⟩
  | @paired name read inside c₁ c₂ closing c₃ c₄ _ children hread hopen hname hend hbody hword hclose
      hclosed =>
    obtain ⟨run₁, hrun₁, hagain₁⟩ := tagEnd_again (List.cons_ne_nil _ _) hname hend
    obtain ⟨run₂, hrun₂, hagain₂⟩ := hinner.tagBody read hread inPlural _ _ _ hbody
    obtain ⟨run₃, hrun₃, hagain₃⟩ := tagEnd_again (List.cons_ne_nil _ _) hclose hclosed
    refine ⟨['<'] ++ (run₁ ++ (run₂ ++ (['<', '/'] ++ run₃))),
      hopen.trans (hrun₁.trans (hrun₂.trans (hword.trans hrun₃))), fun d y hd hy => ?_⟩
    simp only [List.append_assoc] at hd
    -- what stands behind each part agrees because what stands behind the tag does
    have hclosing : Agree closing.rest (['<', '/'] ++ (run₃ ++ y)) := by
      rw [hword.rest, hrun₃.rest]
      exact (hy.append run₃).append _
    have hchildren : Agree c₂.rest (run₂ ++ (['<', '/'] ++ (run₃ ++ y))) := by
      rw [hrun₂.rest]
      exact hclosing.append run₂
    obtain ⟨d₁, d₂, hname', hend', hrest₂⟩ := hagain₁ (d.skip ['<'] _) _ rfl hchildren
    obtain ⟨children', closing', hbody', hrest₃, hbare⟩ := hagain₂ d₂ _ hrest₂ hclosing
    obtain ⟨d₄, d', hclose', hclosed', hrest⟩ :=
      hagain₃ (closing'.skip ['<', '/'] (run₃ ++ y)) y rfl hy
    refine ⟨_, d', .paired hread (passes_skip hd) hname' hend' hbody' (passes_skip hrest₃) hclose'
      hclosed', hrest, ?_⟩
    rw [Node.bare, Node.bare, Node.listBare_eq_map, Node.listBare_eq_map, hbare]

/-- Only plain text can end where it starts. -/
theorem ne_of_left_of_ne_plain {mode : TextMode} {x : Char} {r text : List Char}
    (hmode : mode ≠ .plain) : readText inPlural mode (x :: r) ≠ (text, x :: r) := by
  intro h
  have hleft : (readText inPlural mode (x :: r)).2.length ≤ r.length := by
    cases mode with
    | plain => exact absurd rfl hmode
    | pairInPlain | pairInQuoted =>
      rw [readText]
      exact (readText_left inPlural _ r).1.length_le
    | quoted =>
      rw [readText]
      split
      · split <;> exact (readText_left inPlural _ r).1.length_le
      · exact (readText_left inPlural _ r).1.length_le
  rw [h, List.length_cons] at hleft
  omega

/-- Where no text is left to read, none is left before another text that agrees. -/
theorem readText_stays {mode : TextMode} {r y text : List Char} (hagree : Agree r y)
    (h : readText inPlural mode r = (text, r)) : readText inPlural mode y = (text, y) := by
  cases r with
  | nil =>
    rw [hagree.eq_nil rfl]
    exact h
  | cons x tail =>
    -- in quotes or in a pair the first character would have been taken
    have hplain : mode = .plain := by
      cases mode with
      | plain => rfl
      | _ => exact absurd h (ne_of_left_of_ne_plain (by decide))
    subst hplain
    have hleft := (readText_left inPlural .plain (x :: tail)).2
    rw [h] at hleft
    rw [readText_of_not_isPlain hleft] at h
    rw [readText_of_not_isPlain fun hy => hleft (hagree.symm.isPlain hy), ← (Prod.mk.inj h).1]

/-- Reading text takes the same characters before another text that agrees. -/
theorem readText_again {mode : TextMode} {run r y text : List Char} (hagree : Agree r y)
    (h : readText inPlural mode (run ++ r) = (text, r)) :
    readText inPlural mode (run ++ y) = (text, y) := by
  induction run generalizing mode text with
  | nil =>
    rw [List.nil_append] at h ⊢
    exact readText_stays hagree h
  | cons x run ih =>
    have hhead : (run ++ r).head? = (run ++ y).head? := (hagree.append run).head?
    have hmark : isSyntax inPlural x (run ++ r) = isSyntax inPlural x (run ++ y) := by
      rw [isSyntax, isSyntax, hhead]
    -- one character more in front of what is read of the rest
    have hmore (m : TextMode) (z : Char) (hread : (z :: (readText inPlural m (run ++ r)).1,
        (readText inPlural m (run ++ r)).2) = (text, r)) :
        (z :: (readText inPlural m (run ++ y)).1, (readText inPlural m (run ++ y)).2) =
          (text, y) := by
      obtain ⟨htext, hleft⟩ := Prod.mk.inj hread
      have hrest := @ih m (readText inPlural m (run ++ r)).1 (Prod.ext rfl hleft)
      rw [hrest, ← htext]
    rw [List.cons_append] at h ⊢
    cases mode with
    | pairInPlain =>
      rw [readText] at h ⊢
      exact ih h
    | pairInQuoted =>
      rw [readText] at h ⊢
      exact ih h
    | quoted =>
      rw [readText] at h ⊢
      rw [← hhead]
      split at h
      · rename_i hx
        rw [if_pos hx]
        split at h
        · rename_i hpair
          rw [if_pos hpair]
          exact hmore _ _ h
        · rename_i hlone
          rw [if_neg hlone]
          exact ih h
      · rename_i hx
        rw [if_neg hx]
        exact hmore _ _ h
    | plain =>
      rw [readText] at h ⊢
      rw [← hhead, ← hmark]
      split at h
      · rename_i hx
        rw [if_pos hx]
        split at h
        · exact hmore _ _ h
        · split at h
          · rename_i hquote
            rw [if_pos hquote]
            exact ih h
          · rename_i hquote
            rw [if_neg hquote]
            exact hmore _ _ h
        · exact hmore _ _ h
      · rename_i hx
        rw [if_neg hx]
        split at h
        · have hlength := congrArg List.length (Prod.mk.inj h).2
          rw [List.length_cons, List.length_append] at hlength
          omega
        · rename_i hsyntax
          rw [if_neg hsyntax]
          exact hmore _ _ h

theorem literalAt_local : Local id (LiteralAt inPlural) := by
  intro c text c' h
  obtain ⟨run, hrun⟩ := h.leads
  refine ⟨run, hrun, fun d y hd hy => ?_⟩
  have hplain : IsPlain inPlural d.rest := by
    rw [hd]
    refine (hy.append run).isPlain ?_
    rw [← hrun.rest]
    exact h.plain
  have htext : readText inPlural .plain d.rest = (text.toList, y) := by
    rw [hd]
    refine readText_again hy ?_
    rw [← hrun.rest]
    exact h.text
  exact ⟨text, _, ⟨hplain, (passes_skip hd).leads, htext⟩, rfl, rfl⟩

theorem elementAt_local (hinner : inner.Local) :
    Local Node.bare (ElementAt file inner inPlural) := by
  intro c n c' h
  cases h with
  | literal hliteral =>
    obtain ⟨run, hrun, hagain⟩ := literalAt_local _ _ _ hliteral
    refine ⟨run, hrun, fun d y hd hy => ?_⟩
    obtain ⟨text', d', hliteral', hrest, heq⟩ := hagain d y hd hy
    rw [id, id] at heq
    subst heq
    exact ⟨_, d', .literal hliteral', hrest, rfl⟩
  | pound hplural hsign =>
    exact ⟨['#'], hsign, fun d y hd _ => ⟨_, _, .pound hplural (passes_skip hd), rfl, rfl⟩⟩
  | @argument name nameSpan c₁ _ _ hdeep hname hargument =>
    obtain ⟨run₁, hrun₁, hagain₁⟩ := namedAt_local file _ (name, nameSpan) _ hname
    obtain ⟨run₂, hrun₂, hagain₂⟩ := argumentAt_braced hinner hargument
    refine ⟨run₁ ++ (run₂ ++ ['}']), hrun₁.trans hrun₂, fun d y hd _ => ?_⟩
    have hagree : Agree c₁.rest (run₂ ++ '}' :: y) := by
      rw [hrun₂.rest, List.append_assoc]
      exact (Agree.brace _ _).append run₂
    obtain ⟨⟨name', nameSpan'⟩, d₁, hname', hrest₁, heq⟩ := hagain₁ d _ (by simpa using hd) hagree
    obtain rfl : name' = name := heq
    obtain ⟨n', d', hargument', hrest, hbare⟩ := hagain₂ d nameSpan' d₁ y hrest₁
    exact ⟨n', d', .argument hdeep hname' hargument', hrest, hbare⟩
  | tag htag =>
    obtain ⟨run, hrun, hagain⟩ := tagAt_local hinner _ _ _ htag
    refine ⟨run, hrun, fun d y hd hy => ?_⟩
    obtain ⟨n', d', htag', hrest, hbare⟩ := hagain d y hd hy
    exact ⟨n', d', .tag htag', hrest, hbare⟩

theorem siblingsAt_local (hinner : inner.Local) :
    Local (List.map Node.bare) (SiblingsAt (ElementAt file inner inPlural)) := by
  intro c ns c' h
  induction h with
  | nil hend =>
    refine ⟨[], .refl _, fun d y hd hy => ⟨[], d, .nil (Agree.atEnd ?_ hend), hd, rfl⟩⟩
    rw [hd]
    exact hy
  | @cons c c₁ c' n ns hend helement _ ih =>
    obtain ⟨run₁, hrun₁, hagain₁⟩ := elementAt_local hinner _ _ _ helement
    obtain ⟨run₂, hrun₂, hagain₂⟩ := ih
    refine ⟨run₁ ++ run₂, hrun₁.trans hrun₂, fun d y hd hy => ?_⟩
    have hagree : Agree c₁.rest (run₂ ++ y) := by
      rw [hrun₂.rest]
      exact hy.append run₂
    -- whether siblings end is seen in what the texts agree on
    have hwhole : Agree c.rest d.rest := by
      rw [hrun₁.rest, hd, List.append_assoc]
      exact hagree.append run₁
    rw [List.append_assoc] at hd
    obtain ⟨n', d₁, helement', hrest₁, hbare⟩ := hagain₁ d _ hd hagree
    obtain ⟨ns', d', hsiblings', hrest, hbares⟩ := hagain₂ d₁ y hrest₁ hy
    refine ⟨n' :: ns', d', .cons (fun h => hend (hwhole.symm.atEnd h)) helement' hsiblings', hrest, ?_⟩
    rw [List.map_cons, List.map_cons, hbare, hbares]

end Elements

/-- What is read with a budget, up to places, does not depend on what follows. -/
theorem local_readNodes (ctx : Context) (budget : Nat) :
    ∀ inPlural, Reader.Local (readNodes ctx budget inPlural) := by
  refine readNodes_induction (P := fun _ => Reader.Local) ?_ budget
  intro budget hinner inPlural c ns c' h
  obtain ⟨run, hrun, hagain⟩ := siblingsAt_local hinner c ns c' (readNodes_eq_ok_iff.mp h)
  refine ⟨run, hrun, fun d y hd hy => ?_⟩
  obtain ⟨ns', d', hsiblings, hrest, hbare⟩ := hagain d y hd hy
  exact ⟨ns', d', readNodes_eq_ok_iff.mpr hsiblings, hrest, hbare⟩

theorem local_innerAt (ctx : Context) (budget : Nat) : (innerAt ctx budget).Local :=
  innerAt_all fun lower _ => local_readNodes ctx lower

end Phrasebook.Message
