import Phrasebook.Proofs.Locality
import Phrasebook.Proofs.RoundTrip

/-!
A default case written into a text. A choice that was read without a default case takes one in front
of its closing brace: the text is read again, as the same tree but for the new case.
-/
namespace Phrasebook

open Message Cursor

/-! ### Completed trees -/

namespace Node

/-- A choice without a default case. -/
def LacksDefault : Node → Prop
  | .select _ _ _ cases | .plural _ _ _ _ _ cases => ∀ b ∈ cases, b.key ≠ defaultKey
  | _ => False

/-- An empty default case. -/
def emptyDefault : Branch Node :=
  ⟨defaultKey, .zero, .zero, []⟩

/-- A choice with one more case, the last. -/
def withDefault : Node → Node
  | .select span name nameSpan cases => .select span name nameSpan (cases ++ [emptyDefault])
  | .plural span name nameSpan offset kind cases =>
    .plural span name nameSpan offset kind (cases ++ [emptyDefault])
  | n => n

mutual

/-- The second element is the first one without spans, and one choice in it that lacked a default
case, the one at `place`, has an empty one behind its other cases. -/
inductive Completed (place : Span) : Node → Node → Prop where
  | here {n : Node} : n.span = place → n.LacksDefault → Completed place n n.withDefault.bare
  | select {span nameSpan : Span} {name : String} {cases cases' : List (Branch Node)} :
      CompletedCases place cases cases' →
      Completed place (.select span name nameSpan cases) (.select .zero name .zero cases')
  | plural {span nameSpan : Span} {name : String} {offset : Float} {kind : PluralKind}
      {cases cases' : List (Branch Node)} : CompletedCases place cases cases' →
      Completed place (.plural span name nameSpan offset kind cases)
        (.plural .zero name .zero offset kind cases')
  | tag {span nameSpan : Span} {name : String} {selfClosing : Bool} {children children' : List Node} :
      CompletedNodes place children children' →
      Completed place (.tag span name nameSpan selfClosing children)
        (.tag .zero name .zero selfClosing children')

inductive CompletedNodes (place : Span) : List Node → List Node → Prop where
  | head {n n' : Node} {r : List Node} : Completed place n n' →
      CompletedNodes place (n :: r) (n' :: r.map bare)
  | tail {n : Node} {r r' : List Node} : CompletedNodes place r r' →
      CompletedNodes place (n :: r) (n.bare :: r')

inductive CompletedCases (place : Span) : List (Branch Node) → List (Branch Node) → Prop where
  | head {b : Branch Node} {body' : List Node} {r : List (Branch Node)} :
      CompletedNodes place b.body body' →
      CompletedCases place (b :: r) (⟨b.key, .zero, .zero, body'⟩ :: bareCases r)
  | tail {b : Branch Node} {r r' : List (Branch Node)} : CompletedCases place r r' →
      CompletedCases place (b :: r) (b.bare bare :: r')

end

theorem bare_withDefault_select {span nameSpan : Span} {name : String}
    {cases : List (Branch Node)} : (withDefault (.select span name nameSpan cases)).bare =
      .select .zero name .zero (bareCases cases ++ [emptyDefault]) := by
  rw [withDefault, bare, branchesBare_eq_map, List.map_append]
  rfl

theorem bare_withDefault_plural {span nameSpan : Span} {name : String} {offset : Float}
    {kind : PluralKind} {cases : List (Branch Node)} :
    (withDefault (.plural span name nameSpan offset kind cases)).bare =
      .plural .zero name .zero offset kind (bareCases cases ++ [emptyDefault]) := by
  rw [withDefault, bare, branchesBare_eq_map, List.map_append]
  rfl

end Node

namespace Message

open Node

/-! ### Texts with a case added -/

/-- An empty default case as it is written. -/
def addedCase : List Char := ' ' :: (defaultKey.toList ++ [' ', '{', '}'])

/-- A text without and with an empty default case in front of the last byte of an element; `c` stands
before the element. -/
structure Extended (file : UInt32) (m : Node) (c : Cursor) (after : List Char) : Prop where
  agree : Agree c.rest after
  added : ∃ start stop before behind, m.span = Span.between file start (stop + 1) ∧ start ≤ stop ∧
    c.rest = before ++ '}' :: behind ∧ after = before ++ (addedCase ++ '}' :: behind) ∧
    stop = c.offset + Skeleton.byteLength before

/-- What stands before an element has no part in it. -/
theorem Extended.behind {file : UInt32} {m : Node} {c c₁ : Cursor} {run after : List Char}
    (h : Extended file m c₁ after) (hrun : c.Passes run c₁) : Extended file m c (run ++ after) := by
  obtain ⟨start, stop, before, behind, hspan, hle, hrest, hafter, hstop⟩ := h.added
  constructor
  · rw [hrun.rest]
    exact h.agree.append run
  · refine ⟨start, stop, run ++ before, behind, hspan, hle, ?_, ?_, ?_⟩
    · rw [hrun.rest, hrest, List.append_assoc]
    · rw [hafter, List.append_assoc]
    · rw [hstop, hrun.offset, Skeleton.byteLength_append, Nat.add_assoc]

/-- Texts with a closing brace in their common part agree. -/
theorem agree_of_mem {run : List Char} (h : '}' ∈ run) (r y : List Char) :
    Agree (run ++ r) (run ++ y) := by
  obtain ⟨before, behind, rfl⟩ := List.append_of_mem h
  rw [List.append_assoc, List.append_assoc]
  exact (Agree.brace _ _).append before

/-- A reader reads nothing where nothing stands. -/
def Reader.Idle (read : Reader (List Node)) : Prop :=
  ∀ c, AtEnd c → read c = .ok ([], c)

section Choices

variable {file : UInt32} {plural : Bool} {body : Option (Reader (List Node))} {c c' : Cursor}

/-- The added case is read as an empty default case. -/
theorem caseAt_addedCase {read : Reader (List Node)} (hidle : read.Idle)
    {earlier : List (Branch Node)} (hfresh : ∀ b ∈ earlier, b.key ≠ defaultKey) {y : List Char}
    (hc : c.rest = defaultKey.toList ++ (' ' :: '{' :: '}' :: y)) :
    ∃ b d, CaseAt file plural (some read) earlier c b d ∧ d.rest = y ∧
      b.bare bare = emptyDefault := by
  have hname : IsName defaultKey := isName_of_mem_pluralCategories (by decide)
  obtain ⟨k, hpasses, hk⟩ : ∃ k, c.Passes defaultKey.toList k ∧
      k.rest = ' ' :: '{' :: '}' :: y :=
    ⟨_, passes_skip hc, rfl⟩
  have hspace : k.Passes (' ' :: ['{']) (k.skip [' ', '{'] ('}' :: y)) := passes_skip hk
  have hkey : KeyAt plural c defaultKey k :=
    .name (nameAt_of_passes hname hpasses (hspace.stops (by decide))) fun _ => by decide
  have hopen := hspace.skipBlank_space ⟨'{', [], rfl, by decide⟩
  have hbody : BodyAt (some read) k [] _ :=
    ⟨read, _, _, rfl, hopen, hidle _ (.inr (.inl rfl)), passes_skip rfl⟩
  exact ⟨_, _, .intro hkey hfresh hbody, rfl, rfl⟩

/-- The space in front of the added case is one blank more. -/
theorem skipBlank_addedCase {blanks : List Char}
    (hblanks : ∀ x ∈ blanks, Text.isPatternBlank x = true) {d : Cursor} {y : List Char}
    (hd : d.rest = blanks ++ (addedCase ++ y)) :
    d.skipBlank.rest = defaultKey.toList ++ (' ' :: '{' :: '}' :: y) := by
  have hrest : d.rest = (blanks ++ [' ']) ++ (defaultKey.toList ++ (' ' :: '{' :: '}' :: y)) := by
    rw [hd, List.append_assoc]
    rfl
  have hpasses : d.Passes (blanks ++ [' ']) (d.skip (blanks ++ [' '])
      (defaultKey.toList ++ (' ' :: '{' :: '}' :: y))) := passes_skip hrest
  rw [skipBlank_eq_iff.mpr ⟨blanks ++ [' '], hpasses, ?_, ?_⟩]
  · rfl
  · intro x hx
    rcases List.mem_append.mp hx with hx | hx
    · exact hblanks x hx
    · rw [List.mem_singleton.mp hx]
      decide
  · intro x hx
    rw [← Option.some.inj hx]
    decide

/-- Cases without a default take one behind them. -/
theorem casesAt_addedCase (hlocal : ∀ read ∈ body, read.Local) (hidle : ∀ read ∈ body, read.Idle)
    {done cs : Cases} (h : CasesAt file plural body done c cs c')
    (hlacks : ∀ b ∈ cs.cases, b.key ≠ defaultKey) (hsome : done.cases ≠ [] → body.isSome = true) :
    ∃ l, cs.cases = done.cases ++ l ∧ ∃ run, c.Passes (run ++ ['}']) c' ∧
      (done.cases = [] → '}' ∈ run) ∧ ∀ (done' : Cases) (d : Cursor) (y : List Char),
        done'.Alike done → d.rest = run ++ (addedCase ++ '}' :: y) →
        ∃ l' d', CasesAt file plural body done' d ⟨done'.cases ++ l', cs.offset⟩ d' ∧
          d'.rest = y ∧ bareCases l' = bareCases l ++ [emptyDefault] := by
  induction h with
  | @close done c c' hbrace hne =>
    obtain ⟨blanks, hblanks⟩ := skipBlank_eq_iff.mp (rfl : c.skipBlank = c.skipBlank)
    refine ⟨[], (List.append_nil _).symm, blanks, hblanks.passes.trans hbrace,
      fun hnil => absurd hnil hne, fun done' d y hdone hd => ?_⟩
    obtain ⟨read, rfl⟩ := Option.isSome_iff_exists.mp (hsome hne)
    obtain ⟨b, d₁, hcase, hrest₁, hb⟩ := caseAt_addedCase (hidle read rfl)
      (fresh_of_keys hdone.keys hlacks) (skipBlank_addedCase hblanks.all hd)
    have hbrace' : d₁.Passes ['}'] (d₁.skip ['}'] y) := passes_skip hrest₁
    have hclosed := hbrace'.skipBlank ⟨'}', [], rfl, by decide⟩
    refine ⟨[b], d₁.skip ['}'] y, .case hcase ?_, rfl, congrArg (fun b => [b]) hb⟩
    rw [← hdone.offset]
    exact .close hclosed (by simp)
  | @offset done cs c c₁ c₂ c' x hplural hnil hword hoffset _ ih =>
    obtain ⟨blanks, hrun₁, hagain₁⟩ := word_again (by decide) hword
    obtain ⟨run₂, hrun₂, hagain₂⟩ := offsetAt_local _ _ _ hoffset
    obtain ⟨l, hl, run₃, hrun₃, hmem, hagain₃⟩ := ih hlacks hsome
    -- the offset reads as before, as there is a brace in the cases behind it
    refine ⟨l, hl, blanks ++ "offset:".toList ++ (run₂ ++ run₃), ?_, fun _ => ?_, ?_⟩
    · have hpasses := (hrun₁.trans hrun₂).trans hrun₃
      rwa [List.append_assoc _ run₂, ← List.append_assoc run₂, ← List.append_assoc] at hpasses
    · exact List.mem_append_right _ (List.mem_append_right _ (hmem hnil))
    · intro done' d y hdone hd
      obtain ⟨d₁, hword', hrest₁⟩ := hagain₁ d (run₂ ++ (run₃ ++ (addedCase ++ '}' :: y)))
        (by simpa only [List.append_assoc] using hd)
      have hagree : Agree c₂.rest (run₃ ++ (addedCase ++ '}' :: y)) := by
        rw [hrun₃.rest, List.append_assoc]
        exact agree_of_mem (hmem hnil) _ _
      obtain ⟨x', d₂, hoffset', hrest₂, heq⟩ := hagain₂ d₁ _ hrest₁ hagree
      rw [id, id] at heq
      subst heq
      obtain ⟨l', d', hcs', hrest, hbare⟩ := hagain₃ _ d₂ y (hdone.withOffset x') hrest₂
      exact ⟨l', d', .offset hplural (hdone.eq_nil hnil) hword' hoffset' hcs', hrest, hbare⟩
  | @case done cs c c₁ c' b hcase _ ih =>
    have hbody : body.isSome = true := by
      cases hcase with
      | intro _ _ hnodes =>
        obtain ⟨read, -, -, hread, -⟩ := hnodes
        rw [hread]
        rfl
    -- one case more in front: its key counts as known for the cases behind it
    obtain ⟨blanks, hblanks, hskip⟩ := skipBlank_again c
    obtain ⟨run₁, hrun₁, hagain₁⟩ := caseAt_braced hlocal hcase
    obtain ⟨l, hl, run₂, hrun₂, -, hagain₂⟩ := ih hlacks fun _ => hbody
    refine ⟨b :: l, by rw [hl, List.append_assoc, List.singleton_append],
      blanks ++ (run₁ ++ ['}'] ++ run₂), ?_, fun _ => by simp, fun done' d y hdone hd => ?_⟩
    · have hpasses := hblanks.trans (hrun₁.trans hrun₂)
      rwa [← List.append_assoc _ run₂, ← List.append_assoc blanks] at hpasses
    · have hstart : d.skipBlank.rest = run₁ ++ '}' :: (run₂ ++ (addedCase ++ '}' :: y)) := by
        refine hskip d _ (by simpa using hd) ?_
        rw [hrun₁.rest, List.append_assoc]
        exact ((Agree.brace _ _).append run₁).head?
      obtain ⟨b', d₁, hcase', hrest₁, hb⟩ := hagain₁ done'.cases _ _ hdone.keys hstart
      obtain ⟨l', d', hcs', hrest, hbare⟩ :=
        hagain₂ _ d₁ y (hdone.addCase (key_of_bare hb)) hrest₁
      refine ⟨b' :: l', d', .case hcase' ?_, hrest, congrArg₂ List.cons hb hbare⟩
      rw [List.append_assoc] at hcs'
      exact hcs'

end Choices

/-! ### Completing what was read -/

/-- A reader reads what it read before with an empty default case added to any choice that lacks
one, if the case is written in front of the last byte of the choice. -/
def Reader.Completes (file : UInt32) (read : Reader (List Node)) : Prop :=
  ∀ c ns c' n m, read c = .ok (ns, c') → n ∈ ns → m.Within n → m.LacksDefault →
    ∃ after, Extended file m c after ∧ ∀ d : Cursor, d.rest = after →
      ∃ ns' d', read d = .ok (ns', d') ∧ d'.rest = c'.rest ∧
        CompletedNodes m.span ns (ns'.map bare)

section Inside

variable {file : UInt32} {plural inPlural : Bool} {body : Option (Reader (List Node))}
  {inner : Inner} {c c' : Cursor} {m n : Node}

/-- A word behind blanks stands there too where a choice behind it is completed. -/
theorem Extended.word {word after : List Char} {c₁ : Cursor} (hword : word ≠ [])
    (h : Extended file m c₁ after) (hpasses : c.skipBlank.Passes word c₁) :
    ∃ after', Extended file m c after' ∧ ∀ d : Cursor, d.rest = after' →
      ∃ d₁, d.skipBlank.Passes word d₁ ∧ d₁.rest = after := by
  obtain ⟨blanks, hrun, hagain⟩ := word_again hword hpasses
  refine ⟨blanks ++ word ++ after, h.behind hrun, fun d hd => ?_⟩
  exact hagain d after (by rw [hd, List.append_assoc])

theorem bodyAt_completed (hbody : ∀ read ∈ body, read.Completes file) {ns : List Node}
    (h : BodyAt body c ns c') (hn : n ∈ ns) (hm : m.Within n) (hlacks : m.LacksDefault) :
    ∃ after, Extended file m c after ∧ ∀ d : Cursor, d.rest = after →
      ∃ ns' d', BodyAt body d ns' d' ∧ d'.rest = c'.rest ∧
        CompletedNodes m.span ns (ns'.map bare) := by
  obtain ⟨read, inside, stop, hread, hopen, hnodes, hclosed⟩ := h
  obtain ⟨after, hafter, hagain⟩ := hbody read hread _ _ _ _ _ hnodes hn hm hlacks
  obtain ⟨after', hafter', hopens⟩ := hafter.word (List.cons_ne_nil _ _) hopen
  refine ⟨after', hafter', fun d hd => ?_⟩
  obtain ⟨inside', hopen', hrest₁⟩ := hopens d hd
  obtain ⟨ns', stop', hnodes', hrest₂, hns'⟩ := hagain inside' hrest₁
  have hbrace : stop'.rest = ['}'] ++ c'.rest := by
    rw [hrest₂, hclosed.rest]
  exact ⟨ns', _, ⟨read, inside', stop', hread, hopen', hnodes', passes_skip hbrace⟩, rfl, hns'⟩

theorem caseAt_completed (hbody : ∀ read ∈ body, read.Completes file)
    {earlier : List (Branch Node)} {b : Branch Node} (h : CaseAt file plural body earlier c b c')
    (hn : n ∈ b.body) (hm : m.Within n) (hlacks : m.LacksDefault) :
    ∃ after, Extended file m c after ∧ ∀ (earlier' : List (Branch Node)) (d : Cursor),
      earlier'.map (·.key) = earlier.map (·.key) → d.rest = after →
      ∃ b' body' d', CaseAt file plural body earlier' d b' d' ∧ d'.rest = c'.rest ∧
        b'.bare bare = ⟨b.key, .zero, .zero, body'⟩ ∧ CompletedNodes m.span b.body body' := by
  cases h with
  | @intro key k _ ns hkey hfresh hnodes =>
    obtain ⟨run, hrun, hkeys⟩ := keyAt_local plural _ _ _ hkey
    obtain ⟨after, hafter, hagain⟩ := bodyAt_completed hbody hnodes hn hm hlacks
    refine ⟨run ++ after, hafter.behind hrun, fun earlier' d hearlier hd => ?_⟩
    obtain ⟨key', k', hkey', hrest₁, heq⟩ := hkeys d after hd hafter.agree
    rw [id, id] at heq
    subst heq
    obtain ⟨ns', d', hnodes', hrest, hns'⟩ := hagain k' hrest₁
    exact ⟨_, _, d', .intro hkey' (fresh_of_keys hearlier hfresh) hnodes', hrest, rfl, hns'⟩

theorem casesAt_completed (hlocal : ∀ read ∈ body, read.Local)
    (hbody : ∀ read ∈ body, read.Completes file) {done cs : Cases}
    (h : CasesAt file plural body done c cs c') :
    ∃ l, cs.cases = done.cases ++ l ∧ ∀ b ∈ l, ∀ n ∈ b.body, ∀ m : Node, m.Within n →
      m.LacksDefault → ∃ after, Extended file m c after ∧
        ∀ (done' : Cases) (d : Cursor), done'.Alike done → d.rest = after →
          ∃ l' d', CasesAt file plural body done' d ⟨done'.cases ++ l', cs.offset⟩ d' ∧
            d'.rest = c'.rest ∧ CompletedCases m.span l (bareCases l') := by
  induction h with
  | @close done c c' hbrace hne =>
    exact ⟨[], (List.append_nil _).symm, fun b hb => absurd hb List.not_mem_nil⟩
  | @offset done cs c c₁ c₂ c' x hplural hnil hword hoffset _ ih =>
    obtain ⟨l, hl, hcompletes⟩ := ih
    refine ⟨l, hl, fun b hb n hn m hm hlacks => ?_⟩
    obtain ⟨after, hafter, hagain⟩ := hcompletes b hb n hn m hm hlacks
    obtain ⟨run, hrun, hoffsets⟩ := offsetAt_local _ _ _ hoffset
    obtain ⟨after', hafter', hwords⟩ := (hafter.behind hrun).word (by decide) hword
    refine ⟨after', hafter', fun done' d hdone hd => ?_⟩
    obtain ⟨d₁, hword', hrest₁⟩ := hwords d hd
    obtain ⟨x', d₂, hoffset', hrest₂, heq⟩ := hoffsets d₁ after hrest₁ hafter.agree
    rw [id, id] at heq
    subst heq
    obtain ⟨l', d', hcs', hrest, hl'⟩ := hagain _ d₂ (hdone.withOffset x') hrest₂
    exact ⟨l', d', .offset hplural (hdone.eq_nil hnil) hword' hoffset' hcs', hrest, hl'⟩
  | @case done cs c c₁ c' b hcase hcases ih =>
    obtain ⟨l, hl, hcompletes⟩ := ih
    obtain ⟨blanks, hblanks, hskip⟩ := skipBlank_again c
    refine ⟨b :: l, by rw [hl, List.append_assoc, List.singleton_append], ?_⟩
    intro b₀ hb₀ n hn m hm hlacks
    rcases List.mem_cons.mp hb₀ with rfl | hb₀
    · -- the choice stands in this case, and the cases behind it are as before
      obtain ⟨after, hafter, hagain⟩ := caseAt_completed hbody hcase hn hm hlacks
      obtain ⟨l₂, hl₂, run, hrun, hothers⟩ := casesAt_braced hlocal hcases
      obtain rfl : l = l₂ := List.append_cancel_left (hl.symm.trans hl₂)
      refine ⟨blanks ++ after, hafter.behind hblanks, fun done' d hdone hd => ?_⟩
      have hstart := hskip d after hd hafter.agree.head?
      obtain ⟨b', body', d₁, hcase', hrest₁, hb', hbody'⟩ :=
        hagain done'.cases _ hdone.keys hstart
      have hkey : b'.key = b₀.key := by
        have hkey := congrArg Branch.key hb'
        exact hkey
      obtain ⟨l', d', hcs', hrest, hl'⟩ := hothers _ d₁ c'.rest (hdone.addCase hkey)
        (by rw [hrest₁, hrun.rest, List.append_assoc]; rfl)
      refine ⟨b' :: l', d', .case hcase' ?_, hrest, ?_⟩
      · rw [List.append_assoc] at hcs'
        exact hcs'
      · rw [bareCases, List.map_cons, hb', show l'.map (·.bare bare) = bareCases l from hl']
        exact .head hbody'
    · -- the choice stands in a case behind this one
      obtain ⟨after, hafter, hagain⟩ := hcompletes b₀ hb₀ n hn m hm hlacks
      obtain ⟨run, hrun, hcaseAgain⟩ := caseAt_braced hlocal hcase
      refine ⟨blanks ++ (run ++ ['}'] ++ after), (hafter.behind hrun).behind hblanks,
        fun done' d hdone hd => ?_⟩
      have hstart : d.skipBlank.rest = run ++ '}' :: after := by
        refine hskip d _ (by simpa using hd) ?_
        rw [hrun.rest, List.append_assoc]
        exact ((Agree.brace _ _).append run).head?
      obtain ⟨b', d₁, hcase', hrest₁, hb'⟩ := hcaseAgain done'.cases _ _ hdone.keys hstart
      obtain ⟨l', d', hcs', hrest, hl'⟩ :=
        hagain _ d₁ (hdone.addCase (key_of_bare hb')) hrest₁
      refine ⟨b' :: l', d', .case hcase' ?_, hrest, ?_⟩
      · rw [List.append_assoc] at hcs'
        exact hcs'
      · rw [bareCases, List.map_cons, hb']
        exact .tail hl'

theorem choiceAt_addedCase (hlocal : ∀ read ∈ body, read.Local) (hidle : ∀ read ∈ body, read.Idle)
    {cs : Cases} (h : ChoiceAt file plural body c cs c')
    (hlacks : ∀ b ∈ cs.cases, b.key ≠ defaultKey) :
    ∃ run, c.Passes (run ++ ['}']) c' ∧ '}' ∈ run ∧ ∀ (d : Cursor) (y : List Char),
      d.rest = run ++ (addedCase ++ '}' :: y) → ∃ cases' d',
        ChoiceAt file plural body d ⟨cases', cs.offset⟩ d' ∧ d'.rest = y ∧
          bareCases cases' = bareCases cs.cases ++ [emptyDefault] := by
  obtain ⟨c₁, hcomma, hcases⟩ := h
  obtain ⟨blanks, hrun₁, hagain₁⟩ := word_again (List.cons_ne_nil _ _) hcomma
  obtain ⟨l, hl, run₂, hrun₂, hmem, hagain₂⟩ :=
    casesAt_addedCase hlocal hidle hcases hlacks fun hne => absurd rfl hne
  refine ⟨blanks ++ [','] ++ run₂, ?_, List.mem_append_right _ (hmem rfl), fun d y hd => ?_⟩
  · rw [List.append_assoc]
    exact hrun₁.trans hrun₂
  · obtain ⟨d₁, hcomma', hrest₁⟩ := hagain₁ d (run₂ ++ (addedCase ++ '}' :: y))
      (by simpa only [List.append_assoc] using hd)
    obtain ⟨l', d', hcases', hrest, hbare⟩ := hagain₂ ⟨[], 0⟩ d₁ y ⟨rfl, rfl⟩ hrest₁
    rw [hl]
    exact ⟨l', d', ⟨d₁, hcomma', hcases'⟩, hrest, hbare⟩

theorem choiceAt_completed (hlocal : ∀ read ∈ body, read.Local)
    (hbody : ∀ read ∈ body, read.Completes file) {cs : Cases}
    (h : ChoiceAt file plural body c cs c') {b : Branch Node} (hb : b ∈ cs.cases) (hn : n ∈ b.body)
    (hm : m.Within n) (hlacks : m.LacksDefault) :
    ∃ after, Extended file m c after ∧ ∀ d : Cursor, d.rest = after → ∃ cases' d',
      ChoiceAt file plural body d ⟨cases', cs.offset⟩ d' ∧ d'.rest = c'.rest ∧
        CompletedCases m.span cs.cases (bareCases cases') := by
  obtain ⟨c₁, hcomma, hcases⟩ := h
  obtain ⟨l, hl, hcompletes⟩ := casesAt_completed hlocal hbody hcases
  rw [List.nil_append] at hl
  obtain ⟨after, hafter, hagain⟩ := hcompletes b (hl ▸ hb) n hn m hm hlacks
  obtain ⟨after', hafter', hcommas⟩ := hafter.word (List.cons_ne_nil _ _) hcomma
  refine ⟨after', hafter', fun d hd => ?_⟩
  obtain ⟨d₁, hcomma', hrest₁⟩ := hcommas d hd
  obtain ⟨l', d', hcases', hrest, hl'⟩ := hagain ⟨[], 0⟩ d₁ ⟨rfl, rfl⟩ hrest₁
  rw [hl]
  exact ⟨l', d', ⟨d₁, hcomma', hcases'⟩, hrest, hl'⟩

/-- The added case stands in front of the last byte of an element that ends with a brace. -/
theorem extended_of_run {start : Cursor} {run : List Char} (hspan : m.span = start.spanTo file c')
    (hstart : start.Leads c) (hrun : c.Passes (run ++ ['}']) c') (hmem : '}' ∈ run) :
    Extended file m c (run ++ (addedCase ++ '}' :: c'.rest)) := by
  have hrest : c.rest = run ++ '}' :: c'.rest := by
    rw [hrun.rest, List.append_assoc]
    rfl
  have hoffset : c'.offset = c.offset + Skeleton.byteLength run + 1 := by
    rw [hrun.offset, Skeleton.byteLength_append, ← Nat.add_assoc]
    rfl
  have hle := hstart.offset_le
  constructor
  · rw [hrest]
    exact agree_of_mem hmem _ _
  · refine ⟨start.offset, c.offset + Skeleton.byteLength run, run, c'.rest, ?_, by omega, hrest, rfl,
      rfl⟩
    rw [hspan, Cursor.spanTo, hoffset]

/-- A choice behind its type is completed: it takes a default itself, or a choice in one of its cases
does. -/
theorem typed_completed (hlocal : ∀ read ∈ body, read.Local) (hidle : ∀ read ∈ body, read.Idle)
    (hbody : ∀ read ∈ body, read.Completes file) {start c₁ : Cursor} {type : String} {cs : Cases}
    (hstart : start.Leads c) (htype : TypeAt c type c₁)
    (hchoice : ChoiceAt file plural body c₁ cs c')
    (hm : m.span = start.spanTo file c' ∧ (∀ b ∈ cs.cases, b.key ≠ defaultKey) ∨
      ∃ b ∈ cs.cases, ∃ n ∈ b.body, m.Within n ∧ m.LacksDefault) :
    ∃ after, Extended file m c after ∧ ∀ d : Cursor, d.rest = after → ∃ d₁ cases' d',
      TypeAt d type d₁ ∧ ChoiceAt file plural body d₁ ⟨cases', cs.offset⟩ d' ∧ d'.rest = c'.rest ∧
        (m.span = start.spanTo file c' ∧ (∀ b ∈ cs.cases, b.key ≠ defaultKey) ∧
            bareCases cases' = bareCases cs.cases ++ [emptyDefault] ∨
          CompletedCases m.span cs.cases (bareCases cases')) := by
  obtain ⟨run, hrun, htypes⟩ := typeAt_local _ _ _ htype
  rcases hm with ⟨hspan, hlacks⟩ | ⟨b, hb, n, hn, hm, hlacks⟩
  · obtain ⟨run', hrun', hmem, hagain⟩ := choiceAt_addedCase hlocal hidle hchoice hlacks
    have hafter := extended_of_run hspan (hstart.trans htype.leads) hrun' hmem
    refine ⟨_, hafter.behind hrun, fun d hd => ?_⟩
    obtain ⟨type', d₁, htype', hrest₁, heq⟩ := htypes d _ hd hafter.agree
    obtain ⟨cases', d', hchoice', hrest, hbare⟩ := hagain d₁ _ hrest₁
    rw [id, id] at heq
    exact ⟨d₁, cases', d', heq ▸ htype', hchoice', hrest, .inl ⟨hspan, hlacks, hbare⟩⟩
  · obtain ⟨after, hafter, hagain⟩ := choiceAt_completed hlocal hbody hchoice hb hn hm hlacks
    refine ⟨_, hafter.behind hrun, fun d hd => ?_⟩
    obtain ⟨type', d₁, htype', hrest₁, heq⟩ := htypes d _ hd hafter.agree
    obtain ⟨cases', d', hchoice', hrest, hcases'⟩ := hagain d₁ hrest₁
    rw [id, id] at heq
    exact ⟨d₁, cases', d', heq ▸ htype', hchoice', hrest, .inr hcases'⟩

theorem argumentAt_completed (hlocal : inner.Local) (hidle : inner.All fun _ => Reader.Idle)
    (hinner : inner.All fun _ => Reader.Completes file) {start : Cursor} {name : String}
    {nameSpan : Span} (hstart : start.Leads c)
    (h : ArgumentAt file inner inPlural start name nameSpan c n c') (hm : m.Within n)
    (hlacks : m.LacksDefault) :
    ∃ after, Extended file m c after ∧ ∀ (start' : Cursor) (nameSpan' : Span) (d : Cursor),
      d.rest = after → ∃ n' d', ArgumentAt file inner inPlural start' name nameSpan' d n' d' ∧
        d'.rest = c'.rest ∧ Completed m.span n n'.bare := by
  cases h with
  | plain | format =>
    cases hm
    exact absurd hlacks id
  | @select c₁ _ cs htype hchoice =>
    -- the choice that lacks its default is this one, or lies in one of its cases
    have hwhere : m.span = start.spanTo file c' ∧ (∀ b ∈ cs.cases, b.key ≠ defaultKey) ∨
        ∃ b ∈ cs.cases, ∃ n ∈ b.body, m.Within n ∧ m.LacksDefault := by
      cases hm with
      | refl => exact .inl ⟨rfl, hlacks⟩
      | select hb hn hm => exact .inr ⟨_, hb, _, hn, hm, hlacks⟩
    obtain ⟨after, hafter, hagain⟩ := typed_completed (hlocal.bodyReader _) (hidle.bodyReader _)
      (hinner.bodyReader _) hstart htype hchoice hwhere
    refine ⟨after, hafter, fun start' nameSpan' d hd => ?_⟩
    obtain ⟨d₁, cases', d', htype', hchoice', hrest, hcases'⟩ := hagain d hd
    refine ⟨_, d', .select htype' hchoice', hrest, ?_⟩
    rw [Node.bare, branchesBare_eq_map]
    rcases hcases' with ⟨hspan, hnone, hbare⟩ | hcases'
    · rw [show cases'.map (·.bare bare) = _ from hbare, ← bare_withDefault_select]
      exact .here hspan.symm hnone
    · exact .select hcases'
  | @plural kind c₁ _ cs htype hchoice =>
    have hwhere : m.span = start.spanTo file c' ∧ (∀ b ∈ cs.cases, b.key ≠ defaultKey) ∨
        ∃ b ∈ cs.cases, ∃ n ∈ b.body, m.Within n ∧ m.LacksDefault := by
      cases hm with
      | refl => exact .inl ⟨rfl, hlacks⟩
      | plural hb hn hm => exact .inr ⟨_, hb, _, hn, hm, hlacks⟩
    obtain ⟨after, hafter, hagain⟩ := typed_completed (hlocal.bodyReader _) (hidle.bodyReader _)
      (hinner.bodyReader _) hstart htype hchoice hwhere
    refine ⟨after, hafter, fun start' nameSpan' d hd => ?_⟩
    obtain ⟨d₁, cases', d', htype', hchoice', hrest, hcases'⟩ := hagain d hd
    refine ⟨_, d', .plural htype' hchoice', hrest, ?_⟩
    rw [Node.bare, branchesBare_eq_map]
    rcases hcases' with ⟨hspan, hnone, hbare⟩ | hcases'
    · rw [show cases'.map (·.bare bare) = _ from hbare, ← bare_withDefault_plural]
      exact .here hspan.symm hnone
    · exact .plural hcases'

theorem tagAt_completed (hinner : inner.All fun _ => Reader.Completes file)
    (h : TagAt file inner inPlural c n c') (hm : m.Within n) (hlacks : m.LacksDefault) :
    ∃ after, Extended file m c after ∧ ∀ d : Cursor, d.rest = after → ∃ n' d',
      TagAt file inner inPlural d n' d' ∧ d'.rest = c'.rest ∧ Completed m.span n n'.bare := by
  cases h with
  | single =>
    cases hm with
    | refl => exact absurd hlacks id
    | tag hn => exact absurd hn List.not_mem_nil
  | @paired name read inside c₁ c₂ closing c₃ c₄ _ children hread hopen hname hend hbody hword hclose
      hclosed =>
    cases hm with
    | refl => exact absurd hlacks id
    | tag hn hm =>
      obtain ⟨after, hafter, hagain⟩ :=
        hinner.tagBody read hread inPlural _ _ _ _ _ hbody hn hm hlacks
      obtain ⟨run₁, hrun₁, hagain₁⟩ := tagEnd_again (List.cons_ne_nil _ _) hname hend
      obtain ⟨run₃, hrun₃, hagain₃⟩ := tagEnd_again (List.cons_ne_nil _ _) hclose hclosed
      refine ⟨['<'] ++ (run₁ ++ after), (hafter.behind hrun₁).behind hopen, fun d hd => ?_⟩
      obtain ⟨d₁, d₂, hname', hend', hrest₂⟩ :=
        hagain₁ (d.skip ['<'] (run₁ ++ after)) after rfl hafter.agree
      obtain ⟨children', closing', hbody', hrest₃, hchildren'⟩ := hagain d₂ hrest₂
      -- the closing tag is read as before
      have hword' : closing'.rest = ['<', '/'] ++ (run₃ ++ c'.rest) := by
        rw [hrest₃, hword.rest, hrun₃.rest]
      obtain ⟨d₄, d', hclose', hclosed', hrest⟩ :=
        hagain₃ (closing'.skip ['<', '/'] (run₃ ++ c'.rest)) c'.rest rfl (.refl _)
      refine ⟨_, d', .paired hread (passes_skip hd) hname' hend' hbody' (passes_skip hword') hclose'
        hclosed', hrest, ?_⟩
      rw [Node.bare, listBare_eq_map]
      exact .tag hchildren'

theorem elementAt_completed (hlocal : inner.Local) (hidle : inner.All fun _ => Reader.Idle)
    (hinner : inner.All fun _ => Reader.Completes file)
    (h : ElementAt file inner inPlural c n c') (hm : m.Within n) (hlacks : m.LacksDefault) :
    ∃ after, Extended file m c after ∧ ∀ d : Cursor, d.rest = after → ∃ n' d',
      ElementAt file inner inPlural d n' d' ∧ d'.rest = c'.rest ∧ Completed m.span n n'.bare := by
  cases h with
  | literal | pound =>
    cases hm
    exact absurd hlacks id
  | @argument name nameSpan c₁ _ _ hdeep hname hargument =>
    obtain ⟨run, hrun, hnames⟩ := namedAt_local file _ (name, nameSpan) _ hname
    obtain ⟨after, hafter, hagain⟩ :=
      argumentAt_completed hlocal hidle hinner hrun.leads hargument hm hlacks
    refine ⟨run ++ after, hafter.behind hrun, fun d hd => ?_⟩
    obtain ⟨⟨name', nameSpan'⟩, d₁, hname', hrest₁, heq⟩ := hnames d after hd hafter.agree
    obtain rfl : name' = name := heq
    obtain ⟨n', d', hargument', hrest, hn'⟩ := hagain d nameSpan' d₁ hrest₁
    exact ⟨n', d', .argument hdeep hname' hargument', hrest, hn'⟩
  | tag htag =>
    obtain ⟨after, hafter, hagain⟩ := tagAt_completed hinner htag hm hlacks
    refine ⟨after, hafter, fun d hd => ?_⟩
    obtain ⟨n', d', htag', hrest, hn'⟩ := hagain d hd
    exact ⟨n', d', .tag htag', hrest, hn'⟩

theorem siblingsAt_completed (hlocal : inner.Local) (hidle : inner.All fun _ => Reader.Idle)
    (hinner : inner.All fun _ => Reader.Completes file) {ns : List Node}
    (h : SiblingsAt (ElementAt file inner inPlural) c ns c') (hn : n ∈ ns) (hm : m.Within n)
    (hlacks : m.LacksDefault) :
    ∃ after, Extended file m c after ∧ ∀ d : Cursor, d.rest = after → ∃ ns' d',
      SiblingsAt (ElementAt file inner inPlural) d ns' d' ∧ d'.rest = c'.rest ∧
        CompletedNodes m.span ns (ns'.map bare) := by
  induction h with
  | nil => exact absurd hn List.not_mem_nil
  | @cons c c₁ c' k ns hend helement hsiblings ih =>
    rcases List.mem_cons.mp hn with rfl | hn
    · -- the choice stands in the first element, and the siblings behind it are as before
      obtain ⟨after, hafter, hagain⟩ := elementAt_completed hlocal hidle hinner helement hm hlacks
      obtain ⟨run, hrun, hothers⟩ := siblingsAt_local hlocal _ _ _ hsiblings
      refine ⟨after, hafter, fun d hd => ?_⟩
      obtain ⟨n', d₁, helement', hrest₁, hn'⟩ := hagain d hd
      obtain ⟨ns', d', hsiblings', hrest, hbare⟩ :=
        hothers d₁ c'.rest (by rw [hrest₁, hrun.rest]) (.refl _)
      have hend' : ¬AtEnd d := fun h => hend ((hd ▸ hafter.agree).symm.atEnd h)
      refine ⟨n' :: ns', d', .cons hend' helement' hsiblings', hrest, ?_⟩
      rw [List.map_cons, hbare]
      exact .head hn'
    · obtain ⟨after, hafter, hagain⟩ := ih hn
      obtain ⟨run, hrun, helements⟩ := elementAt_local hlocal _ _ _ helement
      have hwhole := hafter.behind hrun
      refine ⟨run ++ after, hwhole, fun d hd => ?_⟩
      obtain ⟨k', d₁, helement', hrest₁, hbare⟩ := helements d after hd hafter.agree
      obtain ⟨ns', d', hsiblings', hrest, hns'⟩ := hagain d₁ hrest₁
      have hend' : ¬AtEnd d := fun h => hend ((hd ▸ hwhole.agree).symm.atEnd h)
      refine ⟨k' :: ns', d', .cons hend' helement' hsiblings', hrest, ?_⟩
      rw [List.map_cons, hbare]
      exact .tail hns'

end Inside

theorem idle_readNodes (ctx : Context) (budget : Nat) (inPlural : Bool) :
    Reader.Idle (readNodes ctx budget inPlural) :=
  fun _ hend => readNodes_eq_ok_iff.mpr (.nil hend)

/-- A choice that lacks a default case takes one at every level. -/
theorem completes_readNodes (ctx : Context) (budget : Nat) :
    ∀ inPlural, Reader.Completes ctx.file (readNodes ctx budget inPlural) := by
  refine readNodes_induction (P := fun _ => Reader.Completes ctx.file) ?_ budget
  intro budget hinner inPlural c ns c' n m h hn hm hlacks
  have hidle : (innerAt ctx budget).All fun _ => Reader.Idle :=
    innerAt_all fun lower _ => idle_readNodes ctx lower
  obtain ⟨after, hafter, hagain⟩ := siblingsAt_completed (local_innerAt ctx budget) hidle hinner
    (readNodes_eq_ok_iff.mp h) hn hm hlacks
  refine ⟨after, hafter, fun d hd => ?_⟩
  obtain ⟨ns', d', hsiblings, hrest, hns'⟩ := hagain d hd
  exact ⟨ns', d', readNodes_eq_ok_iff.mpr hsiblings, hrest, hns'⟩

end Message

end Phrasebook
