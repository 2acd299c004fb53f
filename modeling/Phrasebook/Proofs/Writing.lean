import Phrasebook.Proofs.WellFormed
import Phrasebook.Proofs.WholeNumbers

/-!
Message trees written as texts. Every element has one canonical spelling; what stands in a plural is
spelled for a plural, where a number sign in literal text needs quotes.
-/
namespace Phrasebook

open Message

/-! ### Literal text -/

/-- Every apostrophe is written twice. -/
def doubled : List Char → List Char
  | [] => []
  | c :: r => if c = '\'' then '\'' :: '\'' :: doubled r else c :: doubled r

/-- A character that means itself in quotes only. -/
def needsQuotes (inPlural : Bool) (c : Char) : Bool :=
  c == '{' || c == '}' || c == '<' || (inPlural && c == '#')

/-- Literal text with its apostrophes doubled. From the first character that needs quotes on, the text
stands in one pair of them. -/
def writtenText (inPlural : Bool) : List Char → List Char
  | [] => []
  | c :: r =>
    if needsQuotes inPlural c then '\'' :: (doubled (c :: r) ++ ['\''])
    else doubled [c] ++ writtenText inPlural r

/-! ### Elements -/

/-- The comma and the style behind the type of a formatted argument. -/
def Style.written : Style → List Char
  | .default => []
  | .named name _ => ',' :: ' ' :: name.toList
  | .skeleton text _ _ => ',' :: ' ' :: ':' :: ':' :: text.toList

/-- An offset in front of the cases of a plural. An offset of zero is left out. -/
def writtenOffset (offset : Float) : List Char :=
  if Floats.wholePart offset = 0 then []
  else ' ' :: ("offset:".toList ++ Nat.toDigits 10 (Floats.wholePart offset))

/-- The opening brace of an argument, its name, a comma and its type. -/
def writtenHead (name type : String) : List Char :=
  '{' :: (name.toList ++ ',' :: ' ' :: type.toList)

namespace Node

mutual

/-- The spelling of an element that stands in a plural or not. -/
def written (inPlural : Bool) : Node → List Char
  | .literal _ text => writtenText inPlural text.toList
  | .argument _ name _ => '{' :: (name.toList ++ ['}'])
  | .select _ name _ cases =>
    writtenHead name "select" ++ ',' :: (branchesWritten inPlural cases ++ ['}'])
  | .plural _ name _ offset kind cases =>
    writtenHead name kind.keyword ++
      ',' :: (writtenOffset offset ++ (branchesWritten true cases ++ ['}']))
  | .format _ kind name _ style => writtenHead name kind.name ++ (style.written ++ ['}'])
  | .pound _ => ['#']
  | .tag _ name _ true _ => '<' :: (name.toList ++ ['/', '>'])
  | .tag _ name _ false children =>
    '<' :: (name.toList ++ '>' :: (listWritten inPlural children ++
      '<' :: '/' :: (name.toList ++ ['>'])))
  | .unknown _ | .hole => []

def listWritten (inPlural : Bool) : List Node → List Char
  | [] => []
  | n :: r => written inPlural n ++ listWritten inPlural r

def branchesWritten (inPlural : Bool) : List (Branch Node) → List Char
  | [] => []
  | b :: r => branchWritten inPlural b ++ branchesWritten inPlural r

def branchWritten (inPlural : Bool) : Branch Node → List Char
  | ⟨key, _, _, body⟩ => ' ' :: (key.toList ++ ' ' :: '{' :: (listWritten inPlural body ++ ['}']))

end

/-! ### Nesting -/

mutual

/-- How many levels of nesting an element takes: an argument, a case and a tag take one each. -/
def depth : Node → Nat
  | .argument .. | .format .. => 1
  | .select _ _ _ cases | .plural _ _ _ _ _ cases => branchesDepth cases + 2
  | .tag _ _ _ _ children => listDepth children + 1
  | .literal .. | .pound _ | .unknown _ | .hole => 0

def listDepth : List Node → Nat
  | [] => 0
  | n :: r => max (depth n) (listDepth r)

def branchesDepth : List (Branch Node) → Nat
  | [] => 0
  | b :: r => max (branchDepth b) (branchesDepth r)

def branchDepth : Branch Node → Nat
  | ⟨_, _, _, body⟩ => listDepth body

end

theorem listDepth_le_branchesDepth {b : Branch Node} {cases : List (Branch Node)} (h : b ∈ cases) :
    listDepth b.body ≤ branchesDepth cases := by
  induction cases with
  | nil => exact absurd h List.not_mem_nil
  | cons c r ih =>
    rw [branchesDepth, branchDepth.eq_def]
    rcases List.mem_cons.mp h with rfl | h
    · exact Nat.le_max_left _ _
    · exact Nat.le_trans (ih h) (Nat.le_max_right _ _)

end Node

/-! ### Spans -/

/-- A style without its span. -/
def Style.bare : Style → Style
  | .default => .default
  | .named name _ => .named name .zero
  | .skeleton text options _ => .skeleton text options .zero

/-- A branch without its spans, with other things in its body. -/
def Branch.bare {α β : Type} (f : α → β) (b : Branch α) : Branch β :=
  ⟨b.key, .zero, .zero, b.body.map f⟩

namespace Node

mutual

/-- An element without its spans. -/
def bare : Node → Node
  | .literal _ text => .literal .zero text
  | .argument _ name _ => .argument .zero name .zero
  | .select _ name _ cases => .select .zero name .zero (branchesBare cases)
  | .plural _ name _ offset kind cases => .plural .zero name .zero offset kind (branchesBare cases)
  | .format _ kind name _ style => .format .zero kind name .zero style.bare
  | .pound _ => .pound .zero
  | .tag _ name _ selfClosing children => .tag .zero name .zero selfClosing (listBare children)
  | .unknown _ => .unknown .zero
  | .hole => .hole

def listBare : List Node → List Node
  | [] => []
  | n :: r => bare n :: listBare r

def branchesBare : List (Branch Node) → List (Branch Node)
  | [] => []
  | b :: r => branchBare b :: branchesBare r

def branchBare : Branch Node → Branch Node
  | ⟨key, _, _, body⟩ => ⟨key, .zero, .zero, listBare body⟩

end

theorem listBare_eq_map (ns : List Node) : listBare ns = ns.map bare := by
  induction ns with
  | nil => rfl
  | cons n r ih => rw [listBare, ih, List.map_cons]

theorem branchesBare_eq_map (cases : List (Branch Node)) :
    branchesBare cases = cases.map (·.bare bare) := by
  induction cases with
  | nil => rfl
  | cons b r ih =>
    rw [branchesBare, ih, List.map_cons, branchBare.eq_def]
    simp only [listBare_eq_map, Branch.bare]

end Node

/-! ### What can be spelled -/

/-- A style that a text can choose: a name without white space around it that is no skeleton, or the
text of a skeleton together with the options that it stands for. -/
def Style.Spelled (kind : FormatKind) : Style → Prop
  | .default => True
  | .named name _ => name ≠ "" ∧ (∀ x ∈ name.toList, isStyleChar x = true) ∧
      (∀ x ∈ name.toList.head?, Text.isPatternBlank x = false ∧ Text.isBlank x = false) ∧
      (∀ x ∈ name.toList.getLast?, Text.isBlank x = false) ∧ ¬[':', ':'] <+: name.toList
  | .skeleton text options _ => (∀ x ∈ text.toList, isStyleChar x = true) ∧
      Text.trimBlank text.toList = text.toList ∧ skeletonRead kind text.toList = .ok options

/-- An element whose offset is a whole number and whose style a text can choose. -/
def Node.Spelled : Node → Prop
  | .plural _ _ _ offset _ _ => Floats.IsWhole offset
  | .format _ kind _ _ style => style.Spelled kind
  | _ => True

/-! ### Reading literal text back -/

namespace Message

section Text

variable {inPlural : Bool} {more : List Char}

theorem isSyntax_of_needsQuotes {c : Char} (h : needsQuotes inPlural c = false) (r : List Char) :
    isSyntax inPlural c r = false := by
  simp only [needsQuotes, Bool.or_eq_false_iff] at h
  obtain ⟨⟨⟨hopen, hclose⟩, hless⟩, hpound⟩ := h
  rw [isSyntax, hopen, hclose, hpound, hless]
  rfl

theorem ne_apostrophe_of_not_isPlain (h : ¬IsPlain inPlural more) : more.head? ≠ some '\'' := by
  intro hhead
  cases more with
  | nil => exact nomatch hhead
  | cons x r =>
    refine h ⟨x, r, rfl, ?_⟩
    rw [Option.some.inj hhead]
    cases inPlural <;> rfl

/-- Text ends where it does not go on. -/
theorem readText_of_not_isPlain (h : ¬IsPlain inPlural more) :
    readText inPlural .plain more = ([], more) := by
  have hne := ne_apostrophe_of_not_isPlain h
  cases more with
  | nil => rfl
  | cons x r =>
    have hx : x ≠ '\'' := fun heq => hne (congrArg some heq)
    have hmark : isSyntax inPlural x r = true := by
      rw [← Bool.not_eq_false]
      exact fun hplain => h ⟨x, r, rfl, hplain⟩
    rw [readText, if_neg hx, if_pos hmark]

/-- Quoted text is read up to its closing apostrophe. -/
theorem readText_quoted (h : ¬IsPlain inPlural more) (cs : List Char) :
    readText inPlural .quoted (doubled cs ++ '\'' :: more) = (cs, more) := by
  induction cs with
  | nil =>
    rw [doubled, List.nil_append, readText, if_pos rfl, if_neg (ne_apostrophe_of_not_isPlain h)]
    exact readText_of_not_isPlain h
  | cons c r ih =>
    rw [doubled]
    split
    · rename_i hc
      rw [hc, List.cons_append, List.cons_append, readText, if_pos rfl, List.head?_cons, if_pos rfl,
        readText]
      simp only [ih]
    · rename_i hc
      rw [List.cons_append, readText, if_neg hc]
      simp only [ih]

/-- Written text is read back up to what follows it. -/
theorem readText_writtenText (h : ¬IsPlain inPlural more) (cs : List Char) :
    readText inPlural .plain (writtenText inPlural cs ++ more) = (cs, more) := by
  induction cs with
  | nil => exact readText_of_not_isPlain h
  | cons c r ih =>
    rw [writtenText]
    split
    · rename_i hquotes
      have hc : c ≠ '\'' := by
        rintro rfl
        cases inPlural <;> exact Bool.noConfusion hquotes
      have hstart : startsQuote inPlural c = true := by
        simp only [needsQuotes, Bool.or_eq_true, Bool.and_eq_true] at hquotes
        simp only [startsQuote, Bool.or_eq_true, Bool.and_eq_true]
        tauto
      -- quotes are opened once and run to the end, so all that is left is read at once
      have hquoted := readText_quoted h (c :: r)
      rw [doubled, if_neg hc] at hquoted ⊢
      rw [List.cons_append, List.append_assoc, List.singleton_append, List.cons_append, readText,
        if_pos rfl, List.head?_cons]
      split
      · rename_i heq
        exact absurd (Option.some.inj heq) hc
      · rename_i heq
        obtain rfl := Option.some.inj heq
        rw [if_pos hstart]
        exact hquoted
      · rename_i heq
        cases heq
    · rename_i hquotes
      -- what needs no quotes is no syntax, whatever stands behind it
      have hmark := isSyntax_of_needsQuotes (Bool.eq_false_iff.mpr hquotes)
        (writtenText inPlural r ++ more)
      rw [doubled, doubled]
      split
      · rename_i hc
        rw [hc, List.append_assoc, List.cons_append, List.cons_append, List.nil_append, readText,
          if_pos rfl, List.head?_cons]
        simp only [readText, ih]
      · rename_i hc
        rw [List.append_assoc, List.singleton_append, readText, if_neg hc, hmark,
          if_neg Bool.false_ne_true]
        simp only [ih]

/-- Written text starts plain. -/
theorem isPlain_writtenText {cs : List Char} (hne : cs ≠ []) (more : List Char) :
    IsPlain inPlural (writtenText inPlural cs ++ more) := by
  have happly (r : List Char) : isSyntax inPlural '\'' r = false := by
    cases inPlural <;> rfl
  cases cs with
  | nil => exact absurd rfl hne
  | cons c r =>
    rw [writtenText]
    split
    · exact ⟨'\'', _, rfl, happly _⟩
    · rename_i hquotes
      rw [doubled, doubled]
      split
      · exact ⟨'\'', _, rfl, happly _⟩
      · exact ⟨c, _, rfl, isSyntax_of_needsQuotes (Bool.eq_false_iff.mpr hquotes) _⟩

end Text

end Message

end Phrasebook
