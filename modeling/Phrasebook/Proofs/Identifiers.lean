import Phrasebook.Scope.Name
import Phrasebook.Text.Pattern

/-!
The identifiers of scripts, as scripts define them: by the properties ID_Start and ID_Continue of
their characters, which leave out what patterns reserve. One letter is reserved so, the vertical
tilde. It is all that sets these identifiers apart from what counts as one when code is printed.
-/
namespace Phrasebook

namespace Script

/-- Characters with the property Other_ID_Start. -/
def otherStartRanges : Text.Ranges :=
  [(0x1885, 0x1886), (0x2118, 0x2118), (0x212E, 0x212E), (0x309B, 0x309C)]

/-- Characters with the property Other_ID_Continue. -/
def otherPartRanges : Text.Ranges :=
  [(0xB7, 0xB7), (0x387, 0x387), (0x1369, 0x1371), (0x19DA, 0x19DA)]

/-- Characters that patterns reserve. -/
def isPattern (c : Char) : Bool :=
  Text.isPatternSyntax c || Text.isPatternBlank c

/-- Characters with the property ID_Start. -/
def isIdStart (c : Char) : Bool :=
  (Text.isLetter c || Text.isLetterNumber c || otherStartRanges.has c) && !isPattern c

/-- Characters with the property ID_Continue. -/
def isIdContinue (c : Char) : Bool :=
  (Text.isLetter c || Text.isLetterNumber c || otherStartRanges.has c || Text.isDecimalDigit c ||
    Text.isJoining c || otherPartRanges.has c) && !isPattern c

/-- A character that an identifier may start with. -/
def startsName (c : Char) : Bool :=
  c == '$' || c == '_' || isIdStart c

/-- A character that may stand behind the first one of an identifier. -/
def continuesName (c : Char) : Bool :=
  c == '$' || c == '\u200C' || c == '\u200D' || isIdContinue c

/-- The names of scripts, reserved words among them. -/
def isName (s : String) : Bool :=
  match s.toList with
  | [] => false
  | c :: r => startsName c && r.all continuesName

/-- Words that are no identifiers in the code of modules. -/
def reservedWords : List String :=
  ["await", "break", "case", "catch", "class", "const", "continue", "debugger", "default", "delete",
    "do", "else", "enum", "export", "extends", "false", "finally", "for", "function", "if", "import",
    "in", "instanceof", "new", "null", "return", "super", "switch", "this", "throw", "true", "try",
    "typeof", "var", "void", "while", "with", "yield", "let", "static", "implements", "interface",
    "package", "private", "protected", "public"]

def isReserved (s : String) : Bool :=
  reservedWords.contains s

/-- The letter that patterns reserve. -/
def verticalTilde : Char := '\u2E2F'

end Script

/-- Classes of characters that share no range share no character. -/
theorem Text.Ranges.has_eq_false {r s : Ranges} {c : Char}
    (h : (r.all fun a => s.all fun b => Nat.blt a.2 b.1 || Nat.blt b.2 a.1) = true)
    (hc : s.has c = true) : r.has c = false := by
  obtain ⟨b, hb, hin⟩ := List.any_eq_true.mp hc
  rw [← Bool.not_eq_true]
  intro hr
  obtain ⟨a, ha, hin'⟩ := List.any_eq_true.mp hr
  have hapart := List.all_eq_true.mp (List.all_eq_true.mp h a ha) b hb
  simp only [Bool.and_eq_true, Bool.or_eq_true, decide_eq_true_eq, Nat.blt_eq] at hin hin' hapart
  omega

namespace Script

open Text

/-! ### Classes -/

/-- White space that patterns reserve, by its ranges. -/
def patternBlankRanges : Ranges :=
  [(0x9, 0xD), (0x20, 0x20), (0x85, 0x85), (0x200E, 0x200F), (0x2028, 0x2029)]

theorem isPatternBlank_eq (c : Char) : isPatternBlank c = patternBlankRanges.has c := by
  rw [Bool.eq_iff_iff]
  simp only [isPatternBlank, patternBlankRanges, Ranges.has, List.any_cons, List.any_nil,
    Bool.or_eq_true, Bool.and_eq_true, decide_eq_true_eq, beq_iff_eq, Bool.or_false]
  omega

/-- What patterns reserve, by its ranges. -/
theorem isPattern_eq (c : Char) :
    isPattern c = Ranges.has (patternSyntaxRanges ++ patternBlankRanges) c := by
  rw [isPattern, isPatternBlank_eq]
  exact List.any_append.symm

/-- Letters, digits and marks outside of ASCII, but for the vertical tilde. -/
def wordRanges : Ranges :=
  letterRanges.filter (· != (0x2E2F, 0x2E2F)) ++ letterNumberRanges ++ digitRanges ++ joiningRanges

theorem isPattern_of_wordRanges {c : Char} (h : wordRanges.has c = true) : isPattern c = false := by
  rw [isPattern_eq]
  exact Ranges.has_eq_false (by decide +kernel) h

theorem toNat_verticalTilde : verticalTilde.toNat = 0x2E2F := rfl

theorem has_filter_letterRanges {c : Char} (h : letterRanges.has c = true)
    (hne : c ≠ verticalTilde) :
    Ranges.has (letterRanges.filter (· != (0x2E2F, 0x2E2F))) c = true := by
  obtain ⟨a, ha, hin⟩ := List.any_eq_true.mp h
  refine List.any_eq_true.mpr ⟨a, List.mem_filter.mpr ⟨ha, ?_⟩, hin⟩
  rw [bne_iff_ne]
  rintro rfl
  simp only [Bool.and_eq_true, decide_eq_true_eq] at hin
  exact hne (Char.toNat_inj.mp (by rw [toNat_verticalTilde]; omega))

/-- A character of the words of some script is reserved for no pattern unless it is the vertical
tilde. -/
theorem isPattern_of_isWord {c : Char} (hwide : ¬c.toNat < 128) (hne : c ≠ verticalTilde)
    (h : isLetter c = true ∨ isLetterNumber c = true ∨ isDecimalDigit c = true ∨
      isJoining c = true) : isPattern c = false := by
  refine isPattern_of_wordRanges ?_
  simp only [isLetter, isDecimalDigit, isJoining, if_neg hwide] at h
  simp only [wordRanges, Ranges.has, List.any_append, Bool.or_eq_true]
  rcases h with h | h | h | h
  · exact .inl (.inl (.inl (has_filter_letterRanges h hne)))
  · exact .inl (.inl (.inr h))
  · exact .inl (.inr h)
  · exact .inr h

/-! ### Characters of names -/

/-- What holds of the codes below 128 holds of their characters. -/
theorem forall_ascii {p : Char → Prop} (h : ∀ n < 128, p (Char.ofNat n)) {c : Char}
    (hc : c.toNat < 128) : p c := by
  have hp := h c.toNat hc
  rwa [Char.ofNat_toNat] at hp

theorem startsName_of_isStart {c : Char} (h : Name.isStart c = true) (hne : c ≠ verticalTilde) :
    startsName c = true := by
  by_cases hascii : c.toNat < 128
  · exact forall_ascii (p := fun c => Name.isStart c = true → startsName c = true)
      (by decide +kernel) hascii h
  · simp only [Name.isStart, Bool.or_eq_true, beq_iff_eq] at h
    obtain ((rfl | rfl) | hletter) | hnumber := h
    · rfl
    · rfl
    · rw [startsName, isIdStart, isPattern_of_isWord hascii hne (.inl hletter), hletter]
      simp
    · rw [startsName, isIdStart, isPattern_of_isWord hascii hne (.inr (.inl hnumber)), hnumber]
      simp

theorem continuesName_of_startsName {c : Char} (h : startsName c = true) :
    continuesName c = true := by
  simp only [startsName, Bool.or_eq_true, beq_iff_eq] at h
  obtain (rfl | rfl) | hstart := h
  · rfl
  · decide +kernel
  · simp only [isIdStart, Bool.and_eq_true] at hstart
    rw [continuesName, isIdContinue, hstart.1, hstart.2]
    simp

theorem continuesName_of_isPart {c : Char} (h : Name.isPart c = true) (hne : c ≠ verticalTilde) :
    continuesName c = true := by
  by_cases hascii : c.toNat < 128
  · exact forall_ascii (p := fun c => Name.isPart c = true → continuesName c = true)
      (by decide +kernel) hascii h
  · simp only [Name.isPart, Bool.or_eq_true, beq_iff_eq] at h
    obtain (((hstart | hdigit) | hjoining) | rfl) | rfl := h
    · exact continuesName_of_startsName (startsName_of_isStart hstart hne)
    · rw [continuesName, isIdContinue, hdigit,
        isPattern_of_isWord hascii hne (.inr (.inr (.inl hdigit)))]
      simp
    · rw [continuesName, isIdContinue, hjoining,
        isPattern_of_isWord hascii hne (.inr (.inr (.inr hjoining)))]
      simp
    · rfl
    · rfl

theorem continuesName_verticalTilde : continuesName verticalTilde = false := by
  decide +kernel

theorem startsName_verticalTilde : startsName verticalTilde = false := by
  rw [← Bool.not_eq_true]
  intro h
  exact Bool.noConfusion (continuesName_verticalTilde.symm.trans (continuesName_of_startsName h))

/-- What goes on an identifier when code is printed goes on a name up to the vertical tilde. -/
theorem exists_dropWhile_tilde {cs : List Char} (h : ∀ c ∈ cs, Name.isPart c = true)
    (htilde : verticalTilde ∈ cs) : ∃ r, cs.dropWhile continuesName = verticalTilde :: r := by
  induction cs with
  | nil => exact absurd htilde List.not_mem_nil
  | cons c r ih =>
    obtain ⟨hc, hr⟩ := List.forall_mem_cons.mp h
    -- The tilde is the one character that goes on an identifier here and no name there.
    by_cases heq : c = verticalTilde
    · rw [heq, List.dropWhile_cons, continuesName_verticalTilde]
      exact ⟨r, rfl⟩
    · have hmem : verticalTilde ∈ r := (List.mem_cons.mp htilde).resolve_left (Ne.symm heq)
      rw [List.dropWhile_cons, continuesName_of_isPart hc heq]
      exact ih hr hmem

/-- What counts as an identifier when code is printed is one unless it holds the vertical tilde. -/
theorem isName_iff_of_isIdentifier {s : String} (h : Name.isIdentifier s = true) :
    isName s = true ↔ verticalTilde ∉ s.toList := by
  cases hlist : s.toList with
  | nil => simp [Name.isIdentifier, hlist] at h
  | cons c r =>
    simp only [Name.isIdentifier, hlist, Bool.and_eq_true, List.all_eq_true] at h
    simp only [isName, hlist, Bool.and_eq_true, List.all_eq_true]
    constructor
    · rintro ⟨hstart, hparts⟩ hmem
      have hpart : continuesName verticalTilde = true := by
        rcases List.mem_cons.mp hmem with rfl | hr
        · exact continuesName_of_startsName hstart
        · exact hparts _ hr
      exact Bool.noConfusion (continuesName_verticalTilde.symm.trans hpart)
    · intro hmem
      exact ⟨startsName_of_isStart h.1 fun heq => hmem (heq ▸ List.mem_cons_self),
        fun d hd => continuesName_of_isPart (h.2 d hd) fun heq =>
          hmem (heq ▸ List.mem_cons_of_mem _ hd)⟩

/-- A word that may be bound is no word of scripts. -/
theorem isReserved_of_name {s : String} (h : Name.isReserved s = false) : isReserved s = false := by
  have hall : ∀ w ∈ reservedWords, w ∈ Name.reserved := by decide
  simp only [isReserved, Name.isReserved, List.contains_eq_mem, decide_eq_false_iff_not] at h ⊢
  exact fun hs => h (hall s hs)

end Script

end Phrasebook
