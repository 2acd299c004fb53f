import Phrasebook.Proofs.Lexemes

/-!
The tokens of scripts. Code is cut into the longest tokens; between the tags of a markup fragment
text stands for itself, and a brace leads back to code. A text has one sequence of tokens at most.
-/
namespace Phrasebook.Script

open Decimal Program

inductive Token where
  /-- An identifier or a reserved word. -/
  | name (s : String)
  /-- A string literal, by the text it stands for. -/
  | text (s : String)
  | numeral (cs : List Char)
  | mark (s : String)
  /-- Text between the tags of a fragment. -/
  | markup (s : String)
  | opened
  | closed

/-- What a place lies in. -/
inductive Mode where
  | code
  | markup

/-- Whether one of some characters comes next, which would make a mark part of a longer one. -/
def leads (cs : List Char) (rest : List Char) : Bool :=
  rest.head?.any cs.contains

def mark? : List Char → Option (String × List Char)
  | '(' :: r => some ("(", r)
  | ')' :: r => some (")", r)
  | '[' :: r => some ("[", r)
  | ']' :: r => some ("]", r)
  | ',' :: r => some (",", r)
  | ':' :: r => some (":", r)
  | '=' :: '=' :: '=' :: r => some ("===", r)
  | '.' :: r => if leads ['.'] r || r.head?.any Char.isDigit then none else some (".", r)
  | '?' :: r => if leads ['?', '.'] r then none else some ("?", r)
  | '+' :: r => if leads ['+', '='] r then none else some ("+", r)
  | '-' :: r => if leads ['-', '='] r then none else some ("-", r)
  | _ => none

def lexeme? : List Char → Option (Token × List Char)
  | [] => none
  | c :: r =>
    if c = '"' then (readText r).map fun (s, r) => (.text (String.ofList s), r)
    else if c.isDigit then (readNumeral (c :: r)).map fun (n, r) => (.numeral n, r)
    else if startsName c then
      some (.name (String.ofList (c :: r.takeWhile continuesName)), r.dropWhile continuesName)
    else none

/-- The token that code starts with. -/
def token? (cs : List Char) : Option (Token × List Char) :=
  match mark? cs with
  | some (m, r) => some (.mark m, r)
  | none => lexeme? cs

/-- A character that stands for itself between tags. -/
def isVerbatim (c : Char) : Bool :=
  !(['{', '}', '<', '>', '&', '\n', '\r'].contains c)

/-- Reads a blank or one token of code. The modes are those of all places around, the innermost
first: braces and fragments are left in the order opposite to the one they were entered in. -/
def codeStep (ms : List Mode) : List Char → Option (List Token × List Mode × List Char)
  | ' ' :: r => some ([], .code :: ms, r)
  | '{' :: r => some ([.mark "\x7b"], .code :: .code :: ms, r)
  | '}' :: r => if ms.isEmpty then none else some ([.mark "\x7d"], ms, r)
  | '<' :: '>' :: r => some ([.opened], .markup :: .code :: ms, r)
  | cs => (token? cs).map fun (t, r) => ([t], .code :: ms, r)

/-- Reads one token between tags. -/
def markupStep (ms : List Mode) : List Char → Option (List Token × List Mode × List Char)
  | '{' :: r => some ([.mark "\x7b"], .code :: .markup :: ms, r)
  | '<' :: '/' :: '>' :: r => some ([.closed], ms, r)
  | cs =>
    if cs.takeWhile isVerbatim = [] then none
    else some ([.markup (String.ofList (cs.takeWhile isVerbatim))], .markup :: ms,
      cs.dropWhile isVerbatim)

def step : List Mode → List Char → Option (List Token × List Mode × List Char)
  | .code :: ms, cs => codeStep ms cs
  | .markup :: ms, cs => markupStep ms cs
  | [], _ => none

/-- Reading step by step, from a place to a later one. -/
inductive Scan : List Mode → List Char → List Token → List Mode → List Char → Prop where
  | done (ms : List Mode) (cs : List Char) : Scan ms cs [] ms cs
  | step {ms ms₁ ms₂ : List Mode} {cs cs₁ cs₂ : List Char} {ts us : List Token} :
      step ms cs = some (ts, ms₁, cs₁) → Scan ms₁ cs₁ us ms₂ cs₂ → Scan ms cs (ts ++ us) ms₂ cs₂

/-- The tokens of a whole text of code. -/
def Lexes (cs : List Char) (ts : List Token) : Prop :=
  Scan [.code] cs ts [.code] []

section Scanning

variable {ms ms₁ ms₂ : List Mode} {cs cs₁ cs₂ rest : List Char} {ts us : List Token}

theorem step_nil (ms : List Mode) : step ms [] = none := by
  rcases ms with _ | ⟨_ | _, ms⟩ <;> rfl

theorem Scan.trans (h : Scan ms cs ts ms₁ cs₁) (h' : Scan ms₁ cs₁ us ms₂ cs₂) :
    Scan ms cs (ts ++ us) ms₂ cs₂ := by
  induction h with
  | done => exact h'
  | step hstep _ ih =>
    rw [List.append_assoc]
    exact .step hstep (ih h')

theorem Scan.single (h : Script.step ms cs = some (ts, ms₁, rest)) : Scan ms cs ts ms₁ rest := by
  have hscan := Scan.step h (.done ms₁ rest)
  rwa [List.append_nil] at hscan

/-- Reading to the end takes one course. -/
theorem Scan.eq (h : Scan ms cs ts ms₁ rest) (h' : Scan ms cs us ms₂ rest) (hrest : rest = []) :
    ts = us := by
  -- Every step is a function of what is left, so two courses cannot part.
  induction h generalizing us with
  | done =>
    cases h' with
    | done => rfl
    | step hstep =>
      rw [hrest, step_nil] at hstep
      cases hstep
  | step hstep _ ih =>
    cases h' with
    | done =>
      rw [hrest, step_nil] at hstep
      cases hstep
    | step hstep' hscan =>
      have hsame := Option.some.inj (hstep.symm.trans hstep')
      simp only [Prod.mk.injEq] at hsame
      obtain ⟨rfl, rfl, rfl⟩ := hsame
      rw [ih hscan hrest]

/-- What is read to the end is read to the end from any place on the way. -/
theorem Scan.onward (h : Scan ms cs ts ms₁ cs₁) (h' : Scan ms cs us ms₂ []) :
    ∃ vs, Scan ms₁ cs₁ vs ms₂ [] := by
  induction h generalizing us with
  | done => exact ⟨us, h'⟩
  | step hstep _ ih =>
    cases h' with
    | done =>
      rw [step_nil] at hstep
      cases hstep
    | step hstep' hscan =>
      have hsame := Option.some.inj (hstep.symm.trans hstep')
      simp only [Prod.mk.injEq] at hsame
      obtain ⟨rfl, rfl, rfl⟩ := hsame
      exact ih hscan

/-- A text has one sequence of tokens at most. -/
theorem Lexes.eq (h : Lexes cs ts) (h' : Lexes cs us) : ts = us :=
  Scan.eq h h' rfl

/-! ### Characters -/

theorem exists_digitChar {c : Char} (h : c.isDigit = true) : ∃ d < 10, c = Nat.digitChar d := by
  simp only [Char.isDigit, Bool.and_eq_true, decide_eq_true_eq] at h
  have hlow : 48 ≤ c.toNat := h.1
  have hhigh : c.toNat ≤ 57 := h.2
  refine ⟨c.toNat - 48, by omega, Char.toNat_inj.mp ?_⟩
  rw [Nat.toNat_digitChar_of_lt_ten (by omega)]
  omega

/-- Digits go on with a name but start none. -/
theorem name_of_isDigit {c : Char} (h : c.isDigit = true) :
    startsName c = false ∧ continuesName c = true := by
  have hall : ∀ d < 10, startsName (Nat.digitChar d) = false ∧
      continuesName (Nat.digitChar d) = true := by
    decide +kernel
  obtain ⟨d, hd, rfl⟩ := exists_digitChar h
  exact hall d hd

theorem isDigit_of_startsName {c : Char} (h : startsName c = true) : c.isDigit = false := by
  rw [← Bool.not_eq_true]
  intro hdigit
  exact Bool.noConfusion ((name_of_isDigit hdigit).1.symm.trans h)

/-- A text behind which a name and a numeral end. -/
def Ends (rest : List Char) : Prop :=
  ∀ c ∈ rest.head?, continuesName c = false

theorem Ends.apart (h : Ends rest) (hpoint : rest.head? ≠ some '.') : Apart rest where
  digit c hc := by
    rw [← Bool.not_eq_true]
    intro hdigit
    exact Bool.noConfusion ((name_of_isDigit hdigit).2.symm.trans (h c hc))
  name c hc := by
    rw [← Bool.not_eq_true]
    intro hstart
    exact Bool.noConfusion ((continuesName_of_startsName hstart).symm.trans (h c hc))
  point := hpoint

/-- The characters that marks are made of. -/
def markChars : List Char :=
  ['(', ')', '[', ']', ',', ':', '=', '.', '?', '+', '-', ' ', '{', '}', '<', '>']

theorem not_mark {c : Char} (h : c ∈ markChars) :
    c ≠ '"' ∧ c.isDigit = false ∧ startsName c = false ∧ continuesName c = false := by
  have hall : markChars.all
      (fun c => c != '"' && !c.isDigit && !startsName c && !continuesName c) = true := by
    decide +kernel
  simpa [and_assoc] using List.all_eq_true.mp hall c h

theorem ends_cons {c : Char} (h : c ∈ markChars) (r : List Char) : Ends (c :: r) := by
  intro d hd
  obtain rfl := Option.some.inj hd
  exact (not_mark h).2.2.2

theorem ends_nil : Ends [] :=
  nofun

theorem mark?_eq_none {c : Char} (h : c ∉ markChars) (r : List Char) : mark? (c :: r) = none := by
  rw [mark?.eq_def]
  split
  case h_12 => rfl
  all_goals
    rename_i heq
    rw [(List.cons.inj heq).1] at h
    exact absurd (by decide) h

theorem lexeme?_eq_none {c : Char} (h : c ∈ markChars) (r : List Char) :
    lexeme? (c :: r) = none := by
  obtain ⟨hquote, hdigit, hstart, -⟩ := not_mark h
  rw [lexeme?, if_neg hquote, hdigit, hstart]
  rfl

/-! ### Tokens -/

theorem token?_mark {m : String} (h : mark? cs = some (m, rest)) :
    token? cs = some (.mark m, rest) := by
  rw [token?, h]

theorem token?_of_not_mark {c : Char} {r : List Char} (h : c ∉ markChars) :
    token? (c :: r) = lexeme? (c :: r) := by
  rw [token?, mark?_eq_none h]

/-- Where a token starts there is no blank, no brace and no tag. -/
theorem step_code {t : Token} (h : token? cs = some (t, rest)) :
    step (.code :: ms) cs = some ([t], .code :: ms, rest) := by
  have hnone {c : Char} {r : List Char} (hc : c ∈ markChars) (hmark : mark? (c :: r) = none)
      (heq : cs = c :: r) : False := by
    rw [heq, token?, hmark] at h
    simp only at h
    rw [lexeme?_eq_none hc] at h
    cases h
  rw [step, codeStep.eq_def]
  split
  case h_5 => rw [h]; rfl
  all_goals exact (hnone (by decide) rfl rfl).elim

theorem Scan.token {t : Token} (h : token? cs = some (t, rest)) :
    Scan (.code :: ms) cs [t] (.code :: ms) rest :=
  .single (step_code h)

theorem Scan.blank : Scan (.code :: ms) (' ' :: rest) [] (.code :: ms) rest :=
  .single rfl

/-- A name goes on as long as it can. -/
theorem token?_of_startsName {c : Char} (h : startsName c = true) (r : List Char) :
    token? (c :: r) = some (.name (String.ofList (c :: r.takeWhile continuesName)),
      r.dropWhile continuesName) := by
  have hmark : c ∉ markChars := fun hc => Bool.noConfusion ((not_mark hc).2.2.1.symm.trans h)
  have hquote : c ≠ '"' := by
    rintro rfl
    exact absurd h (by decide +kernel)
  rw [token?_of_not_mark hmark, lexeme?, if_neg hquote, isDigit_of_startsName h, h]
  rfl

theorem token?_name {name : String} (h : isName name = true) (hrest : Ends rest) :
    token? (name.toList ++ rest) = some (.name name, rest) := by
  cases hlist : name.toList with
  | nil => simp [isName, hlist] at h
  | cons c r =>
    simp only [isName, hlist, Bool.and_eq_true, List.all_eq_true] at h
    obtain ⟨hstart, hparts⟩ := h
    obtain ⟨htake, hdrop⟩ := cut_run hparts hrest
    rw [List.cons_append, token?_of_startsName hstart, htake, hdrop, ← hlist, String.ofList_toList]

theorem token?_text (s : String) (rest : List Char) :
    token? ((stringLiteral s).toList ++ rest) = some (.text s, rest) := by
  obtain ⟨l, hlist, hread⟩ := readText_stringLiteral s rest
  rw [hlist, token?_of_not_mark (by decide), lexeme?, if_pos rfl, hread]
  simp only [Option.map_some, String.ofList_toList]

theorem token?_numeral {x : Float} (h : IsFinite x) (hrest : Apart rest) :
    token? ((unsignedText x).toList ++ rest) = some (.numeral (unsignedText x).toList, rest) := by
  have hread := readNumeral_unsignedText h hrest
  obtain ⟨c, r, hlist, hdigit⟩ := (writes_unsignedText h.1 h.2).head
  rw [hlist] at hread ⊢
  have hmark : c ∉ markChars := fun hc => by
    rw [(not_mark hc).2.1] at hdigit
    cases hdigit
  have hquote : c ≠ '"' := by
    rintro rfl
    exact absurd hdigit (by decide)
  rw [List.cons_append, token?_of_not_mark hmark, lexeme?, if_neg hquote, if_pos hdigit,
    ← List.cons_append, hread]
  rfl

/-- No code goes on with a vertical tilde. -/
theorem not_scan_tilde (r : List Char) : ¬Scan (.code :: ms) (verticalTilde :: r) ts ms₁ [] := by
  have htoken : token? (verticalTilde :: r) = none := by
    rw [token?_of_not_mark (by decide), lexeme?, if_neg (by decide), if_neg (by decide),
      startsName_verticalTilde]
    rfl
  have hstep : step (.code :: ms) (verticalTilde :: r) = none := by
    rw [step, codeStep.eq_def]
    split
    case h_5 => rw [htoken]; rfl
    all_goals
      rename_i heq
      exact absurd (List.cons.inj heq).1 (by decide)
  intro h
  cases h with
  | step h =>
    rw [hstep] at h
    cases h

/-- What counts as an identifier but holds the tilde is read up to it at most. -/
theorem not_scan_identifier {s : String} (h : Name.isIdentifier s = true)
    (htilde : verticalTilde ∈ s.toList) : ¬Scan (.code :: ms) s.toList ts ms₁ [] := by
  cases hlist : s.toList with
  | nil => simp [Name.isIdentifier, hlist] at h
  | cons c r =>
    simp only [Name.isIdentifier, hlist, Bool.and_eq_true, List.all_eq_true] at h
    obtain ⟨hstart, hparts⟩ := h
    by_cases hc : c = verticalTilde
    · exact hc ▸ not_scan_tilde r
    have hr : verticalTilde ∈ r := (List.mem_cons.mp (hlist ▸ htilde)).resolve_left (Ne.symm hc)
    have hname := startsName_of_isStart hstart hc
    have hfirst : Scan (.code :: ms) (c :: r) _ (.code :: ms) (r.dropWhile continuesName) :=
      .token (token?_of_startsName hname r)
    obtain ⟨r', hdrop⟩ := exists_dropWhile_tilde hparts hr
    intro hscan
    obtain ⟨vs, hrest⟩ := hfirst.onward hscan
    rw [hdrop] at hrest
    exact not_scan_tilde r' hrest

/-- Text between tags is read up to the next brace or tag. -/
theorem Scan.markup {s : String} (h : isMarkupSafe s = true)
    (hrest : ∀ c ∈ rest.head?, isVerbatim c = false) :
    Scan (.markup :: ms) (s.toList ++ rest) [.markup s] (.markup :: ms) rest := by
  rw [isMarkupSafe, Bool.and_eq_true, decide_eq_true_eq, List.all_eq_true] at h
  obtain ⟨hne, hall⟩ := h
  obtain ⟨htake, hdrop⟩ := cut_run (p := isVerbatim) hall hrest
  have hlist : s.toList ≠ [] := fun hnil => hne (String.toList_eq_nil_iff.mp hnil)
  have hbrace (r : List Char) : s.toList ++ rest ≠ '{' :: r := by
    intro heq
    rw [heq] at htake
    exact hlist htake.symm
  have htag (r : List Char) : s.toList ++ rest ≠ '<' :: r := by
    intro heq
    rw [heq] at htake
    exact hlist htake.symm
  refine .single ?_
  rw [Script.step, markupStep.eq_def]
  split
  · rename_i heq
    exact absurd heq (hbrace _)
  · rename_i heq
    exact absurd heq (htag _)
  · rw [htake, hdrop, if_neg hlist, String.ofList_toList]

end Scanning

end Phrasebook.Script
