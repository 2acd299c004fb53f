import Phrasebook.Program.Print
import Phrasebook.Proofs.ExpressionGrammar

/-!
The tokens of printed expressions. Printing puts just as much between tokens as it takes to keep
them apart: an expression is cut into the tokens that it was written with, whatever stands behind
it that no name and no numeral goes on with.
-/
namespace Phrasebook.Program

open Decimal Script

/-! ### Expressions that hold everywhere -/

mutual

/-- A property of an expression and of all expressions in it. -/
def Everywhere (p : Expr → Prop) : Expr → Prop
  | .string s => p (.string s)
  | .number x => p (.number x)
  | .bool b => p (.bool b)
  | .ident name => p (.ident name)
  | .member object property => p (.member object property) ∧ Everywhere p object
  | .call callee args => p (.call callee args) ∧ Everywhere p callee ∧ EverywhereItems p args
  | .new callee args => p (.new callee args) ∧ Everywhere p callee ∧ EverywhereItems p args
  | .binary op left right =>
    p (.binary op left right) ∧ Everywhere p left ∧ Everywhere p right
  | .conditional test yes no =>
    p (.conditional test yes no) ∧ Everywhere p test ∧ Everywhere p yes ∧ Everywhere p no
  | .object props => p (.object props) ∧ EverywhereProps p props
  | .fragment children => p (.fragment children) ∧ EverywhereChildren p children
  | .unknown => p .unknown
  | .absent => p .absent

def EverywhereItems (p : Expr → Prop) : List Expr → Prop
  | [] => True
  | e :: r => Everywhere p e ∧ EverywhereItems p r

def EverywhereProps (p : Expr → Prop) : List (String × Expr) → Prop
  | [] => True
  | (_, e) :: r => Everywhere p e ∧ EverywhereProps p r

def EverywhereChildren (p : Expr → Prop) : List (Child Expr) → Prop
  | [] => True
  | .text _ :: r => EverywhereChildren p r
  | .container e :: r => Everywhere p e ∧ EverywhereChildren p r

end

/-! ### Tokens -/

/-- The tokens of an expression that may stand in parentheses. -/
def wrap (yes : Bool) (ts : List Token) : List Token :=
  if yes then .mark "(" :: ts ++ [.mark ")"] else ts

def keyToken (key : String) : Token :=
  if Name.isIdentifier key then .name key else .text key

def accessTokens (property : String) : List Token :=
  if Name.isIdentifier property then [.mark ".", .name property]
  else [.mark "[", .text property, .mark "]"]

def numberTokens (x : Float) : List Token :=
  (if isNegative x then [.mark "-"] else []) ++ [.numeral (unsignedText x).toList]

/-- The level of an operator; its right operand binds tighter. -/
def opLevel (op : BinaryOp) : Nat :=
  if op = .strictEq then Level.equality else Level.additive

mutual

def exprTokens : Expr → List Token
  | .string s => [.text s]
  | .number x => numberTokens x
  | .bool b => [.name (if b then "true" else "false")]
  | .ident name => [.name name]
  | .member object property =>
    wrap (isNumber object || level object < Level.call) (exprTokens object) ++ accessTokens property
  | .call callee args =>
    wrap (level callee < Level.call) (exprTokens callee) ++
      (.mark "(" :: itemTokens args ++ [.mark ")"])
  | .new callee args =>
    .name "new" :: wrap (isCall callee || level callee < Level.call) (exprTokens callee) ++
      (.mark "(" :: itemTokens args ++ [.mark ")"])
  | .binary op left right =>
    wrap (level left < opLevel op) (exprTokens left) ++
      .mark op.text :: wrap (level right < opLevel op + 1) (exprTokens right)
  | .conditional test yes no =>
    wrap (level test < Level.conditional + 1) (exprTokens test) ++
      .mark "?" :: (exprTokens yes ++ .mark ":" :: exprTokens no)
  | .object props => .mark "\x7b" :: propTokens props ++ [.mark "\x7d"]
  | .fragment children => .opened :: childTokens children ++ [.closed]
  | .unknown => []
  | .absent => [.name "undefined"]

def itemTokens : List Expr → List Token
  | [] => []
  | [e] => exprTokens e
  | e :: r => exprTokens e ++ .mark "," :: itemTokens r

def propTokens : List (String × Expr) → List Token
  | [] => []
  | [(k, e)] => keyToken k :: .mark ":" :: exprTokens e
  | (k, e) :: r => keyToken k :: .mark ":" :: exprTokens e ++ .mark "," :: propTokens r

def childTokens : List (Child Expr) → List Token
  | [] => []
  | .text s :: r =>
    (if isMarkupSafe s then [.markup s] else [.mark "\x7b", .text s, .mark "\x7d"]) ++ childTokens r
  | .container e :: r => .mark "\x7b" :: exprTokens e ++ .mark "\x7d" :: childTokens r

end

/-! ### Expressions that can be printed -/

/-- Whether a text comes first among children. -/
def textFirst : List (Child Expr) → Bool
  | .text _ :: _ => true
  | _ => false

/-- Texts among children say something, and no two of them stand side by side. -/
def Spaced : List (Child Expr) → Prop
  | [] => True
  | .text s :: r => s ≠ "" ∧ textFirst r = false ∧ Spaced r
  | .container _ :: r => Spaced r

/-- A text that is written as a name when it counts as an identifier, and is one then. -/
def Writable (s : String) : Prop :=
  Name.isIdentifier s = true → verticalTilde ∉ s.toList

instance (s : String) : Decidable (Writable s) :=
  inferInstanceAs (Decidable (_ → _))

theorem Writable.isName {s : String} (h : Writable s) (hs : Name.isIdentifier s = true) :
    isName s = true :=
  (isName_iff_of_isIdentifier hs).mpr (h hs)

/-- What an expression must be like for its text to be one: it is of a known kind, its numbers are
finite, its names can be read, no property and no key that is written as a name holds the vertical
tilde, and its fragments are kept. -/
def Sound (style : PrintStyle) : Expr → Prop
  | .number x => IsFinite x
  | .ident name => isName name = true ∧ isReserved name = false
  | .member _ property => Writable property
  | .binary op _ _ => op ≠ .unknown
  | .object props => ∀ p ∈ props, Writable p.1
  | .fragment children => style.markup = .preserve ∧ Spaced children
  | .unknown | .absent => False
  | .string _ | .bool _ | .call .. | .new .. | .conditional .. => True

/-- An expression that a point may follow. -/
def isClosed (e : Expr) : Bool :=
  decide (Level.call ≤ level e) && !isNumber e

/-- A text behind an expression that is no part of it. -/
structure Follows (e : Expr) (rest : List Char) : Prop where
  ends : Ends rest
  point : isClosed e = false → rest.head? ≠ some '.'

theorem two_le_level (e : Expr) : Level.conditional ≤ level e := by
  cases e <;> simp only [level] <;> first | decide | (split <;> decide)

theorem follows_mark {c : Char} (h : c ∈ markChars) (hpoint : c ≠ '.') (e : Expr) (r : List Char) :
    Follows e (c :: r) :=
  ⟨ends_cons h r, fun _ heq => hpoint (Option.some.inj heq)⟩

section Enclosing

variable {style : PrintStyle} {e : Expr}

theorem enclose_eq (h : Sound style e) (least : Nat) (s : String) :
    enclose least e s = parens (level e < least) s := by
  cases e <;> first | rfl | exact absurd h id

/-- Where any expression may stand no parentheses are needed. -/
theorem enclose_conditional (e : Expr) (s : String) : enclose Level.conditional e s = s := by
  have hlevel : ¬level e < Level.conditional := Nat.not_lt.mpr (two_le_level e)
  cases e <;> first | rfl | exact if_neg (by simpa using hlevel)

theorem enclose_or (h : Sound style e) (yes : Bool) (least : Nat) (s : String) :
    (if yes then parens true s else enclose least e s) =
      parens (yes || decide (level e < least)) s := by
  cases yes with
  | true => rfl
  | false => exact enclose_eq h least s

end Enclosing

theorem Everywhere.self {p : Expr → Prop} {e : Expr} (h : Everywhere p e) : p e := by
  cases e <;> first | exact h | exact h.1

/-! ### Printed text as tokens -/

/-- A text that is read as so many tokens, in front of some other text. -/
def Scans (ms : List Mode) (s : String) (ts : List Token) (ms' : List Mode) (rest : List Char) :
    Prop :=
  Scan ms (s.toList ++ rest) ts ms' rest

section Reading

variable {ms ms₁ ms₂ : List Mode} {s s' : String} {ts us : List Token} {rest : List Char}

theorem Scans.append (h : Scans ms s ts ms₁ (s'.toList ++ rest)) (h' : Scans ms₁ s' us ms₂ rest) :
    Scans ms (s ++ s') (ts ++ us) ms₂ rest := by
  rw [Scans, String.toList_append, List.append_assoc]
  exact h.trans h'

theorem scans_token {t : Token} (h : token? (s.toList ++ rest) = some (t, rest)) :
    Scans (.code :: ms) s [t] (.code :: ms) rest :=
  .token h

theorem scans_blank : Scans (.code :: ms) " " [] (.code :: ms) rest :=
  .blank

/-- A mark that no longer mark starts with. -/
theorem scans_mark {m : String} (h : mark? (m.toList ++ rest) = some (m, rest)) :
    Scans (.code :: ms) m [.mark m] (.code :: ms) rest :=
  .token (token?_mark h)

theorem scans_brace : Scans (.code :: ms) "\x7b" [.mark "\x7b"] (.code :: .code :: ms) rest :=
  .single rfl

theorem scans_unbrace {m : Mode} :
    Scans (.code :: m :: ms) "\x7d" [.mark "\x7d"] (m :: ms) rest :=
  .single rfl

/-- A brace between tags leads to code as well. -/
theorem scans_markupBrace :
    Scans (.markup :: ms) "\x7b" [.mark "\x7b"] (.code :: .markup :: ms) rest :=
  .single rfl

theorem scans_paren : Scans (.code :: ms) "(" [.mark "("] (.code :: ms) rest :=
  scans_mark rfl

theorem scans_unparen : Scans (.code :: ms) ")" [.mark ")"] (.code :: ms) rest :=
  scans_mark rfl

theorem scans_bracket : Scans (.code :: ms) "[" [.mark "["] (.code :: ms) rest :=
  scans_mark rfl

theorem scans_unbracket : Scans (.code :: ms) "]" [.mark "]"] (.code :: ms) rest :=
  scans_mark rfl

theorem scans_comma : Scans (.code :: ms) ", " [.mark ","] (.code :: ms) rest := by
  have hmark : Scans (.code :: ms) "," [.mark ","] (.code :: ms) (" ".toList ++ rest) :=
    scans_mark rfl
  exact hmark.append scans_blank

theorem scans_colon : Scans (.code :: ms) ": " [.mark ":"] (.code :: ms) rest := by
  have hmark : Scans (.code :: ms) ":" [.mark ":"] (.code :: ms) (" ".toList ++ rest) :=
    scans_mark rfl
  exact hmark.append scans_blank

theorem scans_text (s : String) :
    Scans (.code :: ms) (stringLiteral s) [.text s] (.code :: ms) rest :=
  scans_token (token?_text s rest)

theorem scans_name {name : String} (h : isName name = true) (hrest : Ends rest) :
    Scans (.code :: ms) name [.name name] (.code :: ms) rest :=
  scans_token (token?_name h hrest)

end Reading

variable (style : PrintStyle)

/-- The text of an expression is read as its tokens. -/
def Printed (e : Expr) : Prop :=
  ∀ ms rest, Follows e rest → Scans (.code :: ms) (exprText style e) (exprTokens e) (.code :: ms) rest

section Expressions

variable {style} {ms : List Mode} {rest : List Char} {e : Expr}

theorem Printed.enclosed (h : Printed style e) {yes : Bool} (hrest : yes = false → Follows e rest) :
    Scans (.code :: ms) (parens yes (exprText style e)) (wrap yes (exprTokens e)) (.code :: ms) rest := by
  cases yes with
  | false => exact h ms rest (hrest rfl)
  | true =>
    have hexpr := h ms (")".toList ++ rest) (follows_mark (by decide) (by decide) e _)
    exact (scans_paren.append hexpr).append scans_unparen

/-- An expression behind which a blank, a bracket or a comma comes. -/
theorem Printed.enclosed_mark (h : Printed style e) (yes : Bool) {c : Char} (hc : c ∈ markChars)
    (hpoint : c ≠ '.') :
    Scans (.code :: ms) (parens yes (exprText style e)) (wrap yes (exprTokens e)) (.code :: ms)
      (c :: rest) :=
  h.enclosed fun _ => follows_mark hc hpoint e rest

theorem Printed.mark (h : Printed style e) {c : Char} (hc : c ∈ markChars) (hpoint : c ≠ '.') :
    Scans (.code :: ms) (exprText style e) (exprTokens e) (.code :: ms) (c :: rest) :=
  h ms _ (follows_mark hc hpoint e rest)

theorem printed_number {x : Float} (h : IsFinite x) : Printed style (.number x) := by
  intro ms rest hrest
  have hapart := hrest.ends.apart (hrest.point (by simp [isClosed, isNumber]))
  have hnumeral : Scans (.code :: ms) (unsignedText x) [.numeral (unsignedText x).toList]
      (.code :: ms) rest := scans_token (token?_numeral h hapart)
  rw [exprText, exprTokens, numberTokens, literal_eq, h.1]
  cases hsign : isNegative x with
  | false => exact hnumeral
  | true =>
    have hminus : Scans (.code :: ms) "-" [.mark "-"] (.code :: ms)
        ((unsignedText x).toList ++ rest) := by
      obtain ⟨c, r, hlist, hdigit⟩ := (writes_unsignedText h.1 h.2).head
      have hleads : leads ['-', '='] ((unsignedText x).toList ++ rest) = false := by
        rw [hlist, ← Bool.not_eq_true]
        intro hlead
        have hmem : c = '-' ∨ c = '=' := by simpa [leads] using hlead
        rcases hmem with rfl | rfl <;> exact absurd hdigit (by decide)
      refine scans_mark ?_
      change mark? ('-' :: ((unsignedText x).toList ++ rest)) = _
      rw [mark?, hleads]
      rfl
    exact hminus.append hnumeral

theorem scans_point {c : Char} {r : List Char} (hdot : c ≠ '.') (hdigit : c.isDigit = false) :
    Scans (.code :: ms) "." [.mark "."] (.code :: ms) (c :: r) := by
  have hleads : (leads ['.'] (c :: r) || (c :: r).head?.any Char.isDigit) = false := by
    simp [leads, hdot, hdigit]
  refine scans_mark ?_
  change mark? ('.' :: c :: r) = _
  rw [mark?, hleads]
  rfl

theorem scans_access {property : String} (h : Writable property) (hrest : Ends rest) :
    Scans (.code :: ms) (memberAccess property) (accessTokens property) (.code :: ms) rest := by
  rw [memberAccess, accessTokens]
  split
  · rename_i hidentifier
    have hname := h.isName hidentifier
    have hpoint : Scans (.code :: ms) "." [.mark "."] (.code :: ms) (property.toList ++ rest) := by
      cases hlist : property.toList with
      | nil => simp [isName, hlist] at hname
      | cons c r =>
        have hstart : startsName c = true := by
          simp only [isName, hlist, Bool.and_eq_true] at hname
          exact hname.1
        have hdot : c ≠ '.' := by
          rintro rfl
          exact absurd hstart (by decide +kernel)
        exact scans_point hdot (isDigit_of_startsName hstart)
    exact hpoint.append (scans_name hname hrest)
  · exact (scans_bracket.append (scans_text property)).append scans_unbracket

theorem printed_member {object : Expr} {property : String} (hproperty : Writable property)
    (hsound : Sound style object) (h : Printed style object) :
    Printed style (.member object property) := by
  intro ms rest hrest
  rw [exprText, exprTokens, enclose_or hsound]
  refine (h.enclosed fun hopen => ?_).append (scans_access hproperty hrest.ends)
  rw [Bool.or_eq_false_iff, decide_eq_false_iff_not, not_lt] at hopen
  have hclosed : isClosed object = true := by
    rw [isClosed, hopen.1, decide_eq_true hopen.2]
    rfl
  -- a point or a bracket follows
  have hends : Ends ((memberAccess property).toList ++ rest) := by
    rw [memberAccess]
    split
    · rw [String.toList_append]
      exact ends_cons (c := '.') (by decide) _
    · rw [String.toList_append, String.toList_append]
      exact ends_cons (c := '[') (by decide) _
  exact ⟨hends, fun hnot => absurd (hclosed.symm.trans hnot) (by decide)⟩

/-- Arguments in their parentheses, and what they belong to before them. -/
theorem scans_arguments {s t : String} {ts us : List Token} {ms₁ : List Mode}
    (hs : Scans ms₁ s ts (.code :: ms) ('(' :: (t.toList ++ (')' :: rest))))
    (ht : Scans (.code :: ms) t us (.code :: ms) (')' :: rest)) :
    Scans ms₁ (s ++ "(" ++ t ++ ")") (ts ++ (.mark "(" :: us ++ [.mark ")"])) (.code :: ms) rest := by
  have hopen : Scans (.code :: ms) "(" [.mark "("] (.code :: ms) (t.toList ++ (')' :: rest)) :=
    scans_paren
  have hall := ((hs.append hopen).append ht).append scans_unparen
  simpa only [List.append_assoc, List.cons_append, List.nil_append] using hall

theorem scans_new : Scans (.code :: ms) "new " [.name "new"] (.code :: ms) rest := by
  have hname : Scans (.code :: ms) "new" [.name "new"] (.code :: ms) (" ".toList ++ rest) :=
    scans_name (by decide) (ends_cons (c := ' ') (by decide) _)
  exact hname.append scans_blank

/-- An operator between blanks. -/
theorem scans_operator {op : BinaryOp} (h : op ≠ .unknown) :
    Scans (.code :: ms) op.text [.mark op.text] (.code :: ms) (" ".toList ++ rest) := by
  refine scans_mark ?_
  cases op with
  | unknown => exact absurd rfl h
  | add | sub | strictEq => rfl

theorem printed_binary {op : BinaryOp} {left right : Expr} (hop : op ≠ .unknown)
    (hsound : Sound style left) (hsound' : Sound style right) (hl : Printed style left)
    (hr : Printed style right) : Printed style (.binary op left right) := by
  intro ms rest hrest
  have htext : exprText style (.binary op left right) =
      parens (level left < opLevel op) (exprText style left) ++ " " ++ op.text ++ " " ++
        parens (level right < opLevel op + 1) (exprText style right) := by
    rw [exprText]
    simp only [enclose_eq hsound, enclose_eq hsound']
    rfl
  rw [htext, exprTokens]
  have hright : Scans (.code :: ms)
      (parens (level right < opLevel op + 1) (exprText style right))
      (wrap (level right < opLevel op + 1) (exprTokens right)) (.code :: ms) rest := by
    refine hr.enclosed fun _ => ⟨hrest.ends, fun _ => hrest.point ?_⟩
    rw [isClosed, level]
    cases op <;> rfl
  have hleft : Scans (.code :: ms) (parens (level left < opLevel op) (exprText style left))
      (wrap (level left < opLevel op) (exprTokens left)) (.code :: ms) (' ' :: (op.text.toList ++
        (" ".toList ++ ((parens (level right < opLevel op + 1) (exprText style right)).toList ++
          rest)))) := hl.enclosed_mark _ (by decide) (by decide)
  have hall := (((hleft.append scans_blank).append (scans_operator hop)).append scans_blank).append
    hright
  simpa only [List.append_assoc, List.append_nil, List.cons_append, List.nil_append] using hall

theorem scans_spaced {m : String} (h : ∀ rest : List Char,
    mark? (m.toList ++ (' ' :: rest)) = some (m, ' ' :: rest)) :
    Scans (.code :: ms) (" " ++ m ++ " ") [.mark m] (.code :: ms) rest := by
  have hmark : Scans (.code :: ms) m [.mark m] (.code :: ms) (" ".toList ++ rest) :=
    scans_mark (h rest)
  exact (scans_blank.append hmark).append scans_blank

theorem printed_conditional {test yes no : Expr} (hsound : Sound style test)
    (ht : Printed style test) (hy : Printed style yes) (hn : Printed style no) :
    Printed style (.conditional test yes no) := by
  intro ms rest hrest
  rw [exprText, exprTokens, enclose_eq hsound, enclose_conditional, enclose_conditional]
  have hno : Scans (.code :: ms) (exprText style no) (exprTokens no) (.code :: ms) rest :=
    hn ms rest ⟨hrest.ends, fun _ => hrest.point rfl⟩
  have hquestion {rest : List Char} : Scans (.code :: ms) " ? " [.mark "?"] (.code :: ms) rest :=
    scans_spaced (m := "?") fun _ => rfl
  have hcolon {rest : List Char} : Scans (.code :: ms) " : " [.mark ":"] (.code :: ms) rest :=
    scans_spaced (m := ":") fun _ => rfl
  have hyes : Scans (.code :: ms) (exprText style yes) (exprTokens yes) (.code :: ms)
      (" : ".toList ++ ((exprText style no).toList ++ rest)) :=
    hy.mark (c := ' ') (by decide) (by decide)
  have htest : Scans (.code :: ms) (parens (level test < Level.conditional + 1) (exprText style test))
      (wrap (level test < Level.conditional + 1) (exprTokens test)) (.code :: ms)
      (" ? ".toList ++ ((exprText style yes).toList ++
        (" : ".toList ++ ((exprText style no).toList ++ rest)))) :=
    ht.enclosed_mark _ (c := ' ') (by decide) (by decide)
  have hall := (((htest.append hquestion).append hyes).append hcolon).append hno
  simpa only [List.append_assoc, List.cons_append, List.nil_append] using hall

theorem scans_key {key : String} (h : Writable key) (hrest : Ends rest) :
    Scans (.code :: ms) (propertyKey key) [keyToken key] (.code :: ms) rest := by
  rw [propertyKey, keyToken]
  split
  · rename_i hidentifier
    exact scans_name (h.isName hidentifier) hrest
  · exact scans_text key

/-- A property with its key. -/
theorem scans_property {key : String} (hwritable : Writable key) {s : String} {ts : List Token}
    (h : Scans (.code :: ms) s ts (.code :: ms) rest) :
    Scans (.code :: ms) (propertyKey key ++ ": " ++ s) (keyToken key :: .mark ":" :: ts)
      (.code :: ms) rest := by
  have hkey : Scans (.code :: ms) (propertyKey key) [keyToken key] (.code :: ms)
      (": ".toList ++ (s.toList ++ rest)) :=
    scans_key hwritable (ends_cons (c := ':') (by decide) _)
  exact (hkey.append scans_colon).append h

/-- What stands in braces, with blanks around it. -/
theorem scans_braces {s : String} {ts : List Token}
    (h : Scans (.code :: .code :: ms) s ts (.code :: .code :: ms) (' ' :: '}' :: rest)) :
    Scans (.code :: ms) ("\x7b " ++ s ++ " \x7d") (.mark "\x7b" :: ts ++ [.mark "\x7d"])
      (.code :: ms) rest := by
  have hopen : Scans (.code :: ms) "\x7b " [.mark "\x7b"] (.code :: .code :: ms)
      (s.toList ++ (' ' :: '}' :: rest)) := scans_brace.append scans_blank
  have hclose : Scans (.code :: .code :: ms) " \x7d" [.mark "\x7d"] (.code :: ms) rest :=
    scans_blank.append scans_unbrace
  exact (hopen.append h).append hclose

/-- A text among children, between tags or in braces. -/
theorem scans_childText {s : String} (hne : s ≠ "") (hrest : ∀ c ∈ rest.head?, isVerbatim c = false) :
    Scans (.markup :: ms) (childText style (.text s))
      (if isMarkupSafe s then [.markup s] else [.mark "\x7b", .text s, .mark "\x7d"])
      (.markup :: ms) rest := by
  rw [childText]
  split
  · rename_i hsafe
    exact .markup hsafe hrest
  · exact (scans_markupBrace.append (scans_text s)).append scans_unbrace

theorem scans_container (h : Printed style e) :
    Scans (.markup :: ms) (childText style (.container e)) (.mark "\x7b" :: exprTokens e ++ [.mark "\x7d"])
      (.markup :: ms) rest := by
  have hexpr : Scans (.code :: .markup :: ms) (exprText style e) (exprTokens e)
      (.code :: .markup :: ms) ("\x7d".toList ++ rest) :=
    h.mark (c := '}') (by decide) (by decide)
  rw [childText]
  exact (scans_markupBrace.append hexpr).append scans_unbrace

/-- Behind a text among children a brace or a tag comes. -/
theorem head_children {cs : List (Child Expr)} (h : textFirst cs = false) (rest : List Char) :
    ∀ c ∈ ((childrenText style cs).toList ++ '<' :: rest).head?, isVerbatim c = false := by
  intro c hc
  cases cs with
  | nil =>
    obtain rfl := Option.some.inj hc
    rfl
  | cons d r =>
    cases d with
    | text s => cases h
    | container e =>
      rw [childrenText, childText, String.toList_append, String.toList_append,
        String.toList_append] at hc
      obtain rfl := Option.some.inj hc
      rfl

end Expressions

/-! ### All expressions -/

section All

variable {style}

mutual

theorem printed_expr : ∀ e, Everywhere (Sound style) e → Printed style e
  | .string s, _ => fun _ _ _ => scans_text s
  | .number _, h => printed_number h
  | .bool b, _ => fun _ _ hrest => by
    rw [exprText, exprTokens]
    cases b with
    | true => exact scans_name (by decide) hrest.ends
    | false => exact scans_name (by decide) hrest.ends
  | .ident _, h => fun _ _ hrest => scans_name h.1 hrest.ends
  | .member object _, h => printed_member h.1 h.2.self (printed_expr object h.2)
  | .call callee args, h => fun ms rest _ => by
    rw [exprText, exprTokens, enclose_eq h.2.1.self]
    exact scans_arguments ((printed_expr callee h.2.1).enclosed_mark _ (by decide) (by decide))
      (printed_items args h.2.2 ms rest)
  | .new callee args, h => fun ms rest _ => by
    rw [exprText, exprTokens, enclose_or h.2.1.self]
    -- A callee that is itself a call is enclosed whatever its level.
    have hcallee : Scans (.code :: ms)
        (parens (isCall callee || decide (level callee < Level.call)) (exprText style callee))
        (wrap (isCall callee || decide (level callee < Level.call)) (exprTokens callee))
        (.code :: ms) ('(' :: ((listText style args).toList ++ (')' :: rest))) :=
      (printed_expr callee h.2.1).enclosed_mark _ (by decide) (by decide)
    exact scans_arguments (scans_new.append hcallee) (printed_items args h.2.2 ms rest)
  | .binary _ left right, h =>
    printed_binary h.1 h.2.1.self h.2.2.self (printed_expr left h.2.1) (printed_expr right h.2.2)
  | .conditional test yes no, h =>
    printed_conditional h.2.1.self (printed_expr test h.2.1) (printed_expr yes h.2.2.1)
      (printed_expr no h.2.2.2)
  | .object props, h => fun ms rest _ => by
    have hprops := printed_props props h.1 h.2 (.code :: ms) ('}' :: rest)
    rw [exprText, exprTokens]
    cases props with
    | nil => exact scans_brace.append scans_unbrace
    | cons p r => exact scans_braces hprops
  | .fragment children, h => fun ms rest _ => by
    have hopen {rest : List Char} : Scans (.code :: ms) "<>" [.opened] (.markup :: .code :: ms) rest :=
      .single rfl
    have hclose : Scans (.markup :: .code :: ms) "</>" [.closed] (.code :: ms) rest :=
      .single rfl
    have hchildren := printed_children children h.2 h.1.2 (.code :: ms) ('/' :: '>' :: rest)
    rw [exprText, exprTokens, h.1.1]
    exact (hopen.append hchildren).append hclose
  | .unknown, h => absurd h id
  | .absent, h => absurd h id

theorem printed_items : ∀ es, EverywhereItems (Sound style) es → ∀ ms rest,
    Scans (.code :: ms) (listText style es) (itemTokens es) (.code :: ms) (')' :: rest)
  | [], _ => fun _ _ => .done _ _
  | [e], h => fun ms rest => by
    rw [listText, itemTokens, enclose_conditional]
    exact (printed_expr e h.1).mark (by decide) (by decide)
  | e :: f :: r, h => fun ms rest => by
    have hexpr : Scans (.code :: ms) (exprText style e) (exprTokens e) (.code :: ms)
        (", ".toList ++ ((listText style (f :: r)).toList ++ (')' :: rest))) :=
      (printed_expr e h.1).mark (c := ',') (by decide) (by decide)
    have hall := (hexpr.append scans_comma).append (printed_items (f :: r) h.2 ms rest)
    rw [listText, itemTokens, enclose_conditional]
    · simpa only [List.append_assoc, List.cons_append, List.nil_append] using hall
    · simp
    · simp

theorem printed_props : ∀ ps, (∀ p ∈ ps, Writable p.1) → EverywhereProps (Sound style) ps → ∀ ms rest,
    Scans (.code :: ms) (propsText style ps) (propTokens ps) (.code :: ms) (' ' :: rest)
  | [], _, _ => fun _ _ => .done _ _
  | [_], hkeys, h => fun ms rest => by
    rw [propsText, propTokens, enclose_conditional]
    exact scans_property (List.forall_mem_cons.mp hkeys).1
      ((printed_expr _ h.1).mark (by decide) (by decide))
  | (_, e) :: p :: r, hkeys, h => fun ms rest => by
    obtain ⟨hkey, hkeys⟩ := List.forall_mem_cons.mp hkeys
    have hexpr : Scans (.code :: ms) (exprText style e) (exprTokens e) (.code :: ms)
        (", ".toList ++ ((propsText style (p :: r)).toList ++ (' ' :: rest))) :=
      (printed_expr e h.1).mark (c := ',') (by decide) (by decide)
    have hall := ((scans_property hkey hexpr).append scans_comma).append
      (printed_props (p :: r) hkeys h.2 ms rest)
    rw [propsText, propTokens, enclose_conditional]
    · simpa only [List.append_assoc, List.cons_append, List.nil_append] using hall
    · simp
    · simp

theorem printed_children : ∀ cs, EverywhereChildren (Sound style) cs → Spaced cs → ∀ ms rest,
    Scans (.markup :: ms) (childrenText style cs) (childTokens cs) (.markup :: ms) ('<' :: rest)
  | [], _, _ => fun _ _ => .done _ _
  | .text _ :: r, h, hspaced => fun ms rest =>
    (scans_childText hspaced.1 (head_children hspaced.2.1 rest)).append
      (printed_children r h hspaced.2.2 ms rest)
  | .container e :: r, h, hspaced => fun ms rest => by
    have hall := (scans_container (printed_expr e h.1)).append
      (printed_children r h.2 hspaced ms rest)
    rw [childrenText, childTokens]
    simpa only [List.append_assoc, List.cons_append, List.nil_append] using hall

end

end All

end Phrasebook.Program
