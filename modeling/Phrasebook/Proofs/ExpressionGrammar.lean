import Phrasebook.Program.Expr
import Phrasebook.Proofs.Tokens

/-!
The grammar of script expressions, from primary expressions to conditional ones. What stands in
brackets is an expression again. The grammar is unambiguous: what a sequence of tokens starts with
is settled once it is known what cannot follow.
-/
namespace Phrasebook.Script

/-! ### Productions -/

/-- An expression as it is understood. A property that is accessed by its name has a text as key. -/
inductive Term where
  | text (s : String)
  | number (x : Float)
  | bool (b : Bool)
  | name (s : String)
  | member (object key : Term)
  | call (callee : Term) (args : List Term)
  | new (callee : Term) (args : List Term)
  | negate (operand : Term)
  | binary (op : BinaryOp) (left right : Term)
  | conditional (test yes no : Term)
  | object (props : List (String × Term))
  | markup (children : List Term)

/-- A kind of phrase: which tokens may be understood as what. -/
abbrev Phrase (α : Type) := List Token → α → Prop

section Productions

/-- Phrases with commas between them. -/
inductive Items {α : Type} (X : Phrase α) : Phrase (List α)
  | nil : Items X [] []
  | one {ts : List Token} {t : α} : X ts t → Items X ts [t]
  | cons {ts us : List Token} {t u : α} {l : List α} : X ts t → Items X us (u :: l) →
      Items X (ts ++ .mark "," :: us) (t :: u :: l)

variable (E : Phrase Term)

/-- A property with its key, which may be any name. -/
inductive Property : Phrase (String × Term)
  | name {ts : List Token} {t : Term} (k : String) : E ts t →
      Property (.name k :: .mark ":" :: ts) (k, t)
  | text {ts : List Token} {t : Term} (k : String) : E ts t →
      Property (.text k :: .mark ":" :: ts) (k, t)

/-- What stands between tags: text, which counts as a text in braces, and expressions in braces. -/
inductive Children : Phrase (List Term)
  | nil : Children [] []
  | text {us : List Token} {l : List Term} (s : String) : Children us l →
      Children (.markup s :: us) (.text s :: l)
  | braced {ts us : List Token} {t : Term} {l : List Term} : E ts t → Children us l →
      Children (.mark "\x7b" :: ts ++ .mark "\x7d" :: us) (t :: l)

inductive Primary : Phrase Term
  | text (s : String) : Primary [.text s] (.text s)
  | numeral {cs : List Char} {x : Float} : Denotes cs x → Primary [.numeral cs] (.number x)
  | bool (b : Bool) : Primary [.name (if b then "true" else "false")] (.bool b)
  | name {s : String} : isReserved s = false → Primary [.name s] (.name s)
  | parens {ts : List Token} {t : Term} : E ts t → Primary (.mark "(" :: ts ++ [.mark ")"]) t
  | object {ts : List Token} {ps : List (String × Term)} : Items (Property E) ts ps →
      Primary (.mark "\x7b" :: ts ++ [.mark "\x7d"]) (.object ps)
  | markup {ts : List Token} {l : List Term} : Children E ts l →
      Primary (.opened :: ts ++ [.closed]) (.markup l)

/-- The key of an accessed property. -/
inductive Access : Phrase Term
  | name (s : String) : Access [.mark ".", .name s] (.text s)
  | index {ts : List Token} {t : Term} : E ts t → Access (.mark "[" :: ts ++ [.mark "]"]) t

inductive Arguments : Phrase (List Term)
  | mk {ts : List Token} {l : List Term} : Items E ts l →
      Arguments (.mark "(" :: ts ++ [.mark ")"]) l

/-- The first arguments behind `new` are its own. -/
inductive Member : Phrase Term
  | primary {ts : List Token} {t : Term} : Primary E ts t → Member ts t
  | access {ts us : List Token} {t k : Term} : Member ts t → Access E us k →
      Member (ts ++ us) (.member t k)
  | new {ts us : List Token} {t : Term} {l : List Term} : Member ts t → Arguments E us l →
      Member (.name "new" :: ts ++ us) (.new t l)

/-- Without arguments `new` calls with none. -/
inductive New : Phrase Term
  | member {ts : List Token} {t : Term} : Member E ts t → New ts t
  | new {ts : List Token} {t : Term} : New ts t → New (.name "new" :: ts) (.new t [])

inductive Call : Phrase Term
  | member {ts us : List Token} {t : Term} {l : List Term} : Member E ts t → Arguments E us l →
      Call (ts ++ us) (.call t l)
  | again {ts us : List Token} {t : Term} {l : List Term} : Call ts t → Arguments E us l →
      Call (ts ++ us) (.call t l)
  | access {ts us : List Token} {t k : Term} : Call ts t → Access E us k →
      Call (ts ++ us) (.member t k)

inductive LeftHand : Phrase Term
  | new {ts : List Token} {t : Term} : New E ts t → LeftHand ts t
  | call {ts : List Token} {t : Term} : Call E ts t → LeftHand ts t

inductive Unary : Phrase Term
  | leftHand {ts : List Token} {t : Term} : LeftHand E ts t → Unary ts t
  | negate {ts : List Token} {t : Term} : Unary ts t → Unary (.mark "-" :: ts) (.negate t)

/-- Operators of one level associate to the left. -/
inductive LeftChain (ops : List BinaryOp) (X : Phrase Term) : Phrase Term
  | operand {ts : List Token} {t : Term} : X ts t → LeftChain ops X ts t
  | link {ts us : List Token} {l r : Term} {op : BinaryOp} : LeftChain ops X ts l → op ∈ ops →
      X us r → LeftChain ops X (ts ++ .mark op.text :: us) (.binary op l r)

def Additive : Phrase Term :=
  LeftChain [.add, .sub] (Unary E)

def Equality : Phrase Term :=
  LeftChain [.strictEq] (Additive E)

/-- Conditional expressions associate to the right. -/
inductive Conditional : Phrase Term
  | equality {ts : List Token} {t : Term} : Equality E ts t → Conditional ts t
  | choice {ts us vs : List Token} {c a b : Term} : Equality E ts c → Conditional us a →
      Conditional vs b →
      Conditional (ts ++ .mark "?" :: (us ++ .mark ":" :: vs)) (.conditional c a b)

end Productions

/-- An expression is a conditional one whose brackets hold expressions. -/
inductive Expression : Phrase Term
  | mk {E : Phrase Term} {ts : List Token} {t : Term} : (∀ us u, E us u → Expression us u) →
      Conditional E ts t → Expression ts t

/-- A text of code that is one expression. -/
def Parses (s : String) (t : Term) : Prop :=
  ∃ ts, Lexes s.toList ts ∧ Expression ts t

/-! ### What phrases start with -/

/-- Whether an expression or a property may start with a token. -/
def Token.opens : Token → Bool
  | .mark m => ["(", "\x7b", "-"].contains m
  | .markup _ | .closed => false
  | .name _ | .text _ | .numeral _ | .opened => true

def Opens {α : Type} (X : Phrase α) : Prop :=
  ∀ ts t, X ts t → ∃ a r, ts = a :: r ∧ a.opens = true

section Openings

variable {E : Phrase Term}

theorem opens_append {ts : List Token} (h : ∃ a r, ts = a :: r ∧ a.opens = true) (us : List Token) :
    ∃ a r, ts ++ us = a :: r ∧ a.opens = true := by
  obtain ⟨a, r, rfl, ha⟩ := h
  exact ⟨a, r ++ us, rfl, ha⟩

theorem opens_property : Opens (Property E) := by
  intro ts t h
  cases h with
  | name => exact ⟨_, _, rfl, rfl⟩
  | text => exact ⟨_, _, rfl, rfl⟩

theorem opens_primary : Opens (Primary E) := by
  intro ts t h
  cases h <;> exact ⟨_, _, rfl, rfl⟩

theorem opens_member : Opens (Member E) := by
  intro ts t h
  induction h with
  | primary h => exact opens_primary _ _ h
  | access _ _ ih => exact opens_append ih _
  | new => exact ⟨_, _, rfl, rfl⟩

theorem opens_leftHand : Opens (LeftHand E) := by
  intro ts t h
  cases h with
  | new h =>
    cases h with
    | member h => exact opens_member _ _ h
    | new => exact ⟨_, _, rfl, rfl⟩
  | call h =>
    induction h with
    | member h => exact opens_append (opens_member _ _ h) _
    | again _ _ ih => exact opens_append ih _
    | access _ _ ih => exact opens_append ih _

theorem opens_unary : Opens (Unary E) := by
  intro ts t h
  cases h with
  | leftHand h => exact opens_leftHand _ _ h
  | negate => exact ⟨_, _, rfl, rfl⟩

theorem opens_leftChain {ops : List BinaryOp} {X : Phrase Term} (hX : Opens X) :
    Opens (LeftChain ops X) := by
  intro ts t h
  induction h with
  | operand h => exact hX _ _ h
  | link _ _ _ ih => exact opens_append ih _

theorem opens_conditional : Opens (Conditional E) := by
  intro ts t h
  have hequality : Opens (Equality E) := opens_leftChain (opens_leftChain opens_unary)
  cases h with
  | equality h => exact hequality _ _ h
  | choice h => exact opens_append (hequality _ _ h) _

theorem opens_expression : Opens Expression := by
  intro ts t h
  cases h with
  | mk _ h => exact opens_conditional _ _ h

end Openings

/-! ### What cannot follow -/

/-- No text behind a phrase starts with one of these marks. -/
def Stops (marks : List String) (rest : List Token) : Prop :=
  ∀ m ∈ marks, rest.head? ≠ some (.mark m)

/-- Two phrases that one sequence of tokens starts with are the same. -/
structure Determined {α : Type} (marks : List String) (X X' : Phrase α) : Prop where
  eq : ∀ {ts ts' rest rest' : List Token} {t t' : α}, X ts t → X' ts' t' → Stops marks rest →
    Stops marks rest' → ts ++ rest = ts' ++ rest' → ts = ts' ∧ t = t'

def accessMarks : List String :=
  [".", "[", "("]

def additiveMarks : List String :=
  [BinaryOp.add, .sub].map BinaryOp.text ++ accessMarks

def equalityMarks : List String :=
  [BinaryOp.strictEq].map BinaryOp.text ++ additiveMarks

def expressionMarks : List String :=
  "?" :: equalityMarks

section Uniqueness

variable {E E' : Phrase Term}

theorem Stops.mono {marks marks' : List String} {rest : List Token} (h : Stops marks rest)
    (hsub : marks' ⊆ marks) : Stops marks' rest :=
  fun m hm => h m (hsub hm)

theorem stops_nil (marks : List String) : Stops marks [] :=
  fun _ _ => nofun

theorem stops_mark {marks : List String} {m : String} (h : m ∉ marks) (r : List Token) :
    Stops marks (.mark m :: r) := by
  intro n hn heq
  obtain rfl := Token.mark.inj (Option.some.inj heq)
  exact h hn

/-- Phrases that one sequence of tokens starts with are the same if marks follow that go on no
expression, and so are those marks. -/
structure Parted {α : Type} (X X' : Phrase α) : Prop where
  eq : ∀ {ts ts' rest rest' : List Token} {t t' : α} {m m' : String}, X ts t → X' ts' t' →
    m ∉ expressionMarks → m' ∉ expressionMarks →
    ts ++ .mark m :: rest = ts' ++ .mark m' :: rest' → ts = ts' ∧ t = t' ∧ m = m' ∧ rest = rest'

theorem Determined.parted {α : Type} {X X' : Phrase α} (h : Determined expressionMarks X X') :
    Parted X X' := by
  constructor
  intro ts ts' rest rest' t t' m m' ht ht' hm hm' heq
  obtain ⟨rfl, rfl⟩ := h.eq ht ht' (stops_mark hm _) (stops_mark hm' _) heq
  obtain ⟨hmark, rfl⟩ := List.cons.inj (List.append_cancel_left heq)
  exact ⟨rfl, rfl, Token.mark.inj hmark, rfl⟩

theorem not_opens {α : Type} {X : Phrase α} (h : Opens X) {ts rest us : List Token} {t : α}
    {a : Token} (ht : X ts t) (ha : a.opens = false) : a :: us ≠ ts ++ rest := by
  obtain ⟨b, r, rfl, hb⟩ := h _ _ ht
  intro heq
  rw [(List.cons.inj heq).1, hb] at ha
  cases ha

/-- Items up to the bracket that closes them. -/
theorem items_determined {α : Type} {X X' : Phrase α} (hX : Parted X X')
    (ho : Opens X) (ho' : Opens X') {m : String} (hm : m ∉ expressionMarks)
    (hclose : (Token.mark m).opens = false) (hcomma : m ≠ ",") {ts ts' rest rest' : List Token}
    {l l' : List α} (h : Items X ts l) (h' : Items X' ts' l')
    (heq : ts ++ .mark m :: rest = ts' ++ .mark m :: rest') :
    ts = ts' ∧ l = l' ∧ rest = rest' := by
  have hc : "," ∉ expressionMarks := by decide
  -- a comma and the closing mark tell whether an item follows, and no item starts with them
  induction h generalizing ts' l' with
  | nil =>
    cases h' with
    | nil => exact ⟨rfl, rfl, (List.cons.inj heq).2⟩
    | one ht' => exact absurd heq (not_opens ho' ht' hclose)
    | cons ht' _ =>
      rw [List.append_assoc] at heq
      exact absurd heq (not_opens ho' ht' hclose)
  | one ht =>
    cases h' with
    | nil => exact absurd heq.symm (not_opens ho ht hclose)
    | one ht' =>
      obtain ⟨rfl, rfl, -, rfl⟩ := hX.eq ht ht' hm hm heq
      exact ⟨rfl, rfl, rfl⟩
    | cons ht' _ =>
      rw [List.append_assoc, List.cons_append] at heq
      exact absurd (hX.eq ht ht' hm hc heq).2.2.1 hcomma
  | cons ht _ ih =>
    rw [List.append_assoc, List.cons_append] at heq
    cases h' with
    | nil => exact absurd heq.symm (not_opens ho ht hclose)
    | one ht' => exact absurd (hX.eq ht ht' hc hm heq).2.2.1.symm hcomma
    | cons ht' hrest' =>
      rw [List.append_assoc, List.cons_append] at heq
      obtain ⟨rfl, rfl, -, hrest⟩ := hX.eq ht ht' hc hc heq
      obtain ⟨rfl, hl, rfl⟩ := ih hrest' hrest
      exact ⟨rfl, by rw [hl], rfl⟩

variable (hE : Determined expressionMarks E E')

include hE

theorem property_determined : Determined expressionMarks (Property E) (Property E') := by
  constructor
  intro ts ts' rest rest' t t' h h' hrest hrest' heq
  cases h with
  | name k ht =>
    cases h' with
    | name k' ht' =>
      obtain ⟨hk, heq⟩ := List.cons.inj heq
      obtain ⟨rfl, rfl⟩ := hE.eq ht ht' hrest hrest' (List.cons.inj heq).2
      rw [Token.name.inj hk]
      exact ⟨rfl, rfl⟩
    | text => exact Token.noConfusion (List.cons.inj heq).1
  | text k ht =>
    cases h' with
    | name => exact Token.noConfusion (List.cons.inj heq).1
    | text k' ht' =>
      obtain ⟨hk, heq⟩ := List.cons.inj heq
      obtain ⟨rfl, rfl⟩ := hE.eq ht ht' hrest hrest' (List.cons.inj heq).2
      rw [Token.text.inj hk]
      exact ⟨rfl, rfl⟩

/-- Children up to the closing tag. -/
theorem children_determined {ts ts' rest rest' : List Token} {l l' : List Term}
    (h : Children E ts l) (h' : Children E' ts' l')
    (heq : ts ++ .closed :: rest = ts' ++ .closed :: rest') :
    ts = ts' ∧ l = l' ∧ rest = rest' := by
  have hbrace : "\x7d" ∉ expressionMarks := by decide
  -- The closing tag ends both, and each kind of child starts with a token of its own.
  induction h generalizing ts' l' with
  | nil =>
    cases h' with
    | nil => exact ⟨rfl, rfl, (List.cons.inj heq).2⟩
    | text => exact Token.noConfusion (List.cons.inj heq).1
    | braced => exact Token.noConfusion (List.cons.inj heq).1
  | text s _ ih =>
    cases h' with
    | nil => exact Token.noConfusion (List.cons.inj heq).1
    | text s' hus' =>
      obtain ⟨hs, heq⟩ := List.cons.inj heq
      obtain ⟨rfl, rfl, rfl⟩ := ih hus' heq
      rw [Token.markup.inj hs]
      exact ⟨rfl, rfl, rfl⟩
    | braced => exact Token.noConfusion (List.cons.inj heq).1
  | braced ht _ ih =>
    cases h' with
    | nil => exact Token.noConfusion (List.cons.inj heq).1
    | text => exact Token.noConfusion (List.cons.inj heq).1
    | braced ht' hus' =>
      simp only [List.cons_append, List.append_assoc, List.cons.injEq, true_and] at heq
      obtain ⟨rfl, rfl, -, heq⟩ := hE.parted.eq ht ht' hbrace hbrace heq
      obtain ⟨rfl, rfl, rfl⟩ := ih hus' heq
      exact ⟨rfl, rfl, rfl⟩

theorem access_determined : Determined [] (Access E) (Access E') := by
  have hbracket : "]" ∉ expressionMarks := by decide
  constructor
  intro ts ts' rest rest' t t' h h' _ _ heq
  cases h with
  | name s =>
    cases h' with
    | name s' =>
      simp only [List.cons_append, List.cons.injEq, Token.name.injEq, true_and] at heq
      rw [heq.1]
      exact ⟨rfl, rfl⟩
    | index => exact absurd (Token.mark.inj (List.cons.inj heq).1) (by decide)
  | index ht =>
    cases h' with
    | name => exact absurd (Token.mark.inj (List.cons.inj heq).1) (by decide)
    | index ht' =>
      simp only [List.cons_append, List.append_assoc, List.cons.injEq, true_and,
        List.nil_append] at heq
      obtain ⟨rfl, rfl, -, -⟩ := hE.parted.eq ht ht' hbracket hbracket heq
      exact ⟨rfl, rfl⟩

theorem primary_determined : Determined [] (Primary E) (Primary E') := by
  have hparen : ")" ∉ expressionMarks := by decide
  have hbool (b : Bool) : isReserved (if b then "true" else "false") = true := by
    cases b <;> decide
  constructor
  intro ts ts' rest rest' t t' h h' _ _ heq
  -- the first token tells the kinds apart, as `true` and `false` are reserved words
  cases h with
  | text s =>
    cases h' <;> simp only [List.cons_append, List.cons.injEq, reduceCtorEq, false_and] at heq
    case text s' =>
      rw [Token.text.inj heq.1]
      exact ⟨rfl, rfl⟩
  | numeral hx =>
    cases h' <;> simp only [List.cons_append, List.cons.injEq, reduceCtorEq, false_and] at heq
    case numeral hx' =>
      obtain rfl := Token.numeral.inj heq.1
      rw [hx.eq hx']
      exact ⟨rfl, rfl⟩
  | bool b =>
    cases h' <;> simp only [List.cons_append, List.cons.injEq, reduceCtorEq, false_and] at heq
    case bool b' =>
      have hname := Token.name.inj heq.1
      cases b <;> cases b' <;> first | exact ⟨rfl, rfl⟩ | exact absurd hname (by decide)
    case name s hs =>
      rw [← Token.name.inj heq.1, hbool] at hs
      cases hs
  | name hs =>
    cases h' <;> simp only [List.cons_append, List.cons.injEq, reduceCtorEq, false_and] at heq
    case bool b =>
      rw [Token.name.inj heq.1, hbool] at hs
      cases hs
    case name =>
      rw [Token.name.inj heq.1]
      exact ⟨rfl, rfl⟩
  | parens ht =>
    cases h' <;> simp only [List.cons_append, List.append_assoc, List.cons.injEq, reduceCtorEq,
      false_and, Token.mark.injEq, true_and, List.nil_append] at heq
    case parens ht' =>
      obtain ⟨rfl, rfl, -, -⟩ := hE.parted.eq ht ht' hparen hparen heq
      exact ⟨rfl, rfl⟩
    case object => exact absurd heq.1 (by decide)
  | object hps =>
    cases h' <;> simp only [List.cons_append, List.append_assoc, List.cons.injEq, reduceCtorEq,
      false_and, Token.mark.injEq, true_and, List.nil_append] at heq
    case parens => exact absurd heq.1 (by decide)
    case object hps' =>
      obtain ⟨rfl, rfl, -⟩ := items_determined (property_determined hE).parted opens_property
        opens_property (by decide) (by decide) (by decide) hps hps' heq
      exact ⟨rfl, rfl⟩
  | markup hl =>
    cases h' <;> simp only [List.cons_append, List.append_assoc, List.cons.injEq, reduceCtorEq,
      false_and, true_and, List.nil_append] at heq
    case markup hl' =>
      obtain ⟨rfl, rfl, -⟩ := children_determined hE hl hl' heq
      exact ⟨rfl, rfl⟩

variable (ho : Opens E) (ho' : Opens E')

include ho ho'

theorem arguments_determined : Determined [] (Arguments E) (Arguments E') := by
  constructor
  intro ts ts' rest rest' t t' h h' _ _ heq
  obtain ⟨hl⟩ := h
  obtain ⟨hl'⟩ := h'
  simp only [List.cons_append, List.append_assoc, List.cons.injEq, true_and,
    List.nil_append] at heq
  obtain ⟨rfl, rfl, -⟩ := items_determined hE.parted ho ho' (by decide) (by decide) (by decide) hl hl' heq
  exact ⟨rfl, rfl⟩

end Uniqueness

/-! ### Calls and members -/

/-- What may follow the object of an access or the callee of a call. -/
inductive Link where
  | access (key : Term)
  | args (l : List Term)

/-- Calls with `new` that got no arguments. -/
def bareNews : Nat → Term → Term
  | 0, t => t
  | k + 1, t => bareNews k (.new t [])

/-- What links make of an object that so many `new` stand before. Arguments go to the last `new`
that has none. -/
def resolve : List Link → Nat → Term → Term
  | [], k, t => bareNews k t
  | .access key :: ls, k, t => resolve ls k (.member t key)
  | .args l :: ls, 0, t => resolve ls 0 (.call t l)
  | .args l :: ls, k + 1, t => resolve ls k (.new t l)

inductive Links (E : Phrase Term) : Phrase (List Link)
  | nil : Links E [] []
  | access {ts us : List Token} {k : Term} {ls : List Link} : Access E ts k → Links E us ls →
      Links E (ts ++ us) (.access k :: ls)
  | args {ts us : List Token} {l : List Term} {ls : List Link} : Arguments E ts l →
      Links E us ls → Links E (ts ++ us) (.args l :: ls)

/-- A primary expression with what stands before and behind it. -/
structure Chain (E : Phrase Term) (ts : List Token) (news : Nat) (object : Term) (ls : List Link) :
    Prop where
  split : ∃ ps us, ts = List.replicate news (.name "new") ++ (ps ++ us) ∧ Primary E ps object ∧
    Links E us ls

section Chains

variable {E E' : Phrase Term} {ts us : List Token} {t : Term}

theorem Links.append {ls ms : List Link} (h : Links E ts ls) (h' : Links E us ms) :
    Links E (ts ++ us) (ls ++ ms) := by
  induction h with
  | nil => exact h'
  | access ha _ ih =>
    rw [List.append_assoc]
    exact .access ha ih
  | args ha _ ih =>
    rw [List.append_assoc]
    exact .args ha ih

theorem Chain.append {k : Nat} {p : Term} {ls ms : List Link} (h : Chain E ts k p ls)
    (h' : Links E us ms) : Chain E (ts ++ us) k p (ls ++ ms) := by
  obtain ⟨ps, qs, rfl, hp, hls⟩ := h.split
  exact ⟨ps, qs ++ us, by simp only [List.append_assoc], hp, hls.append h'⟩

theorem Chain.new {k : Nat} {p : Term} {ls : List Link} (h : Chain E ts k p ls) :
    Chain E (.name "new" :: ts) (k + 1) p ls := by
  obtain ⟨ps, us, rfl, hp, hls⟩ := h.split
  exact ⟨ps, us, rfl, hp, hls⟩

/-- A member expression is settled: more `new` and more links leave it as it is. -/
theorem Member.exists_chain (h : Member E ts t) : ∃ k p ls, Chain E ts k p ls ∧
    ∀ j ms, resolve (ls ++ ms) (j + k) p = resolve ms j t := by
  induction h with
  | primary h => exact ⟨0, _, [], ⟨_, [], by simp, h, .nil⟩, fun _ _ => rfl⟩
  | access _ ha ih =>
    obtain ⟨k, p, ls, hchain, hresolve⟩ := ih
    have hlink := Links.access ha .nil
    rw [List.append_nil] at hlink
    refine ⟨k, p, _, hchain.append hlink, fun j ms => ?_⟩
    rw [List.append_assoc, hresolve]
    rfl
  | new _ ha ih =>
    obtain ⟨k, p, ls, hchain, hresolve⟩ := ih
    have hlink := Links.args ha .nil
    rw [List.append_nil] at hlink
    refine ⟨k + 1, p, _, hchain.new.append hlink, fun j ms => ?_⟩
    rw [List.append_assoc, ← Nat.add_assoc, Nat.add_right_comm, hresolve]
    rfl

theorem New.exists_chain (h : New E ts t) : ∃ k p ls, Chain E ts k p ls ∧
    ∀ j, resolve ls (j + k) p = bareNews j t := by
  induction h with
  | member h =>
    obtain ⟨k, p, ls, hchain, hresolve⟩ := h.exists_chain
    refine ⟨k, p, ls, hchain, fun j => ?_⟩
    have hnone := hresolve j []
    rwa [List.append_nil] at hnone
  | new _ ih =>
    obtain ⟨k, p, ls, hchain, hresolve⟩ := ih
    refine ⟨k + 1, p, ls, hchain.new, fun j => ?_⟩
    rw [← Nat.add_assoc, Nat.add_right_comm, hresolve]
    rfl

theorem Call.exists_chain (h : Call E ts t) : ∃ k p ls, Chain E ts k p ls ∧
    ∀ ms, resolve (ls ++ ms) k p = resolve ms 0 t := by
  induction h with
  | @member _ _ _ l h ha =>
    obtain ⟨k, p, ls, hchain, hresolve⟩ := h.exists_chain
    have hlink := Links.args ha .nil
    rw [List.append_nil] at hlink
    refine ⟨k, p, _, hchain.append hlink, fun ms => ?_⟩
    have hzero := hresolve 0 ([.args l] ++ ms)
    rw [Nat.zero_add] at hzero
    rw [List.append_assoc]
    exact hzero
  | again _ ha ih =>
    obtain ⟨k, p, ls, hchain, hresolve⟩ := ih
    have hlink := Links.args ha .nil
    rw [List.append_nil] at hlink
    refine ⟨k, p, _, hchain.append hlink, fun ms => ?_⟩
    rw [List.append_assoc, hresolve]
    rfl
  | access _ ha ih =>
    obtain ⟨k, p, ls, hchain, hresolve⟩ := ih
    have hlink := Links.access ha .nil
    rw [List.append_nil] at hlink
    refine ⟨k, p, _, hchain.append hlink, fun ms => ?_⟩
    rw [List.append_assoc, hresolve]
    rfl

/-- What is understood is what the links make of the primary expression. -/
theorem LeftHand.exists_chain (h : LeftHand E ts t) : ∃ k p ls, Chain E ts k p ls ∧
    t = resolve ls k p := by
  cases h with
  | new h =>
    obtain ⟨k, p, ls, hchain, hresolve⟩ := h.exists_chain
    have hzero := hresolve 0
    rw [Nat.zero_add] at hzero
    exact ⟨k, p, ls, hchain, hzero.symm⟩
  | call h =>
    obtain ⟨k, p, ls, hchain, hresolve⟩ := h.exists_chain
    have hnone := hresolve []
    rw [List.append_nil] at hnone
    exact ⟨k, p, ls, hchain, hnone.symm⟩

/-! ### One chain at most -/

theorem Primary.ne_new (h : Primary E ts t) (r : List Token) : ∀ us, ts ++ r ≠ .name "new" :: us := by
  intro us heq
  cases h <;> simp only [List.cons_append, List.cons.injEq, reduceCtorEq, false_and] at heq
  case bool b => cases b <;> exact absurd (Token.name.inj heq.1) (by decide)
  case name s hs =>
    rw [Token.name.inj heq.1] at hs
    exact absurd hs (by decide)

theorem news_determined {ps ps' r r' : List Token} {p p' : Term} (hp : Primary E ps p)
    (hp' : Primary E' ps' p') {k k' : Nat}
    (heq : List.replicate k (.name "new") ++ (ps ++ r) = List.replicate k' (.name "new") ++ (ps' ++ r')) :
    k = k' ∧ ps ++ r = ps' ++ r' := by
  induction k generalizing k' with
  -- The primary expression does not start with `new`, so the numbers of them agree.
  | zero =>
    cases k' with
    | zero => exact ⟨rfl, heq⟩
    | succ k' => exact absurd heq (hp.ne_new r _)
  | succ k ih =>
    cases k' with
    | zero => exact absurd heq.symm (hp'.ne_new r' _)
    | succ k' =>
      obtain ⟨rfl, hrest⟩ := ih (List.cons.inj heq).2
      exact ⟨rfl, hrest⟩

theorem Access.not_stops {k : Term} {us : List Token} (h : Access E ts k) :
    ¬Stops accessMarks (ts ++ us) := by
  intro hstop
  cases h with
  | name => exact hstop "." (by decide) rfl
  | index => exact hstop "[" (by decide) rfl

theorem Arguments.not_stops {l : List Term} {us : List Token} (h : Arguments E ts l) :
    ¬Stops accessMarks (ts ++ us) := by
  intro hstop
  obtain ⟨-⟩ := h
  exact hstop "(" (by decide) rfl

/-- Accesses and arguments start with different marks. -/
theorem Access.ne_arguments {k : Term} {l : List Term} {ts' us us' : List Token}
    (h : Access E ts k) (h' : Arguments E' ts' l) : ts ++ us ≠ ts' ++ us' := by
  intro heq
  obtain ⟨-⟩ := h'
  cases h with
  | name => exact absurd (Token.mark.inj (List.cons.inj heq).1) (by decide)
  | index => exact absurd (Token.mark.inj (List.cons.inj heq).1) (by decide)

variable (hE : Determined expressionMarks E E') (ho : Opens E) (ho' : Opens E')

include hE ho ho'

theorem links_determined : Determined accessMarks (Links E) (Links E') := by
  constructor
  intro ts ts' rest rest' l l' h h' hrest hrest' heq
  -- where the one chain ends, what may not follow it would go on the other
  induction h generalizing ts' l' with
  | nil =>
    cases h' with
    | nil => exact ⟨rfl, rfl⟩
    | access ha =>
      rw [List.nil_append, List.append_assoc] at heq
      exact absurd (heq ▸ hrest) ha.not_stops
    | args ha =>
      rw [List.nil_append, List.append_assoc] at heq
      exact absurd (heq ▸ hrest) ha.not_stops
  | access ha _ ih =>
    rw [List.append_assoc] at heq
    cases h' with
    | nil =>
      rw [List.nil_append] at heq
      exact absurd (heq ▸ hrest') ha.not_stops
    | access ha' hls' =>
      rw [List.append_assoc] at heq
      obtain ⟨rfl, rfl⟩ := (access_determined hE).eq ha ha' nofun nofun heq
      obtain ⟨rfl, rfl⟩ := ih hls' (List.append_cancel_left heq)
      exact ⟨rfl, rfl⟩
    | args ha' =>
      rw [List.append_assoc] at heq
      exact absurd heq (ha.ne_arguments ha')
  | args ha _ ih =>
    rw [List.append_assoc] at heq
    cases h' with
    | nil =>
      rw [List.nil_append] at heq
      exact absurd (heq ▸ hrest') ha.not_stops
    | access ha' =>
      rw [List.append_assoc] at heq
      exact absurd heq.symm (ha'.ne_arguments ha)
    | args ha' hls' =>
      rw [List.append_assoc] at heq
      obtain ⟨rfl, rfl⟩ := (arguments_determined hE ho ho').eq ha ha' nofun nofun heq
      obtain ⟨rfl, rfl⟩ := ih hls' (List.append_cancel_left heq)
      exact ⟨rfl, rfl⟩

theorem leftHand_determined : Determined accessMarks (LeftHand E) (LeftHand E') := by
  constructor
  intro ts ts' rest rest' t t' h h' hrest hrest' heq
  obtain ⟨k, p, ls, hchain, rfl⟩ := h.exists_chain
  obtain ⟨k', p', ls', hchain', rfl⟩ := h'.exists_chain
  obtain ⟨ps, us, rfl, hp, hls⟩ := hchain.split
  obtain ⟨ps', us', rfl, hp', hls'⟩ := hchain'.split
  simp only [List.append_assoc] at heq
  obtain ⟨rfl, hbehind⟩ := news_determined hp hp' heq
  obtain ⟨rfl, rfl⟩ := (primary_determined hE).eq hp hp' nofun nofun hbehind
  obtain ⟨rfl, rfl⟩ := (links_determined hE ho ho').eq hls hls' hrest hrest'
    (List.append_cancel_left hbehind)
  exact ⟨rfl, rfl⟩

end Chains

/-! ### Operators -/

section Operators

variable {E E' : Phrase Term}

/-- What stands behind the first operand of a chain, and what it makes of that operand. -/
inductive Tail (ops : List BinaryOp) (X : Phrase Term) : Term → Phrase Term
  | nil (l : Term) : Tail ops X l [] l
  | cons {us vs : List Token} {l r t : Term} {op : BinaryOp} : op ∈ ops → X us r →
      Tail ops X (.binary op l r) vs t → Tail ops X l (.mark op.text :: (us ++ vs)) t

theorem Tail.snoc {ops : List BinaryOp} {X : Phrase Term} {us vs : List Token} {s l r : Term}
    {op : BinaryOp} (h : Tail ops X s vs l) (hop : op ∈ ops) (hr : X us r) :
    Tail ops X s (vs ++ .mark op.text :: us) (.binary op l r) := by
  induction h with
  | nil l =>
    have hlast := Tail.cons hop hr (.nil (.binary op l r))
    rwa [List.append_nil] at hlast
  | cons hop' hr' _ ih =>
    rw [List.cons_append, List.append_assoc]
    exact .cons hop' hr' ih

/-- A chain starts with an operand. -/
theorem LeftChain.exists_tail {ops : List BinaryOp} {X : Phrase Term} {ts : List Token} {t : Term}
    (h : LeftChain ops X ts t) : ∃ us vs s, ts = us ++ vs ∧ X us s ∧ Tail ops X s vs t := by
  induction h with
  | operand h => exact ⟨_, [], _, by simp, h, .nil _⟩
  | link _ hop hr ih =>
    obtain ⟨us, vs, s, rfl, hs, htail⟩ := ih
    exact ⟨us, _, s, List.append_assoc _ _ _, hs, htail.snoc hop hr⟩

variable {ops : List BinaryOp} {X X' : Phrase Term} {marks : List String}

theorem op_eq_of_text {op op' : BinaryOp} (h : op.text = op'.text) : op = op' := by
  cases op <;> cases op' <;> first | rfl | exact absurd h (by decide)

/-- Behind an operand there is another operator, or what stands behind the chain. -/
theorem Tail.stops (hops : ∀ op ∈ ops, op.text ∉ marks) {l t : Term} {vs rest : List Token}
    (h : Tail ops X l vs t) (hrest : Stops (ops.map BinaryOp.text ++ marks) rest) :
    Stops marks (vs ++ rest) := by
  cases h with
  | nil => exact hrest.mono (List.subset_append_right _ _)
  | cons hop => exact stops_mark (hops _ hop) _

section Tails

variable (hX : Determined marks X X') (hops : ∀ op ∈ ops, op.text ∉ marks)

include hX hops

/-- Where a chain ends there is none of its operators and nothing that goes on its operands. -/
theorem tail_determined (s : Term) :
    Determined (ops.map BinaryOp.text ++ marks) (Tail ops X s) (Tail ops X' s) := by
  have hnot {op : BinaryOp} {r : List Token} (hop : op ∈ ops) :
      ¬Stops (ops.map BinaryOp.text ++ marks) (.mark op.text :: r) := fun hstop =>
    hstop op.text (List.mem_append_left _ (List.mem_map_of_mem hop)) rfl
  -- The induction is on one reading; where the other one stops sooner or later, an operator of the
  -- chain would stand where the chain stops.
  constructor
  intro ts ts' rest rest' t t' h h' hrest hrest' heq
  induction h generalizing ts' with
  | nil =>
    cases h' with
    | nil => exact ⟨rfl, rfl⟩
    | cons hop =>
      rw [List.nil_append, List.cons_append] at heq
      exact absurd (heq ▸ hrest) (hnot hop)
  | cons hop hr htail ih =>
    cases h' with
    | nil =>
      rw [List.nil_append, List.cons_append] at heq
      exact absurd (heq ▸ hrest') (hnot hop)
    | cons hop' hr' htail' =>
      simp only [List.cons_append, List.append_assoc] at heq
      obtain ⟨hmark, hoperand⟩ := List.cons.inj heq
      obtain rfl := op_eq_of_text (Token.mark.inj hmark)
      obtain ⟨rfl, rfl⟩ := hX.eq hr hr' (htail.stops hops hrest)
        (htail'.stops hops hrest') hoperand
      obtain ⟨rfl, rfl⟩ := ih htail' (List.append_cancel_left hoperand)
      exact ⟨rfl, rfl⟩

theorem leftChain_determined :
    Determined (ops.map BinaryOp.text ++ marks) (LeftChain ops X) (LeftChain ops X') := by
  constructor
  intro ts ts' rest rest' t t' h h' hrest hrest' heq
  obtain ⟨us, vs, s, rfl, hs, htail⟩ := h.exists_tail
  obtain ⟨us', vs', s', rfl, hs', htail'⟩ := h'.exists_tail
  simp only [List.append_assoc] at heq
  obtain ⟨rfl, rfl⟩ := hX.eq hs hs' (htail.stops hops hrest)
        (htail'.stops hops hrest') heq
  obtain ⟨rfl, rfl⟩ := (tail_determined hX hops s).eq htail htail' hrest hrest'
    (List.append_cancel_left heq)
  exact ⟨rfl, rfl⟩

end Tails

variable (hE : Determined expressionMarks E E') (ho : Opens E) (ho' : Opens E')

include hE ho ho'

theorem unary_determined : Determined accessMarks (Unary E) (Unary E') := by
  -- without parentheses a minus starts no operand of a minus
  have hminus {F : Phrase Term} {ts us rest : List Token} {t : Term} (h : LeftHand F ts t) :
      ts ++ rest ≠ .mark "-" :: us := by
    intro heq
    obtain ⟨k, p, ls, hchain, -⟩ := h.exists_chain
    obtain ⟨ps, qs, rfl, hp, -⟩ := hchain.split
    cases k with
    | zero =>
      cases hp <;> simp only [List.replicate_zero, List.nil_append, List.cons_append,
        List.cons.injEq, reduceCtorEq, false_and, Token.mark.injEq] at heq
      case parens => exact absurd heq.1 (by decide)
      case object => exact absurd heq.1 (by decide)
    | succ k => exact Token.noConfusion (List.cons.inj heq).1
  constructor
  intro ts ts' rest rest' t t' h h' hrest hrest' heq
  induction h generalizing ts' t' with
  | leftHand h =>
    cases h' with
    | leftHand h' => exact (leftHand_determined hE ho ho').eq h h' hrest hrest' heq
    | negate => exact absurd heq (hminus h)
  | negate _ ih =>
    cases h' with
    | leftHand h' => exact absurd heq.symm (hminus h')
    | negate h' =>
      obtain ⟨rfl, rfl⟩ := ih h' (List.cons.inj heq).2
      exact ⟨rfl, rfl⟩

theorem equality_determined : Determined equalityMarks (Equality E) (Equality E') := by
  have hadditive : Determined additiveMarks (Additive E) (Additive E') :=
    leftChain_determined (unary_determined hE ho ho') (by decide)
  exact leftChain_determined hadditive (by decide)

theorem conditional_determined : Determined expressionMarks (Conditional E) (Conditional E') := by
  have hequality := equality_determined hE ho ho'
  have hsub : equalityMarks ⊆ expressionMarks := List.subset_cons_self _ _
  have hquestion : "?" ∉ equalityMarks := by decide
  have hcolon : ":" ∉ expressionMarks := by decide
  constructor
  intro ts ts' rest rest' t t' h h' hrest hrest' heq
  induction h generalizing ts' t' rest rest' with
  | equality h =>
    cases h' with
    | equality h' => exact hequality.eq h h' (hrest.mono hsub) (hrest'.mono hsub) heq
    | choice hc' =>
      -- the question mark of the one follows the other
      rw [List.append_assoc, List.cons_append] at heq
      obtain ⟨rfl, -⟩ := hequality.eq h hc' (hrest.mono hsub) (stops_mark hquestion _) heq
      rw [List.append_cancel_left heq] at hrest
      exact absurd rfl (hrest "?" List.mem_cons_self)
  | choice hc _ _ iha ihb =>
    cases h' with
    | equality h' =>
      rw [List.append_assoc, List.cons_append] at heq
      obtain ⟨rfl, -⟩ := hequality.eq hc h' (stops_mark hquestion _) (hrest'.mono hsub) heq
      rw [← List.append_cancel_left heq] at hrest'
      have hstop := hrest' "?" List.mem_cons_self
      exact absurd rfl hstop
    | choice hc' ha' hb' =>
      rw [List.append_assoc, List.append_assoc, List.cons_append, List.cons_append] at heq
      obtain ⟨rfl, rfl⟩ := hequality.eq hc hc' (stops_mark hquestion _) (stops_mark hquestion _) heq
      have hyes := (List.cons.inj (List.append_cancel_left heq)).2
      simp only [List.append_assoc, List.cons_append] at hyes
      obtain ⟨rfl, rfl⟩ := iha ha' (stops_mark hcolon _) (stops_mark hcolon _) hyes
      have hno := (List.cons.inj (List.append_cancel_left hyes)).2
      obtain ⟨rfl, rfl⟩ := ihb hb' hrest hrest' hno
      exact ⟨rfl, rfl⟩

end Operators

/-! ### The grammar is unambiguous -/

theorem Expression.of {ts : List Token} {t : Term} (h : Conditional Expression ts t) :
    Expression ts t :=
  .mk (fun _ _ hu => hu) h

/-- A sequence of tokens starts with one expression at most, if what follows does not go on. -/
theorem expression_determined : Determined expressionMarks Expression Expression := by
  constructor
  intro ts ts' rest rest' t t' h h' hrest hrest' heq
  -- by induction on what stands in brackets, with the two expressions at first of two kinds
  induction h generalizing ts' t' rest rest' with
  | @mk E _ _ inner h ih =>
    obtain ⟨inner', h'⟩ := h'
    rename_i E'
    have hE : Determined expressionMarks E E' := ⟨fun hu hu' hr hr' he =>
      ih _ _ hu (inner' _ _ hu') hr hr' he⟩
    have ho : Opens E := fun _ _ hu => opens_expression _ _ (inner _ _ hu)
    have ho' : Opens E' := fun _ _ hu => opens_expression _ _ (inner' _ _ hu)
    exact (conditional_determined hE ho ho').eq h h' hrest hrest' heq

/-- A text is understood in one way at most. -/
theorem Parses.eq {s : String} {t u : Term} (h : Parses s t) (h' : Parses s u) : t = u := by
  obtain ⟨ts, hlex, hts⟩ := h
  obtain ⟨us, hlex', hus⟩ := h'
  obtain rfl := hlex.eq hlex'
  exact (expression_determined.eq hts hus (stops_nil _) (stops_nil _) rfl).2

end Phrasebook.Script
