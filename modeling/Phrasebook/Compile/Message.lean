import Phrasebook.Compile.ArgType
import Phrasebook.Compile.Builders
import Phrasebook.Compile.Formats
import Phrasebook.Diagnostic.Basic
import Phrasebook.Scope.Table

/-!
Compiling one message to the body of a function. Formatters and plural rules are shared by all
messages of a module; values derived from arguments are shared inside one message.
-/
namespace Phrasebook.Compile

/-- What compiled messages return: plain strings, or markup trees. -/
inductive Target where
  | tree
  | string
  deriving DecidableEq

def Target.name : Target → String
  | .tree => "tree"
  | .string => "string"

def Target.ofName? : String → Option Target
  | "tree" | "react" | "" => some .tree
  | "string" => some .string
  | _ => none

def Target.unknownName (s : String) : String :=
  s!"unknown target {Text.quote s} (want tree or string)"

/-- The type of an argument that stands for itself. -/
def Target.interpolation : Target → ArgType
  | .tree => .markupNode
  | .string => .text

/-- The type of an argument that a tag names. -/
def Target.tagType : Target → ArgType
  | .tree => .markupElement
  | .string => .tagFunction

/-- What a shared constant of the module holds. Options are told apart by their canonical text. -/
inductive SharedKey where
  | formatter (kind : FormatKind) (canonical : String)
  | pluralRules (kind : PluralKind)
  deriving DecidableEq

/-- What a constant of one message holds, by the names of the bindings that it is derived from. -/
inductive LocalKey where
  | formatted (formatter value : String)
  | offset (value : String) (offset : Float)
  | category (rules value : String)

/-- Offsets are compared as numbers. -/
def LocalKey.same : LocalKey → LocalKey → Bool
  | .formatted a b, .formatted c d => a == c && b == d
  | .offset a x, .offset b y => a == b && x == y
  | .category a b, .category c d => a == c && b == d
  | _, _ => false

/-- The expression that a constant is derived by. -/
def LocalKey.init : LocalKey → Expr
  | .formatted formatter value => .call (.member (.ident formatter) "format") [.ident value]
  | .offset value x => .binary .sub (.ident value) (.number x)
  | .category rules value => .call (.member (.ident rules) "select") [.ident value]

/-- A parameter found so far, with the place of its first use. -/
structure FoundArgument where
  name : String
  binding : String
  type : ArgType
  span : Span

/-- What does not change while a message is compiled. -/
structure Context where
  target : Target
  locale : String
  formats : Formats
  root : ScopeId
  scope : ScopeId

/-- What compiling a message changes: the names of the module and the constants it shares, with
their keys in the order of first use, and the arguments and constants of the message. -/
structure State where
  table : ScopeTable
  constants : List (String × Expr)
  shared : List (SharedKey × String)
  sharedOrder : List SharedKey
  arguments : List FoundArgument
  body : List (String × Expr)
  derived : List (LocalKey × String)

/-- Why a message cannot be compiled. Only trees made by hand hold what the last two stand for. -/
inductive Failure where
  | diagnostic (d : Diagnostic)
  | unknownNode (kind : String)
  | hole

/-- A step of compiling. What it did before it failed stays done. -/
abbrev Step := ExceptT Failure (StateM State)

def stop {α : Type} (d : Diagnostic) : Except Failure α :=
  .error (.diagnostic d)

/-- The global object that formatters come from. -/
def intlName : String := "Intl"
/-- The namespace that markup is built with. -/
def markupName : String := "React"
/-- The module that the namespace is imported from. -/
def markupSource : String := "react"

/-! ### Bindings -/

/-- Binds `name` as it is if it can be, else a fresh name made of it. -/
def bindName (t : ScopeTable) (scope : ScopeId) (name : Option String) (base : List Char)
    (kind : SymbolKind) : Except ScopeTable.BindError (ScopeTable × String) :=
  match name.filter fun n => Name.isBindable n && !t.hasBinding scope n with
  | some n => (t.bind scope n kind).map (·, n)
  | none => t.bindFresh scope base kind

/-- A value held in a binding, and the text that names derived from it are made of. -/
structure ValueRef where
  binding : String
  base : String

def ValueRef.ident (v : ValueRef) : Expr := .ident v.binding

/-- The diagnostic of an argument that is used in two ways at odds. -/
def typeConflict (name : String) (type : ArgType) (span : Span) (first : ArgType)
    (firstSpan : Span) : Diagnostic :=
  (Diagnostic.error .argumentTypeConflict span
    s!"argument {Text.quote name} is used as {type.name} here but as {first.name} before"
    ).withNote firstSpan s!"first used as {first.name} here"

/-- The binding of an argument. The first use binds it; later uses join their types. -/
def useArgument (ctx : Context) (name : String) (type : ArgType) (span : Span) :
    Step ValueRef := do
  let s ← get
  match s.arguments.find? (·.name == name) with
  | some a =>
    match a.type.join? type with
    | none => stop (typeConflict name type span a.type a.span)
    | some joined =>
      let arguments := s.arguments.map fun (b : FoundArgument) =>
        if b.name == name then { b with type := joined } else b
      set { s with arguments }
      return ⟨a.binding, name⟩
  | none =>
    match bindName s.table ctx.scope (some name) name.toList .param with
    | .error e => stop (.error .duplicateBinding span e.message)
    | .ok (table, binding) =>
      let found : FoundArgument := ⟨name, binding, type, span⟩
      set { s with table, arguments := s.arguments ++ [found] }
      return ⟨binding, name⟩

/-- Binds a fresh name for a constant. A table never refuses a fresh name in a scope it has. -/
def bindConstant (scope : ScopeId) (base : String) : Step String := do
  let s ← get
  match s.table.bindFresh scope base.toList .constant with
  | .error e => stop (.error .duplicateBinding .zero e.message)
  | .ok (table, name) =>
    set { s with table }
    return name

/-- The shared constant of a key, added to the module on first use. -/
def shareConstant (ctx : Context) (key : SharedKey) (base : String) (init : Expr) :
    Step String := do
  match (← get).shared.find? (·.1 == key) with
  | some (_, name) => return name
  | none =>
    let name ← bindConstant ctx.root base
    modify fun s => { s with
      constants := s.constants ++ [(name, init)]
      shared := s.shared ++ [(key, name)]
      sharedOrder := s.sharedOrder ++ [key] }
    return name

/-- The constant of a key in this message, added on first use. -/
def deriveConstant (ctx : Context) (key : LocalKey) (base : String) : Step String := do
  match (← get).derived.find? (·.1.same key) with
  | some (_, name) => return name
  | none =>
    let name ← bindConstant ctx.scope base
    modify fun s => { s with
      body := s.body ++ [(name, key.init)]
      derived := s.derived ++ [(key, name)] }
    return name

/-! ### Formatters -/

def valueExpr : OptionValue → Expr
  | .text s => .string s
  | .number x => .number x
  | .flag b => .bool b
  | .foreign shown _ => .string shown

def optionsExpr (o : FormatOptions) : Expr :=
  .object (o.map fun (k, v) => (k, valueExpr v))

def constructorName : FormatKind → String
  | .number => "NumberFormat"
  | _ => "DateTimeFormat"

def formatterInit (locale : String) (kind : FormatKind) (o : FormatOptions) : Expr :=
  .new (.member (.ident intlName) (constructorName kind))
    (.string locale :: if o.isEmpty then [] else [optionsExpr o])

def rulesInit (locale : String) (kind : PluralKind) : Expr :=
  .new (.member (.ident intlName) "PluralRules")
    (.string locale :: if kind = .ordinal then [.object [("type", .string "ordinal")]] else [])

/-- The formatter of a kind and options. A preset gives the constant its name. -/
def useFormatter (ctx : Context) (kind : FormatKind) (preset : String) (o : FormatOptions) :
    Step String :=
  shareConstant ctx (.formatter kind o.canonical)
    (if preset = "" then kind.name else kind.name ++ "_" ++ preset)
    (formatterInit ctx.locale kind o)

/-- The plural rules of a kind. -/
def usePluralRules (ctx : Context) (kind : PluralKind) : Step String :=
  shareConstant ctx (.pluralRules kind)
    (if kind = .ordinal then "ordinalRules" else "pluralRules") (rulesInit ctx.locale kind)

/-- The name of a formatter without the sign that generated names start with. -/
def withoutMark (name : String) : String :=
  match name.toList with
  | '_' :: r => String.ofList r
  | _ => name

/-- A value in the format of a formatter. -/
def useFormatted (ctx : Context) (v : ValueRef) (kind : FormatKind) (preset : String)
    (o : FormatOptions) : Step Expr := do
  let formatter ← useFormatter ctx kind preset o
  let name ← deriveConstant ctx (.formatted formatter v.binding)
    (v.base ++ "_" ++ withoutMark formatter)
  return .ident name

/-- A value less an offset; an offset of zero changes nothing. -/
def useOffset (ctx : Context) (v : ValueRef) (offset : Float) : Step ValueRef := do
  if offset == 0 then return v
  let name ← deriveConstant ctx (.offset v.binding offset) (v.base ++ "_offset")
  return ⟨name, v.base⟩

/-- The plural category of a value. -/
def useCategory (ctx : Context) (v : ValueRef) (kind : PluralKind) : Step Expr := do
  let rules ← usePluralRules ctx kind
  let name ← deriveConstant ctx (.category rules v.binding) (v.base ++ "_category")
  return .ident name

/-- The preset name and the options that a style stands for. Times without a style are medium. -/
def resolveStyle (formats : Formats) (span : Span) (kind : FormatKind) (style : Style) :
    Except Failure (String × FormatOptions) :=
  match style with
  | .skeleton _ o _ => return ("", o)
  | .named name styleSpan =>
    match formats.lookup? kind name with
    | none =>
      stop (.error .unknownFormatStyle (if styleSpan.isEmpty then span else styleSpan)
        s!"unknown {kind.name} style {Text.quote name}")
    | some o =>
      if kind = .number && name = "decimal" && o.isEmpty then return ("", [])
      else return (name, o)
  | .default =>
    match if kind = .time then formats.lookup? kind "medium" else none with
    | some o => return ("medium", o)
    | none => return ("", [])

/-! ### Pieces -/

/-- A compiled piece of a message: literal text, or an expression that may be markup or is known to
be a string. -/
inductive Piece (α : Type) where
  | literal (text : String)
  | value (expr : α) (isMarkup isString : Bool)

def Piece.isMarkup {α : Type} : Piece α → Bool
  | .value _ m _ => m
  | .literal _ => false

def Piece.expr : Piece Expr → Expr
  | .literal text => .string text
  | .value e _ _ => e

/-- Drops empty literals and joins neighbours. -/
def mergeLiterals {α : Type} : List (Piece α) → List (Piece α)
  | [] => []
  | .literal t :: r =>
    if t = "" then mergeLiterals r
    else
      match mergeLiterals r with
      | .literal u :: r' => .literal (t ++ u) :: r'
      | r' => .literal t :: r'
  | p :: r => p :: mergeLiterals r

/-- Operands whose sum is a string: an empty string leads unless the first is one already. -/
def concatOperands (pieces : List (Piece Expr)) : List Expr :=
  match pieces with
  | .value _ _ false :: _ => .string "" :: pieces.map Piece.expr
  | _ => pieces.map Piece.expr

def fragmentChild : Piece Expr → Child Expr
  | .literal text => .text text
  | .value e _ _ => .container e

/-- Joins pieces to one expression, and tells whether it is markup. -/
def joinPieces (pieces : List (Piece Expr)) : Expr × Bool :=
  match mergeLiterals pieces with
  | [] => (.string "", false)
  | [.literal text] => (.string text, false)
  | [.value e true _] => (e, true)
  | [.value e false true] => (e, false)
  | merged =>
    if merged.any Piece.isMarkup then (.fragment (merged.map fragmentChild), true)
    else ((Expr.binaryChain? .add (concatOperands merged)).getD .absent, false)

/-! ### Nodes -/

/-- A compiled case: whether its key is exact, its test and value, and whether that is markup. -/
structure Case (α : Type) where
  isExact : Bool
  test : α
  value : α
  isMarkup : Bool

/-- The diagnostic of a choice without a default case, with the fix that adds one. -/
def missingDefault (span : Span) (kind : String) : Diagnostic :=
  let d := Diagnostic.error .missingDefaultCase span
    s!"{kind} is missing the {Text.quote defaultKey} case"
  if span.isEmpty then d
  else
    let place := span.stop - 1
    d.withFix "add an \"other\" case" [⟨⟨span.file, place, place⟩, " other \x7b\x7d"⟩]

def requireDefault {α : Type} (span : Span) (kind : String) (cases : List (Branch α)) :
    Except Failure Unit :=
  if cases.any (·.key == defaultKey) then return () else stop (missingDefault span kind)

def poundOutside (span : Span) : Diagnostic :=
  .error .poundOutsidePlural span "'#' can only be used inside a plural or selectordinal case"

/-- A tag is an argument, and its name a binding. -/
def requireIdentifier (name : String) (place : Span) : Except Failure Unit :=
  if Name.isIdentifier name then return ()
  else stop (.error .invalidIdentifier place s!"tag name {Text.quote name} is not a valid identifier")

/-- Whether a plural has a case that is chosen by its category. -/
def hasCategory {α : Type} (cases : List (Branch α)) : Bool :=
  cases.any fun b => b.key != defaultKey && !isExactKey b.key

/-- How a choice reads its selectors: the number that a selector stands for, if it stands for
one. -/
abbrev Selector := String → Span → Except Failure (Option Float)

/-- In a select every selector is a text. -/
def textSelector : Selector := fun _ _ => return none

/-- In a plural an exact selector is a number, and any other is a category. -/
def pluralSelector : Selector := fun key keySpan =>
  if isExactKey key then
    match exactValue? key with
    | some x => return some x
    | none => stop (.error .invalidPluralKey keySpan s!"invalid exact selector {Text.quote key}")
  else return none

def selectTest (v : ValueRef) (key : String) (_ : Option Float) : Expr :=
  .binary .strictEq v.ident (.string key)

/-- The test of a plural case. Exact selectors look at the value before the offset is applied. -/
def pluralTest (v : ValueRef) (category : Expr) (key : String) (exact : Option Float) : Expr :=
  match exact with
  | some x => .binary .strictEq v.ident (.number x)
  | none => .binary .strictEq category (.string key)

/-- The value of a choice: exact cases first, then the others, each in source order. -/
def choicePiece (cases : List (Case Expr)) (fallback : Expr × Bool) : Piece Expr :=
  let ordered := cases.filter (·.isExact) ++ cases.filter (!·.isExact)
  let markup := cases.any (·.isMarkup) || fallback.2
  .value (Expr.ternaryChain (ordered.map fun c => (c.test, c.value)) fallback.1) markup (!markup)

/-- A tag around what it encloses: a copy of an element with other children, or a function's
result. -/
def tagPiece (target : Target) (v : ValueRef) (selfClosing : Bool) (inside : Expr) : Piece Expr :=
  match target with
  | .tree =>
    .value (Expr.markupElement (.ident markupName) v.ident
      (if selfClosing then .absent else inside)) true false
  | .string => .value (.call v.ident [inside]) false true

mutual

/-- Compiles one element; `plural` is the value that `#` stands for. -/
def node (ctx : Context) (plural : Option ValueRef) : Node → Step (Piece Expr)
  | .literal _ text => return .literal text
  | .argument _ name nameSpan => do
    let v ← useArgument ctx name ctx.target.interpolation nameSpan
    return .value v.ident (ctx.target = .tree) false
  | .select span name nameSpan cases => do
    let v ← useArgument ctx name .string nameSpan
    requireDefault span "select" cases
    let compiled ← branches ctx plural textSelector (selectTest v) [] cases
    let fallback ← defaultBranch ctx plural cases
    return choicePiece compiled fallback
  | .plural span name nameSpan offset kind cases => do
    let v ← useArgument ctx name .number nameSpan
    requireDefault span kind.keyword cases
    let shifted ← useOffset ctx v offset
    let category ← (if hasCategory cases then useCategory ctx shifted kind else pure .absent)
    let compiled ← branches ctx (some shifted) pluralSelector (pluralTest v category) [] cases
    let fallback ← defaultBranch ctx (some shifted) cases
    return choicePiece compiled fallback
  | .format span kind name nameSpan style => do
    let v ← useArgument ctx name (if kind = .number then .number else .date) nameSpan
    let (preset, o) ← resolveStyle ctx.formats span kind style
    return .value (← useFormatted ctx v kind preset o) false true
  | .pound span =>
    match plural with
    | none => stop (poundOutside span)
    | some v => do return .value (← useFormatted ctx v .number "" []) false true
  | .tag span name nameSpan selfClosing children => do
    let place := if nameSpan.isEmpty then span else nameSpan
    requireIdentifier name place
    let v ← useArgument ctx name ctx.target.tagType place
    let inside ← (if selfClosing then pure [] else nodes ctx plural children)
    return tagPiece ctx.target v selfClosing (joinPieces inside).1
  | .unknown _ => throw (.unknownNode "Unknown")
  | .hole => throw .hole

def nodes (ctx : Context) (plural : Option ValueRef) : List Node → Step (List (Piece Expr))
  | [] => return []
  | n :: r => do
    let p ← node ctx plural n
    let ps ← nodes ctx plural r
    return p :: ps

/-- Compiles the cases other than the default; of two with one key the first counts. -/
def branches (ctx : Context) (plural : Option ValueRef) (selector : Selector)
    (test : String → Option Float → Expr) (seen : List String) :
    List (Branch Node) → Step (List (Case Expr))
  | [] => return []
  | b :: r => do
    if b.key = defaultKey || seen.contains b.key then branches ctx plural selector test seen r
    else
      let c ← branch ctx plural selector test b
      let cs ← branches ctx plural selector test (b.key :: seen) r
      return c :: cs

def branch (ctx : Context) (plural : Option ValueRef) (selector : Selector)
    (test : String → Option Float → Expr) : Branch Node → Step (Case Expr)
  | ⟨key, keySpan, _, inside⟩ => do
    let exact ← selector key keySpan
    let joined := joinPieces (← nodes ctx plural inside)
    return ⟨exact.isSome, test key exact, joined.1, joined.2⟩

/-- Compiles the first default case. -/
def defaultBranch (ctx : Context) (plural : Option ValueRef) :
    List (Branch Node) → Step (Expr × Bool)
  | [] => return (.string "", false)
  | b :: r =>
    if b.key = defaultKey then defaultBody ctx plural b else defaultBranch ctx plural r

def defaultBody (ctx : Context) (plural : Option ValueRef) : Branch Node → Step (Expr × Bool)
  | ⟨_, _, _, inside⟩ => do return joinPieces (← nodes ctx plural inside)

end

end Phrasebook.Compile
