import Phrasebook.Evaluate.Formatters
import Phrasebook.Program.Expr
import Phrasebook.Text.Quoted

/-!
Running generated programs. Loading a program evaluates its imports and constants in order; a call
then evaluates one exported function. Every expression is evaluated at most once, so running ends
by recursion on the program. What formatters know of locales is given from outside.
-/
namespace Phrasebook

/-- Why a program cannot be loaded or a call gives no value. -/
inductive RunError where
  | notDefined (name : String)
  | readOfUndefined (property : String)
  | notConstructor (type : String)
  | notFunction (type : String)
  | unsupportedOperator (op : BinaryOp)
  | unsupportedExpression
  | notComparable
  | locale (message : String)
  | localeType (type : String)
  | cloneNothing
  | cloneType (type : String)
  | createNothing
  | createType (type : String)
  | unsupportedImport (source : String)
  | unexpectedStatement (type : String) (topLevel : Bool)
  | unknownExport (name : Bytes)
  | missingFunction (name : Bytes) (binding : String)
  | inConst (name : String) (e : RunError)
  | inCall (name : Bytes) (e : RunError)
  deriving DecidableEq

def RunError.message : RunError → String
  | .notDefined name => name ++ " is not defined"
  | .readOfUndefined property => "cannot read " ++ Text.quote property ++ " of undefined"
  | .notConstructor type => type ++ " is not a constructor"
  | .notFunction type => type ++ " is not a function"
  | .unsupportedOperator op => "unsupported operator " ++ op.text
  | .unsupportedExpression => "unsupported expression Unknown"
  | .notComparable => "values cannot be compared"
  | .locale message => message
  | .localeType type => "locale must be a string, got " ++ type
  | .cloneNothing => "cloneElement needs an element"
  | .cloneType type => "cloneElement: " ++ type ++ " is not an element"
  | .createNothing => "createElement needs a type"
  | .createType type => "createElement: unsupported type " ++ type
  | .unsupportedImport source => "import of " ++ Text.quote source ++ " is not supported"
  | .unexpectedStatement type topLevel =>
    "unexpected " ++ (if topLevel then "top-level " else "") ++ "statement " ++ type
  | .unknownExport name => "unknown export: " ++ Text.quoteBytes name
  | .missingFunction name binding =>
    "export " ++ Text.quoteBytes name ++ " refers to missing function " ++ Text.quote binding
  | .inConst name e => "const " ++ name ++ ": " ++ e.message
  | .inCall name e => name.toText ++ ": " ++ e.message

/-- Whether values were compared that have no order and no equality. -/
def RunError.isIncomparable : RunError → Bool
  | .notComparable => true
  | .inConst _ e | .inCall _ e => e.isIncomparable
  | _ => false

namespace Evaluate

/-- Variables, the newest first. -/
abbrev Scope := List (String × Value)

def Scope.find? (scope : Scope) (name : String) : Option Value :=
  (List.find? (·.1 == name) scope).map (·.2)

/-- What every program finds around it. -/
def globals : Scope :=
  [("Intl", .nameSpace .formatters), ("undefined", .undefined), ("null", .undefined),
    ("NaN", .number Value.notANumber), ("Infinity", .number (1.0 / 0.0))]

/-- Evaluation counts the objects it has made, and may fail. -/
abbrev Eval := StateT Nat (Except RunError)

def Eval.fail {α : Type} (e : RunError) : Eval α :=
  throw e

/-- The mark of a new object. -/
def Eval.newRef : Eval Ref := do
  let n ← get
  set (n + 1)
  return .made n

variable [LocaleData]

def localeArg (args : List Value) : Except RunError Locale :=
  match args with
  | [] | .undefined :: _ => .ok .english
  | .text s :: _ => (LocaleData.parse s).mapError .locale
  | v :: _ => .error (.localeType v.typeName)

def optionEntries : List Value → List (String × Value)
  | _ :: v :: _ => v.entries
  | _ => []

def callNew (callee : Value) (args : List Value) : Eval Value := do
  match callee with
  | .formatterClass c =>
    let locale ← localeArg args
    return .formatter (← Eval.newRef) (construct c locale (optionEntries args))
  | v => Eval.fail (.notConstructor v.typeName)

/-- Copies an element. Arguments from the third on replace its children. -/
def cloneElement : List Value → Eval Value
  | [] => Eval.fail .cloneNothing
  | .element _ tag children :: rest => do
    let given := rest.drop 1
    return .element (← Eval.newRef) tag (if given.isEmpty then children else given)
  | v :: _ => Eval.fail (.cloneType v.typeName)

/-- Makes an element of a tag name, or a fragment. Its children are the arguments from the third
on. -/
def createElement : List Value → Eval Value
  | [] => Eval.fail .createNothing
  | .fragmentType :: rest => return .element (← Eval.newRef) "" (rest.drop 1)
  | .text tag :: rest => return .element (← Eval.newRef) tag (rest.drop 1)
  | v :: _ => Eval.fail (.createType v.typeName)

def callFunction (callee : Value) (args : List Value) : Eval Value := do
  match callee with
  | .function (.given f) => return .text (f ((args.head?.map Value.toText).getD ""))
  | .function .cloneElement => cloneElement args
  | .function .createElement => createElement args
  | .function (.method f) => return .text (f.apply args)
  | v => Eval.fail (.notFunction v.typeName)

/-- A property of a value. Unknown properties are undefined, as are those of plain objects. -/
def member (v : Value) (property : String) : Except RunError Value :=
  match v with
  | .undefined => .error (.readOfUndefined property)
  | .nameSpace .formatters =>
    .ok (match property with
      | "NumberFormat" => .formatterClass .number
      | "DateTimeFormat" => .formatterClass .date
      | "PluralRules" => .formatterClass .plural
      | _ => .undefined)
  | .nameSpace .markup =>
    .ok (match property with
      | "Fragment" => .fragmentType
      | "cloneElement" => .function .cloneElement
      | "createElement" => .function .createElement
      | _ => .undefined)
  | .formatter _ f =>
    .ok (if property = f.methodName then .function (.method f) else .undefined)
  | _ => .ok .undefined

def binary (op : BinaryOp) (a b : Value) : Except RunError Value :=
  match op with
  | .add =>
    match a, b with
    | .text s, v => .ok (.text (s ++ v.toText))
    | v, .text s => .ok (.text (v.toText ++ s))
    | v, w => .ok (.number (v.toNumber + w.toNumber))
  | .sub => .ok (.number (a.toNumber - b.toNumber))
  | .strictEq =>
    match a.strictEq? b with
    | some r => .ok (.flag r)
    | none => .error .notComparable
  | .unknown => .error (.unsupportedOperator op)

/-- Sets a property: the first mention of a key gives its place, the last its value. -/
def setEntry (key : String) (v : Value) : List (String × Value) → List (String × Value)
  | [] => [(key, v)]
  | (k, w) :: r => if k = key then (k, v) :: r else (k, w) :: setEntry key v r

mutual

/-- The value of an expression. Arguments are evaluated before it is known whether the callee can
be called. -/
def expr (scope : Scope) : Expr → Eval Value
  | .absent => return .undefined
  | .string s => return .text s
  | .number x => return .number x
  | .bool b => return .flag b
  | .ident name =>
    match scope.find? name with
    | some v => return v
    | none => Eval.fail (.notDefined name)
  | .member object property => do
    let v ← expr scope object
    member v property
  | .call callee args => do
    let f ← expr scope callee
    let vs ← exprs scope args
    callFunction f vs
  | .new callee args => do
    let f ← expr scope callee
    let vs ← exprs scope args
    callNew f vs
  | .binary op left right => do
    let a ← expr scope left
    let b ← expr scope right
    binary op a b
  | .conditional test yes no => do
    let t ← expr scope test
    if t.isTruthy then expr scope yes else expr scope no
  | .object props => do
    let es ← entries scope [] props
    return .object (← Eval.newRef) es
  | .fragment cs => do
    let vs ← children scope cs
    return .element (← Eval.newRef) "" vs
  | .unknown => Eval.fail .unsupportedExpression

def exprs (scope : Scope) : List Expr → Eval (List Value)
  | [] => return []
  | e :: r => do
    let v ← expr scope e
    return v :: (← exprs scope r)

def entries (scope : Scope) (done : List (String × Value)) :
    List (String × Expr) → Eval (List (String × Value))
  | [] => return done
  | (k, e) :: r => do
    let v ← expr scope e
    entries scope (setEntry k v done) r

def children (scope : Scope) : List (Child Expr) → Eval (List Value)
  | [] => return []
  | .text s :: r => return .text s :: (← children scope r)
  | .container e :: r => do
    let v ← expr scope e
    return v :: (← children scope r)

end

end Evaluate

/-- The kind of a statement, as errors name it. -/
def Stmt.typeName : Stmt → String
  | .importAll .. => "*jsast.ImportNamespace"
  | .const .. => "*jsast.VarDecl"
  | .return _ => "*jsast.Return"
  | .function .. => "*jsast.FunctionDecl"
  | .exports _ => "*jsast.ExportList"

/-- A function of a loaded program. -/
structure LoadedFunction where
  name : String
  params : List Param
  body : List Stmt

/-- A program ready to be called: its constants, functions and exports, the newest first, and how
many objects it has made. -/
structure Loaded where
  scope : Evaluate.Scope
  functions : List LoadedFunction
  exports : List Export
  made : Nat

namespace Loaded

def empty : Loaded := ⟨Evaluate.globals, [], [], 0⟩

def addStmt [LocaleData] (p : Loaded) : Stmt → Except RunError Loaded
  | .importAll binding source =>
    if source = "react" then .ok { p with scope := (binding, .nameSpace .markup) :: p.scope }
    else .error (.unsupportedImport source)
  | .const name init =>
    match (Evaluate.expr p.scope init).run p.made with
    | .ok (v, made) =>
      .ok { p with
        scope := (name, v) :: p.scope
        made }
    | .error e => .error (.inConst name e)
  | .function name params body _ => .ok { p with functions := ⟨name, params, body⟩ :: p.functions }
  | .exports list => .ok { p with exports := list.reverse ++ p.exports }
  | s@(.return _) => .error (.unexpectedStatement s.typeName true)

/-- The distinct names under which functions are exported. -/
def exportNames (p : Loaded) : List Bytes :=
  (p.exports.map (·.name)).eraseDups

end Loaded

/-- Evaluates the imports and constants of a program. -/
def Program.load [LocaleData] (program : Program) : Except RunError Loaded :=
  program.foldlM Loaded.addStmt .empty

namespace Loaded

/-- Runs the statements of a function up to its return. A function without one gives
`undefined`. -/
def runBody [LocaleData] (name : Bytes) (scope : Evaluate.Scope) (made : Nat) : List Stmt → Except RunError Value
  | [] => .ok .undefined
  | .const binding init :: rest =>
    match (Evaluate.expr scope init).run made with
    | .ok (v, made) => runBody name ((binding, v) :: scope) made rest
    | .error e => .error (.inCall name (.inConst binding e))
  | .return value :: _ => ((Evaluate.expr scope value).run made).map (·.1)
  | s :: _ => .error (.inCall name (.unexpectedStatement s.typeName false))

/-- The variable a parameter is bound to; without a binding of its own it keeps its name. -/
def paramName (p : Param) : String :=
  if p.binding = "" then p.name else p.binding

/-- Binds parameters to the arguments of their names. Missing arguments are undefined, and of two
parameters with one variable the later counts. -/
def bindParams (args : List (String × Value)) (params : List Param) (scope : Evaluate.Scope) :
    Evaluate.Scope :=
  params.foldl (fun s p => (paramName p, (Evaluate.option? args p.name).getD .undefined) :: s) scope

/-- Calls an exported function. -/
def call [LocaleData] (p : Loaded) (name : Bytes) (args : List (String × Value)) : Except RunError Value :=
  match p.exports.find? (·.name == name) with
  | none => .error (.unknownExport name)
  | some e =>
    match p.functions.find? (·.name == e.binding) with
    | none => .error (.missingFunction name e.binding)
    | some f => runBody name (bindParams args f.params p.scope) p.made f.body

end Loaded

end Phrasebook
