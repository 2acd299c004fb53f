import Phrasebook.Decimal.Layout
import Phrasebook.Program.Expr
import Phrasebook.Program.Quote

/-!
Programs as text. An expression is put in parentheses where it binds looser than its place asks for.
-/
namespace Phrasebook.Program

/-- How markup fragments are written: as they are, or as calls that build them. -/
inductive MarkupMode where
  | preserve
  | classic
  deriving DecidableEq

def MarkupMode.name : MarkupMode → String
  | .preserve => "preserve"
  | .classic => "classic"

def MarkupMode.ofName? : String → Option MarkupMode
  | "" | "preserve" => some .preserve
  | "classic" | "react" => some .classic
  | _ => none

def MarkupMode.unknownName (s : String) : String :=
  s!"unknown jsx mode {Text.quote s} (want preserve or classic)"

structure PrintStyle where
  types : Bool
  markup : MarkupMode
  namespaceName : String

/-- The object that builds markup. -/
def PrintStyle.builder (s : PrintStyle) : String :=
  if s.namespaceName = "" then "React" else s.namespaceName

/-! ### Expressions -/

namespace Level

def lowest : Nat := 0
def conditional : Nat := 2
def equality : Nat := 10
def additive : Nat := 13
def unary : Nat := 15
def call : Nat := 18
def primary : Nat := 20

end Level

/-- How tightly an expression binds. -/
def level : Expr → Nat
  | .number x => if x < 0 then Level.unary else Level.primary
  | .member .. | .call .. | .new .. => Level.call
  | .binary op _ _ => if op = .strictEq then Level.equality else Level.additive
  | .conditional .. => Level.conditional
  | _ => Level.primary

def parens (yes : Bool) (s : String) : String :=
  if yes then "(" ++ s ++ ")" else s

def isNumber : Expr → Bool
  | .number _ => true
  | _ => false

def isCall : Expr → Bool
  | .call .. => true
  | _ => false

/-- Parentheses for an expression that stands where one of level `least` is asked for. -/
def enclose (least : Nat) (e : Expr) (s : String) : String :=
  match e with
  | .absent => s
  | _ => parens (level e < least) s

def memberAccess (property : String) : String :=
  if Name.isIdentifier property then "." ++ property else "[" ++ stringLiteral property ++ "]"

mutual

/-- An expression without parentheses of its own. -/
def exprText (style : PrintStyle) : Expr → String
  | .string s => stringLiteral s
  | .number x => Decimal.literal x
  | .bool b => if b then "true" else "false"
  | .ident name => name
  | .member object property =>
    (if isNumber object then parens true (exprText style object)
      else enclose Level.call object (exprText style object)) ++ memberAccess property
  | .call callee args =>
    enclose Level.call callee (exprText style callee) ++ "(" ++ listText style args ++ ")"
  | .new callee args =>
    "new " ++ (if isCall callee then parens true (exprText style callee)
      else enclose Level.call callee (exprText style callee)) ++ "(" ++ listText style args ++ ")"
  | .binary op left right =>
    let n := if op = .strictEq then Level.equality else Level.additive
    enclose n left (exprText style left) ++ " " ++ op.text ++ " " ++
      enclose (n + 1) right (exprText style right)
  | .conditional test yes no =>
    enclose (Level.conditional + 1) test (exprText style test) ++ " ? " ++
      enclose Level.conditional yes (exprText style yes) ++ " : " ++
      enclose Level.conditional no (exprText style no)
  | .object props =>
    if props.isEmpty then "\x7b\x7d" else "\x7b " ++ propsText style props ++ " \x7d"
  | .fragment children =>
    match style.markup with
    | .classic =>
      style.builder ++ ".createElement(" ++ style.builder ++ ".Fragment, null" ++
        argumentsText style children ++ ")"
    | .preserve => "<>" ++ childrenText style children ++ "</>"
  | .unknown => ""
  | .absent => "undefined"

/-- Arguments with commas between them. -/
def listText (style : PrintStyle) : List Expr → String
  | [] => ""
  | [e] => enclose Level.conditional e (exprText style e)
  | e :: r => enclose Level.conditional e (exprText style e) ++ ", " ++ listText style r

def propsText (style : PrintStyle) : List (String × Expr) → String
  | [] => ""
  | [(k, e)] => propertyKey k ++ ": " ++ enclose Level.conditional e (exprText style e)
  | (k, e) :: r =>
    propertyKey k ++ ": " ++ enclose Level.conditional e (exprText style e) ++ ", " ++
      propsText style r

/-- The child of a fragment as one more argument of the call that builds it. -/
def argumentText (style : PrintStyle) : Child Expr → String
  | .text s => ", " ++ stringLiteral s
  | .container e => ", " ++ enclose Level.conditional e (exprText style e)

def argumentsText (style : PrintStyle) : List (Child Expr) → String
  | [] => ""
  | c :: r => argumentText style c ++ argumentsText style r

/-- The child of a fragment between its tags. -/
def childText (style : PrintStyle) : Child Expr → String
  | .text s =>
    if isMarkupSafe s then s
    else if s = "" then "" else "\x7b" ++ stringLiteral s ++ "\x7d"
  | .container e => "\x7b" ++ exprText style e ++ "\x7d"

def childrenText (style : PrintStyle) : List (Child Expr) → String
  | [] => ""
  | c :: r => childText style c ++ childrenText style r

end

/-! ### Statements -/

def braced (parts : List String) (sep : String) : String :=
  "\x7b " ++ sep.intercalate parts ++ " \x7d"

/-- The pattern that takes the argument object apart. -/
def patternText (params : List Param) : String :=
  braced (params.map fun p =>
    if p.binding = "" || p.binding = p.name then p.name
    else propertyKey p.name ++ ": " ++ p.binding) ", "

/-- The type of the argument object. -/
def paramsType (params : List Param) : String :=
  braced (params.map fun p =>
    propertyKey p.name ++ ": " ++ (if p.type = "" then "unknown" else p.type)) "; "

/-- One specifier of an export list. -/
def exportText (e : Export) : String :=
  match Utf8.decode? e.name with
  | some cs =>
    let name := String.ofList cs
    if name = "" || name = e.binding then e.binding
    else e.binding ++ " as " ++ propertyKey name
  | none => e.binding ++ " as " ++ stringLiteral e.name.toText

def exportClause (list : List Export) : String :=
  if list.isEmpty then "\x7b\x7d" else braced (list.map exportText) ", "

/-- A line of code; empty lines are not indented. -/
structure Line where
  indent : Nat
  text : String

def Line.render (l : Line) : String :=
  (if l.text = "" then "" else String.join (List.replicate l.indent "  ") ++ l.text) ++ "\n"

def functionHead (style : PrintStyle) (name : String) (params : List Param) (returnType : String) :
    String :=
  "function " ++ name ++ "(" ++
    (if params.isEmpty then ""
      else patternText params ++ if style.types then ": " ++ paramsType params else "") ++ ")" ++
    (if style.types && returnType ≠ "" then ": " ++ returnType else "") ++ " \x7b"

mutual

def stmtLines (style : PrintStyle) (indent : Nat) : Stmt → List Line
  | .importAll binding source =>
    [⟨indent, "import * as " ++ binding ++ " from " ++ stringLiteral source ++ ";"⟩]
  | .const name init =>
    [⟨indent, "const " ++ name ++ " = " ++
      enclose Level.conditional init (exprText style init) ++ ";"⟩]
  | .return value => [⟨indent, "return " ++ exprText style value ++ ";"⟩]
  | .function name params body returnType =>
    ⟨indent, functionHead style name params returnType⟩ ::
      bodyLines style (indent + 1) body ++ [⟨indent, "\x7d"⟩]
  | .exports list => [⟨indent, "export " ++ exportClause list ++ ";"⟩]

def bodyLines (style : PrintStyle) (indent : Nat) : List Stmt → List Line
  | [] => []
  | s :: r => stmtLines style indent s ++ bodyLines style indent r

end

/-- Statements that stand together without an empty line between them. -/
inductive Group where
  | none
  | imports
  | constants
  | functions
  | exports
  deriving DecidableEq

def groupOf : Stmt → Group
  | .importAll .. => .imports
  | .const .. => .constants
  | .function .. => .functions
  | .exports _ => .exports
  | .return _ => .none

/-- The lines of a program behind statements of group `prev`. An empty line divides groups, and any
two functions. -/
def programLines (style : PrintStyle) (prev : Group) : List Stmt → List Line
  | [] => []
  | s :: r =>
    let g := groupOf s
    (if prev ≠ .none && (g ≠ prev || g = .functions) then [⟨0, ""⟩] else []) ++
      stmtLines style 0 s ++ programLines style g r

/-- The source text of a program. -/
def print (style : PrintStyle) (p : Program) : String :=
  String.join ((programLines style .none p).map Line.render)

/-- The file extension of a program: fragments that are kept need one of their own. -/
def extension (style : PrintStyle) (p : Program) : String :=
  let markup := style.markup = .preserve && p.hasFragment
  if style.types then (if markup then ".tsx" else ".ts") else if markup then ".jsx" else ".js"

/-! ### Declarations -/

def declaration : Stmt → List String
  | .function name params _ returnType =>
    ["declare function " ++ name ++ "(" ++
      (if params.isEmpty then "" else "args: " ++ paramsType params) ++ "): " ++
      (if returnType = "" then "string" else returnType) ++ ";"]
  | _ => []

def typeImport : Stmt → List String
  | .importAll binding source =>
    ["import type * as " ++ binding ++ " from " ++ stringLiteral source ++ ";"]
  | _ => []

def exportDeclaration : Stmt → List String
  | .exports list => ["", "export " ++ exportClause list ++ ";"]
  | _ => []

/-- The types of the exported functions. Constants are private and do not appear. -/
def declarations (p : Program) : String :=
  let imports := p.flatMap typeImport
  let lines := imports ++ (if imports.isEmpty then [] else [""]) ++ p.flatMap declaration ++
    p.flatMap exportDeclaration
  String.join (lines.map (· ++ "\n"))

end Phrasebook.Program
