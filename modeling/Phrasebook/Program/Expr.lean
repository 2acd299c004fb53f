import Phrasebook.Text.Utf8

/-!
Generated programs: expressions, statements and modules of them.
-/
namespace Phrasebook

inductive BinaryOp where
  | add
  | sub
  | strictEq
  | unknown
  deriving DecidableEq

def BinaryOp.text : BinaryOp → String
  | .add => "+"
  | .sub => "-"
  | .strictEq => "==="
  | .unknown => "?"

/-- A child of a markup fragment: text, or an expression in braces. -/
inductive Child (α : Type) where
  | text (s : String)
  | container (e : α)

/-- An expression. Programs made by hand may leave an expression out, which reads as `undefined`,
and hold expressions of an unknown kind, which are written as nothing. -/
inductive Expr where
  | string (s : String)
  | number (x : Float)
  | bool (b : Bool)
  | ident (name : String)
  | member (object : Expr) (property : String)
  | call (callee : Expr) (args : List Expr)
  | new (callee : Expr) (args : List Expr)
  | binary (op : BinaryOp) (left right : Expr)
  | conditional (test yes no : Expr)
  | object (props : List (String × Expr))
  | fragment (children : List (Child Expr))
  | unknown
  | absent
  deriving Inhabited

namespace Expr

def undefined : Expr := .ident "undefined"

/-- The names of all kinds in their order. -/
def kindNames : List String :=
  ["String", "Number", "Bool", "Ident", "Member", "Call", "New", "Binary", "Conditional", "Object",
    "Fragment"]

def isString : Expr → Bool
  | .string _ => true
  | _ => false

end Expr

/-- One property of the argument object that a function takes apart. -/
structure Param where
  name : String
  binding : String
  type : String
  deriving DecidableEq

/-- A binding under the name it is exported by. -/
structure Export where
  binding : String
  name : Bytes
  deriving DecidableEq

inductive Stmt where
  | importAll (binding source : String)
  | const (name : String) (init : Expr)
  | «return» (value : Expr)
  | function (name : String) (params : List Param) (body : List Stmt) (returnType : String)
  | exports (list : List Export)
  deriving Inhabited

abbrev Program := List Stmt

mutual

/-- Whether an expression holds a markup fragment. -/
def Expr.hasFragment : Expr → Bool
  | .fragment _ => true
  | .member object _ => object.hasFragment
  | .call callee args => callee.hasFragment || anyFragment args
  | .new callee args => callee.hasFragment || anyFragment args
  | .binary _ left right => left.hasFragment || right.hasFragment
  | .conditional test yes no => test.hasFragment || yes.hasFragment || no.hasFragment
  | .object props => anyPropFragment props
  | .string _ | .number _ | .bool _ | .ident _ | .unknown | .absent => false

def anyFragment : List Expr → Bool
  | [] => false
  | e :: r => e.hasFragment || anyFragment r

def anyPropFragment : List (String × Expr) → Bool
  | [] => false
  | (_, e) :: r => e.hasFragment || anyPropFragment r

end

mutual

def Stmt.hasFragment : Stmt → Bool
  | .const _ init => init.hasFragment
  | .return value => value.hasFragment
  | .function _ _ body _ => Stmt.anyHasFragment body
  | .importAll .. | .exports _ => false

def Stmt.anyHasFragment : List Stmt → Bool
  | [] => false
  | s :: r => s.hasFragment || Stmt.anyHasFragment r

end

def Program.hasFragment (p : Program) : Bool :=
  Stmt.anyHasFragment p

end Phrasebook
