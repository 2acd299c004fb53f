import Phrasebook.Program.Expr

/-!
Expressions that compiled messages are built of.
-/
namespace Phrasebook.Expr

/-- Nested conditionals: the first case whose test holds, else `alternate`. -/
def ternaryChain (cases : List (Expr × Expr)) (alternate : Expr) : Expr :=
  cases.foldr (fun (test, value) rest => .conditional test value rest) alternate

/-- Operands joined from the left. A chain has at least two of them. -/
def binaryChain? (op : BinaryOp) : List Expr → Option Expr
  | first :: second :: rest => some (rest.foldl (.binary op) (.binary op first second))
  | _ => none

/-- Why a chain cannot be built. -/
def shortChain (n : Nat) : String :=
  s!"compiler: binary chain needs at least 2 operands, got {n}"

/-- A copy of the element `tag` with other children; without any it keeps its own. -/
def markupElement (builder tag children : Expr) : Expr :=
  match children with
  | .absent => .call (.member builder "cloneElement") [tag]
  | _ => .call (.member builder "cloneElement") [tag, .undefined, children]

end Phrasebook.Expr
