import Phrasebook.Decimal.Layout
import Phrasebook.Message.Node
import Phrasebook.Text.Blank

/-!
Message trees drawn as indented lines, one element or case a line.
-/
namespace Phrasebook.Message

/-- The words behind the kind of a formatted argument's style. -/
def Tree.styleLabel : Style → String
  | .default => ""
  | .named name _ => " " ++ name
  | .skeleton text _ _ => " ::" ++ Text.trimText text

/-- The line of one element. -/
def Tree.label (n : Node) : String :=
  match n with
  | .literal _ text => "Literal " ++ Text.quote text
  | .argument _ name _ => "Argument " ++ name
  | .select _ name _ _ => "Select " ++ name
  | .plural _ name _ offset kind _ =>
    s!"Plural {name} ({kind.name}" ++
      (if offset != 0 then ", offset " ++ Decimal.literal offset else "") ++ ")"
  | .format _ _ name _ style => n.kindName ++ " " ++ name ++ styleLabel style
  | .tag _ name _ selfClosing _ => "Tag <" ++ name ++ (if selfClosing then "/>" else ">")
  | .pound _ | .unknown _ | .hole => n.kindName

/-- The branch drawn before a line. -/
def Tree.branch (last : Bool) : String :=
  if last then "└─ " else "├─ "

/-- What is drawn before the lines below it. -/
def Tree.stem (last : Bool) : String :=
  if last then "   " else "│  "

mutual

/-- The lines below an element. A hole cannot be drawn. -/
def Tree.below (indent : String) : Node → Option String
  | .select _ _ _ cases => Tree.cases indent cases
  | .plural _ _ _ _ _ cases => Tree.cases indent cases
  | .tag _ _ _ _ children => Tree.nodes indent children
  | .hole => none
  | .literal .. | .argument .. | .format .. | .pound .. | .unknown .. => some ""

def Tree.nodes (indent : String) : List Node → Option String
  | [] => some ""
  | n :: r => do
    let last := r.isEmpty
    let lines ← Tree.below (indent ++ stem last) n
    let rest ← Tree.nodes indent r
    return indent ++ branch last ++ label n ++ "\n" ++ lines ++ rest

def Tree.case (indent : String) (last : Bool) : Branch Node → Option String
  | ⟨key, _, _, body⟩ => do
    let lines ← Tree.nodes (indent ++ stem last) body
    return indent ++ branch last ++ key ++ "\n" ++ lines

def Tree.cases (indent : String) : List (Branch Node) → Option String
  | [] => some ""
  | b :: r => do
    let lines ← Tree.case indent r.isEmpty b
    let rest ← Tree.cases indent r
    return lines ++ rest

end

/-- The drawing of a whole tree. -/
def drawTree (nodes : List Node) : Option String :=
  Tree.nodes "" nodes

end Phrasebook.Message
