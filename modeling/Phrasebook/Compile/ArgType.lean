import Phrasebook.Text.Quoted

/-!
Types of message arguments, inferred from how a message uses them.
-/
namespace Phrasebook

inductive ArgType where
  /-- Interpolated into a string. -/
  | text
  /-- Interpolated into markup. -/
  | markupNode
  /-- Chosen by in a select. -/
  | string
  /-- Chosen by in a plural, or formatted as a number. -/
  | number
  /-- Formatted as a date or time. -/
  | date
  /-- A tag in markup. -/
  | markupElement
  /-- A tag in a string. -/
  | tagFunction
  deriving DecidableEq

namespace ArgType

/-- All types in their order. -/
def all : List ArgType :=
  [.text, .markupNode, .string, .number, .date, .markupElement, .tagFunction]

def name : ArgType → String
  | .text => "text"
  | .markupNode => "markup-node"
  | .string => "string"
  | .number => "number"
  | .date => "date"
  | .markupElement => "markup-element"
  | .tagFunction => "markup-tag-function"

def ofName? (s : String) : Option ArgType :=
  all.find? (·.name == s)

/-- What is said about a type of no known name. -/
def unknownName (s : String) : String :=
  s!"unknown argument type {Text.quote s}"

/-- The type in generated declarations. -/
def declared : ArgType → String
  | .text => "string | number"
  | .markupNode => "React.ReactNode"
  | .string => "string"
  | .number => "number"
  | .date => "Date | number"
  | .markupElement => "React.ReactElement"
  | .tagFunction => "(children: string) => string"

def isInterpolation (t : ArgType) : Bool :=
  t = .text || t = .markupNode

def isScalar (t : ArgType) : Bool :=
  t = .string || t = .number || t = .date

/-- The type of an argument used in two ways. An interpolation accepts every scalar, so the scalar
wins; other types only agree with themselves. -/
def join? (a b : ArgType) : Option ArgType :=
  if a = b then some a
  else if a.isInterpolation && b.isScalar then some b
  else if b.isInterpolation && a.isScalar then some a
  else if a.isInterpolation && b.isInterpolation then some .markupNode
  else none

end ArgType

/-- One parameter of a compiled message: its name, the name it is bound to, and its type. -/
structure Argument where
  name : String
  binding : String
  type : ArgType
  deriving DecidableEq

end Phrasebook
