import Phrasebook.Decimal.Read
import Phrasebook.Locale.DateFormat
import Phrasebook.Locale.NumberFormat
import Phrasebook.Locale.Plural

/-!
What generated programs compute with: texts, numbers, markup elements, and the formatters and
functions that a page gives them.
-/
namespace Phrasebook

/-- What tells one object from another of the same content: it was given to the program as an
argument, or the program made it. -/
inductive Ref where
  | given (n : Nat)
  | made (n : Nat)
  deriving DecidableEq

/-- A formatter that a program has constructed. -/
inductive Formatter where
  | number (f : NumberFormat)
  | date (f : DateFormat)
  | plural (rules : PluralRules)
  deriving DecidableEq

/-- A function: one given as an argument, one of the markup library, or the one method of a
formatter. -/
inductive Function where
  | given (f : String → String)
  | cloneElement
  | createElement
  | method (f : Formatter)

/-- What `new` can construct. -/
inductive FormatterClass where
  | number
  | date
  | plural
  deriving DecidableEq

inductive Namespace where
  | formatters
  | markup
  deriving DecidableEq

/-- A value. An element without a tag is a fragment. -/
inductive Value where
  | undefined
  | text (s : String)
  | number (x : Float)
  | flag (b : Bool)
  | date (millis : Int)
  | element (ref : Ref) (tag : String) (children : List Value)
  | list (items : List Value)
  | object (ref : Ref) (entries : List (String × Value))
  | function (f : Function)
  | formatterClass (c : FormatterClass)
  | formatter (ref : Ref) (f : Formatter)
  | nameSpace (n : Namespace)
  | fragmentType
  deriving Inhabited

namespace Value

/-- The kind of a value, as errors name it. -/
def typeName : Value → String
  | .undefined => "<nil>"
  | .text _ => "string"
  | .number _ => "float64"
  | .flag _ => "bool"
  | .date _ => "time.Time"
  | .element .. => "*testkit.Element"
  | .list _ => "[]interface \x7b\x7d"
  | .object .. => "*testkit.Object"
  | .function _ => "testkit.builtin"
  | .formatterClass _ => "testkit.constructor"
  | .formatter _ (.number _) => "*testkit.numberFormat"
  | .formatter _ (.date _) => "*testkit.dateTimeFormat"
  | .formatter _ (.plural _) => "*testkit.pluralRules"
  | .nameSpace _ => "testkit.object"
  | .fragmentType => "testkit.fragmentType"

def isTruthy : Value → Bool
  | .undefined => false
  | .flag b => b
  | .text s => s != ""
  | .number x => x != 0 && !x.isNaN
  | _ => true

def notANumber : Float := 0.0 / 0.0

/-- The value as a number. What has no number is not one. -/
def toNumber : Value → Float
  | .number x => x
  | .flag b => if b then 1 else 0
  | .text s => (Decimal.read? s.toList).getD notANumber
  | .date ms => Float.ofInt ms
  | _ => notANumber

mutual

/-- The plain text of a value inside another one. -/
def inspect : Value → String
  | .undefined => "<nil>"
  | .text s => s
  | .number x => Decimal.shown x
  | .flag b => if b then "true" else "false"
  | .date ms => (Moment.ofMillis ms).stamp
  | .list items => "[" ++ inspectItems items ++ "]"
  | .object _ entries => "&\x7b[" ++ Text.join " " (entries.map (·.1)) ++ "] map[" ++
      Text.join " " (((inspectEntries entries).mergeSort fun a b => a.1 ≤ b.1).map
        fun e => e.1 ++ ":" ++ e.2) ++ "]\x7d"
  | .fragmentType => "\x7b\x7d"
  | .element .. | .function _ | .formatterClass _ | .formatter .. | .nameSpace _ => "0x0"

def inspectItems : List Value → String
  | [] => ""
  | v :: r => inspect v ++ (if r.isEmpty then "" else " ") ++ inspectItems r

def inspectEntries : List (String × Value) → List (String × String)
  | [] => []
  | (k, v) :: r => (k, inspect v) :: inspectEntries r

end

mutual

/-- The text of markup: elements between their tags, fragments as their children; nothing for
truth values and what is undefined. -/
def render : Value → String
  | .undefined | .flag _ => ""
  | .element _ tag children =>
    if tag = "" then renderAll children
    else if children.isEmpty then "<" ++ tag ++ "/>"
    else "<" ++ tag ++ ">" ++ renderAll children ++ "</" ++ tag ++ ">"
  | .list items => renderAll items
  | .text s => s
  | .number x => Decimal.literal x
  | v => inspect v

def renderAll : List Value → String
  | [] => ""
  | v :: r => render v ++ renderAll r

end

/-- The text a value adds to a text. -/
def toText : Value → String
  | .text s => s
  | .number x => Decimal.literal x
  | .flag b => if b then "true" else "false"
  | .undefined => "undefined"
  | v@(.element ..) => v.render
  | v => v.inspect

/-- Strict equality. Texts, numbers and truth values are compared by content and objects by what
tells them apart; `none` for two values of one kind that cannot be compared. -/
def strictEq? : Value → Value → Option Bool
  | .text a, .text b => some (a == b)
  | .number a, .number b => some (a == b)
  | .flag a, .flag b => some (a == b)
  | .undefined, .undefined => some true
  | .date a, .date b => some (a == b)
  | .element a .., .element b .. => some (a == b)
  | .object a _, .object b _ => some (a == b)
  | .formatter a _, .formatter b _ => some (a == b)
  | .fragmentType, .fragmentType => some true
  | .list _, .list _ | .function _, .function _ | .formatterClass _, .formatterClass _
  | .nameSpace _, .nameSpace _ => none
  | _, _ => some false

/-- The whole part of a number that fits 64 bits; any other number gives the least of these. -/
def wholeOf (x : Float) : Int :=
  let limit : Float := 9223372036854775808.0
  if x.isNaN || x ≥ limit || x < -limit then -9223372036854775808 else x.toInt64.toInt

/-- The moment that a value stands for. -/
def moment? : Value → Option Moment
  | .date ms => some (Moment.ofMillis ms)
  | .number x => if x.isNaN then none else some (Moment.ofMillis (wholeOf x))
  | _ => none

end Value

end Phrasebook
