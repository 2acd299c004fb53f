import Phrasebook.Decimal.Read
import Phrasebook.Skeleton.Options
import Phrasebook.Source.Span

/-!
Message trees: literal text, arguments, choices between branches, formatted values and tags.
-/
namespace Phrasebook

inductive PluralKind where
  | cardinal
  | ordinal
  deriving DecidableEq

def PluralKind.name : PluralKind → String
  | .cardinal => "cardinal"
  | .ordinal => "ordinal"

/-- The word that a choice of a kind is written with. -/
def PluralKind.keyword : PluralKind → String
  | .cardinal => "plural"
  | .ordinal => "selectordinal"

/-- The formatter family of an argument. -/
inductive FormatKind where
  | number
  | date
  | time
  deriving DecidableEq

def FormatKind.name : FormatKind → String
  | .number => "number"
  | .date => "date"
  | .time => "time"

/-- How a formatted argument chooses its options: not at all, by the name of a preset, or by a
skeleton of its own. -/
inductive Style where
  | default
  | named (name : String) (span : Span)
  | skeleton (text : String) (options : FormatOptions) (span : Span)

/-- One branch of a choice. -/
structure Branch (α : Type) where
  key : String
  keySpan : Span
  span : Span
  body : List α

/-- One element of a message. Trees made by hand may hold elements of an unknown kind, and holes
where an element is missing; reading a text gives neither. -/
inductive Node where
  | literal (span : Span) (text : String)
  | argument (span : Span) (name : String) (nameSpan : Span)
  | select (span : Span) (name : String) (nameSpan : Span) (cases : List (Branch Node))
  | plural (span : Span) (name : String) (nameSpan : Span) (offset : Float) (kind : PluralKind)
      (cases : List (Branch Node))
  | format (span : Span) (kind : FormatKind) (name : String) (nameSpan : Span) (style : Style)
  | pound (span : Span)
  | tag (span : Span) (name : String) (nameSpan : Span) (selfClosing : Bool)
      (children : List Node)
  | unknown (span : Span)
  | hole
  deriving Inhabited

namespace Node

def span : Node → Span
  | .literal s _ | .argument s _ _ | .select s _ _ _ | .plural s _ _ _ _ _ | .format s _ _ _ _
  | .pound s | .tag s _ _ _ _ | .unknown s => s
  | .hole => .zero

def kindName : Node → String
  | .literal .. => "Literal"
  | .argument .. => "Argument"
  | .select .. => "Select"
  | .plural .. => "Plural"
  | .format _ .number .. => "Number"
  | .format _ .date .. => "Date"
  | .format _ .time .. => "Time"
  | .pound _ => "Pound"
  | .tag .. => "Tag"
  | .unknown _ | .hole => "Unknown"

/-- The names of all kinds in their order. -/
def kindNames : List String :=
  ["Literal", "Argument", "Select", "Plural", "Number", "Date", "Time", "Pound", "Tag"]

end Node

/-- The key of the branch taken when no other matches. -/
def defaultKey : String := "other"

/-- An exact selector is an equals sign with a number behind it. -/
def isExactKey (key : String) : Bool :=
  key.toList.head? == some '='

/-- The number of an exact selector. -/
def exactValue? (key : String) : Option Float :=
  match key.toList with
  | '=' :: number => Decimal.read? number
  | _ => none

/-- The plural categories. -/
def pluralCategories : List String := ["zero", "one", "two", "few", "many", "other"]

end Phrasebook
