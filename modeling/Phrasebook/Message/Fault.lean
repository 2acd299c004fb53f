import Phrasebook.Diagnostic.Basic

/-!
What can be wrong with the text of a message. Reading stops at the first fault.
-/
namespace Phrasebook.Message

inductive Cause where
  | invalidEncoding
  | unmatchedBrace
  | unmatchedClosingTag (text : String)
  | unclosedArgument
  | emptyArgument
  | invalidName
  | nameNotEnded
  | missingType
  | unknownType (type : String)
  | typeNotEnded
  | braceInStyle
  | missingStyle
  | invalidSkeleton (token reason : String)
  | missingCases
  | missingOffset
  | offsetRange
  | invalidExact (key : String)
  | missingSelector
  | invalidCategory (key : String)
  | duplicateSelector (key : String) (first : Span)
  | missingBody (key : String)
  | unclosedCase (key : String)
  | noCases
  | unclosedTag (name : String)
  | tagAttributes (name : String)
  | unclosedClosingTag (name : String)
  | mismatchedTag (closing opening : String) (openSpan : Span)
  | tooDeep (limit : Nat)
  deriving DecidableEq

namespace Cause

def code : Cause → Code
  | invalidEncoding => .invalidEncoding
  | unmatchedBrace => .unmatchedBrace
  | unmatchedClosingTag _ => .unmatchedClosingTag
  | unclosedArgument | unclosedCase _ => .unclosedBrace
  | emptyArgument => .emptyArgument
  | invalidName | nameNotEnded => .invalidArgumentName
  | missingType | unknownType _ => .unknownArgumentType
  | typeNotEnded | braceInStyle => .unexpectedCharacter
  | missingStyle => .missingStyle
  | invalidSkeleton _ _ => .invalidSkeleton
  | missingCases | missingSelector => .missingSelector
  | missingOffset | offsetRange => .invalidOffset
  | invalidExact _ | invalidCategory _ => .invalidPluralKey
  | duplicateSelector _ _ => .duplicateSelector
  | missingBody _ => .missingBody
  | noCases => .emptyCases
  | unclosedTag _ | unclosedClosingTag _ => .unclosedTag
  | tagAttributes _ => .tagAttributes
  | mismatchedTag .. => .mismatchedTag
  | tooDeep _ => .nestingTooDeep

def message : Cause → String
  | invalidEncoding => "message is not valid UTF-8"
  | unmatchedBrace => "unmatched '\x7d'"
  | unmatchedClosingTag text => s!"closing tag {Text.quote text} has no opening tag"
  | unclosedArgument => "argument is not closed"
  | emptyArgument => "argument has no name"
  | invalidName => "invalid character in argument name"
  | nameNotEnded => "expected ',' or '\x7d' after argument name"
  | missingType => "expected argument type"
  | unknownType type => s!"unknown argument type {Text.quote type}"
  | typeNotEnded => "expected ',' or '\x7d' after argument type"
  | braceInStyle => "'\x7b' is not allowed in an argument style"
  | missingStyle => "expected argument style after ','"
  | invalidSkeleton token reason => s!"invalid skeleton token {Text.quote token}: {reason}"
  | missingCases => "expected ',' followed by cases"
  | missingOffset => "offset must be a non-negative integer"
  | offsetRange => "offset is out of range"
  | invalidExact key => s!"invalid exact selector {Text.quote key}"
  | missingSelector => "expected selector"
  | invalidCategory key =>
    s!"{Text.quote key} is not a plural category (zero, one, two, few, many, other) or =N"
  | duplicateSelector key _ => s!"duplicate selector {Text.quote key}"
  | missingBody key => s!"expected '\x7b' after selector {Text.quote key}"
  | unclosedCase key => s!"case {Text.quote key} is not closed"
  | noCases => "argument has no cases"
  | unclosedTag name => s!"tag <{name}> is not closed"
  | tagAttributes name => s!"tag <{name}> cannot have attributes"
  | unclosedClosingTag name => s!"closing tag </{name}> is not terminated"
  | mismatchedTag closing opening _ => s!"closing tag </{closing}> does not match <{opening}>"
  | tooDeep limit => s!"message nesting exceeds {limit} levels"

def notes : Cause → List Note
  | duplicateSelector _ first => [⟨first, "first used here"⟩]
  | mismatchedTag _ _ openSpan => [⟨openSpan, "opening tag here"⟩]
  | _ => []

end Cause

/-- A cause and the place of it. -/
structure Fault where
  cause : Cause
  span : Span
  deriving DecidableEq

def Fault.diagnostic (f : Fault) : Diagnostic :=
  ⟨.error, f.cause.code, f.cause.message, f.span, f.cause.notes, []⟩

end Phrasebook.Message
