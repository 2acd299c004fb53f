/-!
Diagnostic codes. A code is a number; its family shows in the letters it is printed with.
-/
namespace Phrasebook

structure Code where
  number : UInt16
  deriving DecidableEq

namespace Code

def invalid : Code := ⟨0⟩
def syntaxInfo : Code := ⟨2000⟩
def unexpectedEnd : Code := ⟨2001⟩
def unclosedBrace : Code := ⟨2002⟩
def unmatchedBrace : Code := ⟨2003⟩
def emptyArgument : Code := ⟨2004⟩
def invalidArgumentName : Code := ⟨2005⟩
def unknownArgumentType : Code := ⟨2006⟩
def missingStyle : Code := ⟨2007⟩
def invalidSkeleton : Code := ⟨2008⟩
def invalidOffset : Code := ⟨2009⟩
def missingSelector : Code := ⟨2010⟩
def missingBody : Code := ⟨2011⟩
def duplicateSelector : Code := ⟨2012⟩
def invalidPluralKey : Code := ⟨2013⟩
def emptyCases : Code := ⟨2014⟩
def unclosedTag : Code := ⟨2015⟩
def mismatchedTag : Code := ⟨2016⟩
def tagAttributes : Code := ⟨2017⟩
def unmatchedClosingTag : Code := ⟨2018⟩
def unexpectedCharacter : Code := ⟨2019⟩
def invalidEncoding : Code := ⟨2020⟩
def nestingTooDeep : Code := ⟨2021⟩
def compileInfo : Code := ⟨3000⟩
def missingDefaultCase : Code := ⟨3001⟩
def invalidIdentifier : Code := ⟨3002⟩
def poundOutsidePlural : Code := ⟨3003⟩
def duplicateExport : Code := ⟨3004⟩
def duplicateBinding : Code := ⟨3005⟩
def argumentTypeConflict : Code := ⟨3006⟩
def unknownFormatStyle : Code := ⟨3007⟩
def unreadableFile : Code := ⟨4001⟩
def invalidMessageFile : Code := ⟨4002⟩
def unwritableFile : Code := ⟨4003⟩
def settingsInfo : Code := ⟨5000⟩
def invalidSettings : Code := ⟨5001⟩
def unknownSetting : Code := ⟨5002⟩
def invalidLocale : Code := ⟨5003⟩
def invalidTarget : Code := ⟨5004⟩
def observationInfo : Code := ⟨6000⟩
def timings : Code := ⟨6001⟩

/-- `ICU2002`, `IO4001` and so on; a number of no family is `E0000`. -/
def id (c : Code) : String :=
  let n := c.number.toNat
  if 2000 ≤ n && n < 4000 then s!"ICU{n}"
  else if 4000 ≤ n && n < 5000 then s!"IO{n}"
  else if 5000 ≤ n && n < 6000 then s!"CFG{n}"
  else if 6000 ≤ n && n < 7000 then s!"OBS{n}"
  else "E0000"

def title (c : Code) : String :=
  match c.number.toNat with
  | 2000 => "Syntax information"
  | 2001 => "unexpected end of message"
  | 2002 => "unclosed '\x7b'"
  | 2003 => "unmatched '\x7d'"
  | 2004 => "empty argument"
  | 2005 => "invalid argument name"
  | 2006 => "unknown argument type"
  | 2007 => "expected argument style"
  | 2008 => "invalid skeleton"
  | 2009 => "invalid plural offset"
  | 2010 => "expected selector"
  | 2011 => "expected '\x7b' after selector"
  | 2012 => "duplicate selector"
  | 2013 => "invalid plural selector"
  | 2014 => "select or plural without cases"
  | 2015 => "unclosed tag"
  | 2016 => "mismatched closing tag"
  | 2017 => "tags cannot have attributes"
  | 2018 => "closing tag without opening tag"
  | 2019 => "unexpected character"
  | 2020 => "message is not valid UTF-8"
  | 2021 => "message nesting too deep"
  | 3000 => "Compile information"
  | 3001 => "missing 'other' case"
  | 3002 => "tag name is not a valid identifier"
  | 3003 => "'#' used outside of plural"
  | 3004 => "message exported twice"
  | 3005 => "duplicate binding in scope"
  | 3006 => "argument used with conflicting types"
  | 3007 => "unknown format style"
  | 4001 => "I/O load file error"
  | 4002 => "invalid message file"
  | 4003 => "I/O write file error"
  | 5000 => "Configuration information"
  | 5001 => "invalid configuration file"
  | 5002 => "unknown configuration key"
  | 5003 => "invalid locale"
  | 5004 => "invalid target"
  | 6000 => "Observability information"
  | 6001 => "Pipeline timings"
  | _ => "Unknown error"

def text (c : Code) : String :=
  s!"[{c.id}]: {c.title}"

end Code

end Phrasebook
