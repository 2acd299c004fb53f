import Phrasebook.Locale.Common.Subtags
import Phrasebook.Locale.Data
import Phrasebook.Text.Blank
import Phrasebook.Text.Quoted

/-!
Locale names: a language, then a script, a region, variants and extensions as wanted, divided by
hyphens or low lines. Letter case does not matter. Only the language is kept: it alone decides how
numbers look here and which plural rules hold.
-/
namespace Phrasebook.CommonLocales

/-- No language in particular. -/
def undetermined : Locale := ⟨"und"⟩

inductive Fault where
  | malformed
  | unknownSubtag (subtag : String)
  deriving DecidableEq

def Fault.message : Fault → String
  | .malformed => "language: tag is not well-formed"
  | .unknownSubtag s => "language: subtag " ++ Text.quote s ++ " is well-formed but unknown"

/-- A part of a name, in lower case. -/
abbrev Subtag := List Char

def isSubtag (t : Subtag) : Bool :=
  !t.isEmpty && t.length ≤ 8 && t.all Char.isAlphanum

def isLanguage (t : Subtag) : Bool :=
  2 ≤ t.length && t.length ≤ 3 && t.all Char.isAlpha

/-- Whether a subtag stands where a further language does: three signs, the first a letter. -/
def standsForLanguage (t : Subtag) : Bool :=
  t.length = 3 && t.head?.any Char.isAlpha

def standsForScript (t : Subtag) : Bool :=
  t.length = 4 && t.head?.any Char.isAlpha

def standsForRegion (t : Subtag) : Bool :=
  t.length = 2 || t.length = 3

/-- Regions are two letters, or three digits. -/
def isRegion (t : Subtag) : Bool :=
  if t.length = 2 then t.all Char.isAlpha else t.all Char.isDigit

/-- Scripts for private use are `Qaaa` to `Qabx`. -/
def isPrivateScript (t : Subtag) : Bool :=
  match t with
  | ['q', 'a', 'a', _] => true
  | ['q', 'a', 'b', c] => c ≤ 'x'
  | _ => false

/-- The name of a language with a name of two letters as well, for those with rules of their own. -/
def shortName : String → String
  | "eng" => "en"
  | "deu" => "de"
  | "fra" => "fr"
  | "rus" => "ru"
  | "pol" => "pl"
  | "ara" => "ar"
  | "jpn" => "ja"
  | name => name

/-- The parts of a name in order. -/
structure Parts where
  languages : List Subtag
  script : Option Subtag
  region : Option Subtag
  variants : List Subtag
  rest : List Subtag

/-- Takes the first subtag off if it stands for what is asked. -/
def takeOne (p : Subtag → Bool) : List Subtag → Option Subtag × List Subtag
  | [] => (none, [])
  | t :: r => if p t then (some t, r) else (none, t :: r)

/-- Divides what follows the first language. -/
def Parts.ofSubtags (first : Subtag) (ts : List Subtag) : Parts :=
  let (script, afterScript) := takeOne standsForScript (ts.dropWhile standsForLanguage)
  let (region, afterRegion) := takeOne standsForRegion afterScript
  { languages := first :: ts.takeWhile standsForLanguage
    script
    region
    variants := afterRegion.takeWhile (4 ≤ ·.length)
    rest := afterRegion.dropWhile (4 ≤ ·.length) }

/-- Extensions: a single sign, then values of two signs or more. Behind `x` anything may stand. -/
def areExtensions (needsValue : Bool) : List Subtag → Bool
  | [] => !needsValue
  | t :: r =>
    if t.length = 1 then !needsValue && (if t = ['x'] then !r.isEmpty else areExtensions true r)
    else areExtensions false r

def Parts.isWellFormed (p : Parts) : Bool :=
  p.languages.all isLanguage && p.script.all (·.all Char.isAlpha) && p.region.all isRegion &&
    (p.rest.isEmpty || p.rest.head?.any (·.length = 1) && areExtensions false p.rest)

/-- The subtags of a well-formed name that are not registered, as they are shown. -/
def Parts.unknown (p : Parts) : List String :=
  let languages := p.languages.filter fun t =>
    t.length = 2 && !shortLanguages.contains (String.ofList t)
  let script := p.script.toList.filter fun t =>
    !isPrivateScript t && !scripts.contains (String.ofList t)
  let region := p.region.toList.filter fun t =>
    t.length = 2 && !regions.contains (String.ofList t)
  let variants := p.variants.filter fun t => !CommonLocales.variants.contains (String.ofList t)
  (languages ++ script.map (fun t => (t.take 1).map Char.toUpper ++ t.drop 1) ++
    region.map (·.map Char.toUpper) ++ variants).map String.ofList

/-- The language that counts is the last one. -/
def Parts.language (p : Parts) : String :=
  shortName (String.ofList (p.languages.getLast?.getD []))

/-- Reads a locale name. A part of the wrong form outweighs an unknown one. -/
def parse (name : String) : Except Fault Locale :=
  let cs := name.toList.map fun c => if c = '_' then '-' else c.toLower
  let ts := Text.splitAt '-' cs
  if wholeNames.contains (String.ofList cs) then
    .ok (if isLanguage (ts.headD []) then ⟨String.ofList (ts.headD [])⟩ else undetermined)
  else if !ts.all isSubtag then .error .malformed
  else
    match ts with
    | [] => .error .malformed
    | ['x'] :: r => if r.isEmpty then .error .malformed else .ok undetermined
    | first :: r =>
      let p := Parts.ofSubtags first r
      if !p.isWellFormed then .error .malformed
      else
        match p.unknown with
        | subtag :: _ => .error (.unknownSubtag subtag)
        | [] => .ok ⟨p.language⟩

end Phrasebook.CommonLocales
