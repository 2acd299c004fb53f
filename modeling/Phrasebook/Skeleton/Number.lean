import Phrasebook.Decimal.Read
import Phrasebook.Skeleton.Options
import Phrasebook.Text.Blank
import Phrasebook.Text.Case

/-!
Number skeletons: blank-separated tokens, each a stem with options behind slashes, such as
`currency/EUR .00 group-off`. Every token sets formatter options.
-/
namespace Phrasebook.Skeleton

/-- A token that cannot be converted. The offset counts bytes from the start of the skeleton. -/
structure Fault where
  offset : Nat
  token : String
  reason : String

def Fault.message (f : Fault) : String :=
  s!"skeleton token {Text.quote f.token} at {f.offset}: {f.reason}"

/-- A stem and its options, with the byte offset of the stem. -/
structure Token where
  stem : List Char
  options : List (List Char)
  offset : Nat

def Token.ofWord (offset : Nat) (word : List Char) : Token :=
  match Text.splitAt '/' word with
  | [] => ⟨[], [], offset⟩
  | stem :: options => ⟨stem, options, offset⟩

def byteLength (cs : List Char) : Nat :=
  cs.foldl (fun n c => n + c.utf8Size) 0

/-- The words between blanks with their offsets. `word` holds the reversed word that the text goes
on with; it started at `start`. -/
def words (start : Nat) (word : List Char) : Nat → List Char → List (Nat × List Char)
  | _, [] => if word.isEmpty then [] else [(start, word.reverse)]
  | off, c :: r =>
    if Text.isBlank c then
      if word.isEmpty then words start [] (off + c.utf8Size) r
      else (start, word.reverse) :: words start [] (off + c.utf8Size) r
    else words (if word.isEmpty then off else start) (c :: word) (off + c.utf8Size) r

def tokens (cs : List Char) : List Token :=
  (words 0 [] 0 cs).map fun (off, word) => Token.ofWord off word

/-- What a token does, or the reason why it does nothing. -/
abbrev Change := FormatOptions → Except String FormatOptions

def isAll (c : Char) (cs : List Char) : Bool :=
  cs.all (· == c)

/-- The one option of a token that takes exactly one. -/
def soleOption? (options : List (List Char)) : Option (List Char) :=
  match options with
  | [o] => if o.isEmpty then none else some o
  | _ => none

/-- Splits a trailing `+` or `*` off. -/
def splitOpen (cs : List Char) : List Char × Bool :=
  match cs.reverse with
  | '+' :: r => (r.reverse, true)
  | '*' :: r => (r.reverse, true)
  | _ => (cs, false)

/-- A run of `required` signs, then a run of `#`; an open run has no `#`. Gives both run lengths. -/
def precision? (required : Char) (cs : List Char) : Option (Nat × Nat × Bool) :=
  let (body, isOpen) := splitOpen cs
  let least := body.takeWhile (· == required)
  let more := body.dropWhile (· == required)
  if !isAll '#' more || (isOpen && !more.isEmpty) then none
  else some (least.length, more.length, isOpen)

/-- What stands behind the point: `00`, `0#`, `##`, `00+`. -/
def fractionPrecision? (o : FormatOptions) (cs : List Char) : Option FormatOptions :=
  match precision? '0' cs with
  | some (least, more, isOpen) =>
    if least + more = 0 then none
    else
      let o := o.setCount "minimumFractionDigits" least
      some (if isOpen then o else o.setCount "maximumFractionDigits" (least + more))
  | none => none

/-- Significant digits: `@@@`, `@##`, `@@+`. -/
def significantPrecision? (o : FormatOptions) (cs : List Char) : Option FormatOptions :=
  match precision? '@' cs with
  | some (least, more, isOpen) =>
    if least = 0 then none
    else
      let o := o.setCount "minimumSignificantDigits" least
      some (if isOpen then o else o.setCount "maximumSignificantDigits" (least + more))
  | none => none

/-- Options behind a fraction precision: `w`, or significant digits. -/
def fractionOptions (o : FormatOptions) : List (List Char) → Except String FormatOptions
  | [] => .ok o
  | opt :: r =>
    if opt == ['w'] then fractionOptions (o.setText "trailingZeroDisplay" "stripIfInteger") r
    else
      match significantPrecision? o opt with
      | some o => fractionOptions o r
      | none => .error ("invalid precision option " ++ Text.quote (String.ofList opt))

/-- Options behind an exponent notation. The width of the exponent is accepted and ignored. -/
def notationOptions (o : FormatOptions) : List (List Char) → Except String FormatOptions
  | [] => .ok o
  | opt :: r =>
    match String.ofList opt with
    | "sign-always" | "+!" => notationOptions (o.setText "signDisplay" "always") r
    | "sign-except-zero" | "+?" => notationOptions (o.setText "signDisplay" "exceptZero") r
    | "sign-never" | "+_" => notationOptions (o.setText "signDisplay" "never") r
    | name =>
      if "*e".isPrefixOf name || "+e".isPrefixOf name then notationOptions o r
      else .error ("unknown notation option " ++ Text.quote name)

/-- The types that a unit may be written behind. -/
def unitTypes : List String :=
  ["acceleration", "angle", "area", "concentr", "consumption", "digital", "duration", "electric",
    "energy", "force", "frequency", "graphics", "length", "light", "mass", "power", "pressure",
    "speed", "temperature", "torque", "volume"]

/-- Drops the type in front of a unit: always if a type is expected, else only a known one. -/
def unitName (typed : Bool) (unit : List Char) : String :=
  let type := unit.takeWhile (· != '-')
  match unit.dropWhile (· != '-') with
  | [] => String.ofList unit
  | _ :: name =>
    if typed || unitTypes.contains (String.ofList type) then String.ofList name
    else String.ofList unit

def currencyChange (options : List (List Char)) : Change := fun o =>
  match soleOption? options with
  | some code =>
    if byteLength code ≠ 3 then .error "currency requires a three-letter ISO code"
    else .ok ((o.setText "style" "currency").setText "currency"
      (Text.upperText (String.ofList code)))
  | none => .error "currency requires a three-letter ISO code"

def unitChange (typed : Bool) (options : List (List Char)) : Change := fun o =>
  match soleOption? options with
  | some unit => .ok ((o.setText "style" "unit").setText "unit" (unitName typed unit))
  | none => .error "unit requires a unit identifier"

def scaleChange (options : List (List Char)) : Change := fun o =>
  match soleOption? options with
  | some raw =>
    match Decimal.read? raw with
    | some x => .ok (o.set "scale" (.number x))
    | none => .error "scale factor is not a number"
  | none => .error "scale requires a factor"

def integerWidthChange (options : List (List Char)) : Change := fun o =>
  match soleOption? options with
  | some (c :: ds) =>
    if ds.isEmpty || (c != '*' && c != '+') || !isAll '0' ds then
      .error "only integer-width/*000 is supported"
    else .ok (o.setCount "minimumIntegerDigits" ds.length)
  | _ => .error "integer-width requires a width"

/-- Stems that are built of repeated signs: integer digits, fractions, significant digits. -/
def precisionChange (t : Token) : Change := fun o =>
  if isAll '0' t.stem then .ok (o.setCount "minimumIntegerDigits" t.stem.length)
  else
    match t.stem with
    | '.' :: fraction =>
      match fractionPrecision? o fraction with
      | some o => fractionOptions o t.options
      | none => .error "invalid fraction precision"
    | '@' :: _ =>
      match significantPrecision? o t.stem with
      | some o => .ok o
      | none => .error "invalid significant precision"
    | _ => .error "unknown number skeleton token"

def texts (pairs : List (String × String)) : Change := fun o =>
  .ok (pairs.foldl (fun o (k, v) => o.setText k v) o)

def Token.change (t : Token) : Change :=
  match String.ofList t.stem with
  | "percent" | "%" => texts [("style", "percent")]
  | "%x100" => fun o => .ok ((o.setText "style" "percent").setCount "scale" 100)
  | "permille" => fun _ => .error "permille is not supported by Intl.NumberFormat"
  | "currency" => currencyChange t.options
  | "measure-unit" => unitChange true t.options
  | "unit" => unitChange false t.options
  | "group-off" | ",_" => fun o => .ok (o.set "useGrouping" (.flag false))
  | "precision-integer" | "." => fun o => .ok (o.setCount "maximumFractionDigits" 0)
  | "compact-short" | "K" => texts [("notation", "compact"), ("compactDisplay", "short")]
  | "compact-long" | "KK" => texts [("notation", "compact"), ("compactDisplay", "long")]
  | "scientific" => fun o => notationOptions (o.setText "notation" "scientific") t.options
  | "engineering" => fun o => notationOptions (o.setText "notation" "engineering") t.options
  | "notation-simple" => texts [("notation", "standard")]
  | "sign-auto" => texts [("signDisplay", "auto")]
  | "sign-always" | "+!" => texts [("signDisplay", "always")]
  | "sign-never" | "+_" => texts [("signDisplay", "never")]
  | "sign-except-zero" | "+?" => texts [("signDisplay", "exceptZero")]
  | "sign-accounting" | "()" => texts [("currencySign", "accounting")]
  | "sign-accounting-always" | "()!" =>
    texts [("signDisplay", "always"), ("currencySign", "accounting")]
  | "sign-accounting-except-zero" | "()?" =>
    texts [("signDisplay", "exceptZero"), ("currencySign", "accounting")]
  | "unit-width-narrow" => texts [("currencyDisplay", "narrowSymbol"), ("unitDisplay", "narrow")]
  | "unit-width-short" => texts [("currencyDisplay", "code"), ("unitDisplay", "short")]
  | "unit-width-full-name" => texts [("currencyDisplay", "name"), ("unitDisplay", "long")]
  | "unit-width-iso-code" => texts [("currencyDisplay", "symbol")]
  | "scale" => scaleChange t.options
  | "integer-width" => integerWidthChange t.options
  | _ => precisionChange t

def Token.apply (t : Token) (o : FormatOptions) : Except Fault FormatOptions :=
  match t.change o with
  | .ok o => .ok o
  | .error reason => .error ⟨t.offset, String.ofList t.stem, reason⟩

/-- The formatter options of a number skeleton. -/
def parseNumber (cs : List Char) : Except Fault FormatOptions :=
  (tokens cs).foldlM (fun o t => t.apply o) []

end Phrasebook.Skeleton
