import Phrasebook.Decimal.Whole

/-!
Flags on a command line: `--name value`, `--name=value`, and single letters behind one hyphen.
Words that are no flags may stand between them; after `--` there are no more flags.
-/
namespace Phrasebook.Command

inductive FlagKind where
  | text
  | truth
  | whole
  deriving DecidableEq

structure Flag where
  name : String
  letter : Option Char
  kind : FlagKind
  usage : String
  /-- The value without the flag, empty if it goes without saying. -/
  standard : String

namespace Flag

def ofText (name usage : String) : Flag := ⟨name, none, .text, usage, ""⟩
def ofTruth (name usage : String) : Flag := ⟨name, none, .truth, usage, ""⟩

/-- The flag as messages name it. -/
def shown (f : Flag) : String :=
  (match f.letter with
    | some c => String.ofList ['-', c, ',', ' ']
    | none => "") ++ "--" ++ f.name

/-- Why a flag does not take a value. -/
def refusal? (f : Flag) (value : String) : Option String :=
  match f.kind with
  | .text => none
  | .truth =>
    match Decimal.truth value with
    | .ok _ => none
    | .error e => some (Decimal.truthMessage value e)
  | .whole =>
    match Decimal.signed true 64 value with
    | .ok _ => none
    | .error e => some (Decimal.signedMessage value e)

end Flag

inductive FlagError where
  | malformed (word : String)
  | unknown (name : String)
  | unknownLetter (letter : Char) (letters : List Char)
  | noValue (word : String)
  | invalid (flag : Flag) (value reason : String)

def FlagError.message : FlagError → String
  | .malformed word => "bad flag syntax: " ++ word
  | .unknown name => "unknown flag: --" ++ name
  | .unknownLetter c letters =>
    "unknown shorthand flag: '" ++ String.ofList [c] ++ "' in -" ++ String.ofList letters
  | .noValue word => "flag needs an argument: " ++ word
  | .invalid f value reason =>
    s!"invalid argument {Text.quote value} for {Text.quote f.shown} flag: {reason}"

/-- What a command line gives: values of flags, the last first, and the other words. -/
structure Given where
  values : List (String × String)
  words : List String

namespace Given

def none : Given := ⟨[], []⟩

def value? (g : Given) (name : String) : Option String :=
  (g.values.find? (·.1 == name)).map (·.2)

def text (g : Given) (name standard : String) : String :=
  (g.value? name).getD standard

def truth (g : Given) (name : String) : Bool :=
  match g.value? name with
  | some v => (Decimal.truth v).toOption.getD false
  | Option.none => false

def whole? (g : Given) (name : String) : Option Int :=
  (g.value? name).bind fun v => (Decimal.signed true 64 v).toOption

def whole (g : Given) (name : String) (standard : Int) : Int :=
  (g.whole? name).getD standard

def addWord (g : Given) (word : String) : Given :=
  { g with words := g.words ++ [word] }

def add (g : Given) (f : Flag) (value : String) : Except FlagError Given :=
  match f.refusal? value with
  | some reason => .error (.invalid f value reason)
  | Option.none => .ok { g with values := (f.name, value) :: g.values }

end Given

/-- Flags written as letters in one word. All such flags are switches; a value may follow the last
one behind an equals sign. -/
def readLetters (flags : List Flag) (g : Given) : List Char → Except FlagError Given
  | [] => .ok g
  | c :: rest =>
    match flags.find? (·.letter == some c) with
    | none => .error (.unknownLetter c (c :: rest))
    | some f =>
      match rest with
      | '=' :: v :: vs => g.add f (String.ofList (v :: vs))
      | _ =>
        match g.add f "true" with
        | .ok g => readLetters flags g rest
        | .error e => .error e

/-- How a word that may be a flag goes on. -/
inductive FlagWord where
  | word
  | stop
  | letters (cs : List Char)
  | refused (e : FlagError)
  | complete (f : Flag) (value : String)
  | waiting (f : Flag)

def classify (flags : List Flag) (word : String) : FlagWord :=
  match word.toList with
  | ['-', '-'] => .stop
  | '-' :: '-' :: body =>
    if body.head? == some '-' || body.head? == some '=' then .refused (.malformed word)
    else
      let name := String.ofList (body.takeWhile (· != '='))
      match flags.find? (·.name == name), body.dropWhile (· != '=') with
      | none, _ => .refused (.unknown name)
      | some f, _ :: value => .complete f (String.ofList value)
      | some f, [] => if f.kind = .truth then .complete f "true" else .waiting f
  | '-' :: c :: cs => .letters (c :: cs)
  | _ => .word

/-- Reads the words of a command line from left to right up to the first error. -/
def readFlags (flags : List Flag) (g : Given) : List String → Except FlagError Given
  | [] => .ok g
  | word :: [] =>
    match classify flags word with
    | .word => .ok (g.addWord word)
    | .stop => .ok g
    | .letters cs => readLetters flags g cs
    | .refused e => .error e
    | .complete f v => g.add f v
    | .waiting _ => .error (.noValue word)
  | word :: next :: rest =>
    match classify flags word with
    | .word => readFlags flags (g.addWord word) (next :: rest)
    | .stop => .ok { g with words := g.words ++ next :: rest }
    | .letters cs => do readFlags flags (← readLetters flags g cs) (next :: rest)
    | .refused e => .error e
    | .complete f v => do readFlags flags (← g.add f v) (next :: rest)
    | .waiting f => do readFlags flags (← g.add f next) rest

end Phrasebook.Command
