import Phrasebook.Json.Write

/-!
Log records: one JSON object a line.
-/
namespace Phrasebook

inductive LogLevel where
  | trace
  | debug
  | info
  | warn
  | error
  | fatal
  | panic
  | disabled
  deriving DecidableEq

namespace LogLevel

def name : LogLevel → String
  | .trace => "trace"
  | .debug => "debug"
  | .info => "info"
  | .warn => "warn"
  | .error => "error"
  | .fatal => "fatal"
  | .panic => "panic"
  | .disabled => "disabled"

def rank : LogLevel → Nat
  | .trace => 0
  | .debug => 1
  | .info => 2
  | .warn => 3
  | .error => 4
  | .fatal => 5
  | .panic => 6
  | .disabled => 7

/-- All levels from the most talkative on. -/
def all : List LogLevel :=
  [.trace, .debug, .info, .warn, .error, .fatal, .panic, .disabled]

end LogLevel

inductive LogValue where
  | text (s : String)
  | flag (b : Bool)
  | count (n : Nat)

structure LogRecord where
  level : LogLevel
  fields : List (String × LogValue)
  message : String

namespace LogRecord

def escapeChar (c : Char) : List Char :=
  if c = '\u2028' || c = '\u2029' then [c]
  else if c = '\x7f' then '\\' :: 'u' :: Text.hexDigits 4 c.toNat
  else Json.escapeChar false c

def quoted (s : String) : String :=
  String.ofList ('"' :: s.toList.flatMap escapeChar ++ ['"'])

def shownValue : LogValue → String
  | .text s => quoted s
  | .flag b => toString b
  | .count n => toString n

/-- The level, the fields in order and the message. -/
def line (r : LogRecord) : String :=
  let members := [("level", quoted r.level.name)] ++
    r.fields.map (fun (k, v) => (k, shownValue v)) ++ [("message", quoted r.message)]
  "\x7b" ++ ",".intercalate (members.map fun (k, v) => quoted k ++ ":" ++ v) ++ "\x7d\n"

end LogRecord

end Phrasebook
