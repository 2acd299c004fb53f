import Phrasebook.Text.Quoted

/-!
JSON documents as they are written: members stay in the order given, and characters that would
end a script element are escaped.
-/
namespace Phrasebook

/-- A JSON document. Numbers are kept as they are spelled. -/
inductive Json where
  | null
  | bool (b : Bool)
  | number (spelling : String)
  | string (s : String)
  | array (items : List Json)
  | object (members : List (String × Json))

namespace Json

def ofNat (n : Nat) : Json :=
  .number (toString n)

def escapeChar (html : Bool) (c : Char) : List Char :=
  match c with
  | '"' => ['\\', '"']
  | '\\' => ['\\', '\\']
  | '\x08' => ['\\', 'b']
  | '\x0c' => ['\\', 'f']
  | '\n' => ['\\', 'n']
  | '\r' => ['\\', 'r']
  | '\t' => ['\\', 't']
  | _ =>
    if c.toNat < 0x20 || c = '\u2028' || c = '\u2029'
        || (html && (c = '<' || c = '>' || c = '&')) then
      '\\' :: 'u' :: Text.hexDigits 4 c.toNat
    else [c]

def quoted (html : Bool) (s : String) : String :=
  String.ofList ('"' :: s.toList.flatMap (escapeChar html) ++ ['"'])

mutual

/-- On one line, without blanks. -/
def compact (html : Bool) : Json → String
  | .null => "null"
  | .bool b => toString b
  | .number n => n
  | .string s => quoted html s
  | .array items => "[" ++ compactItems html items ++ "]"
  | .object members => "\x7b" ++ compactMembers html members ++ "\x7d"

def compactItems (html : Bool) : List Json → String
  | [] => ""
  | [x] => compact html x
  | x :: r => compact html x ++ "," ++ compactItems html r

def compactMembers (html : Bool) : List (String × Json) → String
  | [] => ""
  | [(k, v)] => quoted html k ++ ":" ++ compact html v
  | (k, v) :: r => quoted html k ++ ":" ++ compact html v ++ "," ++ compactMembers html r

end

/-- How keys and strings are put in quotes. -/
structure Quoting where
  key : String → String
  text : String → String

/-- Everything is escaped, also what would end a script element. -/
def Quoting.safe : Quoting := ⟨quoted true, quoted true⟩

/-- Keys are taken to need no escapes. -/
def Quoting.bareKeys : Quoting := ⟨fun k => "\"" ++ k ++ "\"", quoted false⟩

mutual

/-- One item or member a line, indented by two blanks a level. -/
def prettyWith (q : Quoting) (indent : String) : Json → String
  | .array items =>
    if items.isEmpty then "[]"
    else "[\n" ++ prettyItems q (indent ++ "  ") items ++ "\n" ++ indent ++ "]"
  | .object members =>
    if members.isEmpty then "\x7b\x7d"
    else "\x7b\n" ++ prettyMembers q (indent ++ "  ") members ++ "\n" ++ indent ++ "\x7d"
  | .null => "null"
  | .bool b => toString b
  | .number n => n
  | .string s => q.text s

def prettyItems (q : Quoting) (indent : String) : List Json → String
  | [] => ""
  | [x] => indent ++ prettyWith q indent x
  | x :: r => indent ++ prettyWith q indent x ++ ",\n" ++ prettyItems q indent r

def prettyMembers (q : Quoting) (indent : String) : List (String × Json) → String
  | [] => ""
  | [(k, v)] => indent ++ q.key k ++ ": " ++ prettyWith q indent v
  | (k, v) :: r =>
    indent ++ q.key k ++ ": " ++ prettyWith q indent v ++ ",\n" ++ prettyMembers q indent r

end

def pretty (j : Json) : String :=
  prettyWith .safe "" j

end Json

end Phrasebook
