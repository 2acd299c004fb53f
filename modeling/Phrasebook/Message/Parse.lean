import Phrasebook.Message.Cursor
import Phrasebook.Message.Fault
import Phrasebook.Message.Node
import Phrasebook.Skeleton.Date
import Phrasebook.Text.Normal

/-!
Reading messages. A text is read to a list of elements or refused with the first fault in it.

Every argument, case body and tag takes one level of a nesting budget, and the recursion is on that
budget. Lists of siblings and of cases are read in loops that run at most once a character.
-/
namespace Phrasebook.Message

/-- Something read, and the cursor behind it. -/
abbrev Read (α : Type) := α × Cursor

/-- Reads something where a cursor stands. -/
abbrev Reader (α : Type) := Cursor → Except Fault (Read α)

def fail {α : Type} (cause : Cause) (span : Span) : Except Fault α :=
  .error ⟨cause, span⟩

/-- How the bodies below one level are read; a reader is missing where the budget is used up. The
truth value tells whether the body stands in a plural. -/
structure Inner where
  tagBody : Option (Bool → Reader (List Node))
  caseBody : Option (Bool → Reader (List Node))

/-- What does not change while one text is read. -/
structure Context where
  file : UInt32
  limit : Nat

/-- The fault of a closing brace or tag that closes nothing. -/
def unexpectedCloser (ctx : Context) (c : Cursor) : Fault :=
  match c.eat? '}' with
  | some c' => ⟨.unmatchedBrace, c.spanTo ctx.file c'⟩
  | none =>
    let c₁ := (c.eatWord? ['<', '/']).getD c
    let (name, c₂) := scanTagName c₁
    let c₃ := (c₂.eat? '>').getD c₂
    let text := "</" ++ name ++ (if c₃ = c₂ then "" else ">")
    ⟨.unmatchedClosingTag text, c.spanTo ctx.file c₃⟩

/-- Reads siblings until the text, or what encloses them, ends. -/
def readSiblings (element : Reader Node) : Nat → Reader (List Node)
  | 0, c => .ok ([], c)
  | fuel + 1, c =>
    match c.rest with
    | [] => .ok ([], c)
    | '}' :: _ => .ok ([], c)
    | '<' :: '/' :: _ => .ok ([], c)
    | _ => do
      let (n, c) ← element c
      let (ns, c) ← readSiblings element fuel c
      return (n :: ns, c)

/-! ### Tags -/

/-- Reads the rest of a tag behind its opening tag, which spans from `start` to `c`. -/
def readTagBody (ctx : Context) (body : Reader (List Node)) (start : Cursor)
    (name : String) (nameSpan : Span) (c : Cursor) : Except Fault (Read Node) := do
  let openSpan := start.spanTo ctx.file c
  let (children, closing) ← body c
  if closing.rest.head? ≠ some '<' then fail (.unclosedTag name) openSpan
  else
    let (closeName, c) := scanTagName ((closing.eatWord? ['<', '/']).getD closing)
    let c := c.skipBlank
    match c.eat? '>' with
    | none => fail (.unclosedClosingTag closeName) (closing.spanTo ctx.file c)
    | some c =>
      if closeName ≠ name then
        fail (.mismatchedTag closeName name openSpan) (closing.spanTo ctx.file c)
      else return (.tag (start.spanTo ctx.file c) name nameSpan false children, c)

/-- Reads `<name>…</name>` or `<name/>`, of which `inside` stands behind the first sign. -/
def readTag (ctx : Context) (inner : Inner) (inPlural : Bool) (start inside : Cursor) :
    Except Fault (Read Node) :=
  let (name, c) := scanTagName inside
  let nameSpan := inside.spanTo ctx.file c
  match inner.tagBody with
  | none => fail (.tooDeep ctx.limit) (start.spanTo ctx.file c)
  | some body =>
    let c := c.skipBlank
    match c.eatWord? ['/', '>'] with
    | some c => return (.tag (start.spanTo ctx.file c) name nameSpan true [], c)
    | none =>
      match c.eat? '>' with
      | some c => readTagBody ctx (body inPlural) start name nameSpan c
      | none =>
        if c.isDone then fail (.unclosedTag name) (start.spanTo ctx.file c)
        else
          let stop := (c.takeWhile fun ch => ch != '>' && ch != '/').2
          fail (.tagAttributes name) (c.spanTo ctx.file stop)

/-! ### Formatted arguments -/

/-- The blanks that are skipped in front of a date skeleton when a fault in it is located. -/
def isPlainBlank (c : Char) : Bool :=
  c == ' ' || c == '\t' || c == '\r' || c == '\n'

/-- The options of a skeleton, given its raw text and the byte offset of that text. -/
def skeletonOptions (ctx : Context) (kind : FormatKind) (raw : List Char) (offset : Nat) :
    Except Fault FormatOptions :=
  let (result, base) := match kind with
    | .number => (Skeleton.parseNumber raw, offset)
    | _ => (Skeleton.parseDate (Text.trimBlank raw),
        offset + Skeleton.byteLength (raw.takeWhile isPlainBlank))
  match result with
  | .ok o => .ok o
  | .error f =>
    let start := base + f.offset
    fail (.invalidSkeleton f.token f.reason)
      (Span.between ctx.file start (start + f.token.utf8ByteSize))

/-- Reads the style of a formatted argument and the brace behind it. -/
def readStyle (ctx : Context) (start : Cursor) (kind : FormatKind) (c : Cursor) :
    Except Fault (Read Style) := do
  let styleStart := c.skipBlank
  let marked := styleStart.eatWord? [':', ':']
  let textStart := marked.getD styleStart
  let (raw, c) := textStart.takeWhile fun ch => ch != '}' && ch != '{'
  if c.rest.head? = some '{' then fail .braceInStyle (c.here ctx.file)
  else
    match c.eat? '}' with
    | none => fail .unclosedArgument (start.spanTo ctx.file c)
    | some closed =>
      let span := styleStart.spanTo ctx.file c
      let text := String.ofList (Text.trimBlank raw)
      match marked with
      | none =>
        if text = "" then fail .missingStyle span else return (.named text span, closed)
      | some _ =>
        let options ← skeletonOptions ctx kind raw textStart.offset
        return (.skeleton text options span, closed)

/-- Reads the rest of a formatted argument behind its type. -/
def readFormat (ctx : Context) (start : Cursor) (kind : FormatKind) (name : String)
    (nameSpan : Span) (c : Cursor) : Except Fault (Read Node) := do
  let c := c.skipBlank
  if c.isDone then fail .unclosedArgument (start.spanTo ctx.file c)
  else
    match c.eat? '}' with
    | some c => return (.format (start.spanTo ctx.file c) kind name nameSpan .default, c)
    | none =>
      match c.eat? ',' with
      | none => fail .typeNotEnded (c.here ctx.file)
      | some c =>
        let (style, c) ← readStyle ctx start kind c
        return (.format (start.spanTo ctx.file c) kind name nameSpan style, c)

/-! ### Choices -/

/-- Reads the number behind `offset:`. -/
def readOffset (ctx : Context) (c : Cursor) : Except Fault (Read Float) :=
  let start := c.skipBlank
  let (digits, c) := start.takeWhile Char.isDigit
  if digits.isEmpty then fail .missingOffset (c.here ctx.file)
  else
    match Decimal.read? digits with
    | some x => .ok (x, c)
    | none => fail .offsetRange (start.spanTo ctx.file c)

/-- Reads a selector. -/
def readKey (ctx : Context) (plural : Bool) (start : Cursor) : Except Fault (Read String) :=
  match if plural then start.eat? '=' else none with
  | some c =>
    let (digits, c) := c.takeWhile isNumberChar
    let key := String.ofList ('=' :: digits)
    if (Decimal.read? digits).isNone then fail (.invalidExact key) (start.spanTo ctx.file c)
    else .ok (key, c)
  | none =>
    let (key, c) := scanName start
    if key = "" then fail .missingSelector (c.here ctx.file)
    else if plural && !pluralCategories.contains key then
      fail (.invalidCategory key) (start.spanTo ctx.file c)
    else .ok (key, c)

/-- Reads the body of a case, braces included. -/
def readBody (ctx : Context) (body : Option (Reader (List Node))) (start : Cursor)
    (key : String) (c : Cursor) : Except Fault (Read (List Node)) := do
  let c := c.skipBlank
  match c.eat? '{' with
  | none =>
    if c.isDone then fail .unclosedArgument (start.spanTo ctx.file c)
    else fail (.missingBody key) (c.here ctx.file)
  | some inside =>
    match body with
    | none => fail (.tooDeep ctx.limit) (c.spanTo ctx.file inside)
    | some body =>
      let (nodes, stop) ← body inside
      if stop.isDone then fail (.unclosedCase key) (c.spanTo ctx.file stop)
      else
        match stop.eat? '}' with
        | some closed => return (nodes, closed)
        | none => .error (unexpectedCloser ctx stop)

/-- The cases of a choice and its offset. -/
structure Cases where
  cases : List (Branch Node)
  offset : Float

/-- Reads one case. -/
def readCase (ctx : Context) (plural : Bool) (body : Option (Reader (List Node)))
    (start : Cursor) (earlier : List (Branch Node)) (c : Cursor) :
    Except Fault (Read (Branch Node)) := do
  let (key, afterKey) ← readKey ctx plural c
  let keySpan := c.spanTo ctx.file afterKey
  match earlier.find? (·.key == key) with
  | some first => fail (.duplicateSelector key first.keySpan) keySpan
  | none =>
    let (nodes, stop) ← readBody ctx body start key afterKey
    return (⟨key, keySpan, c.spanTo ctx.file stop, nodes⟩, stop)

/-- Reads cases up to the closing brace of the argument. Offsets may stand before the first case
only, and the last of them counts. -/
def readCases (ctx : Context) (plural : Bool) (body : Option (Reader (List Node)))
    (start : Cursor) : Nat → Cases → Cursor → Except Fault (Read Cases)
  | 0, _, c => fail .unclosedArgument (start.spanTo ctx.file c)
  | fuel + 1, done, c => do
    let c := c.skipBlank
    if c.isDone then fail .unclosedArgument (start.spanTo ctx.file c)
    else
      match c.eat? '}' with
      | some closed =>
        if done.cases.isEmpty then fail .noCases (start.spanTo ctx.file closed)
        else return (done, closed)
      | none =>
        match if plural && done.cases.isEmpty then c.eatWord? "offset:".toList else none with
        | some c =>
          let (offset, c) ← readOffset ctx c
          readCases ctx plural body start fuel { done with offset } c
        | none =>
          let (case, c) ← readCase ctx plural body start done.cases c
          readCases ctx plural body start fuel { done with cases := done.cases ++ [case] } c

/-- Reads the comma behind the type of a choice, and its cases. -/
def readChoice (ctx : Context) (inner : Inner) (inPlural plural : Bool) (start c : Cursor) :
    Except Fault (Read Cases) :=
  let c := c.skipBlank
  if c.isDone then fail .unclosedArgument (start.spanTo ctx.file c)
  else
    match c.eat? ',' with
    | none => fail .missingCases (c.here ctx.file)
    | some c =>
      readCases ctx plural (inner.caseBody.map fun read => read (inPlural || plural)) start
        (c.rest.length + 1) ⟨[], 0⟩ c

/-! ### Arguments -/

/-- Reads what follows the type of an argument. -/
def readTyped (ctx : Context) (inner : Inner) (inPlural : Bool) (start : Cursor) (name : String)
    (nameSpan : Span) (type : String) (typeSpan : Span) (c : Cursor) : Except Fault (Read Node) :=
  match type with
  | "number" => readFormat ctx start .number name nameSpan c
  | "date" => readFormat ctx start .date name nameSpan c
  | "time" => readFormat ctx start .time name nameSpan c
  | "select" => do
    let (cs, c) ← readChoice ctx inner inPlural false start c
    return (.select (start.spanTo ctx.file c) name nameSpan cs.cases, c)
  | "plural" => do
    let (cs, c) ← readChoice ctx inner inPlural true start c
    return (.plural (start.spanTo ctx.file c) name nameSpan cs.offset .cardinal cs.cases, c)
  | "selectordinal" => do
    let (cs, c) ← readChoice ctx inner inPlural true start c
    return (.plural (start.spanTo ctx.file c) name nameSpan cs.offset .ordinal cs.cases, c)
  | _ => fail (.unknownType type) typeSpan

/-- Reads what follows the name of an argument. -/
def readNamed (ctx : Context) (inner : Inner) (inPlural : Bool) (start : Cursor) (name : String)
    (nameSpan : Span) (c : Cursor) : Except Fault (Read Node) :=
  let c := c.skipBlank
  if c.isDone then fail .unclosedArgument (start.spanTo ctx.file c)
  else
    match c.eat? '}' with
    | some c => .ok (.argument (start.spanTo ctx.file c) name nameSpan, c)
    | none =>
      match c.eat? ',' with
      | none => fail .nameNotEnded (c.here ctx.file)
      | some c =>
        let typeStart := c.skipBlank
        let (type, c) := scanName typeStart
        if type = "" then
          if c.isDone then fail .unclosedArgument (start.spanTo ctx.file c)
          else fail .missingType (c.here ctx.file)
        else readTyped ctx inner inPlural start name nameSpan type (typeStart.spanTo ctx.file c) c

/-- Reads an argument; `inside` stands behind its opening brace. -/
def readArgument (ctx : Context) (inner : Inner) (inPlural : Bool) (start inside : Cursor) :
    Except Fault (Read Node) :=
  if inner.tagBody.isNone then fail (.tooDeep ctx.limit) (start.spanTo ctx.file inside)
  else
    let nameStart := inside.skipBlank
    if nameStart.isDone then fail .unclosedArgument (start.spanTo ctx.file nameStart)
    else
      match nameStart.eat? '}' with
      | some c => fail .emptyArgument (start.spanTo ctx.file c)
      | none =>
        let (name, c) := scanName nameStart
        if name = "" then fail .invalidName (c.here ctx.file)
        else readNamed ctx inner inPlural start name (nameStart.spanTo ctx.file c) c

/-! ### Messages -/

/-- Reads a run of literal text. -/
def readLiteral (ctx : Context) (inPlural : Bool) (c : Cursor) : Except Fault (Read Node) :=
  let (text, left) := readText inPlural .plain c.rest
  let stop := c.skip (c.rest.take (c.rest.length - left.length)) left
  .ok (.literal (c.spanTo ctx.file stop) (String.ofList text), stop)

/-- Reads the element that the text goes on with. -/
def readElement (ctx : Context) (inner : Inner) (inPlural : Bool) (c : Cursor) :
    Except Fault (Read Node) :=
  match c.rest with
  | '{' :: r => readArgument ctx inner inPlural c (c.skip ['{'] r)
  | '<' :: r =>
    if r.head?.any isTagStart then readTag ctx inner inPlural c (c.skip ['<'] r)
    else readLiteral ctx inPlural c
  | '#' :: r =>
    if inPlural then
      let stop := c.skip ['#'] r
      .ok (.pound (c.spanTo ctx.file stop), stop)
    else readLiteral ctx inPlural c
  | _ => readLiteral ctx inPlural c

/-- Reads siblings with a budget of nesting levels: a tag body takes one, a case body two. -/
def readNodes (ctx : Context) : Nat → Bool → Reader (List Node)
  | 0, inPlural, c => readSiblings (readElement ctx ⟨none, none⟩ inPlural) c.rest.length c
  | 1, inPlural, c =>
    readSiblings (readElement ctx ⟨some (readNodes ctx 0), none⟩ inPlural) c.rest.length c
  | budget + 2, inPlural, c =>
    readSiblings (readElement ctx ⟨some (readNodes ctx (budget + 1)), some (readNodes ctx budget)⟩
      inPlural) c.rest.length c

/-- The nesting limit when none is given. -/
def defaultLimit : Nat := 64

/-- Reads characters as a message. -/
def parseChars (file : UInt32) (limit : Nat) (cs : List Char) : Except Fault (List Node) := do
  let ctx : Context := ⟨file, limit⟩
  let (nodes, c) ← readNodes ctx limit false ⟨0, cs⟩
  if c.isDone then return nodes else .error (unexpectedCloser ctx c)

/-- Why a text is not read: a fault in it, or that 32 bits do not count its bytes. -/
inductive Refusal where
  | fault (f : Fault)
  | overflow

/-- Reads a byte text as a message with at most `limit` levels of nesting. -/
def parse (file : UInt32) (limit : Nat) (content : Bytes) : Except Refusal (List Node) :=
  if UInt32.size ≤ content.length then .error .overflow
  else
    match Utf8.decode? content with
    | some cs => (parseChars file limit cs).mapError .fault
    | none => .error (.fault ⟨.invalidEncoding, Span.between file 0 content.length⟩)

/-- Who hears of a fault: with a maximum, only while fewer faults were seen before. -/
structure Reporting where
  maxErrors : Nat
  currentErrors : Nat

def Reporting.enough (r : Reporting) : Bool :=
  r.maxErrors ≠ 0 && r.currentErrors ≥ r.maxErrors

/-- The diagnostics that are reported for an outcome. -/
def Reporting.reported {α : Type} (r : Reporting) : Except Refusal α → List Diagnostic
  | .error (.fault f) => if r.enough then [] else [f.diagnostic]
  | _ => []

/-- A limit of no level or fewer means the default. -/
def effectiveLimit (limit : Int) : Nat :=
  if limit ≤ 0 then defaultLimit else limit.toNat

end Phrasebook.Message
