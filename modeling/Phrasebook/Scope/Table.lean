import Phrasebook.Scope.Name
import Phrasebook.Source.Span
import Phrasebook.Text.Quoted

/-!
Scope tables: scopes with their parents, the symbols bound in them, and fresh names. Ids are numbers
without a bound that count from one; zero is no id.
-/
namespace Phrasebook

/-- What a scope belongs to. -/
structure ScopeKind where
  code : UInt8
  deriving DecidableEq

namespace ScopeKind

def invalid : ScopeKind := ⟨0⟩
/-- The scope of a module, for shared constants and functions. -/
def module : ScopeKind := ⟨1⟩
/-- The scope of one message's function. -/
def message : ScopeKind := ⟨2⟩

def name (k : ScopeKind) : String :=
  match k.code.toNat with
  | 1 => "module"
  | 2 => "message"
  | _ => "invalid"

end ScopeKind

/-- What a name stands for. -/
structure SymbolKind where
  code : UInt8
  deriving DecidableEq

namespace SymbolKind

def imported : SymbolKind := ⟨1⟩
def constant : SymbolKind := ⟨2⟩
def function : SymbolKind := ⟨3⟩
def param : SymbolKind := ⟨4⟩
def global : SymbolKind := ⟨5⟩

def name (k : SymbolKind) : String :=
  match k.code.toNat with
  | 1 => "import"
  | 2 => "const"
  | 3 => "function"
  | 4 => "param"
  | 5 => "global"
  | _ => "invalid"

end SymbolKind

abbrev ScopeId := Nat
abbrev SymbolId := Nat

structure Symbol where
  name : String
  kind : SymbolKind
  scope : ScopeId
  span : Span

structure Scope where
  kind : ScopeKind
  parent : ScopeId
  span : Span
  names : List (String × SymbolId)
  symbols : List SymbolId
  children : List ScopeId

def Scope.find? (s : Scope) (name : String) : Option SymbolId :=
  (s.names.find? (·.1 == name)).map (·.2)

/-- Scopes and symbols in the order of their ids, and every name bound so far. -/
structure ScopeTable where
  scopes : List Scope
  symbols : List Symbol
  taken : List String

namespace ScopeTable

def empty : ScopeTable := ⟨[], [], []⟩

/-- The place of an id in its list. -/
def index? : Nat → Option Nat
  | 0 => none
  | id + 1 => some id

def scope? (t : ScopeTable) (id : ScopeId) : Option Scope :=
  (index? id).bind fun i => t.scopes[i]?

def symbol? (t : ScopeTable) (id : SymbolId) : Option Symbol :=
  (index? id).bind fun i => t.symbols[i]?

def modifyScope (t : ScopeTable) (id : ScopeId) (f : Scope → Scope) : ScopeTable :=
  match index? id with
  | some i => { t with scopes := t.scopes.modify i f }
  | none => t

def modifySymbol (t : ScopeTable) (id : SymbolId) (f : Symbol → Symbol) : ScopeTable :=
  match index? id with
  | some i => { t with symbols := t.symbols.modify i f }
  | none => t

/-- Adds a scope below `parent`. -/
def newScope (t : ScopeTable) (kind : ScopeKind) (parent : ScopeId) (span : Span) :
    ScopeTable × ScopeId :=
  let id := t.scopes.length + 1
  let added : Scope := ⟨kind, parent, span, [], [], []⟩
  let t' := { t with scopes := t.scopes ++ [added] }
  (t'.modifyScope parent fun p => { p with children := p.children ++ [id] }, id)

/-- Adds a symbol that no scope knows of yet. -/
def newSymbol (t : ScopeTable) (s : Symbol) : ScopeTable × SymbolId :=
  ({ t with symbols := t.symbols ++ [s] }, t.symbols.length + 1)

/-- Why a name cannot be bound. -/
inductive BindError where
  | unknownScope (name : String) (scope : ScopeId)
  | duplicate (name : String) (kind : ScopeKind) (scope : ScopeId)
  deriving DecidableEq

def BindError.message : BindError → String
  | .unknownScope name scope => s!"declare {Text.quote name}: unknown scope {scope}"
  | .duplicate name kind scope =>
    s!"duplicate binding: {Text.quote name} in {kind.name} scope {scope}"

/-- Sets the symbol of a name in an index. -/
def setName (names : List (String × SymbolId)) (name : String) (id : SymbolId) :
    List (String × SymbolId) :=
  if names.any (·.1 == name) then names.map fun p => if p.1 == name then (name, id) else p
  else names ++ [(name, id)]

/-- Binds a name in a scope. A name of an enclosing scope may be bound again, one of the same scope
may not. -/
def declare (t : ScopeTable) (scope : ScopeId) (name : String) (kind : SymbolKind) (span : Span) :
    Except BindError (ScopeTable × SymbolId) :=
  match t.scope? scope with
  | none => .error (.unknownScope name scope)
  | some s =>
    if (s.find? name).isSome then .error (.duplicate name s.kind scope)
    else
      let (t, id) := t.newSymbol ⟨name, kind, scope, span⟩
      let t := t.modifyScope scope fun s =>
        { s with names := setName s.names name id, symbols := s.symbols ++ [id] }
      .ok ({ t with taken := if t.taken.contains name then t.taken else t.taken ++ [name] }, id)

/-- Binds a name without a place in the source. -/
def bind (t : ScopeTable) (scope : ScopeId) (name : String) (kind : SymbolKind) :
    Except BindError ScopeTable :=
  match t.declare scope name kind .zero with
  | .ok (t, _) => .ok t
  | .error e => .error e

/-- Looks a name up in a scope and then outwards, through at most `fuel` scopes. -/
def lookupWithin (t : ScopeTable) (name : String) : Nat → ScopeId → Option SymbolId
  | 0, _ => none
  | fuel + 1, scope =>
    match t.scope? scope with
    | none => none
    | some s =>
      match s.find? name with
      | some id => some id
      | none => t.lookupWithin name fuel s.parent

def lookup? (t : ScopeTable) (scope : ScopeId) (name : String) : Option SymbolId :=
  t.lookupWithin name (t.scopes.length + 1) scope

/-- Whether a name is visible from a scope. -/
def hasBinding (t : ScopeTable) (scope : ScopeId) (name : String) : Bool :=
  Name.isGlobal name || (t.lookup? scope name).isSome

/-- Whether a generated name would clash: with a name bound in any scope, or with a word. -/
def isTaken (t : ScopeTable) (scope : ScopeId) (name : String) : Bool :=
  t.taken.contains name || t.hasBinding scope name || Name.isReserved name

/-- The `i`-th name made of a stem. -/
def candidate (stem : String) (i : Nat) : String :=
  if i = 0 then stem else stem ++ "_" ++ toString i

/-- The first free candidate from the `i`-th on. -/
def firstFree (t : ScopeTable) (scope : ScopeId) (stem : String) : Nat → Nat → String
  | 0, i => candidate stem i
  | fuel + 1, i =>
    if t.isTaken scope (candidate stem i) then t.firstFree scope stem fuel (i + 1)
    else candidate stem i

/-- More candidates than there are names that could be taken. -/
def candidateBound (t : ScopeTable) : Nat :=
  t.taken.length + (t.scopes.map (·.names.length)).foldr (· + ·) 0 + Name.globals.length +
    Name.reserved.length + 1

/-- A fresh name derived from any text: `_stem`, `_stem_1` and so on. Nothing is bound. -/
def freshName (t : ScopeTable) (scope : ScopeId) (base : List Char) : String :=
  t.firstFree scope ("_" ++ Name.stem base) t.candidateBound 0

/-- Binds a fresh name. -/
def bindFresh (t : ScopeTable) (scope : ScopeId) (base : List Char) (kind : SymbolKind) :
    Except BindError (ScopeTable × String) :=
  let name := t.freshName scope base
  match t.bind scope name kind with
  | .ok t => .ok (t, name)
  | .error e => .error e

end ScopeTable

end Phrasebook
