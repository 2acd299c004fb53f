import Phrasebook.Scope.Table

/-!
The consistency of a scope table: links between parents and children go both ways, and the names of
a scope, its symbols and the owners of the symbols agree.
-/
namespace Phrasebook.ScopeTable

inductive Flaw where
  | invalidKind (scope : ScopeId)
  | invalidParent (scope parent : ScopeId)
  | missingBacklink (scope parent : ScopeId)
  | invalidChild (scope child : ScopeId)
  | missingParentBacklink (scope child : ScopeId)
  | missingSymbol (scope : ScopeId) (name : String) (symbol : SymbolId)
  | otherName (scope : ScopeId) (name : String) (symbol : SymbolId)
  | unindexed (scope : ScopeId) (symbol : SymbolId)
  | invalidOwner (symbol : SymbolId) (name : String) (scope : ScopeId)
  | unlisted (symbol : SymbolId) (name : String) (scope : ScopeId)

def Flaw.message : Flaw → String
  | .invalidKind s => s!"scope {s} has invalid kind"
  | .invalidParent s p => s!"scope {s} has invalid parent {p}"
  | .missingBacklink s p => s!"scope {s} parent {p} missing backlink"
  | .invalidChild s c => s!"scope {s} has invalid child {c}"
  | .missingParentBacklink s c => s!"scope {s} child {c} missing parent backlink"
  | .missingSymbol s n i => s!"scope {s} name {Text.quote n} references missing symbol {i}"
  | .otherName s n i => s!"scope {s} name {Text.quote n} points at symbol {i} with another name"
  | .unindexed s i => s!"scope {s} symbol {i} missing in name index"
  | .invalidOwner i n s => s!"symbol {i} ({Text.quote n}) has invalid scope {s}"
  | .unlisted i n s => s!"symbol {i} ({Text.quote n}) is missing from scope {s}"

def parentFlaws (t : ScopeTable) (id : ScopeId) (s : Scope) : List Flaw :=
  if s.parent = 0 then []
  else
    match t.scope? s.parent with
    | none => [.invalidParent id s.parent]
    | some p =>
      if s.parent = id then [.invalidParent id s.parent]
      else if p.children.contains id then [] else [.missingBacklink id s.parent]

def childFlaws (t : ScopeTable) (id child : ScopeId) : List Flaw :=
  match t.scope? child with
  | none => [.invalidChild id child]
  | some c =>
    if child = id then [.invalidChild id child]
    else if c.parent = id then [] else [.missingParentBacklink id child]

def nameFlaws (t : ScopeTable) (id : ScopeId) (s : Scope) (name : String) (symbol : SymbolId) :
    List Flaw :=
  if !s.symbols.contains symbol then [.missingSymbol id name symbol]
  else
    match t.symbol? symbol with
    | some sym => if sym.name = name then [] else [.otherName id name symbol]
    | none => [.otherName id name symbol]

/-- Symbols of a scope that no name leads to. -/
def unindexedFlaws (id : ScopeId) (s : Scope) : List Flaw :=
  let indexed := (s.names.map (·.2)).filter s.symbols.contains
  (s.symbols.filter (!indexed.contains ·)).map (.unindexed id)

def scopeFlaws (t : ScopeTable) (id : ScopeId) (s : Scope) : List Flaw :=
  (if s.kind = .invalid then [.invalidKind id] else []) ++ t.parentFlaws id s ++
    s.children.flatMap (t.childFlaws id) ++
    s.names.flatMap (fun (n, i) => t.nameFlaws id s n i) ++ unindexedFlaws id s

def symbolFlaws (t : ScopeTable) (id : SymbolId) (s : Symbol) : List Flaw :=
  match t.scope? s.scope with
  | none => [.invalidOwner id s.name s.scope]
  | some owner => if owner.symbols.contains id then [] else [.unlisted id s.name s.scope]

/-- Everything that does not agree. -/
def flaws (t : ScopeTable) : List Flaw :=
  (t.scopes.zipIdx 1).flatMap (fun (s, i) => t.scopeFlaws i s) ++
    (t.symbols.zipIdx 1).flatMap fun (s, i) => t.symbolFlaws i s

end Phrasebook.ScopeTable
