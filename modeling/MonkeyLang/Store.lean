import MonkeyLang.Value

/-!
Scopes and what is bound in them. A scope is known by its number; the scope around it, if any, is an
older one. Names keep the order in which they were first bound.
-/

namespace MonkeyLang

structure Scope where
  bindings : List (String × Value)
  outer : Option Nat
  deriving Repr

namespace Scope

def find? (scope : Scope) (name : String) : Option Value :=
  (scope.bindings.find? (·.1 = name)).map (·.2)

def assignAmong (name : String) (value : Value) : List (String × Value) → List (String × Value)
  | [] => [(name, value)]
  | (known, old) :: rest =>
    if known = name then (name, value) :: rest else (known, old) :: assignAmong name value rest

def assign (scope : Scope) (name : String) (value : Value) : Scope :=
  { scope with bindings := assignAmong name value scope.bindings }

def names (scope : Scope) : List String := scope.bindings.map (·.1)

end Scope

/-- All scopes ever made, oldest first, and the number of tags given out. -/
structure Store where
  scopes : Array Scope
  tags : Nat
  deriving Repr

namespace Store

def empty : Store := ⟨#[], 0⟩

def bindings (store : Store) (scope : Nat) : List (String × Value) :=
  match store.scopes[scope]? with
  | some found => found.bindings
  | none => []

def names (store : Store) (scope : Nat) : List String := (store.bindings scope).map (·.1)

/-- Looks in at most `count` scopes, from `scope` outward. -/
def search (store : Store) (name : String) : Nat → Nat → Option Value
  | 0, _ => none
  | count + 1, scope =>
    match store.scopes[scope]? with
    | none => none
    | some found =>
      match found.find? name, found.outer with
      | some value, _ => some value
      | none, some outer => search store name count outer
      | none, none => none

/-- The value bound in a scope or in the nearest one around it. There are no more scopes to look in
than were made. -/
def find? (store : Store) (scope : Nat) (name : String) : Option Value :=
  store.search name store.scopes.size scope

def assign (store : Store) (scope : Nat) (name : String) (value : Value) : Store :=
  { store with scopes := store.scopes.modify scope (·.assign name value) }

/-- Adds a scope without bindings, whose number is the number of those made before. -/
def addScope (store : Store) (outer : Option Nat) : Store :=
  { store with scopes := store.scopes.push ⟨[], outer⟩ }

def countTag (store : Store) : Store := { store with tags := store.tags + 1 }

/-- The numbers of the scopes around a scope, nearest first. -/
def around (store : Store) : Nat → Nat → List Nat
  | 0, _ => []
  | count + 1, scope =>
    match store.scopes[scope]?.bind Scope.outer with
    | none => []
    | some outer => outer :: around store count outer

/-- A scope's names, with those of the scopes around it, for listings. -/
def describe (store : Store) (scope : Nat) : Except Fault String :=
  let chain := scope :: store.around store.scopes.size scope
  if Node.heightLimit < chain.length then .error .tooDeep
  else
    .ok <| chain.foldr (fun number outer =>
      "Environment([" ++ ", ".intercalate ((store.names number).map Text.quoted) ++ "], outer=" ++
        outer ++ ")") "None"

end Store

end MonkeyLang
