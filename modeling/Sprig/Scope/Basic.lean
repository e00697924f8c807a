import Sprig.Value

/-!
Scopes: names bound to values, and a link to the scope around them. Scopes are known by
their number; they are numbered in the order in which they are made.
-/

namespace Sprig

/-- Names with their values, in the order in which the names were first bound. -/
abbrev Bindings := List (String × Value)

namespace Bindings

def names (bindings : Bindings) : List String :=
  bindings.map Prod.fst

/-- The value of a name. -/
def get? (bindings : Bindings) (name : String) : Option Value :=
  match bindings with
  | [] => none
  | (key, value) :: rest => if name = key then some value else get? rest name

/-- Binds a name, replacing the value it had. -/
def set (name : String) (value : Value) : Bindings → Bindings
  | [] => [(name, value)]
  | (key, old) :: rest =>
    if name = key then (key, value) :: rest else (key, old) :: set name value rest

/-- Binding a name decides its own value and no other. -/
theorem get?_set (bindings : Bindings) (name other : String) (value : Value)
    : (bindings.set name value).get? other
      = if other = name then some value else bindings.get? other := by
  induction bindings with
  | nil => rfl
  | cons first rest ih =>
      obtain ⟨key, old⟩ := first
      by_cases isKey : name = key
      · subst key
        by_cases same : other = name <;> simp [set, get?, same]
      · by_cases same : other = name
        · subst other
          simp [set, get?, isKey, ih]
        · simp [set, get?, isKey, ih, same]

/-- The names with a value are the names listed. -/
theorem isSome_get?_iff (bindings : Bindings) (name : String)
    : (bindings.get? name).isSome ↔ name ∈ bindings.names := by
  induction bindings with
  | nil => simp [get?, names]
  | cons first rest ih =>
      obtain ⟨key, value⟩ := first
      by_cases isKey : name = key
      · simp [get?, names, isKey]
      · simpa [get?, names, isKey] using ih

/-- Binding a name adds it at the end unless it is bound already. -/
theorem names_set (bindings : Bindings) (name : String) (value : Value)
    : (bindings.set name value).names
      = if name ∈ bindings.names then bindings.names else bindings.names ++ [name] := by
  induction bindings with
  | nil => rfl
  | cons first rest ih =>
      obtain ⟨key, old⟩ := first
      by_cases isKey : name = key
      · simp [set, names, isKey]
      · by_cases bound : name ∈ rest.map Prod.fst
        all_goals simp_all [set, names]

end Bindings

structure Scope where
  parent : Option Nat
  bindings : Bindings
deriving DecidableEq, Repr

namespace Scope

def get? (scope : Scope) (name : String) : Option Value :=
  scope.bindings.get? name

def binds (scope : Scope) (name : String) : Bool :=
  (scope.get? name).isSome

def define (name : String) (value : Value) (scope : Scope) : Scope :=
  ⟨scope.parent, scope.bindings.set name value⟩

end Scope

end Sprig
