import Sprig.Scope.Forest

/-! Forests whose names are replaced by others. A renaming that keeps names apart commutes with
everything that a program does to its scopes.
-/

namespace Sprig

variable {rename : String → String}

namespace Bindings

/-- The bindings under other names. -/
def renamed (rename : String → String) (bindings : Bindings) : Bindings :=
  bindings.map fun (name, value) => (rename name, value)

/-- Bindings under new names give the values of the old names, by induction on them; keys are
compared alike since the renaming keeps names apart. -/
theorem get?_renamed (injective : Function.Injective rename) (bindings : Bindings) (name : String)
    : (bindings.renamed rename).get? (rename name) = bindings.get? name := by
  induction bindings with
  | nil => rfl
  | cons first rest ih =>
      obtain ⟨key, value⟩ := first
      have apart : rename name = rename key ↔ name = key :=
        ⟨fun same => injective same, congrArg rename⟩
      simpa only [renamed, List.map_cons, get?, apart] using congrArg _ ih

/-- Setting a name commutes with renaming, by induction on the bindings. -/
theorem renamed_set (injective : Function.Injective rename) (bindings : Bindings) (name : String)
    (value : Value)
    : (bindings.set name value).renamed rename
      = (bindings.renamed rename).set (rename name) value := by
  induction bindings with
  | nil => rfl
  | cons first rest ih =>
      obtain ⟨key, old⟩ := first
      by_cases isKey : name = key
      · simp [renamed, set, isKey]
      · have apart : rename name ≠ rename key := fun same => isKey (injective same)
        simpa [renamed, set, isKey, apart] using ih

/-- Renaming by the identity changes nothing. -/
@[simp] theorem renamed_id (bindings : Bindings) : bindings.renamed id = bindings := by
  simp [renamed]

end Bindings

/-- The scope under other names. -/
def Scope.renamed (rename : String → String) (scope : Scope) : Scope :=
  ⟨scope.parent, scope.bindings.renamed rename⟩

/-- A scope under new names gives the values of the old names. -/
theorem Scope.get?_renamed (injective : Function.Injective rename) (scope : Scope) (name : String)
    : (scope.renamed rename).get? (rename name) = scope.get? name :=
  scope.bindings.get?_renamed injective name

/-- Defining a name in a scope commutes with renaming. -/
theorem Scope.renamed_define (injective : Function.Injective rename) (scope : Scope)
    (name : String) (value : Value)
    : (scope.define name value).renamed rename
      = (scope.renamed rename).define (rename name) value := by
  simp [Scope.define, Scope.renamed, Bindings.renamed_set injective]

namespace Forest

/-- The forest under other names. -/
def renamed (rename : String → String) (forest : Forest) : Forest where
  scopes := forest.scopes.map (Scope.renamed rename)
  parent_lt := by
    intro id scope parent found isParent
    rw [Array.getElem?_map] at found
    obtain ⟨old, wasOld, rfl⟩ := Option.map_eq_some_iff.1 found
    exact forest.parent_lt id old parent wasOld isParent

/-- The scopes of a renamed forest are the renamed scopes. -/
theorem getElem?_scopes_renamed (forest : Forest) (id : Nat)
    : (forest.renamed rename).scopes[id]? = forest.scopes[id]?.map (Scope.renamed rename) := by
  simp [renamed]

/-- A forest renamed by the identity is itself, since each of its scopes is. -/
@[simp] theorem renamed_id (forest : Forest) : forest.renamed id = forest := by
  have same : Scope.renamed id = id := by
    funext scope
    simp [Scope.renamed]
  ext1
  simp [renamed, same]

/-- Renaming makes no scope. -/
@[simp] theorem nextId_renamed (forest : Forest)
    : (forest.renamed rename).nextId = forest.nextId := by
  simp [renamed, nextId]

/-- Renaming keeps parents. -/
@[simp] theorem parent?_renamed (forest : Forest) (id : Nat)
    : (forest.renamed rename).parent? id = forest.parent? id := by
  rw [parent?, getElem?_scopes_renamed, parent?]
  cases forest.scopes[id]? <;> rfl

/-- Renaming keeps chains, by induction on the scope, since it keeps parents. -/
@[simp] theorem chain_renamed (forest : Forest) (id : Nat)
    : (forest.renamed rename).chain id = forest.chain id := by
  induction id using Nat.strongRecOn with
  | ind id ih =>
      rw [chain_eq, chain_eq forest id, nextId_renamed, parent?_renamed]
      cases outer : forest.parent? id with
      | none => rfl
      | some parent => simp [ih parent (parent?_lt outer)]

/-- Renaming keeps depths, as it keeps chains. -/
@[simp] theorem depth_renamed (forest : Forest) (id : Nat)
    : (forest.renamed rename).depth id = forest.depth id := by
  simp [depth]

-- Making scopes and binding names

/-- Making a scope commutes with renaming. -/
theorem renamed_addScope (forest : Forest) (parent : Option Nat)
    : (forest.addScope parent).renamed rename = (forest.renamed rename).addScope parent := by
  ext1
  show (forest.addScope parent).scopes.map _ = Array.push _ _
  rw [nextId_renamed]
  simp [addScope, renamed, Scope.renamed, Bindings.renamed]

/-- Defining a name commutes with renaming, scope by scope. -/
theorem renamed_define (injective : Function.Injective rename) (forest : Forest) (id : Nat)
    (name : String) (value : Value)
    : (forest.define id name value).renamed rename
      = (forest.renamed rename).define id (rename name) value := by
  ext1
  apply Array.ext_getElem?
  intro other
  simp only [renamed, define, Array.getElem?_map, Array.getElem?_modify]
  split
  · simp [Function.comp_def, Scope.renamed_define injective]
  · rfl

-- Finding names

/-- The owner of a name is that of its new name: the chains are the same and bind alike. -/
theorem owner?_renamed (injective : Function.Injective rename) (forest : Forest) (id : Nat)
    (name : String)
    : (forest.renamed rename).owner? id (rename name) = forest.owner? id name := by
  have binds_eq (other : Nat)
      : (forest.renamed rename).binds other (rename name) = forest.binds other name := by
    rw [binds, getElem?_scopes_renamed, binds]
    cases forest.scopes[other]? with
    | none => rfl
    | some scope => simp [Scope.binds, Scope.get?_renamed injective]
  simp only [owner?, chain_renamed, binds_eq]

/-- A renamed forest gives the values of the old names, since the owners are the same. -/
theorem get?_renamed (injective : Function.Injective rename) (forest : Forest) (id : Nat)
    (name : String)
    : (forest.renamed rename).get? id (rename name) = forest.get? id name := by
  rw [get?, owner?_renamed injective, get?]
  cases forest.owner? id name with
  | none => rfl
  | some owner =>
      simp only [Option.bind_eq_bind, Option.bind_some, getElem?_scopes_renamed]
      cases forest.scopes[owner]? with
      | none => rfl
      | some scope => exact scope.get?_renamed injective name

/-- Assigning commutes with renaming, as a definition in the owner. -/
theorem assign?_renamed (injective : Function.Injective rename) (forest : Forest) (id : Nat)
    (name : String) (value : Value)
    : (forest.renamed rename).assign? id (rename name) value
      = (forest.assign? id name value).map (renamed rename) := by
  rw [assign?, owner?_renamed injective, assign?]
  cases forest.owner? id name with
  | none => rfl
  | some owner => simp [renamed_define injective]

end Forest

end Sprig
