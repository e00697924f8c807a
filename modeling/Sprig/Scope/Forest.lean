import Sprig.Scope.Basic

/-!
Forests of scopes. Every scope is made after its parent, so the way outwards from a scope
ends; this way, the chain of a scope, decides which scope a name belongs to.
-/

namespace Sprig

/-- All scopes made so far. -/
@[ext] structure Forest where
  scopes : Array Scope
  parent_lt : ∀ (id : Nat) (scope : Scope) (parent : Nat),
    scopes[id]? = some scope → scope.parent = some parent → parent < id

namespace Forest

def empty : Forest := ⟨#[], by simp⟩

/-- The number that the next scope will get. -/
def nextId (forest : Forest) : Nat :=
  forest.scopes.size

/-- Makes a scope without bindings. It has no parent if the one asked for does not exist. -/
def addScope (forest : Forest) (parent : Option Nat) : Forest where
  scopes := forest.scopes.push ⟨parent.filter (· < forest.nextId), []⟩
  parent_lt := by
    intro id scope outer found isParent
    rw [Array.getElem?_push] at found
    split at found
    · next isNew =>
      obtain rfl := Option.some.inj found
      simp only [Option.filter_eq_some_iff, decide_eq_true_eq] at isParent
      exact isNew ▸ isParent.2
    · exact forest.parent_lt id scope outer found isParent

/-- Binds a name in a scope, replacing the value it had there. -/
def define (forest : Forest) (id : Nat) (name : String) (value : Value) : Forest where
  scopes := forest.scopes.modify id (Scope.define name value)
  parent_lt := by
    intro other scope outer found isParent
    rw [Array.getElem?_modify] at found
    split at found
    · obtain ⟨old, wasOld, rfl⟩ := Option.map_eq_some_iff.1 found
      exact forest.parent_lt other old outer wasOld isParent
    · exact forest.parent_lt other scope outer found isParent

/-- A new scope takes the next number. -/
@[simp] theorem nextId_addScope (forest : Forest) (parent : Option Nat)
    : (forest.addScope parent).nextId = forest.nextId + 1 := by
  simp [addScope, nextId]

/-- A definition makes no scope. -/
@[simp] theorem nextId_define (forest : Forest) (id : Nat) (name : String) (value : Value)
    : (forest.define id name value).nextId = forest.nextId := by
  simp [define, nextId]

/-- The parent of a scope, if the scope exists and has one. -/
def parent? (forest : Forest) (id : Nat) : Option Nat :=
  forest.scopes[id]?.bind Scope.parent

/-- A parent is older than its scope, as every forest guarantees. -/
theorem parent?_lt {forest : Forest} {id parent : Nat} (found : forest.parent? id = some parent)
    : parent < id := by
  obtain ⟨scope, exists_, isParent⟩ := Option.bind_eq_some_iff.1 found
  exact forest.parent_lt id scope parent exists_ isParent

/-- The way outwards from a scope, of at most `bound` scopes. -/
def chainWithin (forest : Forest) : (bound : Nat) → Nat → List Nat
  | 0, _ => []
  | bound + 1, id =>
    if id < forest.nextId then
      id :: ((forest.parent? id).map (forest.chainWithin bound)).getD []
    else
      []

/-- A scope and the scopes around it, from the inside out. -/
def chain (forest : Forest) (id : Nat) : List Nat :=
  forest.chainWithin (id + 1) id

/-- Any bound above the number of a scope leaves its chain whole. -/
theorem chainWithin_eq_chain (forest : Forest) {bound : Nat} {id : Nat} (above : id < bound)
    : forest.chainWithin bound id = forest.chain id := by
  induction id using Nat.strongRecOn generalizing bound with
  | ind id ih =>
      obtain ⟨bound, rfl⟩ : ∃ smaller, bound = smaller + 1 := ⟨bound - 1, by omega⟩
      rw [chain, chainWithin, chainWithin]
      cases outer : forest.parent? id with
      | none => rfl
      | some parent =>
          have below : parent < id := parent?_lt outer
          simp only [Option.map_some, Option.getD_some]
          rw [ih parent below (show parent < bound by omega), ih parent below below]

/-- The chain of a scope is the scope itself and the chain of its parent. -/
theorem chain_eq (forest : Forest) (id : Nat)
    : forest.chain id
      = if id < forest.nextId then
          id :: ((forest.parent? id).map forest.chain).getD []
        else
          [] := by
  rw [chain, chainWithin]
  cases outer : forest.parent? id with
  | none => rfl
  | some parent => simp [chainWithin_eq_chain forest (parent?_lt outer)]

/-- A definition changes no parent. -/
@[simp] theorem parent?_define (forest : Forest) (id other : Nat) (name : String) (value : Value)
    : (forest.define id name value).parent? other = forest.parent? other := by
  simp only [parent?, define, Array.getElem?_modify]
  split
  · cases forest.scopes[other]? <;> rfl
  · rfl

/-- A new scope has the given parent if that one exists, and no other parent changes. -/
theorem parent?_addScope (forest : Forest) (parent : Option Nat) (id : Nat)
    : (forest.addScope parent).parent? id
      = if id = forest.nextId then parent.filter (· < forest.nextId) else forest.parent? id := by
  simp only [parent?, addScope, nextId, Array.getElem?_push]
  by_cases isNew : id = forest.scopes.size <;> simp [isNew]

/-- Binding a name moves no scope. -/
@[simp] theorem chain_define (forest : Forest) (id other : Nat) (name : String) (value : Value)
    : (forest.define id name value).chain other = forest.chain other := by
  induction other using Nat.strongRecOn with
  | ind other ih =>
      rw [chain_eq, chain_eq forest other, nextId_define, parent?_define]
      cases outer : forest.parent? other with
      | none => rfl
      | some parent => simp [ih parent (parent?_lt outer)]

/-- Making a scope moves no other scope. -/
theorem chain_addScope_of_lt (forest : Forest) (parent : Option Nat) {id : Nat}
    (old : id < forest.nextId)
    : (forest.addScope parent).chain id = forest.chain id := by
  induction id using Nat.strongRecOn with
  | ind id ih =>
      rw [chain_eq, chain_eq forest id, nextId_addScope, parent?_addScope]
      simp only [Nat.ne_of_lt old, old, if_true, if_false, Nat.lt_succ_of_lt old]
      cases outer : forest.parent? id with
      | none => rfl
      | some inner =>
          have below : inner < id := parent?_lt outer
          simp [ih inner below (Nat.lt_trans below old)]

/-- A new scope stands before the chain of its parent. -/
theorem chain_addScope_nextId (forest : Forest) {parent : Nat} (old : parent < forest.nextId)
    : (forest.addScope (some parent)).chain forest.nextId
      = forest.nextId :: forest.chain parent := by
  rw [chain_eq, nextId_addScope, parent?_addScope]
  simp [Option.filter, old, chain_addScope_of_lt forest (some parent) old]

/-- The number of scopes around a scope. -/
def depth (forest : Forest) (id : Nat) : Nat :=
  (forest.chain id).length - 1

/-- The bindings of one scope. -/
def bindings (forest : Forest) (id : Nat) : Bindings :=
  (forest.scopes[id]?.map Scope.bindings).getD []

/-- Whether a scope itself binds a name. -/
def binds (forest : Forest) (id : Nat) (name : String) : Bool :=
  (forest.scopes[id]?).any (·.binds name)

/-- The innermost scope on the way outwards that binds a name. -/
def owner? (forest : Forest) (id : Nat) (name : String) : Option Nat :=
  (forest.chain id).find? (forest.binds · name)

/-- The value that a name has in a scope. -/
def get? (forest : Forest) (id : Nat) (name : String) : Option Value := do
  let owner ← forest.owner? id name
  (← forest.scopes[owner]?).get? name

/-- Whether a name has a value in a scope. -/
def contains (forest : Forest) (id : Nat) (name : String) : Bool :=
  (forest.owner? id name).isSome

/-- Gives a new value to a name where it is bound; there is no result if no scope binds it. -/
def assign? (forest : Forest) (id : Nat) (name : String) (value : Value) : Option Forest :=
  (forest.owner? id name).map fun owner => forest.define owner name value

end Forest

end Sprig
