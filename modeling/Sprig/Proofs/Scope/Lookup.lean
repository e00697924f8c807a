import Sprig.Scope.Forest

/-! What a scope sees. A name is looked up in the bindings of the scopes along a chain, so it is
enough to know what an operation does to bindings, chains and parents.
-/

namespace Sprig.Forest

variable (forest : Forest)

-- Bindings

/-- A definition sets one name in one scope that exists and changes no other scope. -/
theorem bindings_define (id other : Nat) (name : String) (value : Value)
    : (forest.define id name value).bindings other
      = if other = id ∧ id < forest.nextId then (forest.bindings id).set name value
        else forest.bindings other := by
  simp only [bindings, define, Array.getElem?_modify]
  by_cases same : id = other
  · subst other
    by_cases inside : id < forest.scopes.size
    · simp [inside, nextId, Scope.define]
    · simp [inside, nextId]
  · have differs : other ≠ id := fun equal => same equal.symm
    simp [same, differs]

/-- A definition leaves the bindings of all other scopes. -/
theorem bindings_define_of_ne {id other : Nat} (differs : other ≠ id) (name : String)
    (value : Value)
    : (forest.define id name value).bindings other = forest.bindings other := by
  simp [bindings_define, differs]

/-- A new scope binds nothing, and no other scope changes. -/
@[simp] theorem bindings_addScope (parent : Option Nat) (id : Nat)
    : (forest.addScope parent).bindings id = forest.bindings id := by
  simp only [bindings, addScope, Array.getElem?_push]
  by_cases isNew : id = forest.scopes.size
  · simp [isNew]
  · simp [isNew]

/-- A scope that does not exist binds nothing. -/
theorem bindings_of_le {id : Nat} (outside : forest.nextId ≤ id) : forest.bindings id = [] := by
  have none : forest.scopes[id]? = none := Array.getElem?_eq_none outside
  simp [bindings, none]

/-- A scope binds a name just when its bindings have a value for it. -/
theorem binds_eq (id : Nat) (name : String)
    : forest.binds id name = ((forest.bindings id).get? name).isSome := by
  simp only [binds, bindings]
  cases forest.scopes[id]? with
  | none => rfl
  | some scope => rfl

/-- A name that is bound stays bound, whatever else is. -/
theorem binds_define {id other : Nat} {name bound : String} (value : Value)
    (binds : forest.binds other bound)
    : (forest.define id name value).binds other bound := by
  rw [binds_eq] at binds ⊢
  rw [bindings_define]
  split
  · next same =>
    rw [same.1] at binds
    rw [Bindings.get?_set]
    split
    · rfl
    · exact binds
  · exact binds

/-- A scope that exists binds the name that is defined in it. -/
theorem binds_define_self {id : Nat} (exists_ : id < forest.nextId) (name : String) (value : Value)
    : (forest.define id name value).binds id name := by
  rw [binds_eq, bindings_define, if_pos ⟨rfl, exists_⟩, Bindings.get?_set, if_pos rfl]
  rfl

-- Chains

/-- The chain of a scope that exists begins with it. -/
theorem mem_chain_self {scope : Nat} (exists_ : scope < forest.nextId)
    : scope ∈ forest.chain scope := by
  simp [chain_eq forest scope, exists_]

/-- What holds of a scope and is handed on to parents holds along its chain. -/
theorem forall_mem_chain {holds : Nat → Prop} {scope : Nat} (start : holds scope)
    (outwards : ∀ id parent, holds id → forest.parent? id = some parent → holds parent)
    : ∀ id ∈ forest.chain scope, holds id := by
  induction scope using Nat.strongRecOn with
  | ind scope ih =>
      intro id member
      rw [chain_eq] at member
      split at member
      · rcases List.mem_cons.mp member with rfl | member
        · exact start
        · cases outer : forest.parent? scope with
          | none => simp [outer] at member
          | some parent =>
              refine ih parent (parent?_lt outer) (outwards scope parent start outer) id ?_
              simpa [outer] using member
      · simp at member

/-- The chain of a scope goes on with that of its parent. -/
theorem chain_of_parent {scope parent : Nat} (outer : forest.parent? scope = some parent)
    : forest.chain scope = scope :: forest.chain parent := by
  have exists_ : scope < forest.nextId := by
    obtain ⟨found, isFound, _⟩ := Option.bind_eq_some_iff.1 outer
    exact (Array.getElem?_eq_some_iff.1 isFound).1
  rw [chain_eq, if_pos exists_, outer]
  rfl

-- Looking up

/-- The owner of a name binds it and stands on the chain, since it is found there. -/
theorem mem_chain_of_owner? {scope owner : Nat} {name : String}
    (owns : forest.owner? scope name = some owner)
    : owner ∈ forest.chain scope ∧ forest.binds owner name := by
  have first : (forest.chain scope).find? (forest.binds · name) = some owner := owns
  exact ⟨List.mem_of_find?_eq_some first, by simpa using List.find?_some first⟩

/-- A name is visible just when a scope of the chain binds it. -/
theorem contains_iff (scope : Nat) (name : String)
    : forest.contains scope name ↔ ∃ id ∈ forest.chain scope, forest.binds id name := by
  simp [contains, owner?, List.find?_isSome]

/-- Only scopes that exist see a name, since the chain of any other is empty. -/
theorem lt_of_contains {scope : Nat} {name : String} (visible : forest.contains scope name)
    : scope < forest.nextId := by
  obtain ⟨id, member, _⟩ := (forest.contains_iff scope name).mp visible
  rw [chain_eq] at member
  split at member
  · assumption
  · simp at member

/-- The value of a name is bound to it in a scope of the chain. -/
theorem exists_of_get? {scope : Nat} {name : String} {value : Value}
    (found : forest.get? scope name = some value)
    : ∃ id ∈ forest.chain scope, (forest.bindings id).get? name = some value := by
  obtain ⟨owner, owns, found⟩ := Option.bind_eq_some_iff.1 found
  obtain ⟨bound, isBound, found⟩ := Option.bind_eq_some_iff.1 found
  refine ⟨owner, (forest.mem_chain_of_owner? owns).1, ?_⟩
  simpa [bindings, isBound, Scope.get?] using found

/-- A name that is visible has a value. -/
theorem exists_get?_of_contains {scope : Nat} {name : String}
    (visible : forest.contains scope name)
    : ∃ value, forest.get? scope name = some value := by
  obtain ⟨owner, owns⟩ := Option.isSome_iff_exists.1 visible
  have binds := (forest.mem_chain_of_owner? owns).2
  simp only [Forest.binds, Option.any_eq_true] at binds
  obtain ⟨bound, isBound, binds⟩ := binds
  obtain ⟨value, found⟩ := Option.isSome_iff_exists.1 binds
  exact ⟨value, by simp [get?, owns, isBound, found]⟩

/-- A scope sees the name that is defined in it. -/
theorem contains_define_self {scope : Nat} (exists_ : scope < forest.nextId) (name : String)
    (value : Value)
    : (forest.define scope name value).contains scope name := by
  rw [contains_iff]
  refine ⟨scope, ?_, forest.binds_define_self exists_ name value⟩
  simpa using forest.mem_chain_self exists_

/-- A new scope sees what its parent sees. -/
theorem contains_addScope_nextId {parent : Nat} {visible : String}
    (contains : forest.contains parent visible)
    : (forest.addScope (some parent)).contains forest.nextId visible := by
  have old : parent < forest.nextId := forest.lt_of_contains contains
  rw [contains_iff] at contains ⊢
  obtain ⟨owner, member, binds⟩ := contains
  refine ⟨owner, ?_, ?_⟩
  · rw [chain_addScope_nextId forest old]
    exact List.mem_cons_of_mem _ member
  · rwa [binds_eq, bindings_addScope, ← binds_eq]

-- What is bound

/-- Every value that is bound in a region is of some kind. -/
def Holds (forest : Forest) (region : Nat → Prop) (kind : Value → Prop) : Prop :=
  ∀ id name value, region id → (forest.bindings id).get? name = some value → kind value

namespace Holds

variable {forest} {region : Nat → Prop} {kind : Value → Prop}

/-- Bindings that hold values of one kind hold values of a wider kind. -/
theorem mono {other : Value → Prop} (holds : forest.Holds region kind)
    (weaker : ∀ value, kind value → other value)
    : forest.Holds region other :=
  fun id name value inside bound => weaker value (holds id name value inside bound)

/-- A new scope binds nothing, so nothing new is held. -/
theorem addScope (holds : forest.Holds region kind) (parent : Option Nat)
    : (forest.addScope parent).Holds region kind := by
  intro id name value inside bound
  rw [bindings_addScope] at bound
  exact holds id name value inside bound

/-- A definition keeps what is held if its value is of the kind, by the scope and the name that
are asked for. -/
theorem define (holds : forest.Holds region kind) {value : Value} (held : kind value)
    (scope : Nat) (name : String)
    : (forest.define scope name value).Holds region kind := by
  intro id other found inside bound
  rw [bindings_define] at bound
  split at bound
  · next same =>
    rw [Bindings.get?_set] at bound
    split at bound
    · exact Option.some.inj bound ▸ held
    · exact holds scope other found (same.1 ▸ inside) bound
  · exact holds id other found inside bound

/-- A name has a value of the kind, if it is looked up inside the region. -/
theorem get? (holds : forest.Holds region kind) {scope : Nat} {name : String} {value : Value}
    (inside : ∀ id ∈ forest.chain scope, region id) (found : forest.get? scope name = some value)
    : kind value := by
  obtain ⟨id, member, bound⟩ := forest.exists_of_get? found
  exact holds id name value (inside id member) bound

end Holds

end Sprig.Forest
