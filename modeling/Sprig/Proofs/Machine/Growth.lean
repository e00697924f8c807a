import Sprig.Proofs.Machine.Discipline
import Sprig.Proofs.Scope.Lookup

/-! Worlds only grow. Scopes keep their parents and the names that they bind, and functions are made
and never changed.
-/

namespace Sprig.World

/-- What the first world has is there in the second one: scopes with their parents, names that
are bound, functions. -/
structure Extends (world later : World) : Prop where
  scopes : world.forest.nextId ≤ later.forest.nextId
  parent : ∀ id < world.forest.nextId, later.forest.parent? id = world.forest.parent? id
  binds : ∀ id name, world.forest.binds id name → later.forest.binds id name
  functions : ∀ (key : Nat) closure, world.functions[key]? = some closure →
    later.functions[key]? = some closure

namespace Extends

variable {world later last : World}

/-- A world with the same scopes and functions extends it. -/
theorem of_same (forest : later.forest = world.forest)
    (functions : later.functions = world.functions)
    : world.Extends later := by
  constructor
  · exact Nat.le_of_eq (by rw [forest])
  · exact fun _ _ => by rw [forest]
  · rw [forest]
    exact fun _ _ bound => bound
  · rw [functions]
    exact fun _ _ isFunction => isFunction

/-- Growth composes: what is old at first is old later. -/
theorem trans (early : world.Extends later) (late : later.Extends last) : world.Extends last where
  scopes := Nat.le_trans early.scopes late.scopes
  parent := by
    intro id old
    rw [late.parent id (Nat.lt_of_lt_of_le old early.scopes), early.parent id old]
  binds := fun id name bound => late.binds id name (early.binds id name bound)
  functions := fun key closure isFunction =>
    late.functions key closure (early.functions key closure isFunction)

/-- A definition takes no scope, parent, bound name or function away. -/
theorem define (world : World) (scope : Nat) (name : String) (value : Value)
    : world.Extends (world.define scope name value) where
  scopes := by simp
  parent := by simp
  binds := fun _ _ => world.forest.binds_define value
  functions := fun _ _ isFunction => isFunction

/-- A new scope takes the next number and leaves the others as they are. -/
theorem addScope (world : World) (parent : Option Nat)
    : world.Extends (world.addScope parent).2 where
  scopes := by simp
  parent := by
    intro id old
    rw [forest_addScope, Forest.parent?_addScope, if_neg (Nat.ne_of_lt old)]
  binds := by
    intro id name bound
    rw [Forest.binds_eq] at bound
    rw [Forest.binds_eq, forest_addScope, Forest.bindings_addScope]
    exact bound
  functions := fun _ _ isFunction => isFunction

/-- A new function takes the next key and leaves the others as they are. -/
theorem addFunction (world : World) (name : String) (closure : Closure)
    : world.Extends (world.addFunction name closure).2 where
  scopes := Nat.le_refl _
  parent := fun _ _ => rfl
  binds := fun _ _ bound => bound
  functions := by
    intro key found isFunction
    have inside : key < world.functions.size := (Array.getElem?_eq_some_iff.1 isFunction).1
    rw [functions_addFunction, Array.getElem?_push, if_neg (Nat.ne_of_lt inside)]
    exact isFunction

/-- Binding parameters extends a world, one definition after the other. -/
theorem bindParams (world : World) (scope : Nat) (params : List Token) (arguments : List Value)
    : world.Extends (world.bindParams scope params arguments) := by
  refine bindParams_induction (world.Extends ·) (.of_same rfl rfl) ?_
  intro later name argument _ extends_
  exact extends_.trans (.define later scope name argument)

/-- The chain of an old scope never changes, by induction on the scope, since parents do not. -/
theorem chain (extends_ : world.Extends later) {id : Nat} (old : id < world.forest.nextId)
    : later.forest.chain id = world.forest.chain id := by
  induction id using Nat.strongRecOn with
  | ind id ih =>
      rw [Forest.chain_eq, Forest.chain_eq world.forest, if_pos old,
        if_pos (Nat.lt_of_lt_of_le old extends_.scopes), extends_.parent id old]
      cases isParent : world.forest.parent? id with
      | none => rfl
      | some outer =>
          have below : outer < id := Forest.parent?_lt isParent
          simp [ih outer below (Nat.lt_trans below old)]

/-- What can be seen from a scope remains to be seen. -/
theorem contains (extends_ : world.Extends later) {scope : Nat} {name : String}
    (seen : world.forest.contains scope name)
    : later.forest.contains scope name := by
  have old := world.forest.lt_of_contains seen
  rw [Forest.contains_iff] at seen ⊢
  obtain ⟨owner, member, bound⟩ := seen
  refine ⟨owner, ?_, extends_.binds owner name bound⟩
  rw [extends_.chain old]
  exact member

end Extends

end Sprig.World
