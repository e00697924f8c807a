import Sprig.Proofs.Scope.Lookup

/-! The laws of a store with lexical scopes. A name belongs to the first scope on the way outwards
that binds it. Asking for a name, reading it and assigning to it agree on that scope, and what is
written there is seen from exactly the scopes from which the way outwards gets to it.
-/

namespace Sprig.Forest

/-- On the way outwards from `inner` the scope `outer` is met, and no scope met before it binds the
name.
-/
inductive Sees (forest : Forest) (name : String) : (inner outer : Nat) → Prop where
  | here {scope : Nat} : scope < forest.nextId → forest.Sees name scope scope
  | outwards {scope parent outer : Nat} : forest.binds scope name = false →
      forest.parent? scope = some parent → forest.Sees name parent outer →
      forest.Sees name scope outer

/-- The name, as it is used in a scope, belongs to the first scope on the way outwards that binds
it.
-/
structure Owns (forest : Forest) (name : String) (scope owner : Nat) : Prop where
  sees : forest.Sees name scope owner
  binds : forest.binds owner name = true

section Walks

variable (forest : Forest)

/-- Only scopes that exist bind a name. -/
theorem lt_of_binds {scope : Nat} {name : String} (binds : forest.binds scope name = true)
    : scope < forest.nextId := by
  rw [binds_eq] at binds
  by_cases exists_ : scope < forest.nextId
  · exact exists_
  · simp [forest.bindings_of_le (Nat.le_of_not_lt exists_), Bindings.get?] at binds

/-- The owner of a name is looked for one scope after the other. -/
theorem owner?_eq (scope : Nat) (name : String)
    : forest.owner? scope name
      = if forest.binds scope name then some scope
        else (forest.parent? scope).bind (forest.owner? · name) := by
  cases binds : forest.binds scope name with
  | true =>
      have exists_ := forest.lt_of_binds binds
      simp [owner?, chain_eq forest scope, exists_, binds]
  | false =>
      cases outer : forest.parent? scope with
      | none =>
          rw [owner?, chain_eq, outer]
          split
          · simp [binds]
          · rfl
      | some parent => simp [owner?, chain_of_parent forest outer, binds]

/-- The owner that is found is the one that owns the name, by induction on the scope: it binds the
name itself or asks its parent. -/
theorem owner?_eq_some_iff {scope owner : Nat} {name : String}
    : forest.owner? scope name = some owner ↔ forest.Owns name scope owner := by
  induction scope using Nat.strongRecOn with
  | ind scope ih =>
      rw [owner?_eq]
      cases binds : forest.binds scope name with
      | true =>
          constructor
          · intro found
            obtain rfl : scope = owner := by simpa using found
            exact ⟨.here (forest.lt_of_binds binds), binds⟩
          · rintro ⟨_ | ⟨unbound, _, _⟩, _⟩
            · simp
            · simp [unbound] at binds
      | false =>
          simp only [Bool.false_eq_true, if_false, Option.bind_eq_some_iff]
          constructor
          · rintro ⟨parent, outer, found⟩
            obtain ⟨sees, owns⟩ := (ih parent (parent?_lt outer)).mp found
            exact ⟨.outwards binds outer sees, owns⟩
          · rintro ⟨_ | ⟨_, outer, sees⟩, owns⟩
            · simp [binds] at owns
            · exact ⟨_, outer, (ih _ (parent?_lt outer)).mpr ⟨sees, owns⟩⟩

/-- A name is read one scope after the other. -/
theorem get?_eq (scope : Nat) (name : String)
    : forest.get? scope name
      = if forest.binds scope name then (forest.bindings scope).get? name
        else (forest.parent? scope).bind (forest.get? · name) := by
  have reads (owner : Nat)
      : (forest.scopes[owner]?.bind (·.get? name)) = (forest.bindings owner).get? name := by
    rw [bindings]
    cases forest.scopes[owner]? <;> rfl
  rw [get?, owner?_eq]
  split
  · exact reads scope
  · cases forest.parent? scope <;> rfl

/-- A name is visible just when it has a value, by the same induction. -/
theorem contains_eq_isSome_get? (scope : Nat) (name : String)
    : forest.contains scope name = (forest.get? scope name).isSome := by
  induction scope using Nat.strongRecOn with
  | ind scope ih =>
      rw [contains, owner?_eq, get?_eq]
      cases binds : forest.binds scope name with
      | true =>
          rw [binds_eq] at binds
          simp [binds]
      | false =>
          cases outer : forest.parent? scope with
          | none => rfl
          | some parent => exact ih parent (parent?_lt outer)

/-- A name is visible just when it has an owner. -/
theorem contains_iff_owns (scope : Nat) (name : String)
    : forest.contains scope name = true ↔ ∃ owner, forest.Owns name scope owner := by
  simp only [contains, Option.isSome_iff_exists, owner?_eq_some_iff]

end Walks

section Owners

variable {forest : Forest} {name : String} {scope outer owner : Nat}

/-- What is seen lies outwards, where scopes are older. -/
theorem Sees.le (sees : forest.Sees name scope outer) : outer ≤ scope := by
  induction sees with
  | here => exact Nat.le_refl _
  | outwards _ parent _ ih => exact Nat.le_trans ih (Nat.le_of_lt (parent?_lt parent))

/-- The value of a name is the one that its owner binds, by induction on the way to it. -/
theorem Owns.get?_eq (owns : forest.Owns name scope owner)
    : forest.get? scope name = (forest.bindings owner).get? name := by
  obtain ⟨sees, binds⟩ := owns
  induction sees with
  | here => rw [Forest.get?_eq, if_pos binds]
  | outwards unbound parent _ ih =>
      rw [Forest.get?_eq, if_neg (by simp [unbound]), parent]
      exact ih binds

end Owners

-- What a definition changes

section Definitions

variable (forest : Forest) (scope : Nat) (name : String) (value : Value)

/-- Only one scope is written to, and only one name in it. -/
theorem get?_bindings_define (other : Nat) (asked : String)
    : ((forest.define scope name value).bindings other).get? asked
      = if other = scope ∧ scope < forest.nextId ∧ asked = name then some value
        else (forest.bindings other).get? asked := by
  rw [bindings_define]
  by_cases written : other = scope ∧ scope < forest.nextId
  · obtain ⟨rfl, exists_⟩ := written
    simp [exists_, Bindings.get?_set]
  · rw [if_neg written, if_neg fun same => written ⟨same.1, same.2.1⟩]

variable {scope name}

/-- A definition is seen from every scope from which the way outwards gets to it. -/
theorem get?_define_of_sees {other : Nat} (sees : forest.Sees name other scope)
    : (forest.define scope name value).get? other name = some value := by
  induction sees with
  | @here scope exists_ =>
      rw [get?_eq, if_pos (forest.binds_define_self exists_ name value), get?_bindings_define,
        if_pos ⟨rfl, exists_, rfl⟩]
  | @outwards other parent scope unbound outer further ih =>
      have inside : other ≠ scope := Nat.ne_of_gt (Nat.lt_of_le_of_lt further.le (parent?_lt outer))
      have stays : (forest.define scope name value).binds other name = false := by
        rw [binds_eq, bindings_define_of_ne forest inside, ← binds_eq]
        exact unbound
      rw [get?_eq, if_neg (by simp [stays]), parent?_define, outer]
      exact ih

/-- From all other scopes, and for all other names, nothing changes. -/
theorem get?_define_of_not_sees {other : Nat} {asked : String}
    (hidden : ¬ (asked = name ∧ forest.Sees name other scope))
    : (forest.define scope name value).get? other asked = forest.get? other asked := by
  induction other using Nat.strongRecOn with
  | ind other ih =>
      have reads : ((forest.define scope name value).bindings other).get? asked
          = (forest.bindings other).get? asked := by
        rw [get?_bindings_define, if_neg]
        rintro ⟨rfl, exists_, rfl⟩
        exact hidden ⟨rfl, .here exists_⟩
      have binds : (forest.define scope name value).binds other asked
          = forest.binds other asked := by
        rw [binds_eq, reads, ← binds_eq]
      rw [get?_eq, get?_eq forest, reads, binds, parent?_define]
      cases unbound : forest.binds other asked with
      | true => rfl
      | false =>
          cases outer : forest.parent? other with
          | none => rfl
          | some parent =>
              refine ih parent (parent?_lt outer) fun seen => ?_
              obtain ⟨rfl, sees⟩ := seen
              exact hidden ⟨rfl, .outwards unbound outer sees⟩

end Definitions

-- The laws of the store

/-- The forest after an assignment. It stays as it is if no scope binds the name. -/
def assigned (forest : Forest) (scope : Nat) (name : String) (value : Value) : Forest :=
  (forest.assign? scope name value).getD forest

/-- An assignment is a definition in the owner. -/
theorem assigned_of_owns {forest : Forest} {scope owner : Nat} {name : String}
    (owns : forest.Owns name scope owner) (value : Value)
    : forest.assigned scope name value = forest.define owner name value := by
  simp [assigned, assign?, forest.owner?_eq_some_iff.mpr owns]

/-- An assignment to a name without an owner changes nothing. -/
theorem assigned_of_unowned {forest : Forest} {scope : Nat} {name : String}
    (unowned : ¬ ∃ owner, forest.Owns name scope owner) (value : Value)
    : forest.assigned scope name value = forest := by
  cases found : forest.owner? scope name with
  | none => simp [assigned, assign?, found]
  | some owner => exact absurd ⟨owner, forest.owner?_eq_some_iff.mp found⟩ unowned

/-- The scopes of a forest, as a store for the values of names. -/
structure IsStore (forest : Forest) : Prop where
  owner_unique : ∀ name scope owner owner', forest.Owns name scope owner →
    forest.Owns name scope owner' → owner = owner'
  contains_iff : ∀ name scope, forest.contains scope name = true
    ↔ ∃ owner, forest.Owns name scope owner
  get_of_owns : ∀ name scope owner, forest.Owns name scope owner →
    ∃ value, (forest.bindings owner).get? name = some value
      ∧ forest.get? scope name = some value
  get_of_unowned : ∀ name scope, (¬ ∃ owner, forest.Owns name scope owner) →
    forest.get? scope name = none
  assign_iff : ∀ name scope value, (forest.assign? scope name value).isSome = true
    ↔ ∃ owner, forest.Owns name scope owner
  /-- What is assigned to a name is seen from the scopes where the name has the same owner. -/
  get_assigned : ∀ name scope value other owner, forest.Owns name scope owner →
    forest.Owns name other owner → (forest.assigned scope name value).get? other name = some value
  get_assigned_otherwise : ∀ name scope value other asked,
    ¬ (asked = name ∧ ∃ owner, forest.Owns name scope owner ∧ forest.Owns name other owner) →
    (forest.assigned scope name value).get? other asked = forest.get? other asked
  contains_assigned : ∀ name scope value other asked,
    (forest.assigned scope name value).contains other asked = forest.contains other asked
  depth_assigned : ∀ name scope value other,
    (forest.assigned scope name value).depth other = forest.depth other
  assigned_unowned : ∀ name scope value, (forest.assign? scope name value).isSome = false →
    forest.assigned scope name value = forest
  /-- What a scope defines is seen from the scopes from which it is met before another scope that
  binds the name.
  -/
  get_define : ∀ name scope value other, forest.Sees name other scope →
    (forest.define scope name value).get? other name = some value
  get_define_otherwise : ∀ name scope value other asked,
    ¬ (asked = name ∧ forest.Sees name other scope) →
    (forest.define scope name value).get? other asked = forest.get? other asked
  depth_define : ∀ name scope value other,
    (forest.define scope name value).depth other = forest.depth other

section Assignments

variable (forest : Forest) (scope : Nat) (name : String) (value : Value)

/-- An assignment succeeds just when the name has an owner. -/
theorem assign?_isSome_iff
    : (forest.assign? scope name value).isSome = true ↔ ∃ owner, forest.Owns name scope owner := by
  rw [assign?, Option.isSome_map]
  exact forest.contains_iff_owns scope name

/-- An assignment is seen only by the same name with the same owner: no other definition in the
owner is seen, and without an owner there is none. -/
theorem get?_assigned_of_ne {other : Nat} {asked : String}
    (differs : ¬ (asked = name
      ∧ ∃ owner, forest.Owns name scope owner ∧ forest.Owns name other owner))
    : (forest.assigned scope name value).get? other asked = forest.get? other asked := by
  by_cases owned : ∃ owner, forest.Owns name scope owner
  · obtain ⟨owner, owns⟩ := owned
    rw [assigned_of_owns owns]
    refine forest.get?_define_of_not_sees value fun seen => ?_
    exact differs ⟨seen.1, owner, owns, seen.2, owns.binds⟩
  · rw [assigned_of_unowned owned]

/-- An assignment changes no visibility: where it is seen there was a value and is one, and
elsewhere all values stay. -/
theorem contains_assigned (other : Nat) (asked : String)
    : (forest.assigned scope name value).contains other asked = forest.contains other asked := by
  rw [contains_eq_isSome_get?, contains_eq_isSome_get?]
  by_cases seen : asked = name
      ∧ ∃ owner, forest.Owns name scope owner ∧ forest.Owns name other owner
  · obtain ⟨rfl, owner, owns, ownsOther⟩ := seen
    have visible := (forest.contains_iff_owns other asked).mpr ⟨owner, ownsOther⟩
    rw [contains_eq_isSome_get?] at visible
    rw [assigned_of_owns owns, forest.get?_define_of_sees value ownsOther.sees, visible]
    rfl
  · rw [forest.get?_assigned_of_ne scope name value seen]

/-- A definition keeps all depths. -/
theorem depth_define (other : Nat)
    : (forest.define scope name value).depth other = forest.depth other := by
  simp [depth]

/-- An assignment keeps all depths, being a definition or nothing. -/
theorem depth_assigned (other : Nat)
    : (forest.assigned scope name value).depth other = forest.depth other := by
  by_cases owned : ∃ owner, forest.Owns name scope owner
  · obtain ⟨owner, owns⟩ := owned
    rw [assigned_of_owns owns, depth_define]
  · rw [assigned_of_unowned owned]

end Assignments

/-- The scopes of a forest obey the laws of a store, whatever was done to the forest before. -/
theorem isStore (forest : Forest) : forest.IsStore where
  owner_unique name scope owner owner' owns owns' :=
    Option.some.inj ((forest.owner?_eq_some_iff.mpr owns).symm.trans
      (forest.owner?_eq_some_iff.mpr owns'))
  contains_iff name scope := forest.contains_iff_owns scope name
  get_of_owns name scope owner owns := by
    have bound := owns.binds
    rw [binds_eq, Option.isSome_iff_exists] at bound
    obtain ⟨value, bound⟩ := bound
    exact ⟨value, bound, owns.get?_eq.trans bound⟩
  get_of_unowned name scope unowned := by
    rw [← contains_iff_owns, contains_eq_isSome_get?] at unowned
    simpa using unowned
  assign_iff name scope value := forest.assign?_isSome_iff scope name value
  get_assigned name scope value other owner owns ownsOther := by
    rw [assigned_of_owns owns]
    exact forest.get?_define_of_sees value ownsOther.sees
  get_assigned_otherwise name scope value other asked differs :=
    forest.get?_assigned_of_ne scope name value differs
  contains_assigned name scope value other asked :=
    forest.contains_assigned scope name value other asked
  depth_assigned name scope value other := forest.depth_assigned scope name value other
  assigned_unowned name scope value failed := by
    refine assigned_of_unowned (fun owned => ?_) value
    simp [(forest.assign?_isSome_iff scope name value).mpr owned] at failed
  get_define name scope value other sees := forest.get?_define_of_sees value sees
  get_define_otherwise name scope value other asked hidden :=
    forest.get?_define_of_not_sees value hidden
  depth_define name scope value other := forest.depth_define scope name value other

end Sprig.Forest
