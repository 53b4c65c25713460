import MonkeyLang.Store

/-!
Where the values of a store come from: what a name is found to be bound to stands in some scope, and
a scope that is assigned to or added holds nothing else that is new.
-/

namespace MonkeyLang

theorem Scope.mem_assignAmong {name : String} {value : Value} {bindings : List (String × Value)}
    {binding : String × Value} (member : binding ∈ assignAmong name value bindings) :
    binding = (name, value) ∨ binding ∈ bindings := by
  induction bindings with
  | nil => exact .inl (List.mem_singleton.mp member)
  | cons first rest ih =>
      obtain ⟨known, old⟩ := first
      rw [assignAmong] at member
      split at member
      · exact (List.mem_cons.mp member).imp_right (List.mem_cons_of_mem _)
      · rcases List.mem_cons.mp member with rfl | later
        · exact .inr List.mem_cons_self
        · exact (ih later).imp_right (List.mem_cons_of_mem _)

theorem Scope.mem_of_find? {scope : Scope} {name : String} {value : Value}
    (found : scope.find? name = some value) : ∃ binding ∈ scope.bindings, binding.2 = value := by
  obtain ⟨binding, bound, same⟩ := Option.map_eq_some_iff.mp found
  exact ⟨binding, List.mem_of_find?_eq_some bound, same⟩

namespace Store

/-- A value stands in a scope under some name. -/
def Binds (store : Store) (value : Value) : Prop :=
  ∃ (index : Nat) (scope : Scope), store.scopes[index]? = some scope ∧
    ∃ binding ∈ scope.bindings, binding.2 = value

theorem binds_of_search {store : Store} {name : String} {value : Value} {count scope : Nat}
    (found : store.search name count scope = some value) : store.Binds value := by
  induction count generalizing scope with
  | zero => cases found
  | succ count ih =>
      rw [search] at found
      split at found
      · cases found
      · rename_i inner present
        split at found
        · rename_i here
          cases found
          exact ⟨scope, inner, present, Scope.mem_of_find? here⟩
        · exact ih found
        · cases found

theorem binds_of_find? {store : Store} {scope : Nat} {name : String} {value : Value}
    (found : store.find? scope name = some value) : store.Binds value :=
  binds_of_search found

theorem size_assign (store : Store) (scope : Nat) (name : String) (value : Value) :
    (store.assign scope name value).scopes.size = store.scopes.size :=
  Array.size_modify

theorem size_addScope (store : Store) (outer : Option Nat) :
    (store.addScope outer).scopes.size = store.scopes.size + 1 :=
  Array.size_push _

/-- A scope after an assignment is the one before, with what is assigned. -/
theorem getElem?_assign {store : Store} {scope index : Nat} {name : String} {value : Value}
    {after : Scope} (present : (store.assign scope name value).scopes[index]? = some after) :
    ∃ before, store.scopes[index]? = some before ∧ after.outer = before.outer ∧
      ∀ binding ∈ after.bindings, binding = (name, value) ∨ binding ∈ before.bindings := by
  rw [assign, Array.getElem?_modify] at present
  split at present
  · obtain ⟨before, old, rfl⟩ := Option.map_eq_some_iff.mp present
    exact ⟨before, old, rfl, fun binding member => Scope.mem_assignAmong member⟩
  · exact ⟨after, present, rfl, fun binding member => .inr member⟩

theorem getElem?_addScope {store : Store} {outer : Option Nat} {index : Nat} {scope : Scope}
    (present : (store.addScope outer).scopes[index]? = some scope) :
    (index = store.scopes.size ∧ scope = ⟨[], outer⟩) ∨ store.scopes[index]? = some scope := by
  rw [addScope, Array.getElem?_push] at present
  split at present
  · cases present
    exact .inl ⟨‹_›, rfl⟩
  · exact .inr present

end Store

end MonkeyLang
