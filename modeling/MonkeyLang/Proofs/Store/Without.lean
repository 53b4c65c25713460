import MonkeyLang.Proofs.Store.Lookup

/-!
A store without what a name is bound to in one of its scopes. Looking up and binding other names is the
same in it (`find?_without`, `assign_without`). Which functions can be come to from the scope by other
names is said by `Reaches`.
-/

namespace MonkeyLang

namespace Node

mutual
/-- All names in a node: those looked up, bound or taken as parameters. -/
def names : Node → List String
  | program statements | block _ statements => namesAll statements
  | binding _ target value => target.name :: names value
  | returning _ value => names value
  | statement _ expression => names expression
  | name identifier => [identifier.name]
  | number .. | truth .. | missing => []
  | unary _ _ operand => names operand
  | binary _ left _ right => names left ++ names right
  | conditional _ condition consequence alternative =>
    names condition ++ names consequence ++ names alternative
  | function _ parameters body => parameters.map Identifier.name ++ names body
  | call _ callee arguments => names callee ++ namesAll arguments

def namesAll : List Node → List String
  | [] => []
  | node :: rest => names node ++ namesAll rest
end

end Node

namespace Value

/-- The names in the function that a value is, or holds on its way out of another one. -/
def names : Value → List String
  | returned inner _ => inner.names
  | function parameters body _ _ => parameters.map Identifier.name ++ body.names
  | integer _ | boolean _ | null | error .. => []

/-- The scope that function was made in. -/
def scope? : Value → Option Nat
  | returned inner _ => inner.scope?
  | function _ _ scope _ => some scope
  | integer _ | boolean _ | null | error .. => none

/-- A value that does not mention a name, and whose function was made in one of some scopes. -/
structure Clear (name : String) (inside : Nat → Prop) (value : Value) : Prop where
  unnamed : name ∉ value.names
  within : ∀ scope ∈ value.scope?, inside scope

end Value

namespace Scope

variable {name other : String}

def without (scope : Scope) (name : String) : Scope :=
  { scope with bindings := scope.bindings.filter (·.1 ≠ name) }

theorem find?_without (scope : Scope) (differs : other ≠ name) :
    (scope.without name).find? other = scope.find? other := by
  have same : (fun binding : String × Value =>
      decide (decide (binding.1 ≠ name) = true ∧ decide (binding.1 = other) = true)) =
      fun binding => decide (binding.1 = other) := by
    funext binding
    by_cases found : binding.1 = other
    · simp [found, differs]
    · simp [found]
  rw [find?, find?, without, List.find?_filter, same]

theorem assignAmong_without (value : Value) (bindings : List (String × Value)) (differs : other ≠ name) :
    (assignAmong other value bindings).filter (·.1 ≠ name) =
      assignAmong other value (bindings.filter (·.1 ≠ name)) := by
  induction bindings with
  | nil => simp [assignAmong, differs]
  | cons binding rest ih =>
      obtain ⟨known, old⟩ := binding
      by_cases found : known = other
      · subst found
        simp [assignAmong, differs]
      · by_cases dropped : known = name
        · simp [assignAmong, dropped, differs.symm] at ih ⊢
          exact ih
        · simp [assignAmong, found, dropped] at ih ⊢
          exact ih

theorem assign_without (scope : Scope) (value : Value) (differs : other ≠ name) :
    (scope.assign other value).without name = (scope.without name).assign other value := by
  rw [assign, assign, without, without, assignAmong_without value scope.bindings differs]

theorem without_assign (scope : Scope) (name : String) (value : Value) :
    (scope.assign name value).without name = scope.without name := by
  have same (bindings : List (String × Value)) :
      (assignAmong name value bindings).filter (·.1 ≠ name) = bindings.filter (·.1 ≠ name) := by
    induction bindings with
    | nil => simp [assignAmong]
    | cons binding rest ih =>
        obtain ⟨known, old⟩ := binding
        by_cases found : known = name
        · simp [assignAmong, found]
        · simp [assignAmong, found] at ih ⊢
          exact ih
  rw [assign, without, same]
  rfl

theorem without_without (scope : Scope) (name : String) :
    (scope.without name).without name = scope.without name := by
  simp [without]

end Scope

namespace Store

variable {top : Nat} {name other : String}

/-- The store without what `name` is bound to in the scope `top`. -/
def without (store : Store) (top : Nat) (name : String) : Store :=
  { store with scopes := store.scopes.modify top (·.without name) }

theorem size_without (store : Store) (top : Nat) (name : String) :
    (store.without top name).scopes.size = store.scopes.size :=
  Array.size_modify

theorem getElem?_without (store : Store) (top : Nat) (name : String) (index : Nat) :
    (store.without top name).scopes[index]? =
      if top = index then store.scopes[index]?.map (·.without name) else store.scopes[index]? :=
  Array.getElem?_modify

theorem search_without (store : Store) (differs : other ≠ name) (count scope : Nat) :
    (store.without top name).search other count scope = store.search other count scope := by
  induction count generalizing scope with
  | zero => rfl
  | succ count ih =>
      have same : ∀ found : Scope, (found.without name).outer = found.outer := fun _ => rfl
      rw [search, search, getElem?_without]
      by_cases here : top = scope
      · rw [if_pos here]
        cases store.scopes[scope]? with
        | none => rfl
        | some found =>
            simp only [Option.map_some, Scope.find?_without found differs, same, ih]
      · rw [if_neg here]
        simp only [ih]

theorem find?_without (store : Store) (differs : other ≠ name) (scope : Nat) :
    (store.without top name).find? scope other = store.find? scope other := by
  rw [find?, find?, size_without, search_without store differs]

theorem modify_modify (scopes : Array Scope) (index : Nat) (first second : Scope → Scope) :
    (scopes.modify index first).modify index second =
      scopes.modify index fun scope => second (first scope) := by
  apply Array.ext_getElem?
  intro other
  simp only [Array.getElem?_modify]
  split
  · rw [Option.map_map]
    rfl
  · rfl

theorem modify_swap (scopes : Array Scope) (index index' : Nat) {first second : Scope → Scope}
    (commute : ∀ scope, second (first scope) = first (second scope)) :
    (scopes.modify index first).modify index' second =
      (scopes.modify index' second).modify index first := by
  apply Array.ext_getElem?
  intro other
  simp only [Array.getElem?_modify]
  split
  · split
    · rw [Option.map_map, Option.map_map]
      exact congrArg (scopes[other]?.map ·) (funext commute)
    · rfl
  · rfl

theorem assign_without (store : Store) (scope : Nat) (value : Value) (differs : other ≠ name) :
    (store.assign scope other value).without top name =
      (store.without top name).assign scope other value := by
  have swapped : (store.scopes.modify scope (·.assign other value)).modify top (·.without name) =
      (store.scopes.modify top (·.without name)).modify scope (·.assign other value) := by
    apply modify_swap
    intro found
    exact Scope.assign_without found value differs
  exact congrArg (Store.mk · store.tags) swapped

/-- Binding the name itself, whether it was bound before or not, is not seen. -/
theorem without_assign (store : Store) (top : Nat) (name : String) (value : Value) :
    (store.assign top name value).without top name = store.without top name := by
  have unseen : (fun scope : Scope => (scope.assign name value).without name) = (·.without name) :=
    funext fun scope => scope.without_assign name value
  have same := modify_modify store.scopes top (·.assign name value) (·.without name)
  rw [unseen] at same
  exact congrArg (Store.mk · store.tags) same

theorem without_without (store : Store) (top : Nat) (name : String) :
    (store.without top name).without top name = store.without top name := by
  have unseen : (fun scope : Scope => (scope.without name).without name) = (·.without name) :=
    funext fun scope => scope.without_without name
  have same := modify_modify store.scopes top (·.without name) (·.without name)
  rw [unseen] at same
  exact congrArg (Store.mk · store.tags) same

theorem addScope_without (store : Store) (outer : Option Nat) :
    (store.addScope outer).without top name = (store.without top name).addScope outer := by
  rw [addScope, addScope, without, without]
  congr 1
  apply Array.ext_getElem?
  intro index
  simp only [Array.getElem?_modify, Array.getElem?_push, Array.size_modify]
  by_cases last : index = store.scopes.size
  · simp only [last, if_true]
    split <;> rfl
  · simp only [last, if_false]

theorem bindings_without (store : Store) (top : Nat) (name : String) :
    (store.without top name).bindings top = (store.bindings top).filter (·.1 ≠ name) := by
  rw [bindings, bindings, getElem?_without, if_pos rfl]
  cases store.scopes[top]? <;> rfl

/-- The scopes that a run in `top` can come to: outward, and through the functions bound on the way. The
binding of `name` in `top` is not followed. -/
inductive Reaches (store : Store) (top : Nat) (name : String) : Nat → Prop
  | start : Reaches store top name top
  | outward {index outer : Nat} {scope : Scope} (reached : Reaches store top name index)
      (present : store.scopes[index]? = some scope) (around : outer ∈ scope.outer) :
      Reaches store top name outer
  | captured {index inner : Nat} {scope : Scope} {binding : String × Value}
      (reached : Reaches store top name index) (present : store.scopes[index]? = some scope)
      (member : binding ∈ scope.bindings) (followed : ¬(index = top ∧ binding.1 = name))
      (made : inner ∈ binding.2.scope?) : Reaches store top name inner

/-- No function that a run in `top` can come to mentions `name`. -/
def Oblivious (store : Store) (top : Nat) (name : String) : Prop :=
  ∀ ⦃index : Nat⦄ ⦃scope : Scope⦄ ⦃binding : String × Value⦄, store.Reaches top name index →
    store.scopes[index]? = some scope → binding ∈ scope.bindings →
    ¬(index = top ∧ binding.1 = name) → name ∉ binding.2.names

/-- A set of scopes that nothing in it leads out of and in which no function mentions `name`. -/
structure Closed (store : Store) (top : Nat) (name : String) (inside : Nat → Prop) : Prop where
  outer : ∀ {index : Nat} {scope : Scope}, store.scopes[index]? = some scope → inside index →
    ∀ outer ∈ scope.outer, inside outer
  bound : ∀ {index : Nat} {scope : Scope}, store.scopes[index]? = some scope → inside index →
    ∀ binding ∈ scope.bindings, ¬(index = top ∧ binding.1 = name) → binding.2.Clear name inside

variable {store : Store} {inside : Nat → Prop}

theorem oblivious_of_closed (start : inside top) (closed : store.Closed top name inside) :
    store.Oblivious top name := by
  have reaches : ∀ {index}, store.Reaches top name index → inside index := by
    intro index reached
    induction reached with
    | start => exact start
    | outward _ present around ih => exact closed.outer present ih _ around
    | captured _ present member followed made ih =>
        exact (closed.bound present ih _ member followed).within _ made
  intro index scope binding reached present member followed
  exact (closed.bound present (reaches reached) binding member followed).unnamed

/-- The scopes that can be come to are closed, and stay so with all that are yet to be made. -/
theorem Oblivious.closed (oblivious : store.Oblivious top name) :
    store.Closed top name fun index =>
      store.Reaches top name index ∨ store.scopes.size ≤ index where
  outer present inside outer around := by
    obtain ⟨old, -⟩ := Array.getElem?_eq_some_iff.mp present
    exact .inl (.outward (inside.resolve_right (Nat.not_le_of_lt old)) present around)
  bound present inside binding member followed := by
    obtain ⟨old, -⟩ := Array.getElem?_eq_some_iff.mp present
    have reached := inside.resolve_right (Nat.not_le_of_lt old)
    exact ⟨oblivious reached present member followed,
      fun inner made => .inl (.captured reached present member followed made)⟩

/-- Closure does not depend on what the name is bound to. -/
theorem Closed.of_without_eq {store' : Store} (closed : store.Closed top name inside)
    (same : store'.without top name = store.without top name) : store'.Closed top name inside := by
  have origin : ∀ {index : Nat} {scope' : Scope}, store'.scopes[index]? = some scope' →
      ∃ scope, store.scopes[index]? = some scope ∧ scope'.outer = scope.outer ∧
        ∀ binding ∈ scope'.bindings, ¬(index = top ∧ binding.1 = name) →
          binding ∈ scope.bindings := by
    intro index scope' present
    have found : (store'.without top name).scopes[index]? = (store.without top name).scopes[index]? := by
      rw [same]
    rw [getElem?_without, getElem?_without, present] at found
    by_cases here : top = index
    · rw [if_pos here, if_pos here] at found
      obtain ⟨scope, old, alike⟩ := Option.map_eq_some_iff.mp found.symm
      have alike : scope.without name = scope'.without name := alike
      refine ⟨scope, old, (congrArg Scope.outer alike).symm, ?_⟩
      intro binding member followed
      have differs : binding.1 ≠ name := fun named => followed ⟨here.symm, named⟩
      have kept : binding ∈ (scope'.without name).bindings :=
        List.mem_filter.mpr ⟨member, decide_eq_true differs⟩
      rw [← alike] at kept
      exact (List.mem_filter.mp kept).1
    · rw [if_neg here, if_neg here] at found
      exact ⟨scope', found.symm, rfl, fun binding member _ => member⟩
  constructor
  · intro index scope' present within outer around
    obtain ⟨scope, old, outer_eq, -⟩ := origin present
    exact closed.outer old within outer (outer_eq ▸ around)
  · intro index scope' present within binding member followed
    obtain ⟨scope, old, -, bindings⟩ := origin present
    exact closed.bound old within binding (bindings binding member followed) followed

theorem Oblivious.of_without_eq {store' : Store} (oblivious : store.Oblivious top name)
    (same : store'.without top name = store.without top name) : store'.Oblivious top name :=
  oblivious_of_closed (.inl .start) (oblivious.closed.of_without_eq same)

namespace Closed

theorem countTag (closed : store.Closed top name inside) : store.countTag.Closed top name inside :=
  ⟨closed.outer, closed.bound⟩

theorem addScope (closed : store.Closed top name inside) {around : Nat} (within : inside around) :
    (store.addScope (some around)).Closed top name inside where
  outer present within' outer member := by
    rcases getElem?_addScope present with ⟨-, rfl⟩ | old
    · cases member
      exact within
    · exact closed.outer old within' outer member
  bound present within' binding member followed := by
    rcases getElem?_addScope present with ⟨-, rfl⟩ | old
    · cases member
    · exact closed.bound old within' binding member followed

theorem assign (closed : store.Closed top name inside) (scope : Nat) (other : String) {value : Value}
    (clear : value.Clear name inside) : (store.assign scope other value).Closed top name inside where
  outer present within outer member := by
    obtain ⟨before, old, around, -⟩ := getElem?_assign present
    exact closed.outer old within outer (around ▸ member)
  bound present within binding member followed := by
    obtain ⟨before, old, -, origin⟩ := getElem?_assign present
    rcases origin binding member with rfl | earlier
    · exact clear
    · exact closed.bound old within binding earlier followed

theorem clear_search (closed : store.Closed top name inside) (differs : other ≠ name)
    {count scope : Nat} (within : inside scope) {value : Value}
    (found : store.search other count scope = some value) : value.Clear name inside := by
  induction count generalizing scope with
  | zero => cases found
  | succ count ih =>
      rw [search] at found
      split at found
      · cases found
      · rename_i inner present
        split at found
        · rename_i here
          cases found
          obtain ⟨binding, bound, rfl⟩ := Option.map_eq_some_iff.mp here
          have named : binding.1 = other := by simpa using List.find?_some bound
          apply closed.bound present within binding (List.mem_of_find?_eq_some bound)
          rintro ⟨-, same⟩
          exact differs (named.symm.trans same)
        · rename_i around
          exact ih (closed.outer present within _ around) found
        · cases found

end Closed

end Store

end MonkeyLang
