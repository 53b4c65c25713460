import MonkeyLang.Proofs.Store.Lookup
import MonkeyLang.Value.Operation

/-!
Stores as programs leave them. The scope around a scope is older, every function was made in a scope
that there is, and no error is bound or wrapped. In such a store looking a name up comes to an end
(`Store.Sound.finds`).
-/

namespace MonkeyLang

/-- The nodes of some programs, at any depth. -/
inductive Node.Within (programs : Node → Prop) : Node → Prop
  | whole {node : Node} (member : programs node) : Within programs node
  | part {whole part : Node} (inside : Within programs whole) (member : part ∈ whole.parts) :
      Within programs part

namespace Value

/-- A value that some programs can compute where a number of scopes has been made. -/
def Sound (programs : Node → Prop) (count : Nat) : Value → Prop
  | returned inner _ => inner.isError = false ∧ Sound programs count inner
  | function parameters body scope _ =>
    (∃ token, Node.Within programs (.function token parameters body)) ∧ scope < count
  | integer _ | boolean _ | null | error .. => True

/-- A value that may be bound, passed on or returned. -/
structure Usable (programs : Node → Prop) (count : Nat) (value : Value) : Prop where
  fine : value.isError = false
  sound : value.Sound programs count

variable {programs : Node → Prop} {count : Nat}

theorem Sound.mono {more : Nat} {value : Value} (sound : value.Sound programs count)
    (bound : count ≤ more) : value.Sound programs more := by
  induction value with
  | returned inner tag ih => exact ⟨sound.1, ih sound.2⟩
  | function parameters body scope tag => exact ⟨sound.1, Nat.lt_of_lt_of_le sound.2 bound⟩
  | integer | boolean | null | error => trivial

theorem Usable.mono {more : Nat} {value : Value} (usable : value.Usable programs count)
    (bound : count ≤ more) : value.Usable programs more :=
  ⟨usable.fine, usable.sound.mono bound⟩

theorem Sound.unwrap {value : Value} (sound : value.Sound programs count) :
    value.unwrap.Sound programs count := by
  cases value with
  | returned inner tag => exact sound.2
  | integer | boolean | null | error | function => exact sound

theorem usable_of_binaryOperation {operator : String} {left right result : Value}
    (computed : binaryOperation operator left right = .ok result) :
    result.Usable programs count := by
  refine ⟨binaryOperation_not_error computed, ?_⟩
  unfold binaryOperation at computed
  split at computed
  · unfold integerOperation at computed
    grind [Sound]
  · unfold mixedOperation at computed
    grind [Sound]

theorem usable_of_unaryOperation {operator : String} {operand result : Value}
    (computed : unaryOperation operator operand = .ok result) : result.Usable programs count := by
  refine ⟨unaryOperation_not_error computed, ?_⟩
  unfold unaryOperation at computed
  grind [Sound]

end Value

namespace Store

structure Sound (programs : Node → Prop) (store : Store) : Prop where
  older : ∀ {index : Nat} {scope : Scope}, store.scopes[index]? = some scope →
    ∀ outer ∈ scope.outer, outer < index
  usable : ∀ {value : Value}, store.Binds value → value.Usable programs store.scopes.size

/-- Looking a name up: outward from a scope, to the first that binds it or until none is left. -/
inductive Finds (store : Store) (name : String) : Option Nat → Option Value → Prop
  | nowhere : Finds store name none none
  | here {index : Nat} {scope : Scope} {value : Value} (present : store.scopes[index]? = some scope)
      (bound : scope.find? name = some value) : Finds store name (some index) (some value)
  | outward {index : Nat} {scope : Scope} {result : Option Value}
      (present : store.scopes[index]? = some scope) (free : scope.find? name = none)
      (further : Finds store name scope.outer result) : Finds store name (some index) result

namespace Sound

variable {programs : Node → Prop} {store : Store}

theorem search_finds (sound : store.Sound programs) (name : String) {count scope : Nat}
    (bound : scope < store.scopes.size) (enough : scope < count) :
    store.Finds name (some scope) (store.search name count scope) := by
  induction count generalizing scope with
  | zero => omega
  | succ count ih =>
      have present : store.scopes[scope]? = some store.scopes[scope] :=
        Array.getElem?_eq_getElem bound
      rw [search, present]
      dsimp only
      split
      · rename_i here
        exact .here present here
      · rename_i outer free around
        have closer : outer < scope := sound.older present outer around
        apply Finds.outward present free
        rw [around]
        exact ih (by omega) (by omega)
      · rename_i free around
        apply Finds.outward present free
        rw [around]
        exact .nowhere

/-- The search for a name comes to an end, and what it finds is what is looked up. -/
theorem finds (sound : store.Sound programs) (name : String) {scope : Nat}
    (bound : scope < store.scopes.size) :
    store.Finds name (some scope) (store.find? scope name) :=
  sound.search_finds name bound bound

theorem empty : Store.empty.Sound programs where
  older present := by cases present
  usable := by
    rintro value ⟨index, scope, present, binding, member, rfl⟩
    cases present

theorem countTag (sound : store.Sound programs) : store.countTag.Sound programs :=
  ⟨sound.older, sound.usable⟩

theorem addScope (sound : store.Sound programs) {outer : Option Nat}
    (bound : ∀ around ∈ outer, around < store.scopes.size) :
    (store.addScope outer).Sound programs where
  older present around inside := by
    rcases getElem?_addScope present with ⟨rfl, rfl⟩ | old
    · exact bound around inside
    · exact sound.older old around inside
  usable := by
    rintro value ⟨index, scope, present, binding, member, rfl⟩
    rcases getElem?_addScope present with ⟨rfl, rfl⟩ | old
    · cases member
    · rw [size_addScope]
      exact (sound.usable ⟨index, scope, old, binding, member, rfl⟩).mono (Nat.le_succ _)

theorem fresh : (Store.empty.addScope none).Sound programs := empty.addScope nofun

theorem assign (sound : store.Sound programs) (scope : Nat) (name : String) {value : Value}
    (fine : value.Usable programs store.scopes.size) :
    (store.assign scope name value).Sound programs where
  older present outer inside := by
    obtain ⟨before, old, around, -⟩ := getElem?_assign present
    exact sound.older old outer (around ▸ inside)
  usable := by
    rintro _ ⟨index, scope, present, binding, member, rfl⟩
    obtain ⟨before, old, -, origin⟩ := getElem?_assign present
    rw [size_assign]
    rcases origin binding member with rfl | earlier
    · exact fine
    · exact sound.usable ⟨index, before, old, binding, earlier, rfl⟩

end Sound

end Store

end MonkeyLang
