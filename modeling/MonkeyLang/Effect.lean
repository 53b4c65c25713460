import MonkeyLang.Fault

/-!
Actions that print. An effect is what an action on a state comes to.
-/

namespace MonkeyLang

structure Effect (σ α : Type) where
  /-- The state afterwards, also where a fault ended the action. -/
  state : σ
  printed : String
  answer : Except Fault α

namespace Effect

variable {σ τ α β : Type}

def done (state : σ) (answer : α) : Effect σ α := ⟨state, "", .ok answer⟩

def print (text : String) (effect : Effect σ α) : Effect σ α :=
  { effect with printed := text ++ effect.printed }

def andThen (first : Effect σ α) (next : σ → α → Effect σ β) : Effect σ β :=
  match first.answer with
  | .ok value => (next first.state value).print first.printed
  | .error fault => ⟨first.state, first.printed, .error fault⟩

def within (inner : Effect σ α) (place : σ → τ) : Effect τ α :=
  ⟨place inner.state, inner.printed, inner.answer⟩

end Effect

end MonkeyLang
