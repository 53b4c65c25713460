import MonkeyLang.Interpretation
import MonkeyLang.Proofs.Evaluation.Points
import MonkeyLang.Session

/-!
Programs run one after the other in one scope. What they leave behind is sound, and so is all that any
of them comes through (`points_sound`). A run ends in a fault just where a message would need a number
too long to write (`faults_iff_overlong`), which can happen (`overlong_division_faults`).
-/

namespace MonkeyLang.Evaluation

/-- The programs that are read without a mistake. -/
def Accepted (program : Node) : Prop := ∃ source, readProgram source = .ok program

theorem accepted_of_clean {source : String} (clean : (Parsed.ofText source).mistakes = []) :
    Accepted (Parsed.ofText source).program := by
  refine ⟨source, ?_⟩
  rw [readProgram, clean]
  rfl

/-- What is in store after some programs were run in the scope of a session, each under a limit of its
own and however it ended. -/
inductive Built (programs : Node → Prop) : Store → Prop
  | fresh : Built programs (Store.empty.addScope none)
  | run {store : Store} {program : Node} (earlier : Built programs store)
      (member : programs program) (limit : Option Int) (depth : Nat) :
      Built programs (evaluateWithin depth limit program Session.scope store).store

/-- The fault that a run ends in, if it does. -/
def Outcome.fault? (outcome : Outcome) : Option Fault :=
  match outcome.result with
  | .ok _ => none
  | .error fault => some fault

variable {programs : Node → Prop}

theorem trail_program {store : Store} (sound : store.Sound programs) {scope : Nat}
    (bound : scope < store.scopes.size) {program : Node} (member : programs program)
    (limit : Option Int) (depth : Nat) :
    Trail programs (Value.Sound programs) ⟨store, 0⟩ []
      ((eval limit depth program scope).run.run ⟨store, 0⟩)
      (trace limit depth program scope ⟨store, 0⟩) :=
  traces_eval limit depth (.whole member) bound ⟨store, 0⟩ [] (Nat.le_refl _) sound

/-- An outcome in a sound store, in which there are all the scopes that there were. -/
structure Settled (programs : Node → Prop) (before : Store) (outcome : Outcome) : Prop where
  grown : before.scopes.size ≤ outcome.store.scopes.size
  store : outcome.store.Sound programs
  value : ∀ value, outcome.result = .ok value →
    value.Sound programs outcome.store.scopes.size

theorem settled_evaluateWithin {store : Store} (sound : store.Sound programs) {scope : Nat}
    (bound : scope < store.scopes.size) {program : Node} (member : programs program)
    (limit : Option Int) (depth : Nat) :
    Settled programs store (evaluateWithin depth limit program scope store) := by
  have trail := trail_program sound bound member limit depth
  unfold evaluateWithin
  generalize (eval limit depth program scope).run.run ⟨store, 0⟩ = half at trail
  generalize trace limit depth program scope ⟨store, 0⟩ = half' at trail
  cases trail with
  | value passed quiet good =>
      refine ⟨passed.grown, passed.store, ?_⟩
      rintro _ ⟨⟩
      exact good
  | deep passed quiet =>
      refine ⟨passed.grown, passed.store.countTag, ?_⟩
      rintro _ ⟨⟩
      trivial
  | overlong passed found =>
      refine ⟨passed.grown, passed.store, ?_⟩
      rintro _ ⟨⟩

theorem Built.sound {store : Store} (built : Built programs store) :
    store.Sound programs ∧ Session.scope < store.scopes.size := by
  induction built with
  | fresh => exact ⟨.fresh, by decide⟩
  | run earlier member limit depth ih =>
      obtain ⟨sound, bound⟩ := ih
      have settled := settled_evaluateWithin sound bound member limit depth
      exact ⟨settled.store, Nat.lt_of_lt_of_le bound settled.grown⟩

/-- Whatever programs have been run in a scope and however they ended, at every point of the next run:
the scope around a scope is an older one, every function at hand was made in a scope that there is,
no error is bound, passed on to a function or wrapped, and looking a name up comes to an end. So it
is of what the run gives and leaves behind. Tracing the run does not change it. -/
theorem points_sound {store : Store} (built : Built programs store) {program : Node}
    (member : programs program) (limit : Option Int) (depth : Nat) :
    let (result, traced) := trace limit depth program Session.scope ⟨store, 0⟩
    (result, traced.machine) = (eval limit depth program Session.scope).run.run ⟨store, 0⟩ ∧
      (∀ point ∈ traced.points, point.Sound programs ∧
        ∀ scope < point.machine.store.scopes.size, ∀ name,
          point.machine.store.Finds name (some scope) (point.machine.store.find? scope name)) ∧
      Settled programs store (evaluateWithin depth limit program Session.scope store) := by
  obtain ⟨sound, bound⟩ := built.sound
  have settled := settled_evaluateWithin sound bound member limit depth
  obtain ⟨same, news, noted, passed⟩ := (trail_program sound bound member limit depth).passed
  refine ⟨same, ?_, settled⟩
  intro point inside
  have within : point ∈ [] ++ news := by
    rw [← noted]
    exact inside
  have fine : point.Sound programs := passed.points point within
  exact ⟨fine, fun scope bound name => fine.store.finds name bound⟩

/-- A run that follows one ended by an error, and calls a function bound before it. -/
theorem points_sound_after_error :
    let first := (Parsed.ofText "let f = fn(x) \x7b return x; \x7d; let g = f(f); f(1 / 0)").program
    let program := (Parsed.ofText "let y = g(fn() \x7b g \x7d)()(3); y").program
    let store := (evaluateWithin 50 none first Session.scope (Store.empty.addScope none)).store
    Built Accepted store ∧ Accepted program ∧
      ∀ point ∈ points none 50 program Session.scope ⟨store, 0⟩, point.Sound Accepted := by
  intro first program store
  have clean : (Parsed.ofText
      "let f = fn(x) \x7b return x; \x7d; let g = f(f); f(1 / 0)").mistakes = [] := by
    decide +kernel
  have clean' : (Parsed.ofText "let y = g(fn() \x7b g \x7d)()(3); y").mistakes = [] := by
    decide +kernel
  have built : Built Accepted store := .run .fresh (accepted_of_clean clean) none 50
  have accepted : Accepted program := accepted_of_clean clean'
  refine ⟨built, accepted, fun point inside => ?_⟩
  exact ((points_sound built accepted none 50).2.1 point inside).1

/-- A run comes to a fault just where it divides by zero, or goes beyond a limit, that is too long to
write. All else that can go wrong in a program gives a value. -/
theorem faults_iff_overlong {store : Store} (built : Built programs store) {program : Node}
    (member : programs program) (limit : Option Int) (depth : Nat) (fault : Fault) :
    (evaluateWithin depth limit program Session.scope store).fault? = some fault ↔
      fault = .unwritableInteger ∧
        ∃ point ∈ points limit depth program Session.scope ⟨store, 0⟩, point.Overlong := by
  obtain ⟨sound, bound⟩ := built.sound
  have trail := trail_program sound bound member limit depth
  unfold evaluateWithin points Outcome.fault?
  generalize (eval limit depth program Session.scope).run.run ⟨store, 0⟩ = half at trail
  generalize trace limit depth program Session.scope ⟨store, 0⟩ = half' at trail
  cases trail with
  | value passed quiet good =>
      constructor
      · nofun
      · rintro ⟨-, point, inside, long⟩
        exact absurd long (quiet point inside)
  | deep passed quiet =>
      constructor
      · nofun
      · rintro ⟨-, point, inside, long⟩
        exact absurd long (quiet point inside)
  | overlong passed found =>
      constructor
      · rintro ⟨⟩
        exact ⟨rfl, found⟩
      · rintro ⟨rfl, -⟩
        rfl

/-- A function bound by an earlier program makes the dividend. -/
theorem faults_iff_overlong_squares :
    let first := (Parsed.ofText "let s = fn(x) \x7b x * x \x7d").program
    let program := (Parsed.ofText "s(s(s(s(s(s(s(s(s(10000000000000000))))))))) / 0").program
    let store := (evaluateWithin 50 none first Session.scope (Store.empty.addScope none)).store
    Built Accepted store ∧ Accepted program ∧
      (evaluateWithin 50 none program Session.scope store).fault? = some .unwritableInteger ∧
      ∃ point ∈ points none 50 program Session.scope ⟨store, 0⟩, point.Overlong := by
  intro first program store
  have clean : (Parsed.ofText "let s = fn(x) \x7b x * x \x7d").mistakes = [] := by decide +kernel
  have clean' : (Parsed.ofText
      "s(s(s(s(s(s(s(s(s(10000000000000000))))))))) / 0").mistakes = [] := by
    decide +kernel
  have built : Built Accepted store := .run .fresh (accepted_of_clean clean) none 50
  have accepted : Accepted program := accepted_of_clean clean'
  have faults : (evaluateWithin 50 none program Session.scope store).fault? =
      some .unwritableInteger := by
    decide +kernel
  have overlong := (faults_iff_overlong built accepted none 50 .unwritableInteger).mp faults
  exact ⟨built, accepted, faults, overlong.2⟩

/-- A quotient by zero has a message like any other, but this one is not written: the run ends without
a value. -/
theorem overlong_division_faults :
    (interpret none
        "let s = fn(x) \x7b x * x \x7d; s(s(s(s(s(s(s(s(s(10000000000000000))))))))) / 0"
        Session.scope (Store.empty.addScope none)).toOption.map Outcome.fault? =
      some (some .unwritableInteger) := by
  decide +kernel

end MonkeyLang.Evaluation
