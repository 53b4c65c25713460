import MonkeyLang.Proofs.Evaluation.Trace

/-!
An error value ends the run it comes up in. Main statement: `first_error_ends_run`.
-/

namespace MonkeyLang.Evaluation

namespace Raising

variable {α : Type}

/-- A run after which no node was left with an error, unless the run is over with that error and the
machine of that moment. -/
def EndedByError (past : List Event) (run : (Except Stop (Except Value α) × Machine) × List Event) :
    Prop :=
  ∃ news, run.2 = past ++ news ∧
    ∀ value reached, .left value reached ∈ news → value.isError = true →
      run.1 = (.ok (.error value), reached)

def EndsAtError (α : Type) (run _other : Raise Recording α) : Prop :=
  ∀ machine past, EndedByError past (recorded run machine past)

theorem endedByError_silent (past : List Event) (result : Except Stop (Except Value α) × Machine) :
    EndedByError past (result, past) :=
  ⟨[], (List.append_nil past).symm, fun _ _ member => nomatch member⟩

theorem endsAtError_congruence : Congruence EndsAtError where
  pure value machine past := endedByError_silent past _
  onStore change machine past := endedByError_silent past _
  read machine past := endedByError_silent past _
  raise value error machine past := endedByError_silent past _
  stop stop machine past := endedByError_silent past _
  bind {α β run run' next next'} first second machine past := by
    have ended := first machine past
    rw [recorded_bind]
    generalize recorded run machine past = half at ended
    obtain ⟨news, seen_eq, ends⟩ := ended
    rcases half with ⟨⟨⟨stop⟩ | ⟨error⟩ | ⟨value⟩, middle⟩, seen⟩
    · refine ⟨news, seen_eq, ?_⟩
      intro value reached member error
      cases ends value reached member error
    · refine ⟨news, seen_eq, ?_⟩
      intro value reached member error
      cases ends value reached member error
      rfl
    · obtain ⟨later, seen_eq', ends'⟩ := second value middle seen
      have seen_eq : seen = past ++ news := seen_eq
      refine ⟨news ++ later, by rw [← List.append_assoc, ← seen_eq]; exact seen_eq', ?_⟩
      intro value reached member error
      rcases List.mem_append.mp member with member | member
      · cases ends value reached member error
      · exact ends' value reached member error

/-- A node may be left with the error that ended its rule: nothing has happened in between. -/
theorem endedByError_leaving (past : List Event) (node : Node) (scope : Nat) (machine : Machine)
    (run : (Except Stop (Except Value Value) × Machine) × List Event)
    (ended : EndedByError (past ++ [.entered node scope machine]) run)
    (fine : ∀ value reached, run.1 = (.ok (.ok value), reached) → value.isError = false) :
    EndedByError past (run.1, run.2 ++ leaving run.1) := by
  obtain ⟨news, seen_eq, ends⟩ := ended
  refine ⟨.entered node scope machine :: news ++ leaving run.1, by simp [seen_eq], ?_⟩
  intro value reached member error
  simp only [List.cons_append, List.mem_cons, reduceCtorEq, false_or, List.mem_append] at member
  rcases member with member | member
  · exact ends value reached member error
  · rcases run with ⟨⟨⟨stop⟩ | ⟨found⟩ | ⟨found⟩, last⟩, seen⟩
    · cases member
    · cases List.mem_singleton.mp member
      rfl
    · cases List.mem_singleton.mp member
      rw [fine value reached rfl] at error
      cases error

theorem recorded_raised_value (run : ExceptT Stop Recording Value) (machine reached : Machine)
    (past : List Event) (value : Value)
    (same : (recorded (raised run) machine past).1 = (.ok (.ok value), reached)) :
    value.isError = false := by
  rw [recorded_raised] at same
  rcases shape : (run.run.run machine).run past with ⟨⟨⟨stop⟩ | ⟨found⟩, last⟩, seen⟩
  · rw [shape] at same
    cases same
  · rw [shape] at same
    cases error : found.isError with
    | true => simp [error] at same
    | false =>
        simp only [error, Bool.false_eq_true, if_false, Prod.mk.injEq, Except.ok.injEq] at same
        rw [← same.1]
        exact error

theorem record_endsAtError (limit : Option Int) (depth : Nat) (node : Node) (scope : Nat) :
    EndsAtError Value (raised (record limit depth node scope))
      (raised (record limit depth node scope)) := by
  induction depth generalizing node scope with
  | zero =>
      rw [record, raised_stop]
      exact endsAtError_congruence.stop .tooDeep
  | succ depth ih =>
      intro machine past
      have fine := recorded_raised_value (record limit (depth + 1) node scope) machine
      rw [recorded_level]
      apply endedByError_leaving past node scope (entering machine)
      · exact visited_related endsAtError_congruence ih limit _ node scope _ _
      · intro value reached same
        exact fine reached past value (by rw [recorded_level]; exact same)

end Raising

/-- A node left with an error value is the last thing to happen: the run gives that very error, with
the same tag, and the machine is no more changed, so that no node is visited and no name bound from
then on. Hence the run comes to the same as one in which errors are raised and nothing catches
them. -/
theorem first_error_ends_run (limit : Option Int) (depth : Nat) (node : Node) (scope : Nat)
    (machine : Machine) :
    (∀ value reached, .left value reached ∈ events limit depth node scope machine →
      value.isError = true →
        (eval limit depth node scope).run.run machine = (.ok value, reached)) ∧
    (Raising.eval limit depth node scope).run.run.run machine =
      match (eval limit depth node scope).run.run machine with
      | (.ok value, reached) =>
        (.ok (if value.isError then .error value else .ok value), reached)
      | (.error stop, reached) => (.error stop, reached) := by
  constructor
  · intro value reached member error
    obtain ⟨news, seen_eq, ends⟩ :=
      Raising.record_endsAtError limit depth node scope machine []
    have inside : .left value reached ∈ news := by
      rw [events, ← Raising.recorded_raised_events, seen_eq] at member
      exact member
    rw [← record_eval limit depth node scope machine [], ← Raising.byHand_recorded,
      ends value reached inside error]
    rfl
  · rw [← Raising.raised_eval]
    exact Raising.outcome_raised _ machine

/-- The first operand of a sum is not bound, and the second is never visited. -/
theorem first_error_ends_unbound_operand :
    let node : Node := .binary ⟨.plus, "+"⟩ (.name ⟨⟨.name, "x"⟩, "x"⟩) "+" (.number ⟨.number, "1"⟩ 1)
    let machine : Machine := ⟨Store.empty.addScope none, 0⟩
    let error : Value := .error (.unbound "x") 0
    let reached : Machine := ⟨machine.store.countTag, 2⟩
    .left error reached ∈ events none 3 node 0 machine ∧ error.isError = true ∧
      (eval none 3 node 0).run.run machine = (.ok error, reached) := by
  intro node machine error reached
  have member : .left error reached ∈ events none 3 node 0 machine :=
    List.mem_of_getElem? (show (events none 3 node 0 machine)[2]? = _ from rfl)
  exact ⟨member, rfl, (first_error_ends_run none 3 node 0 machine).1 error reached member rfl⟩

end MonkeyLang.Evaluation
