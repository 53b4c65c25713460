import MonkeyLang.Proofs.Evaluation.Trace

/-!
A limit on the number of nodes visited cuts a run and changes nothing before the cut. Main
statement: `step_limit_cuts_run`.
-/

namespace MonkeyLang.Evaluation

namespace Raising

variable {α β : Type}

/-- What the limit gives in place of a visit above it. -/
def cutOff (limit : Int) (before : Machine) : Except Stop (Except Value α) × Machine :=
  (.ok (.error (.error (.stepLimit limit) before.store.tags)),
    ⟨before.store.countTag, limit.toNat + 1⟩)

/-- How a run without a limit and one with a limit go from the same machine. The runs are the same
as long as the visits are within the limit, and the visit above it is replaced by the error. -/
def Cuts (limit : Int) (machine : Machine) (past : List Event)
    (free : (Except Stop (Except Value α) × Machine) × List Event)
    (limited : Except Stop (Except Value α) × Machine) : Prop :=
  ∃ news, free.2 = past ++ news ∧
    (news.filterMap Event.visit?).length + machine.visited = free.1.2.visited ∧
    (machine.visited ≤ limit.toNat →
      (free.1.2.visited ≤ limit.toNat → limited = free.1) ∧
      (limit.toNat < free.1.2.visited →
        ∃ before, (news.filterMap Event.visit?)[limit.toNat - machine.visited]? = some before ∧
          limited = cutOff limit before))

def CutBy (limit : Int) (α : Type) (free : Raise Recording α) (limited : Raise (StateM Machine) α) :
    Prop :=
  ∀ machine past, Cuts limit machine past (recorded free machine past) (outcome limited machine)

theorem cuts_silent (limit : Int) (machine reached : Machine) (past : List Event)
    (result : Except Stop (Except Value α)) (same : reached.visited = machine.visited) :
    Cuts limit machine past ((result, reached), past) (result, reached) := by
  refine ⟨[], (List.append_nil past).symm, by simp [same], fun within => ⟨fun _ => rfl, ?_⟩⟩
  intro above
  simp only [same] at above
  omega

/-- A run that goes on after another one: the limit is met in the first, or else in the second. -/
theorem Cuts.onward {limit : Int} {machine middle : Machine} {past seen : List Event}
    {result : Except Stop (Except Value α)} {half : Except Stop (Except Value α) × Machine}
    {free : (Except Stop (Except Value β) × Machine) × List Event}
    {limited whole : Except Stop (Except Value β) × Machine}
    (cuts : Cuts limit machine past ((result, middle), seen) half)
    (later : Cuts limit middle seen free limited)
    (same : half = (result, middle) → whole = limited)
    (cut : ∀ before, half = cutOff limit before → whole = cutOff limit before) :
    Cuts limit machine past free whole := by
  obtain ⟨news, seen_eq, count, relation⟩ := cuts
  obtain ⟨others, seen_eq', count', relation'⟩ := later
  simp only at seen_eq count relation
  refine ⟨news ++ others, by rw [← List.append_assoc, ← seen_eq]; exact seen_eq', ?_, ?_⟩
  · simp only [List.filterMap_append, List.length_append]
    omega
  intro within
  constructor
  · intro below
    have half_below : middle.visited ≤ limit.toNat := by omega
    rw [same ((relation within).1 half_below)]
    exact (relation' half_below).1 below
  · intro above
    rw [List.filterMap_append]
    by_cases half_below : middle.visited ≤ limit.toNat
    · obtain ⟨before, found, cut'⟩ := (relation' half_below).2 above
      refine ⟨before, ?_, (same ((relation within).1 half_below)).trans cut'⟩
      rw [List.getElem?_append_right (by omega), ← found]
      congr 1
      omega
    · obtain ⟨before, found, cut'⟩ := (relation within).2 (by omega)
      refine ⟨before, ?_, cut before cut'⟩
      rw [List.getElem?_append_left, found]
      omega

theorem cutBy_congruence (limit : Int) : Congruence (CutBy limit) where
  pure value machine past := cuts_silent limit machine machine past _ rfl
  onStore change machine past := cuts_silent limit machine _ past _ rfl
  read machine past := cuts_silent limit machine machine past _ rfl
  raise value error machine past := cuts_silent limit machine machine past _ rfl
  stop stop machine past := cuts_silent limit machine machine past _ rfl
  bind {α β run run' next next'} first second machine past := by
    have cuts := first machine past
    rw [recorded_bind, outcome_bind]
    generalize recorded run machine past = half at cuts
    generalize outcome run' machine = half' at cuts
    rcases half with ⟨⟨⟨stop⟩ | ⟨error⟩ | ⟨value⟩, middle⟩, seen⟩
    · apply cuts.onward (cuts_silent limit middle middle seen (.error stop) rfl)
      · rintro rfl
        rfl
      · rintro before rfl
        rfl
    · apply cuts.onward (cuts_silent limit middle middle seen (.ok (.error error)) rfl)
      · rintro rfl
        rfl
      · rintro before rfl
        rfl
    · apply cuts.onward (second value middle seen)
      · rintro rfl
        rfl
      · rintro before rfl
        rfl

theorem cuts_entering (limit : Int) (machine : Machine) (past : List Event) (node : Node)
    (scope : Nat) (free : (Except Stop (Except Value Value) × Machine) × List Event)
    (inner limited : Except Stop (Except Value Value) × Machine)
    (cuts : Cuts limit (entering machine) (past ++ [.entered node scope (entering machine)]) free
      inner)
    (below : machine.visited < limit.toNat → limited = inner)
    (above : machine.visited = limit.toNat → limited = cutOff limit (entering machine)) :
    Cuts limit machine past (free.1, free.2 ++ leaving free.1) limited := by
  obtain ⟨news, seen_eq, count, relation⟩ := cuts
  have silent : (leaving free.1).filterMap Event.visit? = [] := by
    rcases free with ⟨⟨⟨stop⟩ | ⟨error⟩ | ⟨value⟩, reached⟩, seen⟩ <;> rfl
  have visiting : (entering machine).visited = machine.visited + 1 := rfl
  refine ⟨.entered node scope (entering machine) :: news ++ leaving free.1, by simp [seen_eq], ?_⟩
  simp only [List.cons_append, List.filterMap_cons, Event.visit?, List.filterMap_append, silent,
    List.append_nil, List.length_cons]
  refine ⟨by omega, fun within => ?_⟩
  rcases Nat.lt_or_eq_of_le within with lower | last
  · rw [below lower]
    refine ⟨(relation lower).1, fun exceeded => ?_⟩
    obtain ⟨before, found, cut⟩ := (relation lower).2 exceeded
    refine ⟨before, ?_, cut⟩
    rw [List.getElem?_cons, if_neg (by omega), ← found]
    congr 1
  · refine ⟨fun allowed => by omega, fun _ => ⟨entering machine, ?_, above last⟩⟩
    rw [List.getElem?_cons, if_pos (by omega)]

theorem exceeded?_succ (limit : Int) (count : Nat) :
    exceeded? (some limit) (count + 1) = if limit.toNat ≤ count then some limit else none := by
  rw [exceeded?, Option.filter_some]
  split <;> split <;> grind

theorem outcome_fail (limit : Int) (writable : Numeral.isWritable limit = true)
    (machine : Machine) : outcome (fail (.stepLimit limit)) machine =
      (.ok (.error (.error (.stepLimit limit) machine.store.tags)),
        ⟨machine.store.countTag, machine.visited⟩) := by
  have same : (Cause.stepLimit limit).isWritable = true := writable
  rw [fail, if_pos same]
  rfl

theorem record_cutBy (limit : Int) (writable : Numeral.isWritable limit = true) (depth : Nat)
    (node : Node) (scope : Nat) :
    CutBy limit Value (raised (record none depth node scope))
      (eval (some limit) depth node scope) := by
  induction depth generalizing node scope with
  | zero =>
      rw [record, raised_stop]
      exact (cutBy_congruence limit).stop .tooDeep
  | succ depth ih =>
      intro machine past
      rw [recorded_level, outcome_level]
      apply cuts_entering
      · exact visited_related (cutBy_congruence limit) ih none _ node scope _ _
      · intro lower
        rw [visited, exceeded?_succ, if_neg (by omega)]
        rfl
      · intro last
        rw [visited, exceeded?_succ, if_pos (by omega)]
        apply (outcome_fail limit writable (entering machine)).trans
        rw [cutOff, ← last]
        rfl

theorem recorded_visited_pos (limit : Int) (writable : Numeral.isWritable limit = true)
    (depth : Nat) (node : Node) (scope : Nat) (machine : Machine) (past : List Event) :
    0 < (recorded (raised (record none (depth + 1) node scope)) machine past).1.2.visited := by
  rw [recorded_level]
  dsimp only
  obtain ⟨news, -, count, -⟩ :=
    visited_related (cutBy_congruence limit) (record_cutBy limit writable depth) none
      (machine.visited + 1) node scope (entering machine)
      (past ++ [.entered node scope (entering machine)])
  have visiting : (entering machine).visited = machine.visited + 1 := rfl
  omega

theorem byHand_machine (result : Except Stop (Except Value Value) × Machine) :
    (byHand result).2 = result.2 := by
  rcases result with ⟨⟨stop⟩ | ⟨error⟩ | ⟨value⟩, reached⟩ <;> rfl

end Raising

open Raising (byHand byHand_machine byHand_outcome byHand_recorded outcome raised raised_eval
  record_cutBy recorded recorded_raised_events recorded_visited_pos)

theorem evaluateWithin_visited (depth : Nat) (limit : Option Int) (node : Node) (scope : Nat)
    (store : Store) :
    (evaluateWithin depth limit node scope store).visited =
      ((eval limit depth node scope).run.run ⟨store, 0⟩).2.visited := by
  unfold evaluateWithin
  rcases (eval limit depth node scope).run.run ⟨store, 0⟩ with
    ⟨⟨⟨⟩ | ⟨⟩⟩ | ⟨value⟩, reached⟩ <;> rfl

/-- Below the limit a run is the run without a limit. Above it the run ends with the error of the
limit, one visit above it, and with the bindings that the run without a limit had made when it came
to that visit. -/
theorem step_limit_cuts_run (limit : Int) (writable : Numeral.isWritable limit = true) (depth : Nat)
    (node : Node) (scope : Nat) (store : Store) :
    let free := evaluateWithin (depth + 1) none node scope store
    let limited := evaluateWithin (depth + 1) (some limit) node scope store
    let visits := visits none (depth + 1) node scope ⟨store, 0⟩
    visits.length = free.visited ∧
      (free.visited ≤ limit → limited = free) ∧
      (limit < free.visited → ∃ before, visits[limit.toNat]? = some before ∧
        limited = ⟨.ok (.error (.stepLimit limit) before.store.tags), limit.toNat + 1,
          before.store.countTag⟩) := by
  intro free limited visits
  obtain ⟨news, seen_eq, count, relation⟩ :=
    record_cutBy limit writable (depth + 1) node scope ⟨store, 0⟩ []
  have positive := recorded_visited_pos limit writable depth node scope ⟨store, 0⟩ []
  have news_eq : news = events none (depth + 1) node scope ⟨store, 0⟩ := by
    rw [events, ← recorded_raised_events, seen_eq, List.nil_append]
  -- The free run is read off its record, the limited one off the run by exceptions.
  have free_run : (eval none (depth + 1) node scope).run.run ⟨store, 0⟩ =
      byHand (recorded (raised (record none (depth + 1) node scope)) ⟨store, 0⟩ []).1 := by
    rw [byHand_recorded, record_eval]
  have limited_run : (eval (some limit) (depth + 1) node scope).run.run ⟨store, 0⟩ =
      byHand (outcome (Raising.eval (some limit) (depth + 1) node scope) ⟨store, 0⟩) := by
    rw [← raised_eval, byHand_outcome]
  have visited_eq : free.visited =
      (recorded (raised (record none (depth + 1) node scope)) ⟨store, 0⟩ []).1.2.visited :=
    calc
      free.visited = ((eval none (depth + 1) node scope).run.run ⟨store, 0⟩).2.visited :=
        evaluateWithin_visited (depth + 1) none node scope store
      _ = (byHand (recorded (raised (record none (depth + 1) node scope))
            ⟨store, 0⟩ []).1).2.visited := by rw [free_run]
      _ = _ := by rw [byHand_machine]
  subst news_eq
  obtain ⟨same, cut⟩ := relation (Nat.zero_le _)
  refine ⟨?_, fun below => ?_, fun above => ?_⟩
  · rw [visited_eq, ← count]
    rfl
  · unfold limited free evaluateWithin
    rw [limited_run, free_run, same (by omega)]
  · obtain ⟨before, found, cut⟩ := cut (by omega)
    refine ⟨before, found, ?_⟩
    unfold limited evaluateWithin
    rw [limited_run, cut]
    rfl

/-- A program cut between a binding and the use of the name: the name is bound. -/
theorem step_limit_cuts_after_binding :
    let one : Node := .number ⟨.number, "1"⟩ 1
    let target : Identifier := ⟨⟨.name, "a"⟩, "a"⟩
    let program : Node := .program
      [.binding ⟨.letWord, "let"⟩ target one, .statement target.token (.name target)]
    let store := Store.empty.addScope none
    Numeral.isWritable 3 = true ∧ 3 < (evaluateWithin 4 none program 0 store).visited ∧
      ∃ before : Machine, before.store.names 0 = ["a"] ∧
        evaluateWithin 4 (some 3) program 0 store =
          ⟨.ok (.error (.stepLimit 3) before.store.tags), 4, before.store.countTag⟩ := by
  intro one target program store
  have writable : Numeral.isWritable 3 = true := by decide +kernel
  have above : 3 < (evaluateWithin 4 none program 0 store).visited := by decide
  obtain ⟨-, -, cut⟩ := step_limit_cuts_run 3 writable 3 program 0 store
  obtain ⟨before, found, same⟩ := cut (by exact_mod_cast above)
  refine ⟨writable, above, before, ?_, same⟩
  cases found
  rfl

end MonkeyLang.Evaluation
