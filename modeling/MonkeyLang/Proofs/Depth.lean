import MonkeyLang.Proofs.Evaluation.Trace
import MonkeyLang.Proofs.Grammar.Depth

/-!
More levels, for reading and for running. They make a difference only where the levels at hand come
to an end, and where they do it shows (`depth_only_cuts`).
-/

namespace MonkeyLang

namespace Evaluation

namespace Raising

/-- The runs come to the same, unless the first has no level left. -/
def CutShort (α : Type) (run deeper : Raise (StateM Machine) α) : Prop :=
  ∀ machine, (outcome run machine).1 ≠ .error .tooDeep → outcome deeper machine = outcome run machine

theorem cutShort_congruence : Congruence CutShort where
  pure _ _ _ := rfl
  onStore _ _ _ := rfl
  read _ _ := rfl
  raise _ _ _ _ := rfl
  stop _ _ _ := rfl
  bind {α β run run' next next'} first second machine enough := by
    have same := first machine
    rw [outcome_bind] at enough ⊢
    rw [outcome_bind]
    generalize outcome run machine = half at same enough ⊢
    rcases half with ⟨⟨stop⟩ | ⟨error⟩ | ⟨value⟩, reached⟩
    · rw [same]
      rintro ⟨⟩
      exact enough rfl
    · rw [same nofun]
    · rw [same nofun]
      exact second value reached enough

theorem eval_cutShort (limit : Option Int) (more depth : Nat) (node : Node) (scope : Nat) :
    CutShort Value (eval limit depth node scope) (eval limit (more + depth) node scope) := by
  induction depth generalizing node scope with
  | zero => exact fun _ enough => absurd rfl enough
  | succ depth ih =>
      intro machine
      rw [← Nat.add_assoc, outcome_level, outcome_level]
      exact visited_related cutShort_congruence ih limit _ node scope _

end Raising

open Raising (byHand_outcome eval_cutShort outcome outcome_raised raised_eval)

/-- Further levels change nothing in a run that does not come to the end of those it has. -/
theorem eval_deeper {depth deeper : Nat} (bound : depth ≤ deeper) (limit : Option Int) (node : Node)
    (scope : Nat) (machine : Machine)
    (enough : ((eval limit depth node scope).run.run machine).1 ≠ .error .tooDeep) :
    (eval limit deeper node scope).run.run machine =
      (eval limit depth node scope).run.run machine := by
  have same := eval_cutShort limit (deeper - depth) depth node scope machine
  rw [Nat.sub_add_cancel bound, ← raised_eval, ← raised_eval] at same
  rw [← byHand_outcome, ← byHand_outcome, same]
  rw [outcome_raised]
  generalize (eval limit depth node scope).run.run machine = run at enough
  rcases run with ⟨stop | value, reached⟩
  · rintro ⟨⟩
    exact enough rfl
  · nofun

theorem evaluateWithin_deeper {depth deeper : Nat} (bound : depth ≤ deeper) {limit : Option Int}
    {node : Node} {scope : Nat} {store : Store}
    (enough : ∀ tag, (evaluateWithin depth limit node scope store).result ≠ .ok (.error .tooDeep tag)) :
    evaluateWithin deeper limit node scope store = evaluateWithin depth limit node scope store := by
  have same := eval_deeper bound limit node scope ⟨store, 0⟩
  unfold evaluateWithin at enough ⊢
  generalize (eval limit depth node scope).run.run ⟨store, 0⟩ = run at same enough ⊢
  rcases run with ⟨⟨_ | _⟩ | value, reached⟩
  · exact absurd rfl (enough reached.store.tags)
  · rw [same nofun]
  · rw [same nofun]

end Evaluation

open Evaluation (evaluateWithin evaluateWithin_deeper)
open Grammar (Cut Mistake readText)

/-- A limit on depth cuts, and changes nothing where it does not. A source is read alike with more
levels unless the limit is reported, and it is reported just where an expression below the last
level is asked for, also in blocks. A run comes to the same with more levels, value or fault, visits
and store, unless it ends in the error of the limit. -/
theorem depth_only_cuts {depth deeper : Nat} (bound : depth ≤ deeper) :
    (∀ source : String,
      (Mistake.tooDeep.message ∉ (readText depth source).messages →
        readText deeper source = readText depth source) ∧
      (Cut depth (Token.scan source.toList) ↔
        Mistake.tooDeep.message ∈ (readText depth source).messages)) ∧
    ∀ (limit : Option Int) (node : Node) (scope : Nat) (store : Store),
      (∀ cause tag, (evaluateWithin depth limit node scope store).result = .ok (.error cause tag) →
        cause.message ≠ Cause.tooDeep.message) →
      evaluateWithin deeper limit node scope store =
        evaluateWithin depth limit node scope store := by
  refine ⟨fun source => ⟨fun quiet => ?_, ?_⟩, fun limit node scope store enough => ?_⟩
  · rw [Parsed.tooDeep_mem_messages] at quiet
    exact Grammar.readTokens_deeper bound quiet
  · rw [Parsed.tooDeep_mem_messages]
    exact Grammar.cut_iff
  · apply evaluateWithin_deeper bound
    intro tag deep
    exact enough .tooDeep tag deep rfl

/-- The second source is cut in a block, and what is around it is kept. -/
theorem depth_only_cuts_in_block :
    let shallow := "let f = fn(x) \x7b (x + 1) \x7d; f(2)"
    let nested := "fn() \x7b ((((1)))); 2 \x7d; 3"
    let program := (readText 4 shallow).program
    let store := Store.empty.addScope none
    Mistake.tooDeep.message ∉ (readText 4 shallow).messages ∧
      readText 9 shallow = readText 4 shallow ∧
      Cut 4 (Token.scan nested.toList) ∧
      (evaluateWithin 7 none program 0 store).result.toOption.map Value.text = some "3" ∧
      evaluateWithin 9 none program 0 store = evaluateWithin 7 none program 0 store := by
  intro shallow nested program store
  have quiet : Mistake.tooDeep.message ∉ (readText 4 shallow).messages := by decide +kernel
  have noted : Mistake.tooDeep.message ∈ (readText 4 nested).messages := by decide +kernel
  have value : (evaluateWithin 7 none program 0 store).result.toOption.map Value.text = some "3" := by
    decide +kernel
  have enough : ∀ cause tag,
      (evaluateWithin 7 none program 0 store).result = .ok (.error cause tag) →
        cause.message ≠ Cause.tooDeep.message := by
    intro cause tag failed same
    rw [failed] at value
    have text : "ERROR: " ++ cause.message = "3" := Option.some.inj value
    rw [same] at text
    exact absurd text (by decide +kernel)
  have read := (depth_only_cuts (by decide : 4 ≤ 9)).1
  have run := (depth_only_cuts (by decide : 7 ≤ 9)).2
  exact ⟨quiet, (read shallow).1 quiet, (read nested).2.mpr noted, value,
    run none program 0 store enough⟩

end MonkeyLang
