import MonkeyLang.Evaluation
import MonkeyLang.Proofs.Store.Sound

/-!
Runs seen from inside. A traced run notes every change of its machine, every node it visits, the
operands of every operator, what every call is given and every value it computes. From a sound store
tracing changes nothing else, everything that is noted is sound, and the run ends for want of a
writable message just where a number that is too long to write turns up (`traces_eval`).
-/

namespace MonkeyLang.Evaluation

/-- What a run comes through, with the machine at that moment. -/
inductive Point where
  | changed (machine : Machine)
  | visited (node : Node) (scope : Nat) (machine : Machine)
  | exceeded (limit : Int) (machine : Machine)
  | operated (left : Value) (operator : String) (right : Value) (machine : Machine)
  | called (callee : Value) (arguments : List Value) (machine : Machine)
  | computed (value : Value) (machine : Machine)
  deriving Repr

structure Trace where
  machine : Machine
  /-- The latest point is the last. -/
  points : List Point

def Trace.note (trace : Trace) (point : Machine → Point) : Trace :=
  { trace with points := trace.points ++ [point trace.machine] }

def Trace.move (trace : Trace) (machine : Machine) : Trace :=
  ⟨machine, trace.points ++ [.changed machine]⟩

abbrev Tracing := StateM Trace

instance : MonadStateOf Machine Tracing where
  get := do return (← getThe Trace).machine
  set machine := modifyThe Trace (·.move machine)
  modifyGet change := modifyGetThe Trace fun trace =>
    let (value, machine) := change trace.machine
    (value, trace.move machine)

def mark (point : Machine → Point) : ExceptT Stop Tracing Unit := modifyThe Trace (·.note point)

section

variable (sub : Evaluator (ExceptT Stop Tracing))

def tracedBinary (scope : Nat) (left : Node) (operator : String) (right : Node) :
    ExceptT Stop Tracing Value := do
  let first ← sub left scope
  if first.isError then pure first
  else
    let second ← sub right scope
    if second.isError then pure second
    else
      mark (.operated first operator second)
      settle (first.binaryOperation operator second)

def tracedCall (scope : Nat) (callee : Node) (arguments : List Node) :
    ExceptT Stop Tracing Value := do
  let target ← sub callee scope
  if target.isError then pure target
  else
    match ← evalArguments sub scope arguments with
    | .error value => pure value
    | .ok values =>
      mark (.called target values)
      apply sub target values

def tracedStep : Evaluator (ExceptT Stop Tracing) := fun node scope =>
  match node with
  | .binary _ left operator right => tracedBinary sub scope left operator right
  | .call _ callee arguments => tracedCall sub scope callee arguments
  | _ => step sub node scope

/-- The rule of a node, unless its visit is one too many. -/
def tracedVisit (limit : Option Int) (count : Nat) : Evaluator (ExceptT Stop Tracing) :=
  fun node scope =>
    match exceeded? limit count with
    | some most => do
      mark (.exceeded most)
      fail (.stepLimit most)
    | none => tracedStep sub node scope

end

/-- Evaluates a node as `eval` does, and notes what the run comes through. -/
def traced (limit : Option Int) : Nat → Evaluator (ExceptT Stop Tracing)
  | 0 => fun _ _ => throw .tooDeep
  | depth + 1 => fun node scope => do
    let count ← visit
    mark (.visited node scope)
    let value ← tracedVisit (traced limit depth) limit count node scope
    mark (.computed value)
    pure value

/-- What a traced run comes to. -/
def trace (limit : Option Int) (depth : Nat) (node : Node) (scope : Nat) (machine : Machine) :
    Except Stop Value × Trace :=
  (traced limit depth node scope).run.run ⟨machine, []⟩

def points (limit : Option Int) (depth : Nat) (node : Node) (scope : Nat) (machine : Machine) :
    List Point :=
  (trace limit depth node scope machine).2.points

namespace Point

def machine : Point → Machine
  | changed machine | visited _ _ machine | exceeded _ machine | operated _ _ _ machine
  | called _ _ machine | computed _ machine => machine

/-- What is noted belongs to some programs, and is fit for what is done with it. -/
def Fits (programs : Node → Prop) : Point → Prop
  | changed _ | exceeded .. => True
  | visited node scope machine => node.Within programs ∧ scope < machine.store.scopes.size
  | operated left _ right machine =>
    left.Usable programs machine.store.scopes.size ∧
      right.Usable programs machine.store.scopes.size
  | called callee arguments machine =>
    callee.Usable programs machine.store.scopes.size ∧
      ∀ argument ∈ arguments, argument.Usable programs machine.store.scopes.size
  | computed value machine => value.Sound programs machine.store.scopes.size

structure Sound (programs : Node → Prop) (point : Point) : Prop where
  store : point.machine.store.Sound programs
  fits : point.Fits programs

/-- A message is asked for that needs a number too long to write. -/
inductive Overlong : Point → Prop
  | division {dividend : Int} {machine : Machine} (long : Numeral.isWritable dividend = false) :
      Overlong (operated (.integer dividend) "/" (.integer 0) machine)
  | limit {most : Int} {machine : Machine} (long : Numeral.isWritable most = false) :
      Overlong (exceeded most machine)

end Point

theorem overlong_operated {left right : Value} {operator : String} {cause : Cause}
    (failed : left.binaryOperation operator right = .error cause)
    (long : cause.isWritable = false) (machine : Machine) :
    (Point.operated left operator right machine).Overlong := by
  unfold Value.binaryOperation at failed
  split at failed
  · unfold Value.integerOperation at failed
    split at failed <;> try cases failed
    · split at failed
      · rename_i zero
        cases failed
        cases zero
        exact .division long
      · cases failed
    · cases long
  · unfold Value.mixedOperation at failed
    split at failed
    · cases failed
    · cases failed
    · split at failed <;> cases failed <;> cases long

theorem operated_writable {left right : Value} {operator : String} {machine : Machine}
    (writable : ∀ cause, left.binaryOperation operator right = .error cause →
      cause.isWritable = true) :
    ¬(Point.operated left operator right machine).Overlong := by
  rintro (⟨long⟩ | -)
  have shown := writable _ rfl
  rw [Cause.isWritable, long] at shown
  cases shown

theorem unaryOperation_writable {operator : String} {operand : Value} {cause : Cause}
    (failed : operand.unaryOperation operator = .error cause) : cause.isWritable = true := by
  unfold Value.unaryOperation at failed
  grind [Cause.isWritable]

/-- What lies between two machines of a run. -/
structure Passed (programs : Node → Prop) (before after : Machine) (news : List Point) : Prop where
  grown : before.store.scopes.size ≤ after.store.scopes.size
  store : after.store.Sound programs
  points : ∀ point ∈ news, point.Sound programs

theorem Passed.trans {programs : Node → Prop} {first second third : Machine}
    {news others : List Point} (left : Passed programs first second news)
    (right : Passed programs second third others) :
    Passed programs first third (news ++ others) where
  grown := Nat.le_trans left.grown right.grown
  store := right.store
  points := List.forall_mem_append.mpr ⟨left.points, right.points⟩

/-- What a run and the same run traced come to. `post` says of a value how it may depend on the
number of scopes. -/
inductive Trail {α : Type} (programs : Node → Prop) (post : Nat → α → Prop) (before : Machine)
    (past : List Point) : Except Stop α × Machine → Except Stop α × Trace → Prop
  | value {value : α} {after : Machine} {news : List Point}
      (passed : Passed programs before after news) (quiet : ∀ point ∈ news, ¬point.Overlong)
      (good : post after.store.scopes.size value) :
      Trail programs post before past (.ok value, after) (.ok value, ⟨after, past ++ news⟩)
  | deep {after : Machine} {news : List Point} (passed : Passed programs before after news)
      (quiet : ∀ point ∈ news, ¬point.Overlong) :
      Trail programs post before past (.error .tooDeep, after)
        (.error .tooDeep, ⟨after, past ++ news⟩)
  | overlong {after : Machine} {news : List Point} (passed : Passed programs before after news)
      (found : ∃ point ∈ news, point.Overlong) :
      Trail programs post before past (.error .unwritable, after)
        (.error .unwritable, ⟨after, past ++ news⟩)

/-- A run and the same run traced, from any sound store with enough scopes. -/
def Traces {α : Type} (programs : Node → Prop) (count : Nat) (post : Nat → α → Prop) (run : Run α)
    (run' : ExceptT Stop Tracing α) : Prop :=
  ∀ machine past, count ≤ machine.store.scopes.size → machine.store.Sound programs →
    Trail programs post machine past (run.run.run machine) (run'.run.run ⟨machine, past⟩)

section

variable {α β : Type} {programs : Node → Prop} {count : Nat} {post : Nat → α → Prop}
  {post' : Nat → β → Prop}

/-- However a run ends, tracing it does not change it, and the points it came through are in order. -/
theorem Trail.passed {before : Machine} {past : List Point} {plain : Except Stop α × Machine}
    {trace : Except Stop α × Trace} (trail : Trail programs post before past plain trace) :
    (trace.1, trace.2.machine) = plain ∧
      ∃ news, trace.2.points = past ++ news ∧ Passed programs before plain.2 news := by
  cases trail with
  | value passed => exact ⟨rfl, _, rfl, passed⟩
  | deep passed => exact ⟨rfl, _, rfl, passed⟩
  | overlong passed => exact ⟨rfl, _, rfl, passed⟩

theorem run_bind_traced (run : ExceptT Stop Tracing α) (next : α → ExceptT Stop Tracing β)
    (trace : Trace) :
    (run >>= next).run.run trace =
      match run.run.run trace with
      | (.ok value, reached) => (next value).run.run reached
      | (.error stop, reached) => (.error stop, reached) := by
  rw [ExceptT.run_bind, StateT.run_bind]
  generalize StateT.run (ExceptT.run run) trace = first
  rcases first with ⟨⟨stop⟩ | ⟨value⟩, reached⟩ <;> rfl

/-- A run that gives a value at once comes through nothing. -/
theorem trail_still {machine : Machine} {past : List Point} {value : α}
    (sound : machine.store.Sound programs) (good : post machine.store.scopes.size value) :
    Trail programs post machine past (.ok value, machine) (.ok value, ⟨machine, past⟩) := by
  have passed : Passed programs machine machine [] := ⟨Nat.le_refl _, sound, nofun⟩
  have trail : Trail programs post machine past (.ok value, machine)
      (.ok value, ⟨machine, past ++ []⟩) := .value passed nofun good
  rwa [List.append_nil] at trail

theorem traces_pure {value : α} (good : ∀ more, count ≤ more → post more value) :
    Traces programs count post (pure value) (pure value) := by
  intro machine past enough sound
  exact trail_still sound (good _ enough)

theorem traces_tooDeep : Traces programs count post (throw .tooDeep) (throw .tooDeep) := by
  intro machine past enough sound
  have passed : Passed programs machine machine [] := ⟨Nat.le_refl _, sound, nofun⟩
  have trail : Trail programs post machine past (.error .tooDeep, machine)
      (.error .tooDeep, ⟨machine, past ++ []⟩) := .deep passed nofun
  rwa [List.append_nil] at trail

theorem Trail.after {before middle : Machine} {past news : List Point}
    {plain : Except Stop α × Machine} {trace : Except Stop α × Trace}
    (passed : Passed programs before middle news) (quiet : ∀ point ∈ news, ¬point.Overlong)
    (trail : Trail programs post middle (past ++ news) plain trace) :
    Trail programs post before past plain trace := by
  cases trail with
  | value passed' quiet' good =>
      rw [List.append_assoc]
      exact .value (passed.trans passed') (List.forall_mem_append.mpr ⟨quiet, quiet'⟩) good
  | deep passed' quiet' =>
      rw [List.append_assoc]
      exact .deep (passed.trans passed') (List.forall_mem_append.mpr ⟨quiet, quiet'⟩)
  | overlong passed' found =>
      obtain ⟨point, member, long⟩ := found
      rw [List.append_assoc]
      exact .overlong (passed.trans passed') ⟨point, List.mem_append_right _ member, long⟩

theorem traces_bind {run : Run α} {run' : ExceptT Stop Tracing α} {next : α → Run β}
    {next' : α → ExceptT Stop Tracing β} (first : Traces programs count post run run')
    (second : ∀ value more, count ≤ more → post more value →
      Traces programs more post' (next value) (next' value)) :
    Traces programs count post' (run >>= next) (run' >>= next') := by
  intro machine past enough sound
  have trail := first machine past enough sound
  rw [run_bind_traced, ExceptT.run_bind, StateT.run_bind]
  generalize run.run.run machine = half at trail
  generalize run'.run.run ⟨machine, past⟩ = half' at trail
  cases trail with
  | value passed quiet good =>
      have more := Nat.le_trans enough passed.grown
      exact (second _ _ more good _ _ (Nat.le_refl _) passed.store).after passed quiet
  | deep passed quiet => exact .deep passed quiet
  | overlong passed found => exact .overlong passed found

theorem traces_ite {condition : Prop} [Decidable condition] {yes no : Run α}
    {yes' no' : ExceptT Stop Tracing α} (first : condition → Traces programs count post yes yes')
    (second : ¬condition → Traces programs count post no no') :
    Traces programs count post (if condition then yes else no)
      (if condition then yes' else no') := by
  split
  · exact first ‹_›
  · exact second ‹_›

theorem traces_get :
    Traces programs count
      (fun more machine => machine.store.Sound programs ∧ machine.store.scopes.size = more) get get := by
  intro machine past enough sound
  exact trail_still sound ⟨sound, rfl⟩

/-- A change of the store that keeps it sound. -/
theorem traces_modifyGet {change : Machine → α × Machine}
    (kept : ∀ machine : Machine, count ≤ machine.store.scopes.size →
      machine.store.Sound programs →
        machine.store.scopes.size ≤ (change machine).2.store.scopes.size ∧
          (change machine).2.store.Sound programs ∧
            post (change machine).2.store.scopes.size (change machine).1) :
    Traces programs count post (modifyGet change) (modifyGet change) := by
  intro machine past enough sound
  obtain ⟨grown, store, good⟩ := kept machine enough sound
  have passed : Passed programs machine (change machine).2 [.changed (change machine).2] :=
    ⟨grown, store, List.forall_mem_singleton.mpr ⟨store, trivial⟩⟩
  exact .value passed (List.forall_mem_singleton.mpr nofun) good

theorem traces_visit : Traces programs count (fun _ _ => True) visit visit :=
  traces_modifyGet fun _ _ sound => ⟨Nat.le_refl _, sound, trivial⟩

theorem traces_newTag : Traces programs count (fun _ _ => True) newTag newTag :=
  traces_modifyGet fun _ _ sound => ⟨Nat.le_refl _, sound.countTag, trivial⟩

theorem traces_newScope {outer : Nat} (bound : outer < count) :
    Traces programs count (fun more made => made < more) (newScope outer) (newScope outer) := by
  apply traces_modifyGet
  intro machine enough sound
  dsimp only
  rw [Store.size_addScope]
  have known : ∀ around ∈ some outer, around < machine.store.scopes.size := by
    rintro _ ⟨⟩
    exact Nat.lt_of_lt_of_le bound enough
  exact ⟨Nat.le_succ _, sound.addScope known, Nat.lt_succ_self _⟩

theorem traces_assign (scope : Nat) (name : String) {value : Value}
    (usable : value.Usable programs count) :
    Traces programs count (fun _ _ => True) (assign scope name value) (assign scope name value) := by
  apply traces_modifyGet
  intro machine enough sound
  have same := Store.size_assign machine.store scope name value
  exact ⟨Nat.le_of_eq same.symm, sound.assign scope name (usable.mono enough), trivial⟩

theorem passed_noted {point : Machine → Point}
    (here : ∀ machine, (point machine).machine = machine)
    (fits : ∀ machine : Machine, count ≤ machine.store.scopes.size →
      (point machine).Fits programs)
    {machine : Machine} (enough : count ≤ machine.store.scopes.size)
    (sound : machine.store.Sound programs) : Passed programs machine machine [point machine] := by
  have store : (point machine).machine.store.Sound programs := by
    rw [here]
    exact sound
  exact ⟨Nat.le_refl _, sound, List.forall_mem_singleton.mpr ⟨store, fits machine enough⟩⟩

/-- Noting a point before a run. -/
theorem traces_noted {point : Machine → Point} {run : Run α} {run' : ExceptT Stop Tracing α}
    (here : ∀ machine, (point machine).machine = machine)
    (fits : ∀ machine : Machine, count ≤ machine.store.scopes.size →
      (point machine).Fits programs)
    (quiet : ∀ machine, ¬(point machine).Overlong) (later : Traces programs count post run run') :
    Traces programs count post run (mark point >>= fun _ => run') := by
  intro machine past enough sound
  have passed := passed_noted here fits enough sound
  have trail := later machine (past ++ [point machine]) enough sound
  exact trail.after passed (List.forall_mem_singleton.mpr (quiet machine))

/-- A run that ends for want of a writable message, with the point that says why. -/
theorem traces_unwritable {point : Machine → Point}
    (here : ∀ machine, (point machine).machine = machine)
    (fits : ∀ machine : Machine, count ≤ machine.store.scopes.size →
      (point machine).Fits programs)
    (long : ∀ machine, (point machine).Overlong) :
    Traces programs count post (throw .unwritable) (mark point >>= fun _ => throw .unwritable) := by
  intro machine past enough sound
  exact .overlong (passed_noted here fits enough sound)
    ⟨point machine, List.mem_singleton_self _, long machine⟩

theorem traces_fail {cause : Cause} (writable : cause.isWritable = true) :
    Traces programs count (Value.Sound programs) (fail cause) (fail cause) := by
  unfold fail
  rw [if_pos writable, if_pos writable]
  exact traces_bind traces_newTag fun tag more _ _ => traces_pure fun _ _ => trivial

theorem traces_settle {result : Except Cause Value}
    (values : ∀ value, result = .ok value → value.Usable programs count)
    (writable : ∀ cause, result = .error cause → cause.isWritable = true) :
    Traces programs count (Value.Sound programs) (settle result) (settle result) := by
  cases result with
  | ok value => exact traces_pure fun more enough => ((values value rfl).mono enough).sound
  | error cause => exact traces_fail (writable cause rfl)

theorem traces_operated {left right : Value} (operator : String)
    (first : left.Usable programs count) (second : right.Usable programs count) :
    Traces programs count (Value.Sound programs) (settle (left.binaryOperation operator right))
      (mark (.operated left operator right) >>= fun _ =>
        settle (left.binaryOperation operator right)) := by
  have fits (machine : Machine) (enough : count ≤ machine.store.scopes.size) :
      (Point.operated left operator right machine).Fits programs :=
    ⟨first.mono enough, second.mono enough⟩
  by_cases long : ∃ cause, left.binaryOperation operator right = .error cause ∧
      cause.isWritable = false
  · obtain ⟨cause, failed, unwritable⟩ := long
    have stops {m : Type → Type} [Monad m] [MonadStateOf Machine m] [MonadExceptOf Stop m] :
        (settle (left.binaryOperation operator right) : m Value) = throw .unwritable := by
      rw [failed, settle, fail, unwritable]
      rfl
    rw [stops, stops]
    exact traces_unwritable (fun _ => rfl) fits (overlong_operated failed unwritable)
  · have writable : ∀ cause, left.binaryOperation operator right = .error cause →
        cause.isWritable = true := by
      intro cause failed
      cases writable : cause.isWritable with
      | true => rfl
      | false => exact absurd ⟨cause, failed, writable⟩ long
    apply traces_noted (fun _ => rfl) fits fun machine => operated_writable writable
    exact traces_settle (fun value => Value.usable_of_binaryOperation) writable

theorem traces_lookUp (scope : Nat) (name : String) :
    Traces programs count (Value.Sound programs) (lookUp scope name) (lookUp scope name) := by
  apply traces_bind traces_get
  rintro machine _ _ ⟨sound, rfl⟩
  cases found : machine.store.find? scope name with
  | some value =>
      have usable := sound.usable (Store.binds_of_find? found)
      exact traces_pure fun more bound => usable.sound.mono bound
  | none => exact traces_fail rfl

theorem traces_assignAll (scope : Nat) {pairs : List (Identifier × Value)}
    (usable : ∀ pair ∈ pairs, pair.2.Usable programs count) :
    Traces programs count (fun _ _ => True) (assignAll scope pairs) (assignAll scope pairs) := by
  induction pairs generalizing count with
  | nil => exact traces_pure fun _ _ => trivial
  | cons pair rest ih =>
      obtain ⟨here, there⟩ := List.forall_mem_cons.mp usable
      apply traces_bind (traces_assign scope pair.1.name here)
      intro _ more enough _
      exact ih fun pair member => (there pair member).mono enough

/-- An error is handed on, and any other value is used. -/
theorem traces_unless {value : Value} {run : Run Value} {run' : ExceptT Stop Tracing Value}
    (sound : value.Sound programs count)
    (later : value.Usable programs count → Traces programs count (Value.Sound programs) run run') :
    Traces programs count (Value.Sound programs) (if value.isError then pure value else run)
      (if value.isError then pure value else run') := by
  apply traces_ite
  · intro _
    exact traces_pure fun more enough => sound.mono enough
  · intro fine
    exact later ⟨Bool.eq_false_iff.mpr fine, sound⟩

end

section

variable {programs : Node → Prop} {sub : Evaluator Run} {sub' : Evaluator (ExceptT Stop Tracing)}
  (level : ∀ {node : Node} {scope count : Nat}, node.Within programs → scope < count →
    Traces programs count (Value.Sound programs) (sub node scope) (sub' node scope))
include level

theorem traces_evalProgram {scope count : Nat} (bound : scope < count) {statements : List Node}
    (inside : ∀ node ∈ statements, node.Within programs) {last : Value}
    (sound : last.Sound programs count) :
    Traces programs count (Value.Sound programs) (evalProgram sub scope last statements)
      (evalProgram sub' scope last statements) := by
  induction statements generalizing count last with
  | nil => exact traces_pure fun more enough => sound.mono enough
  | cons node rest ih =>
      obtain ⟨here, there⟩ := List.forall_mem_cons.mp inside
      apply traces_bind (level here bound)
      intro value more enough sound
      have bound : scope < more := by omega
      cases value with
      | returned inner tag => exact traces_pure fun _ enough => sound.2.mono enough
      | error cause tag => exact traces_pure fun _ _ => trivial
      | integer | boolean | null | function => exact ih bound there sound

theorem traces_evalBlock {scope count : Nat} (bound : scope < count) {statements : List Node}
    (inside : ∀ node ∈ statements, node.Within programs) {last : Value}
    (sound : last.Sound programs count) :
    Traces programs count (Value.Sound programs) (evalBlock sub scope last statements)
      (evalBlock sub' scope last statements) := by
  induction statements generalizing count last with
  | nil => exact traces_pure fun more enough => sound.mono enough
  | cons node rest ih =>
      obtain ⟨here, there⟩ := List.forall_mem_cons.mp inside
      apply traces_bind (level here bound)
      intro value more enough sound
      apply traces_ite
      · intro _
        exact traces_pure fun _ enough => sound.mono enough
      · intro _
        exact ih (by omega) there sound

/-- The values of arguments can be used, or the first error among them is handed on. -/
def Given (programs : Node → Prop) (count : Nat) : Except Value (List Value) → Prop
  | .ok values => ∀ value ∈ values, value.Usable programs count
  | .error value => value.Sound programs count

theorem traces_evalArguments {scope count : Nat} (bound : scope < count) {arguments : List Node}
    (inside : ∀ node ∈ arguments, node.Within programs) :
    Traces programs count (Given programs) (evalArguments sub scope arguments)
      (evalArguments sub' scope arguments) := by
  induction arguments generalizing count with
  | nil => exact traces_pure fun _ _ => nofun
  | cons node rest ih =>
      obtain ⟨here, there⟩ := List.forall_mem_cons.mp inside
      apply traces_bind (level here bound)
      intro value more enough sound
      apply traces_ite
      · intro _
        exact traces_pure fun _ enough => sound.mono enough
      · intro fine
        have usable : value.Usable programs more := ⟨Bool.eq_false_iff.mpr fine, sound⟩
        apply traces_bind (ih (by omega) there)
        intro others further enough given
        cases others with
        | error other => exact traces_pure fun _ enough => given.mono enough
        | ok others =>
            apply traces_pure
            intro last enough'
            have later : ∀ other ∈ others, other.Usable programs last :=
              fun other member => (given other member).mono enough'
            exact List.forall_mem_cons.mpr ⟨usable.mono (by omega), later⟩

/-- A function is called in a scope of its own, inside the one it was made in. -/
theorem traces_apply {count : Nat} {callee : Value} (usable : callee.Usable programs count)
    {arguments : List Value} (given : ∀ argument ∈ arguments, argument.Usable programs count) :
    Traces programs count (Value.Sound programs) (apply sub callee arguments)
      (apply sub' callee arguments) := by
  cases callee with
  | function parameters body outer tag =>
      obtain ⟨⟨token, inside⟩, bound⟩ := usable.sound
      have body_inside : body.Within programs := inside.part (by simp [Node.parts])
      apply traces_ite
      · intro _
        apply traces_bind (traces_newScope bound)
        intro scope more enough made
        apply traces_bind
        · apply traces_assignAll
          intro pair member
          exact (given pair.2 (List.of_mem_zip member).2).mono enough
        · intro _ further enough' _
          apply traces_bind (level body_inside (by omega))
          intro value _ _ sound
          exact traces_pure fun _ enough => sound.unwrap.mono enough
      · intro _
        exact traces_fail rfl
  | integer | boolean | null | returned | error => exact traces_fail rfl

theorem traces_call {scope count : Nat} (bound : scope < count) {callee : Node}
    {arguments : List Node} (inside : callee.Within programs)
    (inside' : ∀ node ∈ arguments, node.Within programs) :
    Traces programs count (Value.Sound programs) (evalCall sub scope callee arguments)
      (tracedCall sub' scope callee arguments) := by
  apply traces_bind (level inside bound)
  intro target more enough sound
  apply traces_unless sound
  intro usable
  apply traces_bind (traces_evalArguments level (by omega) inside')
  intro values further enough' given
  cases values with
  | error value => exact traces_pure fun _ enough => given.mono enough
  | ok values =>
      apply traces_noted (fun _ => rfl)
      · intro machine enough
        exact ⟨usable.mono (by omega), fun value member => (given value member).mono enough⟩
      · intro machine
        exact nofun
      · exact traces_apply level (usable.mono enough') given

theorem traces_binary {scope count : Nat} (bound : scope < count) {left right : Node}
    (token : Token) (operator : String) (inside : left.Within programs)
    (inside' : right.Within programs) :
    Traces programs count (Value.Sound programs) (step sub (.binary token left operator right) scope)
      (tracedBinary sub' scope left operator right) := by
  apply traces_bind (level inside bound)
  intro first more enough sound
  apply traces_unless sound
  intro usable
  apply traces_bind (level inside' (by omega))
  intro second further enough' sound'
  apply traces_unless sound'
  intro usable'
  exact traces_operated operator (usable.mono enough') usable'

theorem traces_conditional {scope count : Nat} (bound : scope < count)
    {condition consequence alternative : Node} (inside : condition.Within programs)
    (inside' : consequence.Within programs) (inside'' : alternative.Within programs) :
    Traces programs count (Value.Sound programs)
      (evalConditional sub scope condition consequence alternative)
      (evalConditional sub' scope condition consequence alternative) := by
  apply traces_bind (level inside bound)
  intro value more enough sound
  have bound : scope < more := by omega
  apply traces_unless sound
  intro _
  apply traces_ite
  · intro _
    exact level inside' bound
  · intro _
    apply traces_ite
    · intro _
      exact traces_pure fun _ _ => trivial
    · intro _
      exact level inside'' bound

theorem traces_step {node : Node} {scope count : Nat} (inside : node.Within programs)
    (bound : scope < count) :
    Traces programs count (Value.Sound programs) (step sub node scope)
      (tracedStep sub' node scope) := by
  have parts : ∀ part ∈ node.parts, part.Within programs := fun part member => inside.part member
  cases node with
  | program statements => exact traces_evalProgram level bound parts trivial
  | block token statements => exact traces_evalBlock level bound parts trivial
  | statement token expression => exact level (parts _ List.mem_cons_self) bound
  | name identifier => exact traces_lookUp scope identifier.name
  | number token value => exact traces_pure fun _ _ => trivial
  | truth token value => exact traces_pure fun _ _ => trivial
  | missing => exact traces_fail rfl
  | returning token value =>
      apply traces_bind (level (parts _ List.mem_cons_self) bound)
      intro result more enough sound
      apply traces_unless sound
      intro usable
      apply traces_bind traces_newTag
      intro tag further enough' _
      apply traces_pure
      intro last enough''
      exact ⟨usable.fine, usable.sound.mono (by omega)⟩
  | binding token target value =>
      apply traces_bind (level (parts value (by simp [Node.parts])) bound)
      intro result more enough sound
      apply traces_unless sound
      intro usable
      apply traces_bind (traces_assign scope target.name usable)
      intro _ _ _ _
      exact traces_pure fun _ _ => trivial
  | function token parameters body =>
      apply traces_bind traces_newTag
      intro tag more enough _
      exact traces_pure fun last enough' => ⟨⟨token, inside⟩, by omega⟩
  | unary token operator operand =>
      apply traces_bind (level (parts _ List.mem_cons_self) bound)
      intro value more enough sound
      apply traces_unless sound
      intro _
      exact traces_settle (fun value => Value.usable_of_unaryOperation)
        fun cause => unaryOperation_writable
  | binary token left operator right =>
      exact traces_binary level bound token operator (parts left (by simp [Node.parts]))
        (parts right (by simp [Node.parts]))
  | conditional token condition consequence alternative =>
      exact traces_conditional level bound (parts condition (by simp [Node.parts]))
        (parts consequence (by simp [Node.parts])) (parts alternative (by simp [Node.parts]))
  | call token callee arguments =>
      exact traces_call level bound (parts callee List.mem_cons_self)
        fun argument member => parts argument (List.mem_cons_of_mem _ member)

end

theorem traces_exceeded {programs : Node → Prop} {count : Nat} (most : Int) :
    Traces programs count (Value.Sound programs) (fail (.stepLimit most))
      (mark (.exceeded most) >>= fun _ => fail (.stepLimit most)) := by
  have fits (machine : Machine) : (Point.exceeded most machine).Fits programs := trivial
  cases writable : Numeral.isWritable most with
  | true =>
      apply traces_noted (fun _ => rfl) (fun machine _ => fits machine)
      · rintro machine (- | ⟨long⟩)
        rw [writable] at long
        cases long
      · exact traces_fail writable
  | false =>
      have unwritable : (Cause.stepLimit most).isWritable = false := writable
      unfold fail
      rw [unwritable]
      exact traces_unwritable (fun _ => rfl) (fun machine _ => fits machine)
        fun machine => .limit writable

theorem traces_computed {programs : Node → Prop} {count : Nat} {run : Run Value}
    {run' : ExceptT Stop Tracing Value}
    (traces : Traces programs count (Value.Sound programs) run run') :
    Traces programs count (Value.Sound programs) run
      (run' >>= fun value => mark (.computed value) >>= fun _ => pure value) := by
  rw [← bind_pure run]
  apply traces_bind traces
  intro value more _ sound
  apply traces_noted (fun _ => rfl)
  · intro machine enough
    exact sound.mono enough
  · intro machine
    exact nofun
  · exact traces_pure fun _ enough => sound.mono enough

/-- A node of some programs, traced. -/
theorem traces_eval {programs : Node → Prop} (limit : Option Int) (depth : Nat) {node : Node}
    {scope count : Nat} (inside : node.Within programs) (bound : scope < count) :
    Traces programs count (Value.Sound programs) (eval limit depth node scope)
      (traced limit depth node scope) := by
  induction depth generalizing node scope count with
  | zero => exact traces_tooDeep
  | succ depth ih =>
      apply traces_bind traces_visit
      intro visits more enough _
      apply traces_noted (fun _ => rfl)
      · intro machine enough'
        exact ⟨inside, by omega⟩
      · intro machine
        exact nofun
      apply traces_computed
      unfold tracedVisit
      cases exceeded? limit visits with
      | some most => exact traces_exceeded most
      | none => exact traces_step ih inside (by omega)

end MonkeyLang.Evaluation
