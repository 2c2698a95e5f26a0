import FeedIntake.Proofs.Pool.Accounting

/-!
What a return from the shutdown says. The first call waits for the workers, so that all is done when
it returns; each other call finds the shutdown begun and returns at once. Main statement: a pool is
drained when a call returns exactly if that was the first call or all workers had left already.
-/
namespace FeedIntake.Pool

variable {Value : Type}

/-- Every task that a schedule brought is finished, and every worker has left. -/
def IsDrained (pool : Pool Value) (schedule : List (Event Value)) : Prop :=
  pool.finished.Perm (accepts 0 schedule) ∧ pool.workers.all isGone = true

/-- A call of the shutdown that comes back with an event. -/
def Returns (pool next : Pool Value) (caller : Nat) : Prop :=
  next.callers[caller]? = some .returned ∧ pool.callers[caller]? ≠ some .returned

/-- Who waits for the workers of a pool: nobody but the first caller, as long as one is there. -/
structure Attended (pool : Pool Value) : Prop where
  begun : pool.isStopping = true ↔ pool.callers ≠ []
  first : pool.callers[0]? = some .returned → pool.workers.all isGone = true
  others : ∀ caller, pool.callers[caller + 1]? ≠ some .waiting

theorem attended_start (size : Nat) : Attended (start size : Pool Value) := by
  constructor <;> simp [start]

/-- Workers that have left do not come back. -/
theorem Move.workers_of_all_isGone {pool next : Pool Value} {event : Event Value}
    (move : Move pool event next) (left : pool.workers.all isGone = true) :
    next.workers = pool.workers := by
  cases move with
  | refuse | accept | shutdown | «return» => rfl
  | take worker job rest waits | finish worker job waits | leave worker waits =>
    have gone := List.all_eq_true.1 left _ (List.mem_of_getElem? waits)
    simp [isGone] at gone

theorem Move.attended {pool next : Pool Value} {event : Event Value} (move : Move pool event next)
    (before : Attended pool) : Attended next := by
  have still := move.workers_of_all_isGone
  cases move with
  | refuse | accept => exact ⟨before.begun, before.first, before.others⟩
  | take | finish | leave =>
    refine ⟨before.begun, fun returned => ?_, before.others⟩
    have left := before.first returned
    rwa [still left]
  | shutdown =>
    refine ⟨by simp [Pool.shutdown], fun returned => ?_, fun caller waits => ?_⟩
    · cases asked : pool.callers with
      | nil =>
        have going : pool.isStopping = false := by simpa [asked] using before.begun
        simp [Pool.shutdown, asked, going] at returned
      | cons first rest =>
        simp only [Pool.shutdown, asked, List.cons_append, List.getElem?_cons_zero] at returned
        exact before.first (by simpa [asked] using returned)
    · rw [Pool.shutdown, List.getElem?_append] at waits
      split at waits
      · exact before.others caller waits
      · -- The call is the newest, and finds the shutdown begun.
        have newest : caller + 1 - pool.callers.length = 0 := by
          have inside := (List.getElem?_eq_some_iff.1 waits).1
          simpa using inside
        have begun : pool.isStopping = true := by
          rw [before.begun, ← List.length_pos_iff]
          omega
        simp [newest, begun] at waits
  | «return» other waits left =>
    refine ⟨by simpa using before.begun, fun _ => left, fun caller waits => ?_⟩
    by_cases same : other = caller + 1
    · simp [same, List.getElem?_set] at waits
    · rw [List.getElem?_set_ne same] at waits
      exact before.others caller waits

theorem Path.attended {pool last : Pool Value} {schedule : List (Event Value)}
    (path : Path pool schedule last) (before : Attended pool) : Attended last := by
  induction path with
  | nil => exact before
  | cons move _ ih => exact ih (move.attended before)

theorem Path.snoc {pool last next : Pool Value} {schedule : List (Event Value)}
    {event : Event Value} (path : Path pool schedule last) (move : Move last event next) :
    Path pool (schedule ++ [event]) next := by
  induction path with
  | nil => exact .cons move (.nil next)
  | cons first _ ih => exact .cons first (ih move)

/-- A call comes back when it is the first and all workers have left, or else at once. -/
theorem Move.returns {pool next : Pool Value} {event : Event Value} {caller : Nat}
    (move : Move pool event next) (attended : Attended pool) (returns : Returns pool next caller) :
    next.workers = pool.workers ∧
      (caller = 0 ∧ pool.workers.all isGone = true ∨ 0 < caller ∧ event = .shutdown) := by
  obtain ⟨behind, before⟩ := returns
  cases move with
  | refuse | accept | take | finish | leave => contradiction
  | shutdown =>
    refine ⟨rfl, .inr ⟨?_, rfl⟩⟩
    rw [Pool.shutdown, List.getElem?_append] at behind
    split at behind
    · contradiction
    · have newest : caller - pool.callers.length = 0 := by
        have inside := (List.getElem?_eq_some_iff.1 behind).1
        simpa using inside
      have stopping : pool.isStopping = true := by
        by_contra going
        simp [newest, going] at behind
      have asked := List.length_pos_iff.2 (attended.begun.1 stopping)
      omega
  | «return» other waits left =>
    refine ⟨rfl, .inl ⟨?_, left⟩⟩
    by_cases same : other = caller
    · subst same
      cases other with
      | zero => rfl
      | succ caller => exact absurd waits (attended.others caller)
    · rw [List.getElem?_set_ne same] at behind
      contradiction

theorem isDrained_iff {size : Nat} {schedule : List (Event Value)} {pool : Pool Value}
    (path : Path (start size) schedule pool) (sized : 0 < size) :
    IsDrained pool schedule ↔ pool.workers.all isGone = true :=
  ⟨And.right, fun left => ⟨path.done sized left, left⟩⟩

/-- A pool is drained when a call of the shutdown returns exactly if the call was the first, or if
all workers had left before. It stays so behind the return of the first call, and a call in between
returns at once. -/
theorem return_drained_iff (size : Nat) (sized : 0 < size) (schedule : List (Event Value))
    (pool : Pool Value) (reached : (start size).run schedule = some pool) :
    (∀ event next caller, pool.step event = some next → Returns pool next caller →
      (IsDrained next (schedule ++ [event]) ↔
        caller = 0 ∨ pool.workers.all isGone = true)) ∧
    (pool.callers[0]? = some .returned → IsDrained pool schedule) ∧
    (.shutdown ∈ schedule → Returns pool pool.shutdown pool.callers.length) := by
  have path := path_of_run schedule _ _ reached
  have attended := path.attended (attended_start size)
  refine ⟨?_, fun returned => ?_, fun begun => ?_⟩
  · intro event next caller happens returns
    have move := (step_eq_some_iff ..).1 happens
    obtain ⟨same, cause⟩ := move.returns attended returns
    rw [isDrained_iff (path.snoc move) sized, same]
    rcases cause with ⟨rfl, left⟩ | ⟨later, -⟩
    · simp [left]
    · simp [Nat.ne_of_gt later]
  · exact (isDrained_iff path sized).2 (attended.first returned)
  · have stopping := path.isStopping_iff.2 (.inr begun)
    simp [Returns, Pool.shutdown, stopping]

/-- One worker, one task, and two calls before the worker does anything. -/
def overlappingSchedule : List (Event Nat) := [.submit (.ok 5), .shutdown, .shutdown]

/-- The second call has returned, and the task is still in the queue. -/
theorem overlapping_return_undrained :
    ∃ pool, (start 1).run overlappingSchedule = some pool ∧
      pool.callers = [.waiting, .returned] ∧ pool.queue = [⟨0, .ok 5⟩] ∧
      pool.workers = [.waiting] ∧ ¬ IsDrained pool overlappingSchedule :=
  ⟨_, rfl, rfl, rfl, rfl, fun drained => Bool.false_ne_true drained.2⟩

/-- The pool in which the worker has done the task and left, and only the first call still waits. -/
def leftPool : Pool Nat := ⟨[], [.gone], [⟨0, .ok 5⟩], 1, true, [.waiting, .returned]⟩

/-- The first call returns behind the second one, and then all is done. -/
theorem return_drained_overlapping :
    let schedule := overlappingSchedule ++ [.take 0, .finish 0, .leave 0]
    0 < 1 ∧ (start 1).run schedule = some leftPool ∧
      ∃ next, leftPool.step (.return 0) = some next ∧ leftPool.Returns next 0 ∧
        IsDrained next (schedule ++ [.return 0]) := by
  intro schedule
  have reached : (start 1).run schedule = some leftPool := rfl
  let next : Pool Nat := { leftPool with callers := [.returned, .returned] }
  have happens : leftPool.step (.return 0) = some next := rfl
  have returns : leftPool.Returns next 0 := ⟨rfl, by decide⟩
  obtain ⟨exactly, -⟩ := return_drained_iff 1 (by decide) schedule leftPool reached
  exact ⟨by decide, reached, next, happens, returns, (exactly _ _ 0 happens returns).2 (.inl rfl)⟩

end FeedIntake.Pool
