import Mathlib.Data.List.Perm.Basic
import FeedIntake.Pool

/-!
Where the tasks of a pool are. `Move` says once what every event does; from it comes what one event
moves between the queue, the workers and the finished tasks, and from that what a schedule moves.
Main statement: whatever the schedule, the accepted tasks are those in the queue, in work and
finished, each of them once; they are taken in the order in which they were accepted; and a worker
leaves only when the shutdown has begun and nothing is queued, so that all is done when all have
left.
-/
namespace FeedIntake

variable {Value : Type}

/-- The task that a worker is busy with. -/
def Worker.job? : Worker Value → Option (Job Value)
  | .running job => some job
  | _ => none

namespace Pool

def running (pool : Pool Value) : List (Job Value) := pool.workers.filterMap Worker.job?

/-- The tasks that have left the queue. -/
def held (pool : Pool Value) : List (Job Value) := pool.running ++ pool.finished

/-- The tasks among some events that are accepted, numbered from `ticket` on: those in front of the
first shutdown. -/
def accepts (ticket : Nat) : List (Event Value) → List (Job Value)
  | [] => []
  | .submit outcome :: rest => ⟨ticket, outcome⟩ :: accepts (ticket + 1) rest
  | .shutdown :: _ => []
  | _ :: rest => accepts ticket rest

/-- The tasks that a pool accepts in a schedule. -/
def upcoming (pool : Pool Value) (schedule : List (Event Value)) : List (Job Value) :=
  if pool.isStopping then [] else accepts pool.accepted schedule

/-- The task that leaves the queue with an event. -/
def pops (pool : Pool Value) : Event Value → List (Job Value)
  | .take _ => pool.queue.take 1
  | _ => []

/-- The tasks that leave the queue in a schedule, in that order. -/
def popped (pool : Pool Value) : List (Event Value) → List (Job Value)
  | [] => []
  | event :: rest =>
    match pool.step event with
    | some next => pool.pops event ++ next.popped rest
    | none => []

/-- What an event does, and when it can happen. -/
inductive Move (pool : Pool Value) : Event Value → Pool Value → Prop
  | refuse (outcome : Except Bytes Value) (stopping : pool.isStopping = true) :
      Move pool (.submit outcome) pool
  | accept (outcome : Except Bytes Value) (going : pool.isStopping = false) :
      Move pool (.submit outcome) { pool with
        queue := pool.queue ++ [⟨pool.accepted, outcome⟩]
        accepted := pool.accepted + 1 }
  | take (worker : Nat) (job : Job Value) (rest : List (Job Value))
      (waits : pool.workers[worker]? = some .waiting) (first : pool.queue = job :: rest) :
      Move pool (.take worker) { pool with
        queue := rest
        workers := pool.workers.set worker (.running job) }
  | finish (worker : Nat) (job : Job Value)
      (works : pool.workers[worker]? = some (.running job)) :
      Move pool (.finish worker) { pool with
        workers := pool.workers.set worker .waiting
        finished := pool.finished ++ [job] }
  | leave (worker : Nat) (waits : pool.workers[worker]? = some .waiting)
      (stopping : pool.isStopping = true) (empty : pool.queue = []) :
      Move pool (.leave worker) { pool with workers := pool.workers.set worker .gone }
  | shutdown : Move pool .shutdown pool.shutdown
  | return (caller : Nat) (waits : pool.callers[caller]? = some .waiting)
      (left : pool.workers.all isGone = true) :
      Move pool (.return caller) { pool with callers := pool.callers.set caller .returned }

theorem step_eq_some_iff (pool next : Pool Value) (event : Event Value) :
    pool.step event = some next ↔ Move pool event next := by
  constructor
  · intro happens
    cases event with
    | submit outcome =>
      by_cases stopping : pool.isStopping = true
      · rw [step, submit, if_pos stopping] at happens
        exact Option.some.inj happens ▸ .refuse outcome stopping
      · rw [step, submit, if_neg stopping] at happens
        exact Option.some.inj happens ▸ .accept outcome (Bool.eq_false_iff.2 stopping)
    | take worker =>
      simp only [step, take?] at happens
      split at happens
      · next job rest waits first =>
        exact Option.some.inj happens ▸ .take worker job rest waits first
      · contradiction
    | finish worker =>
      simp only [step, finish?] at happens
      split at happens
      · next job works => exact Option.some.inj happens ▸ .finish worker job works
      · contradiction
    | leave worker =>
      simp only [step, leave?] at happens
      split at happens
      · next waits =>
        by_cases idle : (pool.isStopping && pool.queue.isEmpty) = true
        · rw [if_pos idle] at happens
          obtain ⟨stopping, empty⟩ := Bool.and_eq_true_iff.1 idle
          exact Option.some.inj happens ▸ .leave worker waits stopping (List.isEmpty_iff.1 empty)
        · simp [idle] at happens
      · contradiction
    | shutdown => exact Option.some.inj happens ▸ .shutdown
    | «return» caller =>
      simp only [step, return?] at happens
      split at happens
      · next waits =>
        by_cases left : pool.workers.all isGone = true
        · rw [if_pos left] at happens
          exact Option.some.inj happens ▸ .return caller waits left
        · simp [left] at happens
      · contradiction
  · intro move
    cases move with
    | refuse outcome stopping => simp [step, submit, stopping]
    | accept outcome going => simp [step, submit, going]
    | take worker job rest waits first => simp [step, take?, waits, first]
    | finish worker job works => simp [step, finish?, works]
    | leave worker waits stopping empty => simp [step, leave?, waits, stopping, empty]
    | shutdown => rfl
    | «return» caller waits left => simp [step, return?, waits, left]

@[simp] theorem upcoming_nil (pool : Pool Value) : pool.upcoming [] = [] := by
  simp [upcoming, accepts]

theorem map_ticket_accepts (ticket : Nat) (events : List (Event Value)) :
    (accepts ticket events).map Job.ticket = List.range' ticket (accepts ticket events).length := by
  induction events generalizing ticket with
  | nil => rfl
  | cons event rest ih =>
    cases event with
    | submit outcome => simp [accepts, ih (ticket + 1), List.range'_succ]
    | shutdown => rfl
    | take | finish | leave | «return» => simp [accepts, ih ticket]

/-- What becomes of the tasks in work when one worker changes. -/
theorem exists_filterMap_set (workers : List (Worker Value)) (place : Nat)
    (old new : Worker Value) (stands : workers[place]? = some old) :
    ∃ others, (workers.filterMap Worker.job?).Perm (old.job?.toList ++ others) ∧
      ((workers.set place new).filterMap Worker.job?).Perm (new.job?.toList ++ others) := by
  obtain ⟨inside, value⟩ := List.getElem?_eq_some_iff.1 stands
  obtain ⟨front, back, whole, -, changed⟩ := @List.exists_of_set _ place new workers inside
  rw [value] at whole
  have parts (worker : Worker Value) : ((front ++ worker :: back).filterMap Worker.job?).Perm
      (worker.job?.toList ++ (front.filterMap Worker.job? ++ back.filterMap Worker.job?)) := by
    cases busy : worker.job? with
    | none => simp [busy]
    | some job =>
      rw [List.filterMap_append, List.filterMap_cons_some busy]
      exact List.perm_middle
  exact ⟨_, whole ▸ parts old, changed ▸ parts new⟩

namespace Move

variable {pool next : Pool Value} {event : Event Value}

/-- A task is accepted behind the queue and taken in front of it. -/
theorem queue_append_upcoming (move : Move pool event next) (rest : List (Event Value)) :
    pool.queue ++ pool.upcoming (event :: rest) =
      pool.pops event ++ (next.queue ++ next.upcoming rest) := by
  cases move with
  | refuse outcome stopping => simp [upcoming, pops, stopping]
  | accept outcome going => simp [upcoming, pops, accepts, going]
  | take worker job rest waits first => simp [upcoming, pops, accepts, first]
  | finish | leave | «return» => simp [upcoming, pops, accepts]
  | shutdown => simp [upcoming, pops, accepts, Pool.shutdown]

/-- What leaves the queue is in work, until it is finished. -/
theorem held_perm (move : Move pool event next) :
    next.held.Perm (pool.pops event ++ pool.held) := by
  cases move with
  | refuse | accept | shutdown | «return» => exact List.Perm.refl _
  | take worker job rest waits first =>
    obtain ⟨others, before, after⟩ := exists_filterMap_set _ worker _ (.running job) waits
    have moved := after.trans (before.symm.cons job)
    simpa [held, running, pops, first] using moved.append_right pool.finished
  | finish worker job works =>
    obtain ⟨others, before, after⟩ := exists_filterMap_set _ worker _ .waiting works
    have moved := (after.cons job).trans before.symm
    refine List.Perm.trans ?_ (moved.append_right pool.finished)
    rw [held, ← List.append_assoc]
    exact List.perm_append_singleton job _
  | leave worker waits =>
    obtain ⟨others, before, after⟩ := exists_filterMap_set _ worker _ .gone waits
    exact (after.trans before.symm).append_right pool.finished

theorem accepted_eq (move : Move pool event next) (rest : List (Event Value)) :
    pool.accepted + (pool.upcoming (event :: rest)).length =
      next.accepted + (next.upcoming rest).length := by
  cases move with
  | refuse outcome stopping => simp [upcoming, stopping]
  | accept outcome going => simp [upcoming, accepts, going]; omega
  | take | finish | leave | «return» => simp [upcoming, accepts]
  | shutdown => simp [upcoming, accepts, Pool.shutdown]

theorem isStopping_iff (move : Move pool event next) :
    next.isStopping = true ↔ pool.isStopping = true ∨ event = .shutdown := by
  cases move with
  | shutdown => simp [Pool.shutdown]
  | refuse | accept | take | finish | leave | «return» => simp

theorem length_workers (move : Move pool event next) :
    next.workers.length = pool.workers.length := by
  cases move with
  | take | finish | leave => simp
  | refuse | accept | shutdown | «return» => rfl

/-- A worker leaves of itself, and only when nothing is left to do. -/
theorem gone (move : Move pool event next) (worker : Nat)
    (left : next.workers[worker]? = some .gone) :
    pool.workers[worker]? = some .gone ∨
      event = .leave worker ∧ pool.isStopping = true ∧ pool.queue = [] := by
  cases move with
  | refuse | accept | shutdown | «return» => exact .inl left
  | take other | finish other =>
    by_cases same : other = worker
    · subst same
      simp [List.getElem?_set] at left
    · rw [List.getElem?_set_ne same] at left
      exact .inl left
  | leave other waits stopping empty =>
    by_cases same : other = worker
    · exact .inr ⟨congrArg Event.leave same, stopping, empty⟩
    · rw [List.getElem?_set_ne same] at left
      exact .inl left

/-- Once the shutdown has begun, an empty queue stays empty. -/
theorem idle (move : Move pool event next)
    (before : .gone ∈ pool.workers → pool.isStopping = true ∧ pool.queue = [])
    (left : .gone ∈ next.workers) : next.isStopping = true ∧ next.queue = [] := by
  have done : pool.isStopping = true ∧ pool.queue = [] := by
    obtain ⟨worker, found⟩ := List.mem_iff_getElem?.1 left
    rcases move.gone worker found with earlier | ⟨-, done⟩
    · exact before (List.mem_of_getElem? earlier)
    · exact done
  obtain ⟨stopping, empty⟩ := done
  refine ⟨move.isStopping_iff.2 (.inl stopping), ?_⟩
  cases move with
  | accept outcome going => simp [stopping] at going
  | take worker job rest waits first => simp [empty] at first
  | refuse | finish | leave | shutdown | «return» => exact empty

end Move

/-- A schedule that can happen, event by event. -/
inductive Path : Pool Value → List (Event Value) → Pool Value → Prop
  | nil (pool : Pool Value) : Path pool [] pool
  | cons {pool next last : Pool Value} {event : Event Value} {rest : List (Event Value)}
      (move : Move pool event next) (path : Path next rest last) : Path pool (event :: rest) last

theorem path_of_run (schedule : List (Event Value)) (pool last : Pool Value)
    (reached : pool.run schedule = some last) : Path pool schedule last := by
  induction schedule generalizing pool with
  | nil => exact Option.some.inj reached ▸ .nil pool
  | cons event rest ih =>
    rw [run] at reached
    split at reached
    · next next happens => exact .cons ((step_eq_some_iff ..).1 happens) (ih next reached)
    · contradiction

namespace Path

variable {pool last : Pool Value} {schedule : List (Event Value)}

/-- What the queue holds and a schedule brings is taken in that order, or is still in the queue. -/
theorem queue_append_upcoming (path : Path pool schedule last) :
    pool.queue ++ pool.upcoming schedule = pool.popped schedule ++ last.queue := by
  induction path with
  | nil => simp [popped]
  | cons move _ ih =>
    rw [move.queue_append_upcoming, ih, popped, (step_eq_some_iff ..).2 move, List.append_assoc]

theorem held_perm (path : Path pool schedule last) :
    last.held.Perm (pool.popped schedule ++ pool.held) := by
  induction path with
  | nil => exact List.Perm.refl _
  | @cons pool next last event rest move _ ih =>
    rw [popped, (step_eq_some_iff ..).2 move]
    have behind := ih.trans (move.held_perm.append_left (next.popped rest))
    rw [List.append_assoc]
    exact behind.trans (List.perm_append_comm_assoc ..)

theorem accepted_eq (path : Path pool schedule last) :
    last.accepted = pool.accepted + (pool.upcoming schedule).length := by
  induction path with
  | nil => simp
  | cons move _ ih => rw [ih, ← move.accepted_eq]

theorem isStopping_iff (path : Path pool schedule last) :
    last.isStopping = true ↔ pool.isStopping = true ∨ Event.shutdown ∈ schedule := by
  induction path with
  | nil => simp
  | cons move _ ih =>
    rw [ih, move.isStopping_iff, List.mem_cons, or_assoc, @eq_comm _ Event.shutdown]

theorem length_workers (path : Path pool schedule last) :
    last.workers.length = pool.workers.length := by
  induction path with
  | nil => rfl
  | cons move _ ih => exact ih.trans move.length_workers

/-- Where a worker has left, nothing is left to do. -/
theorem idle (path : Path pool schedule last)
    (before : .gone ∈ pool.workers → pool.isStopping = true ∧ pool.queue = [])
    (left : .gone ∈ last.workers) : last.isStopping = true ∧ last.queue = [] := by
  induction path with
  | nil => exact before left
  | cons move _ ih => exact ih (move.idle before) left

end Path

@[simp] theorem held_start (size : Nat) : (start size : Pool Value).held = [] := by
  simp [held, running, start, List.filterMap_replicate, Worker.job?]

theorem gone_not_mem_start (size : Nat) : .gone ∉ (start size : Pool Value).workers := by
  simp [start, List.mem_replicate]

/-- If there is a worker at all, one that has left says that all is done when all have left. -/
theorem gone_mem_of_all (workers : List (Worker Value)) (some : 0 < workers.length)
    (left : workers.all isGone = true) : .gone ∈ workers := by
  cases workers with
  | nil => simp at some
  | cons worker rest =>
    cases worker with
    | gone => exact List.mem_cons_self
    | waiting | running => simp [isGone] at left

theorem running_of_all (pool : Pool Value) (left : pool.workers.all isGone = true) :
    pool.running = [] := by
  rw [running, List.filterMap_eq_nil_iff]
  intro worker member
  have gone := List.all_eq_true.1 left worker member
  cases worker with
  | waiting | gone => rfl
  | running job => simp [isGone] at gone

namespace Path

variable {size : Nat} {schedule : List (Event Value)} {pool : Pool Value}

theorem popped_append_queue (path : Path (start size) schedule pool) :
    (start size).popped schedule ++ pool.queue = accepts 0 schedule :=
  path.queue_append_upcoming.symm

/-- No task is lost, and none is there twice. -/
theorem conserved (path : Path (start size) schedule pool) :
    (pool.queue ++ pool.held).Perm (accepts 0 schedule) := by
  rw [← path.popped_append_queue]
  refine List.perm_append_comm.trans (List.Perm.append_right _ ?_)
  simpa using path.held_perm

theorem done (path : Path (start size) schedule pool) (sized : 0 < size)
    (left : pool.workers.all isGone = true) : pool.finished.Perm (accepts 0 schedule) := by
  have some : 0 < pool.workers.length := by
    rw [path.length_workers, start, List.length_replicate]
    exact sized
  obtain ⟨-, empty⟩ := path.idle (fun gone => absurd gone (gone_not_mem_start size))
    (gone_mem_of_all pool.workers some left)
  have conserved := path.conserved
  rwa [empty, held, running_of_all pool left] at conserved

end Path

/-- The accepted tasks in any schedule: all of them are queued, in work or finished, each once and
in the order of their numbers. Behind the shutdown tasks are refused. A worker goes on behind each
task, whatever that came to, and leaves when the shutdown has begun and nothing is queued. -/
theorem run_accounts (size : Nat) (sized : 0 < size) (schedule : List (Event Value))
    (pool : Pool Value) (reached : (start size).run schedule = some pool) :
    (pool.queue ++ pool.running ++ pool.finished).Perm (accepts 0 schedule) ∧
    (accepts 0 schedule).map Job.ticket = List.range pool.accepted ∧
    (start size).popped schedule ++ pool.queue = accepts 0 schedule ∧
    (∀ outcome, .shutdown ∉ schedule → ∃ next, pool.submit outcome = .ok next) ∧
    (∀ outcome, .shutdown ∈ schedule →
      pool.submit outcome = .error refusal ∧ pool.step (.submit outcome) = some pool) ∧
    (∀ worker job, pool.workers[worker]? = some (.running job) →
      ∃ next, pool.step (.finish worker) = some next ∧
        next.workers = pool.workers.set worker .waiting ∧
        next.finished = pool.finished ++ [job]) ∧
    (∀ event next worker, pool.step event = some next →
      next.workers[worker]? = some .gone → pool.workers[worker]? ≠ some .gone →
      event = .leave worker ∧ .shutdown ∈ schedule ∧ pool.queue = []) ∧
    (pool.workers.all isGone = true → pool.finished.Perm (accepts 0 schedule)) := by
  have path := path_of_run schedule _ _ reached
  have counted : pool.accepted = 0 + (accepts 0 schedule).length := path.accepted_eq
  have stopping : pool.isStopping = true ↔ .shutdown ∈ schedule := by
    simp [path.isStopping_iff, start]
  refine ⟨?_, ?_, path.popped_append_queue, ?_, ?_, ?_, ?_, path.done sized⟩
  · rw [List.append_assoc]
    exact path.conserved
  · rw [map_ticket_accepts, counted, Nat.zero_add, List.range_eq_range']
  · intro outcome going
    simp [submit, mt stopping.1 going]
  · intro outcome begun
    simp [step, submit, stopping.2 begun]
  · intro worker job works
    exact ⟨_, (step_eq_some_iff ..).2 (.finish worker job works), rfl, rfl⟩
  · intro event next worker happens left stayed
    have alone := ((step_eq_some_iff ..).1 happens).gone worker left
    rw [← stopping]
    exact alone.resolve_left stayed

/-- Two workers, of which the second takes the first task and ends last but one, a task that fails,
and one that comes too late. -/
def mixedSchedule : List (Event Nat) := [
  .submit (.ok 5), .submit (.error []), .take 1, .submit (.ok 7), .shutdown, .take 0,
  .submit (.ok 8), .finish 0, .take 0, .finish 1, .leave 1, .finish 0, .leave 0]

theorem run_accounts_mixed :
    0 < 2 ∧ ∃ pool, (start 2).run mixedSchedule = some pool ∧
      pool.workers.all isGone = true ∧ pool.finished.map Job.ticket = [1, 0, 2] ∧
      pool.finished.Perm (accepts 0 mixedSchedule) := by
  have reached : (start 2).run mixedSchedule = some _ := rfl
  obtain ⟨-, -, -, -, -, -, -, done⟩ := run_accounts 2 (by decide) mixedSchedule _ reached
  exact ⟨by decide, _, reached, rfl, rfl, done rfl⟩

end Pool

end FeedIntake
