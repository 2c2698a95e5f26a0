import FeedIntake.Bytes.Basic

/-!
A pool of workers with one queue of tasks. Everything that happens to a pool is an event: a task is
submitted, a worker takes one or finishes it, a worker leaves, a caller asks for the shutdown or
returns from it. Events of different workers and callers come in any order that `step` allows, so
that a schedule is a list of events and `run` says where it leads.
-/
namespace FeedIntake

/-- A task in a pool: the number under which it was accepted and what it will come to, a value or
the message of a failure. -/
structure Job (Value : Type) where
  ticket : Nat
  outcome : Except Bytes Value

/-- What a worker does. A failing task is finished like any other, and its worker goes on. -/
inductive Worker (Value : Type) where
  | waiting
  | running (job : Job Value)
  | gone

/-- What a caller of the shutdown does. -/
inductive Caller where
  | waiting
  | returned
  deriving DecidableEq, Repr

/-- A pool between two events. -/
structure Pool (Value : Type) where
  /-- The tasks that no worker has taken yet, the oldest first. -/
  queue : List (Job Value)
  workers : List (Worker Value)
  /-- The tasks that have come to an end, in that order. -/
  finished : List (Job Value)
  accepted : Nat
  isStopping : Bool
  /-- The callers of the shutdown so far, the first one first. -/
  callers : List Caller

namespace Pool

variable {Value : Type}

/-- Something that happens to a pool. Workers and callers are named by their places. -/
inductive Event (Value : Type) where
  | submit (outcome : Except Bytes Value)
  | take (worker : Nat)
  | finish (worker : Nat)
  | leave (worker : Nat)
  | shutdown
  | return (caller : Nat)

/-- What a caller is told whose task is refused. -/
def refusal : Bytes := Bytes.ofString "ThreadPool is shutting down"

/-- A pool of waiting workers. -/
def start (size : Nat) : Pool Value := ⟨[], List.replicate size .waiting, [], 0, false, []⟩

def size (pool : Pool Value) : Nat := pool.workers.length

def isGone : Worker Value → Bool
  | .gone => true
  | _ => false

/-- A task is accepted at the end of the queue, under the next number; none is once the shutdown has
begun. -/
def submit (pool : Pool Value) (outcome : Except Bytes Value) : Except Bytes (Pool Value) :=
  if pool.isStopping then .error refusal
  else .ok { pool with
    queue := pool.queue ++ [⟨pool.accepted, outcome⟩]
    accepted := pool.accepted + 1 }

/-- A waiting worker takes the oldest task. -/
def take? (pool : Pool Value) (worker : Nat) : Option (Pool Value) :=
  match pool.workers[worker]?, pool.queue with
  | some .waiting, job :: queue =>
    some { pool with queue, workers := pool.workers.set worker (.running job) }
  | _, _ => none

/-- A worker comes to the end of its task, and waits again. -/
def finish? (pool : Pool Value) (worker : Nat) : Option (Pool Value) :=
  match pool.workers[worker]? with
  | some (.running job) =>
    some { pool with
      workers := pool.workers.set worker .waiting
      finished := pool.finished ++ [job] }
  | _ => none

/-- A waiting worker leaves, when the shutdown has begun and nothing is left to do. -/
def leave? (pool : Pool Value) (worker : Nat) : Option (Pool Value) :=
  match pool.workers[worker]? with
  | some .waiting =>
    if pool.isStopping && pool.queue.isEmpty then
      some { pool with workers := pool.workers.set worker .gone }
    else none
  | _ => none

/-- A caller asks for the shutdown. The first one has to wait for the workers; each other one finds
it begun and returns at once. -/
def shutdown (pool : Pool Value) : Pool Value :=
  { pool with
    isStopping := true
    callers := pool.callers ++ [if pool.isStopping then .returned else .waiting] }

/-- A waiting caller returns, when all workers have left. -/
def return? (pool : Pool Value) (caller : Nat) : Option (Pool Value) :=
  match pool.callers[caller]? with
  | some .waiting =>
    if pool.workers.all isGone then
      some { pool with callers := pool.callers.set caller .returned }
    else none
  | _ => none

/-- The pool behind an event, if it can happen. A refused task changes nothing. -/
def step (pool : Pool Value) : Event Value → Option (Pool Value)
  | .submit outcome =>
    match pool.submit outcome with
    | .ok next => some next
    | .error _ => some pool
  | .take worker => pool.take? worker
  | .finish worker => pool.finish? worker
  | .leave worker => pool.leave? worker
  | .shutdown => some pool.shutdown
  | .return caller => pool.return? caller

/-- The pool behind a schedule, if it can happen. -/
def run (pool : Pool Value) : List (Event Value) → Option (Pool Value)
  | [] => some pool
  | event :: rest =>
    match pool.step event with
    | some next => next.run rest
    | none => none

/-- A schedule for a pool whose workers all wait: the first of them does all that is queued, and
then all of them leave. -/
def drainSchedule (pool : Pool Value) : List (Event Value) :=
  (pool.queue.flatMap fun _ => [.take 0, .finish 0]) ++ (List.range pool.size).map .leave

/-- A pool whose workers all wait, shut down by a caller that has returned. A later caller finds it
shut down and returns at once. -/
def close (pool : Pool Value) : Pool Value :=
  let stopping := pool.shutdown
  if pool.isStopping then stopping
  else (stopping.run (stopping.drainSchedule ++ [.return pool.callers.length])).getD stopping

/-- What a task has come to, if it has come to an end. -/
def outcome? (pool : Pool Value) (ticket : Nat) : Option (Except Bytes Value) :=
  (pool.finished.find? fun job => job.ticket == ticket).map (·.outcome)

/-- What the accepted tasks have come to, in the order in which they were accepted. -/
def outcomes (pool : Pool Value) : List (Except Bytes Value) :=
  (List.range pool.accepted).filterMap pool.outcome?

end Pool

end FeedIntake
