import FeedIntake.Fetch.Network

/-!
A network that answers from a list: each request takes the next answer, whatever it asks, and each
host name has fixed addresses. When no answer is left every connection fails.
-/
namespace FeedIntake.Script

structure Answer where
  status : Int := 0
  headers : Headers := []
  body : Bytes := []
  failure : Option Failure := none
  deriving DecidableEq, Repr

/-- Whether the beginning of the body is accepted, where the request asks for a look at it and there
is something to look at. -/
def Answer.gate? (answer : Answer) (request : Request) : Option Bool :=
  if request.gated && answer.failure.isNone then
    some (request.accepts answer.status answer.headers (answer.body.take request.lookahead))
  else none

/-- The reply to a request; a body whose beginning is not accepted is dropped. -/
def Answer.reply (answer : Answer) (request : Request) : Reply :=
  match answer.failure with
  | some failure => ⟨answer.status, answer.headers, answer.body, .failed failure⟩
  | none =>
    if answer.gate? request == some false then ⟨answer.status, answer.headers, [], .rejected⟩
    else ⟨answer.status, answer.headers, answer.body, .complete⟩

def silence : Reply := ⟨0, [], [], .failed .connection⟩

/-- The network that answers from a list, with the addresses of all names. -/
def network (addresses : Bytes → List Bytes) : Network (List Answer) where
  exchange request answers :=
    match answers with
    | [] => (silence, [])
    | answer :: rest => (answer.reply request, rest)
  lookup host answers := (addresses host, answers)

/-- The network of a machine without a connection. -/
def offline : Network (List Answer) := network fun _ => []

end FeedIntake.Script
