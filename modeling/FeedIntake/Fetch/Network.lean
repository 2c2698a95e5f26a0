import FeedIntake.Content.Family
import FeedIntake.Fetch.Response

/-!
The network as a fetch sees it: it answers one request at a time and looks up the addresses of host
names, and both may change it. A request can ask for a look at the beginning of the body, before the
rest of it is transferred; `Request.accepts` is that look. `Run` is what a piece of a fetch did to a
network: its result, what was asked of the network, in order, and the network behind it.
-/
namespace FeedIntake

/-- Headers by name, in lower case; no name comes twice. -/
abbrev Headers := List (Bytes × Bytes)

structure Request where
  method : Bytes
  url : Bytes
  headers : List (Bytes × Bytes)
  body : Bytes := []
  /-- A host, port and address, where the address has been chosen already; else empty. -/
  pin : Bytes := []
  timeout : Int
  bodyLimit : Int
  /-- How many bytes of the body are looked at before the rest is transferred. -/
  lookahead : Nat := Family.sniffLimit
  /-- The beginning of the body decides whether it is transferred. -/
  gated : Bool := false
  deriving DecidableEq, Repr

/-- How a transfer ended. -/
inductive Ending where
  | complete
  /-- The beginning of the body was not accepted. -/
  | rejected
  | failed (failure : Failure)
  deriving DecidableEq, Repr

structure Reply where
  status : Int
  headers : Headers
  body : Bytes
  ending : Ending
  deriving DecidableEq, Repr

def Headers.value? (headers : Headers) (name : String) : Option Bytes :=
  headers.lookup (Bytes.ofString name)

/-- What the headers of a reply say of its body. -/
def Reply.provenance (reply : Reply) (viaRelay : Bool) : Provenance where
  etag := reply.headers.value? "etag"
  lastModified := reply.headers.value? "last-modified"
  contentType := reply.headers.value? "content-type"
  viaRelay := viaRelay

/-- Whether the beginning of a body is that of a supported document; the body of an answer that is
no success is taken whatever it is. -/
def Request.accepts (request : Request) (status : Int) (headers : Headers) (front : Bytes) : Bool :=
  !Response.isSuccess status
    || (Family.classify? (headers.value? "content-type") front request.url).isSome

inductive Event where
  | lookup (host : Bytes)
  | request (request : Request)
  deriving DecidableEq, Repr

/-- A network with states of the type `World`. -/
structure Network (World : Type) where
  exchange : Request → World → Reply × World
  /-- The addresses of a host name; none if it has no address. -/
  lookup : Bytes → World → List Bytes × World

/-- What a piece of a fetch did: its result, what it asked of the network, and the network behind
it. -/
structure Run (World Result : Type) where
  result : Result
  events : List Event
  world : World

namespace Run

variable {World Result Next : Type}

def pure (result : Result) (world : World) : Run World Result := ⟨result, [], world⟩

/-- One piece of a fetch and then another, which depends on its result. -/
def andThen (run : Run World Result) (next : Result → World → Run World Next) : Run World Next :=
  let rest := next run.result run.world
  ⟨rest.result, run.events ++ rest.events, rest.world⟩

def requests (run : Run World Result) : List Request :=
  run.events.filterMap fun
    | .request request => some request
    | .lookup _ => none

def lookups (run : Run World Result) : List Bytes :=
  run.events.filterMap fun
    | .lookup host => some host
    | .request _ => none

end Run

namespace Network

variable {World : Type}

def send (network : Network World) (request : Request) (world : World) : Run World Reply :=
  let (reply, world) := network.exchange request world
  ⟨reply, [.request request], world⟩

def resolve (network : Network World) (host : Bytes) (world : World) : Run World (List Bytes) :=
  let (addresses, world) := network.lookup host world
  ⟨addresses, [.lookup host], world⟩

end Network

end FeedIntake
