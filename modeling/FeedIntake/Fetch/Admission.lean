import FeedIntake.Address.Basic
import FeedIntake.Fetch.Network
import FeedIntake.Url.Reference

/-!
The guard in front of a connection: the host of a URL is looked up, and the host is refused as a
whole if one of its addresses is not public. The address of an admitted host is pinned, so that the
connection goes to an address that has been judged.
-/
namespace FeedIntake

/-- The judgement on a URL. -/
inductive Verdict where
  | invalidUrl
  | unresolved (host : Bytes) (port : Nat)
  /-- The first address that is not public. -/
  | nonPublic (host : Bytes) (port : Nat) (address : Bytes)
  /-- The address to connect to. -/
  | allowed (host : Bytes) (port : Nat) (address : Bytes)
  deriving DecidableEq, Repr

namespace Verdict

def host : Verdict → Bytes
  | invalidUrl => []
  | unresolved host _ | nonPublic host _ _ | allowed host _ _ => host

def port : Verdict → Nat
  | invalidUrl => 0
  | unresolved _ port | nonPublic _ port _ | allowed _ port _ => port

def address? : Verdict → Option Bytes
  | nonPublic _ _ address | allowed _ _ address => some address
  | _ => none

/-- Host, port and address of an admitted host, an IPv6 address in brackets; empty where nothing has
been looked up, since the host itself is the address then. -/
def pin : Verdict → Bytes
  | allowed host port address =>
    if Address.isText host then []
    else host ++ [Mark.colon] ++ Numeral.decimal port ++ [Mark.colon]
      ++ (if address.contains Mark.colon then
        [Mark.openBracket] ++ address ++ [Mark.closeBracket] else address)
  | _ => []

end Verdict

namespace Admission

variable {World : Type}

def judge (host : Bytes) (port : Nat) (addresses : List Bytes) : Verdict :=
  match addresses with
  | [] => .unresolved host port
  | first :: _ =>
    match addresses.find? Address.isNonPublicText with
    | some address => .nonPublic host port address
    | none => .allowed host port first

/-- The addresses of a host: itself if it is one, else what the network knows. -/
def addresses (network : Network World) (host : Bytes) (world : World) : Run World (List Bytes) :=
  if Address.isText host then .pure [host] world else network.resolve host world

def check (network : Network World) (url : Bytes) (world : World) : Run World Verdict :=
  match (Url.Endpoint.ofText? url).filter (·.scheme.isWeb) with
  | none => .pure .invalidUrl world
  | some endpoint =>
    (addresses network endpoint.host world).andThen fun found world =>
      .pure (judge endpoint.host endpoint.port found) world

end Admission

end FeedIntake
