import FeedIntake.Fetch.Network
import FeedIntake.Json.Writer

/-!
Fetching through a relay: a server that is trusted to fetch a page. It is sent what to fetch, as
JSON, and answers with the body of the page and with the page's status in a header.
-/
namespace FeedIntake.Relay

/-- The header that holds the status of the page. -/
def statusHeader : String := "x-rss-proxy-status"

/-- The text that asks a relay for a page. -/
def requestBody (url : Bytes) (headers : List (Bytes × Bytes)) (token : Bytes) : Bytes :=
  (Json.ofMembers [
    (Bytes.ofString "token", .string token),
    (Bytes.ofString "method", .string (Bytes.ofString "GET")),
    (Bytes.ofString "url", .string url),
    (Bytes.ofString "headers", .ofMembers (headers.map fun (name, value) => (name, .string value)))
  ]).repaired.render .compact

/-- The status that a header value gives: one to four digits between blanks. Whatever else stands
there means that the relay could not fetch the page. -/
def status? (value : Bytes) : Option Nat :=
  let digits := Bytes.trim value
  if digits.length ≤ 4 then Numeral.decimal? digits else none

/-- The relay to ask, and how long and for how much. -/
structure Client where
  url : Bytes
  token : Bytes
  timeout : Int
  bodyLimit : Int
  deriving DecidableEq, Repr

/-- The request for a page; it has twice the time, since the relay makes a request of its own. -/
def Client.request (client : Client) (url : Bytes) (headers : List (Bytes × Bytes)) : Request where
  method := Bytes.ofString "POST"
  url := client.url
  headers := [(Bytes.ofString "Content-Type", Bytes.ofString "application/json")]
  body := requestBody url headers client.token
  timeout := client.timeout * 2
  bodyLimit := client.bodyLimit

/-- What the relay's reply says of a page. -/
def interpret (url : Bytes) (reply : Reply) : Response :=
  let failed (failure : Failure) : Response := .failed failure url { viaRelay := true }
  match reply.ending with
  | .failed .response => failed .response
  | .failed _ => failed .relay
  | .complete | .rejected =>
    if reply.status != 200 then failed .relay
    else match (reply.headers.value? statusHeader).bind status? with
      | none => failed .relay
      | some status =>
        { status, url, content := reply.body, provenance := reply.provenance true }

def fetch {World : Type} (network : Network World) (client : Client) (url : Bytes)
    (headers : List (Bytes × Bytes)) (world : World) : Run World Response :=
  (network.send (client.request url headers) world).andThen fun reply world =>
    .pure (interpret url reply) world

end FeedIntake.Relay
