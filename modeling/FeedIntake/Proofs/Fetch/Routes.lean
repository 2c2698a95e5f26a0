import FeedIntake.Proofs.Fetch.Gate
import FeedIntake.Proofs.Fetch.Relay

/-!
The two routes to a page. Main statement: a page that a server gives, and that a relay passes on
with its status in a header, comes out the same on both routes, whether its content is supported or
not; the response tells which route it was.
-/
namespace FeedIntake

namespace Headers

/-- The headers with one of them added, or replaced. -/
def set (headers : Headers) (name : String) (value : Bytes) : Headers :=
  (Bytes.ofString name, value) :: headers.filter fun header => header.1 != Bytes.ofString name

variable (headers : Headers) (name : String) (value : Bytes)

@[simp] theorem value?_set_self : (headers.set name value).value? name = some value := by
  simp [set, value?]

theorem value?_set_of_ne (other : String) (differ : Bytes.ofString other ≠ Bytes.ofString name) :
    (headers.set name value).value? other = headers.value? other := by
  have skipped : (Bytes.ofString other == Bytes.ofString name) = false :=
    beq_eq_false_iff_ne.2 differ
  simp only [set, value?, List.lookup_cons, skipped]
  induction headers with
  | nil => rfl
  | cons header rest ih =>
    obtain ⟨key, text⟩ := header
    by_cases replaced : key = Bytes.ofString name
    · simp [List.lookup_cons, replaced, skipped, ih]
    · simp [List.lookup_cons, replaced, ih]

end Headers

/-- The response as it would have come by a relay, or directly. -/
def Response.via (response : Response) (viaRelay : Bool) : Response :=
  { response with provenance := { response.provenance with viaRelay } }

namespace Fetch

variable [Charset.Library] (options : FetchOptions)

/-- What a response is described as does not depend on the route. -/
theorem describe_via (response : Response) (viaRelay : Bool) :
    describe options (response.via viaRelay) = (describe options response).via viaRelay := by
  by_cases negative : response.status < 0
  · have negative' : (response.via viaRelay).status < 0 := negative
    rw [describe_of_neg options response negative, describe_of_neg options _ negative']
  · cases success : Response.isSuccess response.status with
    | false => simp [describe, Response.via, Response.ok, negative, success]
    | true =>
      cases refused : (Family.classify? response.provenance.contentType response.content
          response.url).isNone && !options.allowAnyContent <;>
        simp [describe, Response.via, Response.ok, Response.failed, negative, success, refused]

/-- The response to a request that is not sent on elsewhere is that of the fetch. -/
theorem follow_of_done {World : Type} (network : Network World) (config : Config) (left : Nat)
    (url pin : Bytes) (world : World) (response : Response)
    (permitted : (permit network options url world).result = .ok pin)
    (done : Hop.ofReply options url (network.exchange (request config options url pin)
      (permit network options url world).world).1 = .done response) :
    (follow network config options left url world).result = response := by
  have hopped : (hop network config options url world).result = .done response := by
    simp [hop, Run.andThen, permitted, Network.send, Run.pure, done]
  cases left <;> simp [follow, Run.andThen, hopped, Run.pure]

end Fetch

namespace Relay

/-- What a relay says of a page is what the page's server says of it, with the route. -/
theorem interpret_set (url : Bytes) (status : Nat) (headers : Headers) (body : Bytes)
    (bounded : status ≤ 9999) :
    interpret url ⟨200, headers.set statusHeader (Numeral.decimal status), body, .complete⟩ =
      Response.via
        { status, url, content := body,
          provenance := Reply.provenance ⟨status, headers, body, .complete⟩ false } true := by
  have etag := headers.value?_set_of_ne statusHeader (Numeral.decimal status) "etag"
    (by decide +kernel)
  have modified := headers.value?_set_of_ne statusHeader (Numeral.decimal status) "last-modified"
    (by decide +kernel)
  have type := headers.value?_set_of_ne statusHeader (Numeral.decimal status) "content-type"
    (by decide +kernel)
  simp [interpret, status?_decimal status bounded, Response.via, Reply.provenance, etag, modified,
    type]

end Relay

section

variable [Charset.Library] {World Far : Type}

/-- Behind a relay only the description of the whole body is left to do. -/
theorem Reader.readRelayed_result (far : Network Far) (client : Relay.Client) (url : Bytes)
    (options : FetchOptions) (world : Far) (web : Url.isWeb url = true) :
    (readRelayed far client url options world).result =
      Fetch.describe options (Relay.interpret url
        (far.exchange (client.request url (Fetch.headers options)) world).1) := by
  simp [readRelayed, web, Relay.fetch, Network.send, Run.andThen, Run.pure]

/-- A relay is asked for one page. -/
theorem Reader.readRelayed_events (far : Network Far) (client : Relay.Client) (url : Bytes)
    (options : FetchOptions) (world : Far) (web : Url.isWeb url = true) :
    (readRelayed far client url options world).events =
      [.request (client.request url (Fetch.headers options))] := by
  simp [readRelayed, web, Relay.fetch, Network.send, Run.andThen, Run.pure]

/-- A page of a permitted URL, whatever its status, headers and body are, unless they redirect the
fetch: a relay that passes it on gives the response that its server gives, also where the early look
at the body, which only the direct route has, refuses it. -/
theorem Reader.read_relayed_eq_read_direct (reader : Reader) (options : FetchOptions)
    (network : Network World) (far : Network Far) (world : World) (world' : Far) (url pin : Bytes)
    (client : Relay.Client) (status : Nat) (headers : Headers) (body : Bytes)
    (bounded : status ≤ 9999)
    (stays : ¬(Fetch.isRedirect status = true ∧ (headers.value? "location").getD [] ≠ []))
    (relay : reader.relay? options = .ok (some client))
    (permitted : (Fetch.permit network options url world).result = .ok pin)
    (served : ({ status, headers, body } : Script.Answer).Honoured
      (Fetch.request reader.config options url pin)
      (network.exchange (Fetch.request reader.config options url pin)
        (Fetch.permit network options url world).world).1)
    (passed : ({
        status := 200,
        headers := headers.set Relay.statusHeader (Numeral.decimal status),
        body } : Script.Answer).Honoured
      (client.request url (Fetch.headers options))
      (far.exchange (client.request url (Fetch.headers options)) world').1) :
    ∃ straight relayed,
      reader.read network url { options with useRelay := false } world = .ok straight ∧
      reader.read far url options world' = .ok relayed ∧
      straight.result.provenance.viaRelay = false ∧
      relayed.result = straight.result.via true := by
  -- What the page is before it is described.
  let page : Response :=
    { status, url, content := body,
      provenance := Reply.provenance ⟨status, headers, body, .complete⟩ false }
  have straight : (reader.readDirect network url { options with useRelay := false } world).result =
      Fetch.describe options page := by
    apply Fetch.follow_of_done { options with useRelay := false } network reader.config _ url pin
      world _ permitted
    have done := (Fetch.ofReply_honoured served rfl).trans (Fetch.ofReply_complete _ _ _ rfl)
    rwa [if_neg stays] at done
  have relayed : (readRelayed far client url options world').result =
      Fetch.describe options (page.via true) := by
    have web := Fetch.isWeb_of_permit network options url world pin permitted
    have reply := passed.eq_whole rfl (by simp [Script.Answer.gate?, Relay.Client.request])
    rw [readRelayed_result far client url options world' web, reply,
      Relay.interpret_set url status headers body bounded]
  have direct : (Fetch.describe options page).provenance.viaRelay = false := by
    have same : Fetch.describe options page = (Fetch.describe options page).via false :=
      Fetch.describe_via options page false
    rw [same]
    rfl
  refine ⟨_, readRelayed far client url options world', rfl, by simp [read, relay], ?_, ?_⟩
  · rwa [straight]
  · rw [relayed, straight, Fetch.describe_via]

end

namespace Fetch.Picture

def address : Bytes := Bytes.ofString "93.184.216.34"

/-- The same picture, fetched through a relay, from a server at a public address. -/
def relayOptions : FetchOptions :=
  { useRelay := true, relayUrl := some (Bytes.ofString "http://relay.example/"),
    relayToken := some (Bytes.ofString "token") }

def picture : Script.Answer :=
  { status := 200, headers := [(Bytes.ofString "content-type", Bytes.ofString "image/png")],
    body := Bytes.ofString "<rss>" }

def passedOn : Script.Answer :=
  { picture with headers := picture.headers.set Relay.statusHeader (Bytes.ofString "200") }

/-- The picture is refused on both routes. -/
theorem read_relayed_picture :
    ∃ straight relayed,
      reader.read (Script.network fun _ => [address]) start
        { relayOptions with useRelay := false } [picture] = .ok straight ∧
      reader.read (Script.network fun _ => []) start relayOptions [passedOn] = .ok relayed ∧
      straight.result.status = Failure.unsupportedContentType.code ∧
      relayed.result = straight.result.via true := by
  obtain ⟨straight, relayed, own, far, -, same⟩ := reader.read_relayed_eq_read_direct relayOptions
    (Script.network fun _ => [address]) (Script.network fun _ => []) [picture] [passedOn] start
    (Bytes.ofString "a.example:80:93.184.216.34") _ 200 picture.headers picture.body (by decide)
    (by decide) rfl (by decide +kernel) (picture.honoured_reply _) (passedOn.honoured_reply _)
  refine ⟨straight, relayed, own, far, ?_, same⟩
  obtain rfl : reader.readDirect (Script.network fun _ => [address]) start
      { relayOptions with useRelay := false } [picture] = straight := Except.ok.inj own
  decide +kernel

end Fetch.Picture

end FeedIntake
