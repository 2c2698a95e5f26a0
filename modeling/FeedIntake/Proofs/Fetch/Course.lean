import FeedIntake.Fetch.Reading

/-!
The course of a direct fetch, with its response, whatever the guard is told to admit. The events
of a run account for all it did to the network, so the answer behind each of them can be spoken of.
`Course` has one case for each way in which a hop can come out: the URL is refused, the reply ends
the fetch, the reply redirects once too often, or the fetch goes on elsewhere. What holds of all
fetches is proved by induction on it.
-/
namespace FeedIntake

/-- The network behind some events. -/
def Network.after {World : Type} (network : Network World) : World → List Event → World
  | world, [] => world
  | world, .lookup host :: rest => network.after (network.lookup host world).2 rest
  | world, .request request :: rest => network.after (network.exchange request world).2 rest

theorem Network.after_append {World : Type} (network : Network World) (world : World)
    (first second : List Event) :
    network.after world (first ++ second) = network.after (network.after world first) second := by
  induction first generalizing world with
  | nil => rfl
  | cons event rest ih => cases event <;> exact ih _

namespace Fetch

/-- A request behind events without one is that of the hop itself or of a later one. -/
theorem request_split {own rest earlier later : List Event} {own' request : Request}
    (absent : .request request ∉ own)
    (split : own ++ .request own' :: rest = earlier ++ .request request :: later) :
    (earlier = own ∧ request = own') ∨
    ∃ between, earlier = own ++ .request own' :: between ∧
      rest = between ++ .request request :: later := by
  rcases List.append_eq_append_iff.1 split with ⟨between, front, back⟩ | ⟨between, front, back⟩
  · cases between with
    | nil => exact .inl ⟨by simpa using front, by simpa using (List.cons.inj back).1.symm⟩
    | cons event between =>
      obtain ⟨rfl, behind⟩ := List.cons.inj back
      exact .inr ⟨between, front, behind⟩
  · cases between with
    | nil => exact .inl ⟨by simpa using front.symm, by simpa using (List.cons.inj back).1⟩
    | cons event between =>
      obtain ⟨rfl, -⟩ := List.cons.inj back
      exact absurd (by simp [front]) absent

variable {World : Type} (network : Network World) (config : Config) (options : FetchOptions)

@[simp] theorem request_url (url pin : Bytes) : (request config options url pin).url = url := rfl

section Replies

variable [Charset.Library] (url : Bytes) (reply : Reply)

theorem ofReply_rejected (ending : reply.ending = .rejected) :
    Hop.ofReply options url reply =
      .done (.failed .unsupportedContentType url (reply.provenance false)) := by
  simp [Hop.ofReply, ending]

theorem ofReply_failed (failure : Failure) (ending : reply.ending = .failed failure) :
    Hop.ofReply options url reply = .done (.failed failure url (reply.provenance false)) := by
  simp [Hop.ofReply, ending]

theorem ofReply_complete (ending : reply.ending = .complete) :
    Hop.ofReply options url reply =
      if isRedirect reply.status = true ∧ (reply.headers.value? "location").getD [] ≠ [] then
        .redirected (Url.normalize ((reply.headers.value? "location").getD []) url)
          (reply.provenance false)
      else .done (describe options
        { status := reply.status, url, content := reply.body,
          provenance := reply.provenance false }) := by
  simp [Hop.ofReply, ending]

/-- Only a complete reply with the status of a redirect and a location leads to another URL. -/
theorem ofReply_redirected (target : Bytes) (provenance : Provenance)
    (led : Hop.ofReply options url reply = .redirected target provenance) :
    reply.ending = .complete ∧ isRedirect reply.status = true ∧
      ∃ location, reply.headers.value? "location" = some location ∧ location ≠ [] ∧
        target = Url.normalize location url := by
  cases ending : reply.ending with
  | rejected => simp [ofReply_rejected _ _ _ ending] at led
  | failed failure => simp [ofReply_failed _ _ _ failure ending] at led
  | complete =>
    rw [ofReply_complete _ _ _ ending] at led
    split at led
    · next taken =>
      obtain ⟨status, header⟩ := taken
      obtain ⟨rfl, -⟩ := Hop.redirected.inj led
      cases found : reply.headers.value? "location" with
      | none => simp [found] at header
      | some location => exact ⟨rfl, status, location, rfl, by simpa [found] using header, by simp⟩
    · cases led

end Replies

theorem check_asks (url : Bytes) (world : World) :
    (∀ request, .request request ∉ (Admission.check network url world).events) ∧
      (Admission.check network url world).world =
        network.after world (Admission.check network url world).events := by
  rw [Admission.check]
  split
  · simp [Run.pure, Network.after]
  · next endpoint named =>
    by_cases literal : Address.isText endpoint.host = true
    · simp [Admission.addresses, literal, Run.andThen, Run.pure, Network.after]
    · simp [Admission.addresses, literal, Run.andThen, Run.pure, Network.resolve, Network.after]

/-- Before a URL is admitted or refused nothing is sent. -/
theorem permit_asks (url : Bytes) (world : World) :
    (∀ request, .request request ∉ (permit network options url world).events) ∧
      (permit network options url world).world =
        network.after world (permit network options url world).events := by
  rw [permit]
  split
  · simp [Run.pure, Network.after]
  · split
    · simp [Run.pure, Network.after]
    · simpa [Run.andThen, Run.pure] using check_asks network url world

variable {network options} in
theorem silent_of_permit {url : Bytes} {world next : World} {own : List Event}
    {result : Except Failure Bytes} (asked : permit network options url world = ⟨result, own, next⟩)
    (request : Request) : .request request ∉ own := by
  have silent := (permit_asks network options url world).1 request
  rwa [asked] at silent

theorem isWeb_of_permit (url : Bytes) (world : World) (pin : Bytes)
    (permitted : (permit network options url world).result = .ok pin) : Url.isWeb url = true := by
  cases web : Url.isWeb url with
  | true => rfl
  | false => simp [permit, web, Run.pure] at permitted

/-- The failures with which a URL can be refused. -/
theorem permit_error (url : Bytes) (world : World) (failure : Failure)
    (refused : (permit network options url world).result = .error failure) :
    failure = .unknown ∨ failure = .nameResolution ∨ failure = .privateAddress := by
  rw [permit] at refused
  split at refused
  · exact .inl (Except.error.inj refused).symm
  · split at refused
    · cases refused
    · simp only [Run.andThen, Run.pure] at refused
      cases judged : (Admission.check network url world).result with
      | invalidUrl => simp_all
      | unresolved host port => simp_all
      | nonPublic host port address => simp_all
      | allowed host port address => simp [judged] at refused

variable [Charset.Library]

/-- The events and the response of a fetch from a URL on, with so many redirects left. -/
inductive Course : Nat → Bytes → World → List Event → Response → Prop where
  | refused {left : Nat} {url : Bytes} {world : World} {own : List Event} {failure : Failure}
      (asked : permit network options url world = ⟨.error failure, own, network.after world own⟩) :
      Course left url world own (.failed failure url {})
  | answered {left : Nat} {url pin : Bytes} {world : World} {own : List Event}
      {response : Response}
      (asked : permit network options url world = ⟨.ok pin, own, network.after world own⟩)
      (reply : Hop.ofReply options url (network.exchange (request config options url pin)
        (network.after world own)).1 = .done response) :
      Course left url world (own ++ [.request (request config options url pin)]) response
  | exhausted {url pin target : Bytes} {world : World} {own : List Event}
      {provenance : Provenance}
      (asked : permit network options url world = ⟨.ok pin, own, network.after world own⟩)
      (reply : Hop.ofReply options url (network.exchange (request config options url pin)
        (network.after world own)).1 = .redirected target provenance) :
      Course 0 url world (own ++ [.request (request config options url pin)])
        (.failed .tooManyRedirects url provenance)
  | redirected {left : Nat} {url pin target : Bytes} {world : World} {own later : List Event}
      {provenance : Provenance} {response : Response}
      (asked : permit network options url world = ⟨.ok pin, own, network.after world own⟩)
      (reply : Hop.ofReply options url (network.exchange (request config options url pin)
        (network.after world own)).1 = .redirected target provenance)
      (rest : Course left target
        (network.after world (own ++ [.request (request config options url pin)])) later response) :
      Course (left + 1) url world (own ++ .request (request config options url pin) :: later)
        response

/-- A hop sends nothing to a refused URL, and one request to any other. -/
theorem hop_outcome (url : Bytes) (world : World) :
    (∃ failure own,
      permit network options url world = ⟨.error failure, own, network.after world own⟩ ∧
      hop network config options url world =
        ⟨.done (.failed failure url {}), own, network.after world own⟩) ∨
    (∃ pin own, permit network options url world = ⟨.ok pin, own, network.after world own⟩ ∧
      hop network config options url world =
        ⟨.ofReply options url (network.exchange (request config options url pin)
            (network.after world own)).1,
          own ++ [.request (request config options url pin)],
          network.after world (own ++ [.request (request config options url pin)])⟩) := by
  obtain ⟨-, behind⟩ := permit_asks network options url world
  cases asked : permit network options url world with
  | mk result own next =>
    rw [asked] at behind
    obtain rfl : next = network.after world own := behind
    cases result with
    | error failure =>
      refine .inl ⟨failure, own, rfl, ?_⟩
      simp [hop, asked, Run.andThen, Run.pure]
    | ok pin =>
      refine .inr ⟨pin, own, rfl, ?_⟩
      simp [hop, asked, Run.andThen, Run.pure, Network.send, Network.after_append, Network.after]

theorem follow_course (left : Nat) (url : Bytes) (world : World) :
    Course network config options left url world
      (follow network config options left url world).events
      (follow network config options left url world).result := by
  induction left generalizing url world with
  | zero =>
    rw [follow]
    rcases hop_outcome network config options url world with
      ⟨failure, own, asked, hopped⟩ | ⟨pin, own, asked, hopped⟩
    · simpa [hopped, Run.andThen, Run.pure] using Course.refused asked
    · simp only [hopped, Run.andThen]
      split
      · next reply => simpa [Run.pure] using Course.answered asked reply
      · next reply => simpa [Run.pure] using Course.exhausted asked reply
  | succ left ih =>
    rw [follow]
    rcases hop_outcome network config options url world with
      ⟨failure, own, asked, hopped⟩ | ⟨pin, own, asked, hopped⟩
    · simpa [hopped, Run.andThen, Run.pure] using Course.refused asked
    · simp only [hopped, Run.andThen]
      split
      · next reply => simpa [Run.pure] using Course.answered asked reply
      · next reply => simpa using Course.redirected asked reply (ih _ _)

end Fetch

theorem Config.valid_default : ({} : Config).Valid := by decide

namespace Reader

variable [Charset.Library] {World : Type} (reader : Reader) (network : Network World) (url : Bytes)
  (options : FetchOptions) (world : World)

theorem read_of_fault {fault : ConfigError} (refused : reader.relay? options = .error fault) :
    reader.read network url options world = .error fault := by
  simp only [read, refused]

theorem read_of_relayed {client : Relay.Client}
    (routed : reader.relay? options = .ok (some client)) :
    reader.read network url options world =
      .ok (readRelayed network client url options world) := by
  simp only [read, routed]

theorem read_of_direct (routed : reader.relay? options = .ok none) :
    reader.read network url options world = .ok (reader.readDirect network url options world) := by
  simp only [read, routed]

theorem readDirect_course :
    Fetch.Course network reader.config options reader.config.maxRedirects.toNat url world
      (reader.readDirect network url options world).events
      (reader.readDirect network url options world).result :=
  Fetch.follow_course network reader.config options _ url world

end Reader

end FeedIntake
