import FeedIntake.Proofs.Fetch.Gate

/-!
Exchanges: requests with the replies to them, as the events of a fetch tell of them. An exchange
leads elsewhere, or its reply ends the fetch; `target?` says where to without the code that follows
it. A failure is found by the fetch itself if no transfer at its end tells of it.
-/
namespace FeedIntake

structure Exchange where
  request : Request
  reply : Reply
  deriving DecidableEq, Repr

/-- A transfer tells of a failure: by how it ended, or in the place of a status. -/
def Reply.Reports (reply : Reply) (failure : Failure) : Prop :=
  reply.ending = .failed failure ∨ reply.ending = .complete ∧ reply.status = failure.code

instance (reply : Reply) (failure : Failure) : Decidable (reply.Reports failure) :=
  inferInstanceAs (Decidable (_ ∨ _))

theorem Reply.not_reports (reply : Reply) (transferred : ∀ failure, reply.ending ≠ .failed failure)
    (answered : 0 ≤ reply.status) (failure : Failure) : ¬reply.Reports failure := by
  rintro (failed | ⟨-, status⟩)
  · exact transferred failure failed
  · exact absurd (status ▸ failure.code_neg) (Int.not_lt.2 answered)

namespace Network

variable {World : Type} (network : Network World)

/-- The exchanges that some events tell of. -/
def exchanges : World → List Event → List Exchange
  | _, [] => []
  | world, .lookup host :: rest => exchanges (network.lookup host world).2 rest
  | world, .request request :: rest =>
    ⟨request, (network.exchange request world).1⟩ ::
      exchanges (network.exchange request world).2 rest

variable (world : World)

theorem exchanges_append (first second : List Event) :
    network.exchanges world (first ++ second) =
      network.exchanges world first ++ network.exchanges (network.after world first) second := by
  induction first generalizing world with
  | nil => rfl
  | cons event rest ih => cases event <;> simp [exchanges, after, ih]

theorem exchanges_of_silent (events : List Event)
    (silent : ∀ request, .request request ∉ events) : network.exchanges world events = [] := by
  induction events generalizing world with
  | nil => rfl
  | cons event rest ih =>
    cases event with
    | lookup host => exact ih _ fun request member => silent request (by simp [member])
    | request request => exact absurd (by simp) (silent request)

theorem exchanges_hop {own : List Event} (silent : ∀ request, .request request ∉ own)
    (request : Request) (later : List Event) :
    network.exchanges world (own ++ .request request :: later) =
      ⟨request, (network.exchange request (network.after world own)).1⟩ ::
        network.exchanges (network.after world (own ++ [.request request])) later := by
  rw [exchanges_append, exchanges_of_silent network world own silent, after_append]
  rfl

theorem map_request_exchanges {Result : Type} (run : Run World Result) :
    (network.exchanges world run.events).map (·.request) = run.requests := by
  obtain ⟨result, events, next⟩ := run
  simp only [Run.requests]
  induction events generalizing world with
  | nil => rfl
  | cons event rest ih => cases event <;> simp [exchanges, ih]

end Network

/-- The page that a reply holds, as it came. -/
def Reply.page (reply : Reply) (url : Bytes) : Response where
  status := reply.status
  url := url
  content := reply.body
  provenance := reply.provenance false

namespace Fetch

variable [Charset.Library] (options : FetchOptions)

@[simp] theorem describe_url (page : Response) : (describe options page).url = page.url := by
  rcases describe_outcome options page with ⟨-, same⟩ | ⟨-, -, -, same⟩ | ⟨-, -, same⟩ <;>
    rw [same] <;> rfl

@[simp] theorem describe_provenance (page : Response) :
    (describe options page).provenance = page.provenance := by
  rcases describe_outcome options page with ⟨-, same⟩ | ⟨-, -, -, same⟩ | ⟨-, -, same⟩ <;>
    rw [same] <;> rfl

variable (url : Bytes) (reply : Reply) (response : Response)

/-- The replies that end a fetch: one that is not complete is a failure, and any other a page. -/
theorem ofReply_done_cases (done : Hop.ofReply options url reply = .done response) :
    (reply.ending = .rejected ∧
      response = .failed .unsupportedContentType url (reply.provenance false)) ∨
    (∃ failure, reply.ending = .failed failure ∧
      response = .failed failure url (reply.provenance false)) ∨
    (reply.ending = .complete ∧ response = describe options (reply.page url)) := by
  cases ending : reply.ending with
  | rejected =>
    rw [ofReply_rejected _ _ _ ending] at done
    exact .inl ⟨rfl, (Hop.done.inj done).symm⟩
  | failed failure =>
    rw [ofReply_failed _ _ _ _ ending] at done
    exact .inr (.inl ⟨failure, rfl, (Hop.done.inj done).symm⟩)
  | complete =>
    rw [ofReply_complete _ _ _ ending] at done
    split at done
    · cases done
    · exact .inr (.inr ⟨rfl, (Hop.done.inj done).symm⟩)

theorem url_of_done (done : Hop.ofReply options url reply = .done response) :
    response.url = url := by
  rcases ofReply_done_cases options url reply response done with
    ⟨-, rfl⟩ | ⟨failure, -, rfl⟩ | ⟨-, rfl⟩
  · rfl
  · rfl
  · simp [Reply.page]

/-- What ends a fetch as a failure is told of by the transfer, unless it is the kind of the
content. -/
theorem reports_of_done (failure : Failure) (other : failure ≠ .unsupportedContentType)
    (done : Hop.ofReply options url reply = .done response)
    (status : response.status = failure.code) : reply.Reports failure := by
  rcases ofReply_done_cases options url reply response done with
    ⟨-, rfl⟩ | ⟨reason, ending, rfl⟩ | ⟨ending, rfl⟩
  · have same : Failure.unsupportedContentType = failure := Failure.code_inj status
    exact absurd same.symm other
  · obtain rfl : reason = failure := Failure.code_inj status
    exact .inl ending
  · rcases describe_outcome options (reply.page url) with
      ⟨-, kept⟩ | ⟨-, -, -, refused⟩ | ⟨-, -, kept⟩
    · rw [kept] at status
      exact .inr ⟨ending, status⟩
    · rw [refused] at status
      have same : Failure.unsupportedContentType = failure := Failure.code_inj status
      exact absurd same.symm other
    · rw [kept] at status
      exact .inr ⟨ending, status⟩

end Fetch

namespace Exchange

/-- Where a fetch goes on after an exchange: at the location of a complete reply that has one of
five statuses. -/
def target? (exchange : Exchange) : Option Bytes :=
  if exchange.reply.ending = .complete ∧
      exchange.reply.status ∈ ([301, 302, 303, 307, 308] : List Int) then
    ((exchange.reply.headers.value? "location").filter (· ≠ [])).map
      (Url.normalize · exchange.request.url)
  else none

variable {exchange : Exchange} {target : Bytes}

theorem target?_eq_some_iff :
    exchange.target? = some target ↔
      exchange.reply.ending = .complete ∧
      exchange.reply.status ∈ ([301, 302, 303, 307, 308] : List Int) ∧
      ∃ location, exchange.reply.headers.value? "location" = some location ∧ location ≠ [] ∧
        target = Url.normalize location exchange.request.url := by
  rw [target?]
  split
  · next redirects =>
    simp only [redirects, true_and, Option.map_eq_some_iff, Option.filter_eq_some_iff,
      decide_eq_true_eq]
    constructor
    · rintro ⟨location, ⟨header, full⟩, rfl⟩
      exact ⟨location, header, full, rfl⟩
    · rintro ⟨location, header, full, rfl⟩
      exact ⟨location, ⟨header, full⟩, rfl⟩
  · next stays =>
    simp only [reduceCtorEq, false_iff]
    rintro ⟨complete, status, -⟩
    exact stays ⟨complete, status⟩

theorem not_reports_of_target? (leads : exchange.target? = some target) (failure : Failure) :
    ¬exchange.reply.Reports failure := by
  obtain ⟨complete, status, -⟩ := target?_eq_some_iff.1 leads
  simp only [List.mem_cons, List.not_mem_nil, or_false] at status
  exact exchange.reply.not_reports (by simp [complete]) (by omega) failure

variable [Charset.Library] (options : FetchOptions)

theorem ofReply_of_target? (leads : exchange.target? = some target) :
    Fetch.Hop.ofReply options exchange.request.url exchange.reply =
      .redirected target (exchange.reply.provenance false) := by
  obtain ⟨complete, status, location, header, full, rfl⟩ := target?_eq_some_iff.1 leads
  have redirects : Fetch.isRedirect exchange.reply.status = true := by
    simpa [Fetch.isRedirect] using status
  rw [Fetch.ofReply_complete _ _ _ complete, if_pos ⟨redirects, by simpa [header] using full⟩]
  simp [header]

theorem target?_of_ofReply_redirected (exchange : Exchange) {provenance : Provenance}
    (led : Fetch.Hop.ofReply options exchange.request.url exchange.reply =
      .redirected target provenance) :
    exchange.target? = some target ∧ provenance = exchange.reply.provenance false := by
  obtain ⟨complete, status, location⟩ := Fetch.ofReply_redirected _ _ _ _ _ led
  have leads : exchange.target? = some target :=
    target?_eq_some_iff.2 ⟨complete, by simpa [Fetch.isRedirect] using status, location⟩
  rw [ofReply_of_target? options leads] at led
  exact ⟨leads, (Fetch.Hop.redirected.inj led).2.symm⟩

theorem target?_of_ofReply_done {response : Response}
    (done : Fetch.Hop.ofReply options exchange.request.url exchange.reply = .done response) :
    exchange.target? = none := by
  cases leads : exchange.target? with
  | none => rfl
  | some target =>
    rw [ofReply_of_target? options leads] at done
    cases done

end Exchange

namespace Fetch

/-- A response is a failure that the fetch found by itself: no transfer at its end tells of it. -/
def Finds (exchanges : List Exchange) (response : Response) (failure : Failure) : Prop :=
  response.status = failure.code ∧
    ∀ last ∈ exchanges.getLast?, ¬last.reply.Reports failure

instance (exchanges : List Exchange) (response : Response) (failure : Failure) :
    Decidable (Finds exchanges response failure) :=
  inferInstanceAs (Decidable (_ ∧ _))

theorem finds_cons_iff {exchange : Exchange} {target : Bytes}
    (leads : exchange.target? = some target) (rest : List Exchange) (response : Response)
    (failure : Failure) :
    Finds (exchange :: rest) response failure ↔ Finds rest response failure := by
  -- The last exchange is the same one unless nothing follows, and then it tells of no failure.
  cases rest with
  | nil => simp [Finds, Exchange.not_reports_of_target? leads failure]
  | cons next rest => simp [Finds, List.getLast?_cons_cons]

end Fetch

end FeedIntake
