import FeedIntake.Proofs.Fetch.Chain
import FeedIntake.Proofs.Fetch.Confinement

/-!
The shape of a response, whichever way it came. Main statement: a response is a failure and nothing
else, or it holds the page of the last reply as it came: the status of the page's server and the
whole body, with a charset if there is a body, and with a family if it is a supported success.
-/
namespace FeedIntake

/-- A response that holds the body of a reply as it came: there is a charset if there is a body, and
a family if it is a supported success; a success that is not supported was asked for. -/
structure Response.Holds (options : FetchOptions) (response : Response) (reply : Reply) : Prop where
  content : response.content = reply.body
  contentType : response.provenance.contentType = reply.headers.value? "content-type"
  encoding : response.encoding.isSome ↔ response.content ≠ []
  feedType : response.feedType.isSome ↔ response.ok = true ∧ response.family?.isSome
  supported : response.ok = true → response.family? = none → options.allowAnyContent = true

/-- A failure has nothing but its status. -/
theorem Response.shape_of_outcome {response : Response} {answer : Prop}
    (outcome : (∃ failure url provenance, response = .failed failure url provenance) ∨
      0 ≤ response.status ∧ answer) :
    (response.status < 0 →
      response.content = [] ∧ response.encoding = none ∧ response.feedType = none) ∧
    (0 ≤ response.status → answer) := by
  rcases outcome with ⟨failure, url, provenance, rfl⟩ | ⟨answered, holds⟩
  · exact ⟨fun _ => ⟨rfl, rfl, rfl⟩,
      fun answered => absurd failure.code_neg (Int.not_lt.2 answered)⟩
  · exact ⟨fun negative => absurd negative (Int.not_lt.2 answered), fun _ => holds⟩

namespace Fetch

variable [Charset.Library] {config : Config} {options : FetchOptions}

theorem describe_holds (page : Response) (reply : Reply) (answered : 0 ≤ page.status)
    (content : page.content = reply.body)
    (contentType : page.provenance.contentType = reply.headers.value? "content-type") :
    (∃ failure url provenance, describe options page = .failed failure url provenance) ∨
    ((describe options page).status = page.status ∧
      (describe options page).Holds options reply) := by
  rcases describe_outcome options page with ⟨negative, -⟩ | ⟨-, -, -, refused⟩ | ⟨-, kept, same⟩
  · exact absurd negative (Int.not_lt.2 answered)
  · exact .inl ⟨_, _, _, refused⟩
  · rw [same]
    refine .inr ⟨rfl, content, contentType, ?_, ?_, kept⟩
    · cases body : page.content <;> simp [Response.described, body]
    · show (if page.ok then page.family?.map Family.name else none).isSome ↔
        page.ok = true ∧ page.family?.isSome
      cases ok : page.ok <;> simp

/-- A fetch ends in a failure, or with the page of its last reply. -/
theorem Chain.outcome {left : Nat} {url : Bytes} {exchanges : List Exchange} {response : Response}
    (chain : Chain config options left url exchanges response) :
    (∃ failure url provenance, response = .failed failure url provenance) ∨
    ∃ last ∈ exchanges.getLast?, last.reply.ending = .complete ∧
      response = describe options (last.reply.page last.request.url) := by
  induction chain with
  | refused => exact .inl ⟨_, _, _, rfl⟩
  | @answered left exchange response sent done =>
    rcases ofReply_done_cases _ _ _ _ done with ⟨-, rfl⟩ | ⟨failure, -, rfl⟩ | ⟨complete, rfl⟩
    · exact .inl ⟨_, _, _, rfl⟩
    · exact .inl ⟨_, _, _, rfl⟩
    · exact .inr ⟨exchange, rfl, complete, rfl⟩
  | exhausted => exact .inl ⟨_, _, _, rfl⟩
  | @redirected left exchange target exchanges response sent leads rest ih =>
    rcases ih with failed | ⟨last, isLast, complete, page⟩
    · exact .inl failed
    · refine .inr ⟨last, ?_, complete, page⟩
      cases exchanges with
      | nil => cases isLast
      | cons next rest => rwa [List.getLast?_cons_cons]

theorem Chain.viaRelay {left : Nat} {url : Bytes} {exchanges : List Exchange}
    {response : Response} (chain : Chain config options left url exchanges response) :
    response.provenance.viaRelay = false := by
  induction chain with
  | refused => rfl
  | answered _ done =>
    rcases ofReply_done_cases _ _ _ _ done with ⟨-, rfl⟩ | ⟨failure, -, rfl⟩ | ⟨-, rfl⟩
    · rfl
    · rfl
    · rw [describe_provenance]
      rfl
  | exhausted => rfl
  | redirected _ _ _ ih => exact ih

end Fetch

/-- What the last reply tells of the status of a page: its own status, or, if it is a relay's, the
one in its header. -/
def Reply.TellsStatus (reply : Reply) (relayed : Prop) (status : Int) : Prop :=
  (¬relayed ∧ reply.ending = .complete ∧ status = reply.status) ∨
  (relayed ∧ ∃ value, Relay.Tells reply value ∧ status = Relay.statusOf value)

namespace Reader

variable [Charset.Library] {World : Type} (network : Network World) (url : Bytes)
  (options : FetchOptions) (world : World)

theorem readDirect_outcome (reader : Reader)
    (counted : ∀ exchange ∈
      network.exchanges world (reader.readDirect network url options world).events,
      exchange.reply.ending = .complete → 0 ≤ exchange.reply.status) :
    let run := reader.readDirect network url options world
    (∃ failure url provenance, run.result = .failed failure url provenance) ∨
    0 ≤ run.result.status ∧ ∃ last ∈ (network.exchanges world run.events).getLast?,
      last.reply.ending = .complete ∧ run.result.status = last.reply.status ∧
      run.result.Holds options last.reply := by
  intro run
  have chain := (reader.readDirect_course network url options world).chain
  rcases chain.outcome with failed | ⟨last, isLast, complete, page⟩
  · exact .inl failed
  · have answered := counted last (List.mem_of_getLast? isLast) complete
    rcases Fetch.describe_holds (last.reply.page last.request.url) last.reply answered rfl rfl with
      failed | ⟨status, holds⟩
    · exact .inl (page ▸ failed)
    · have status : run.result.status = last.reply.status := page ▸ status
      exact .inr ⟨status ▸ answered, last, isLast, complete, status, page ▸ holds⟩

theorem readRelayed_outcome (client : Relay.Client) :
    let run := readRelayed network client url options world
    (∃ failure url provenance, run.result = .failed failure url provenance) ∨
    0 ≤ run.result.status ∧ ∃ last ∈ (network.exchanges world run.events).getLast?, ∃ value,
      Relay.Tells last.reply value ∧ run.result.status = Relay.statusOf value ∧
      run.result.Holds options last.reply := by
  intro run
  cases web : Url.isWeb url with
  | false =>
    refine .inl ⟨.unknown, url, { viaRelay := true }, ?_⟩
    simp [run, readRelayed, web, Run.pure]
  | true =>
    let request := client.request url (Fetch.headers options)
    let reply := (network.exchange request world).1
    have described : run.result = Fetch.describe options (Relay.interpret url reply) :=
      readRelayed_result network client url options world web
    have asked : network.exchanges world run.events = [⟨request, reply⟩] := by
      rw [readRelayed_events network client url options world web]
      rfl
    by_cases told : ∃ value, Relay.Tells reply value
    · obtain ⟨value, tells⟩ := told
      -- The page that the relay passes on, with the status from its header.
      rw [Relay.interpret_of_tells url reply value tells] at described
      rcases Fetch.describe_holds { status := Relay.statusOf value, url, content := reply.body,
                                    provenance := reply.provenance true } reply
          (Int.natCast_nonneg _) rfl rfl with failed | ⟨status, holds⟩
      · exact .inl (described ▸ failed)
      · have status : run.result.status = Relay.statusOf value := described ▸ status
        exact .inr ⟨status ▸ Int.natCast_nonneg _, ⟨request, reply⟩, by simp [asked], value, tells,
          status, described ▸ holds⟩
    · rw [Relay.interpret_of_not_tells url reply (not_exists.1 told),
        Fetch.describe_of_neg _ _ (Failure.code_neg _)] at described
      exact .inl ⟨_, _, _, described⟩

theorem readRelayed_viaRelay (client : Relay.Client) :
    (readRelayed network client url options world).result.provenance.viaRelay = true := by
  cases web : Url.isWeb url with
  | false => simp [readRelayed, web, Run.pure, Response.failed]
  | true =>
    rw [readRelayed_result network client url options world web, Fetch.describe_provenance]
    exact Relay.interpret_viaRelay _ _

/-- A read whose complete transfers have statuses, and no failures in their place. A negative status
comes with no content, no charset and no family. Any other is the one that the page's server
answered with, and comes with the whole body of the last transfer, with a charset exactly if that is
not empty, and with a family exactly if the page is a supported success; one that is not supported
was asked for. The response tells of a relay exactly if the read had to go to one. -/
theorem read_shape (reader : Reader) (run : Run World Response)
    (returned : reader.read network url options world = .ok run)
    (counted : ∀ exchange ∈ network.exchanges world run.events,
      exchange.reply.ending = .complete → 0 ≤ exchange.reply.status) :
    (run.result.status < 0 → run.result.content = [] ∧ run.result.encoding = none ∧
      run.result.feedType = none) ∧
    (0 ≤ run.result.status → ∃ last ∈ (network.exchanges world run.events).getLast?,
      last.reply.TellsStatus (reader.relayUrl? options ≠ none) run.result.status ∧
      run.result.Holds options last.reply) ∧
    (run.result.provenance.viaRelay = true ↔ reader.relayUrl? options ≠ none) := by
  rcases reader.relay?_cases options with
    ⟨direct, asked⟩ | ⟨-, fault, -, refused⟩ | ⟨-, client, relay, asked⟩
  · rw [reader.read_of_direct network url options world asked] at returned
    obtain rfl := Except.ok.inj returned
    have outcome := reader.readDirect_outcome network url options world counted
    have viaRelay := (reader.readDirect_course network url options world).chain.viaRelay
    refine and_assoc.1 ⟨Response.shape_of_outcome (outcome.imp_right ?_), ?_⟩
    · rintro ⟨answered, last, isLast, complete, status, holds⟩
      exact ⟨answered, last, isLast, .inl ⟨by simp [direct], complete, status⟩, holds⟩
    · simp [direct, viaRelay]
  · rw [reader.read_of_fault network url options world refused] at returned
    cases returned
  · rw [reader.read_of_relayed network url options world asked] at returned
    obtain rfl := Except.ok.inj returned
    have outcome := readRelayed_outcome network url options world client
    have viaRelay := readRelayed_viaRelay network url options world client
    refine and_assoc.1 ⟨Response.shape_of_outcome (outcome.imp_right ?_), ?_⟩
    · rintro ⟨answered, last, isLast, value, tells, status, holds⟩
      exact ⟨answered, last, isLast, .inr ⟨by simp [relay], value, tells, status⟩, holds⟩
    · simp [relay, viaRelay]

end Reader

namespace Fetch.Picture

def anyContent : FetchOptions := { relayOptions with allowAnyContent := true }

/-- The picture that a relay passes on is kept where any content is: it has no family. -/
theorem read_shape_picture :
    ∃ run, reader.read (Script.network fun _ => []) start anyContent [passedOn] = .ok run ∧
      (∀ exchange ∈ (Script.network fun _ => []).exchanges [passedOn] run.events,
        exchange.reply.ending = .complete → 0 ≤ exchange.reply.status) ∧
      run.result.status = 200 ∧ run.result.content = picture.body ∧
      run.result.encoding.isSome ∧ run.result.feedType = none ∧
      run.result.provenance.viaRelay = true := by
  let client : Relay.Client := ⟨Bytes.ofString "http://relay.example/", Bytes.ofString "token",
    reader.config.timeout, reader.config.maxContentLength⟩
  have returned : reader.read (Script.network fun _ => []) start anyContent [passedOn] =
      .ok (Reader.readRelayed (Script.network fun _ => []) client start anyContent [passedOn]) :=
    reader.read_of_relayed _ start anyContent [passedOn] (by decide +kernel)
  obtain ⟨-, held, relayed⟩ := Reader.read_shape (Script.network fun _ => []) start anyContent
    [passedOn] reader _ returned (by decide +kernel)
  obtain ⟨last, isLast, -, holds⟩ := held (by decide +kernel)
  obtain rfl : _ = last := Option.some.inj isLast
  refine ⟨_, returned, by decide +kernel, by decide +kernel, holds.content, ?_, ?_,
    relayed.2 (by decide +kernel)⟩
  · exact holds.encoding.2 (by decide +kernel)
  · have unsupported := mt holds.feedType.1 (by decide +kernel)
    simpa using unsupported

end Fetch.Picture

end FeedIntake
