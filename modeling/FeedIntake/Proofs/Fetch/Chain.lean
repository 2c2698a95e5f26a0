import Mathlib.Data.List.Chain
import FeedIntake.Proofs.Config.Quantity
import FeedIntake.Proofs.Fetch.Exchange

/-!
The chain of exchanges of a direct fetch: each of them but the last redirects to the URL of the next
one. `Chain` forgets what was looked up and keeps requests, replies and the response. Main
statement: a fetch sends at most one request more than redirects may be followed, each to where the
reply before it led; its response names the URL that came up last; and it stops for too many
redirects exactly if every reply redirected and no more may be followed.
-/
namespace FeedIntake

namespace Fetch

/-- The URLs that come up in a fetch: the first one, and those at which it goes on as long as
redirects may be followed. -/
def considered (limit : Nat) (url : Bytes) (exchanges : List Exchange) : List Bytes :=
  url :: (exchanges.take limit).filterMap Exchange.target?

theorem considered_succ_cons {exchange : Exchange} {target : Bytes}
    (leads : exchange.target? = some target) (limit : Nat) (url : Bytes) (rest : List Exchange) :
    considered (limit + 1) url (exchange :: rest) = url :: considered limit target rest := by
  simp [considered, leads]

section

variable [Charset.Library] (config : Config) (options : FetchOptions)

/-- The exchanges and the response of a fetch from a URL on, with so many redirects left. -/
inductive Chain : Nat → Bytes → List Exchange → Response → Prop where
  | refused {left : Nat} {url : Bytes} {failure : Failure}
      (reason : failure = .unknown ∨ failure = .nameResolution ∨ failure = .privateAddress) :
      Chain left url [] (.failed failure url {})
  | answered {left : Nat} {exchange : Exchange} {response : Response}
      (sent : exchange.request = request config options exchange.request.url exchange.request.pin)
      (done : Hop.ofReply options exchange.request.url exchange.reply = .done response) :
      Chain left exchange.request.url [exchange] response
  | exhausted {exchange : Exchange} {target : Bytes}
      (sent : exchange.request = request config options exchange.request.url exchange.request.pin)
      (leads : exchange.target? = some target) :
      Chain 0 exchange.request.url [exchange]
        (.failed .tooManyRedirects exchange.request.url (exchange.reply.provenance false))
  | redirected {left : Nat} {exchange : Exchange} {target : Bytes} {exchanges : List Exchange}
      {response : Response}
      (sent : exchange.request = request config options exchange.request.url exchange.request.pin)
      (leads : exchange.target? = some target) (rest : Chain left target exchanges response) :
      Chain (left + 1) exchange.request.url (exchange :: exchanges) response

end

variable [Charset.Library] {config : Config} {options : FetchOptions}

theorem Course.chain {World : Type} {network : Network World} {left : Nat} {url : Bytes}
    {world : World} {events : List Event} {response : Response}
    (course : Course network config options left url world events response) :
    Chain config options left url (network.exchanges world events) response := by
  induction course with
  | @refused left url world own failure asked =>
    have reason := permit_error network options url world failure (by rw [asked])
    rw [network.exchanges_of_silent world own (silent_of_permit asked)]
    exact .refused reason
  | @answered left url pin world own response asked reply =>
    rw [network.exchanges_hop world (silent_of_permit asked)]
    exact @Chain.answered _ _ _ _ ⟨request config options url pin, _⟩ _ rfl reply
  | @exhausted url pin target world own provenance asked reply =>
    rw [network.exchanges_hop world (silent_of_permit asked)]
    obtain ⟨leads, rfl⟩ := Exchange.target?_of_ofReply_redirected options
      ⟨request config options url pin, _⟩ reply
    exact .exhausted rfl leads
  | @redirected left url pin target world own later provenance response asked reply rest ih =>
    rw [network.exchanges_hop world (silent_of_permit asked)]
    obtain ⟨leads, -⟩ := Exchange.target?_of_ofReply_redirected options
      ⟨request config options url pin, _⟩ reply
    exact @Chain.redirected _ _ _ _ ⟨request config options url pin, _⟩ _ _ _ rfl leads ih

namespace Chain

variable {left : Nat} {url : Bytes} {exchanges : List Exchange} {response : Response}
  (chain : Chain config options left url exchanges response)
include chain

theorem length_le : exchanges.length ≤ left + 1 := by
  induction chain with
  | refused => exact Nat.zero_le _
  | answered => exact Nat.succ_le_succ (Nat.zero_le _)
  | exhausted => exact Nat.le_refl _
  | redirected _ _ _ ih => exact Nat.succ_le_succ ih

theorem sent (exchange : Exchange) (member : exchange ∈ exchanges) :
    exchange.request = request config options exchange.request.url exchange.request.pin := by
  induction chain with
  | refused => cases member
  | answered sent | exhausted sent =>
    obtain rfl := List.mem_singleton.1 member
    exact sent
  | redirected sent _ _ ih =>
    rcases List.mem_cons.1 member with rfl | member
    · exact sent
    · exact ih member

theorem head_url (first : Exchange) (isHead : exchanges.head? = some first) :
    first.request.url = url := by
  cases chain with
  | refused => cases isHead
  | answered | exhausted | redirected => rw [Option.some.inj isHead]

/-- Each request behind another goes to where the reply to that one led. -/
theorem isChain :
    exchanges.IsChain fun exchange next => exchange.target? = some next.request.url := by
  induction chain with
  | refused => exact .nil
  | answered | exhausted => exact .singleton _
  | redirected _ leads rest ih =>
    refine List.isChain_cons.2 ⟨fun next isHead => ?_, ih⟩
    rw [rest.head_url next isHead]
    exact leads

theorem getLast?_considered :
    (considered left url exchanges).getLast? = some response.url := by
  induction chain with
  | refused => simp [considered, Response.failed]
  | @answered left exchange response sent done =>
    -- The limit may be 0 here, which cuts off what the only reply has to say anyway.
    have stays := exchange.target?_of_ofReply_done options done
    have url := url_of_done options exchange.request.url exchange.reply response done
    cases left <;> simp [considered, stays, url]
  | exhausted => simp [considered, Response.failed]
  | redirected _ leads rest ih =>
    rw [considered_succ_cons leads, ← ih]
    simp [considered, List.getLast?_cons_cons]

/-- Requests go to the URLs that come up, except to a last one that is refused. -/
theorem considered_eq :
    considered left url exchanges = exchanges.map (·.request.url) ∨
    considered left url exchanges = exchanges.map (·.request.url) ++ [response.url] ∧
      ∃ failure, (failure = .unknown ∨ failure = .nameResolution ∨ failure = .privateAddress) ∧
        response = .failed failure response.url {} := by
  induction chain with
  | refused reason => exact .inr ⟨by simp [considered, Response.failed], _, reason, rfl⟩
  | @answered left exchange response sent done =>
    have stays := exchange.target?_of_ofReply_done options done
    exact .inl (by cases left <;> simp [considered, stays])
  | exhausted => exact .inl rfl
  | redirected _ leads _ ih =>
    rw [considered_succ_cons leads]
    rcases ih with same | ⟨more, refused⟩
    · exact .inl (by rw [same]; rfl)
    · exact .inr ⟨by rw [more]; rfl, refused⟩

/-- The fetch itself finds that there are too many redirects exactly if every reply redirected and
none of them may be followed any more. -/
theorem finds_tooManyRedirects_iff :
    Finds exchanges response .tooManyRedirects ↔
      exchanges.length = left + 1 ∧ ∀ exchange ∈ exchanges, exchange.target?.isSome := by
  induction chain with
  | @refused left url failure reason =>
    constructor
    · rintro ⟨status, -⟩
      have same : failure = .tooManyRedirects := Failure.code_inj status
      simp [same] at reason
    · rintro ⟨length, -⟩
      simp at length
  | @answered left exchange response sent done =>
    constructor
    · rintro ⟨status, untold⟩
      exact absurd (reports_of_done options _ _ _ _ (by decide) done status) (untold _ rfl)
    · rintro ⟨-, lead⟩
      have leads := lead exchange (by simp)
      simp [exchange.target?_of_ofReply_done options done] at leads
  | @exhausted exchange target sent leads =>
    constructor
    · rintro -
      exact ⟨rfl, by simp [leads]⟩
    · rintro -
      refine ⟨rfl, fun last isLast => ?_⟩
      obtain rfl := Option.some.inj isLast
      exact Exchange.not_reports_of_target? leads _
  | redirected _ leads _ ih =>
    -- A reply that redirects tells of no failure, so the rest of the fetch decides.
    rw [finds_cons_iff leads, ih]
    simp [leads]

end Chain

end Fetch

theorem Reader.maxRedirects_nonneg (reader : Reader) : 0 ≤ reader.config.maxRedirects :=
  (reader.config.bounds_of_valid reader.valid).2.2.1

/-- A direct fetch sends at most one request more than redirects may be followed. All of them ask
for the same in the same way; the first goes to the URL of the fetch, and each other to where the
reply before it led. The response names the URL that came up last, whether a request went there or
it was refused. Where no transfer tells of too many redirects, the response does exactly if there
are as many requests as there may be and the reply to each redirects. -/
theorem Reader.read_follows_chain [Charset.Library] {World : Type} (reader : Reader)
    (network : Network World) (url : Bytes) (options : FetchOptions) (world : World)
    (direct : reader.relay? options = .ok none) :
    ∃ (run : Run World Response) (limit : Nat),
      reader.read network url options world = .ok run ∧ reader.config.maxRedirects = limit ∧
      (network.exchanges world run.events).map (·.request) = run.requests ∧
      run.requests.length ≤ limit + 1 ∧
      (∀ request ∈ run.requests, request.method = Bytes.ofString "GET" ∧ request.body = [] ∧
        request.headers = Fetch.headers options ∧ request.timeout = reader.config.timeout ∧
        request.bodyLimit = reader.config.maxContentLength) ∧
      (∀ first, run.requests.head? = some first → first.url = url) ∧
      ((network.exchanges world run.events).IsChain fun exchange next =>
        exchange.reply.ending = .complete ∧
        exchange.reply.status ∈ ([301, 302, 303, 307, 308] : List Int) ∧
        ∃ location, exchange.reply.headers.value? "location" = some location ∧ location ≠ [] ∧
          next.request.url = Url.normalize location exchange.request.url) ∧
      (Fetch.considered limit url (network.exchanges world run.events)).getLast? =
        some run.result.url ∧
      (Fetch.considered limit url (network.exchanges world run.events) =
          run.requests.map (·.url) ∨
        Fetch.considered limit url (network.exchanges world run.events) =
            run.requests.map (·.url) ++ [run.result.url] ∧
          ∃ failure, (failure = .unknown ∨ failure = .nameResolution ∨
              failure = .privateAddress) ∧
            run.result = .failed failure run.result.url {}) ∧
      (Fetch.Finds (network.exchanges world run.events) run.result .tooManyRedirects ↔
        run.requests.length = limit + 1 ∧
          ∀ exchange ∈ network.exchanges world run.events, exchange.target?.isSome) := by
  obtain ⟨limit, bound⟩ := Int.eq_ofNat_of_zero_le reader.maxRedirects_nonneg
  let run := reader.readDirect network url options world
  have chain : Fetch.Chain reader.config options reader.config.maxRedirects.toNat url
      (network.exchanges world run.events) run.result :=
    (reader.readDirect_course network url options world).chain
  rw [bound, Int.toNat_natCast] at chain
  have sent := network.map_request_exchanges world run
  have urls : run.requests.map (·.url) =
      (network.exchanges world run.events).map (·.request.url) := by
    rw [← sent, List.map_map]
    rfl
  refine ⟨run, limit, reader.read_of_direct network url options world direct, bound, sent,
    ?_, ?_, ?_, ?_, chain.getLast?_considered, ?_, ?_⟩
  · rw [← sent, List.length_map]
    exact chain.length_le
  · intro request member
    rw [← sent] at member
    obtain ⟨exchange, isSent, rfl⟩ := List.mem_map.1 member
    rw [chain.sent exchange isSent]
    exact ⟨rfl, rfl, rfl, rfl, rfl⟩
  · intro first isHead
    rw [← sent, List.head?_map] at isHead
    obtain ⟨exchange, isFirst, rfl⟩ := Option.map_eq_some_iff.1 isHead
    exact chain.head_url exchange isFirst
  · exact chain.isChain.imp fun exchange next leads => Exchange.target?_eq_some_iff.1 leads
  · rw [urls]
    exact chain.considered_eq
  · rw [← sent, List.length_map]
    exact chain.finds_tooManyRedirects_iff

namespace Fetch.Loop

/-- A server that sends every request on to the same page, for ever. -/
def network : Network Unit where
  exchange _ world :=
    (⟨302, [(Bytes.ofString "location", Bytes.ofString "/again")], [], .complete⟩, world)
  lookup _ world := ([], world)

def reader : Reader := { config := { maxRedirects := 2 } }

def start : Bytes := Bytes.ofString "http://a.example/"

def options : FetchOptions := { allowPrivate := true }

/-- Two redirects are followed, and the third is one too many. -/
theorem read_follows_chain_loop :
    reader.relay? options = .ok none ∧
    ∃ run, reader.read network start options () = .ok run ∧
      run.requests.map (·.url) =
        ["http://a.example/", "http://a.example/again", "http://a.example/again"].map
          Bytes.ofString ∧
      Finds (network.exchanges () run.events) run.result .tooManyRedirects := by
  refine ⟨rfl, ?_⟩
  obtain ⟨run, limit, same, bound, -, -, -, -, -, -, -, exactly⟩ :=
    reader.read_follows_chain network start options () rfl
  obtain rfl : limit = 2 := (Int.ofNat.inj bound).symm
  obtain rfl : reader.readDirect network start options () = run := Except.ok.inj same
  exact ⟨_, same, by decide +kernel, exactly.2 ⟨by decide +kernel, by decide +kernel⟩⟩

end Fetch.Loop

end FeedIntake
