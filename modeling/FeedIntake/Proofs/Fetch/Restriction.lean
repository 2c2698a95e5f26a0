import FeedIntake.Proofs.Fetch.Chain
import FeedIntake.Proofs.Fetch.Hops
import FeedIntake.Proofs.Fetch.Routes

/-!
What it changes to refuse addresses and content. The same fetch is run twice against servers that
cannot tell the two runs apart: once as asked for, and once with all addresses and all content
allowed. Main statement: the restricted run asks the servers for the same and only stops earlier;
where it is not itself the one that refuses something, both runs come to the same response.
-/
namespace FeedIntake

/-- A request without its pin and without a look at the body. -/
def Request.bare (request : Request) : Request := { request with pin := [], gated := false }

/-- The same fetch with all addresses and all content allowed. -/
def FetchOptions.unrestricted (options : FetchOptions) : FetchOptions :=
  { options with allowPrivate := true, allowAnyContent := true }

/-- A transfer that would have failed later on, but was given up before, since the beginning of the
body was not accepted. -/
structure Script.Answer.Preempted (answer : Script.Answer) (request : Request) (reply : Reply) :
    Prop where
  gated : request.gated = true
  fails : answer.failure.isSome = true
  rejected : reply.ending = .rejected

/-- Servers that know of a request only what it asks for. What they answer, and what state they are
in afterwards, depends neither on the pin of a request nor on a look at the body, which can only end
a transfer earlier, and looking up names does not change them; the resolver may do as it likes. -/
structure Network.Oblivious {World : Type} (network : Network World) (Servers : Type) where
  servers : World → Servers
  answer : Request → Servers → Script.Answer
  next : Request → Servers → Servers
  honoured : ∀ request world,
    (answer request.bare (servers world)).Honoured request (network.exchange request world).1 ∨
      (answer request.bare (servers world)).Preempted request (network.exchange request world).1
  servers_exchange : ∀ request world,
    servers (network.exchange request world).2 = next request.bare (servers world)
  servers_lookup : ∀ host world, servers (network.lookup host world).2 = servers world

/-- The answers of a list are given whatever is asked. -/
def Script.oblivious (addresses : Bytes → List Bytes) :
    (Script.network addresses).Oblivious (List Script.Answer) where
  servers answers := answers
  answer _ answers := Script.next answers
  next _ answers := answers.tail
  honoured request answers := .inl (Script.honoured_network addresses request answers)
  servers_exchange _ answers := by cases answers <;> rfl
  servers_lookup _ _ := rfl

theorem Network.Oblivious.servers_after {World Servers : Type} {network : Network World}
    (oblivious : network.Oblivious Servers) (world : World) (events : List Event)
    (silent : ∀ request, .request request ∉ events) :
    oblivious.servers (network.after world events) = oblivious.servers world := by
  induction events generalizing world with
  | nil => rfl
  | cons event rest ih =>
    cases event with
    | lookup host =>
      rw [after, ih _ fun request member => silent request (by simp [member]),
        oblivious.servers_lookup]
    | request request => exact absurd (by simp) (silent request)

namespace Fetch

variable {World Servers : Type} {network : Network World} {config : Config}
  {options : FetchOptions}

theorem permit_unrestricted (url : Bytes) (world : World) :
    permit network options.unrestricted url world =
      ⟨if Url.isWeb url then .ok [] else .error .unknown, [], world⟩ := by
  cases web : Url.isWeb url <;> simp [permit, FetchOptions.unrestricted, web, Run.pure]

theorem isWeb_of_permit_unknown (url : Bytes) (world : World)
    (refused : (permit network options url world).result = .error .unknown) :
    Url.isWeb url = false := by
  cases web : Url.isWeb url with
  | false => rfl
  | true =>
    cases free : options.allowPrivate with
    | true => simp [permit, web, free, Run.pure] at refused
    | false =>
      have known := Admission.check_ne_invalidUrl network url world web
      cases checked : Admission.check network url world with
      | mk verdict own next =>
        rw [permit_of_check network options url world free web verdict own next checked] at refused
        rw [checked] at known
        cases verdict <;> simp_all

variable [Charset.Library]

theorem hop_unrestricted (url : Bytes) (world : World) (web : Url.isWeb url = true) :
    hop network config options.unrestricted url world =
      ⟨.ofReply options.unrestricted url
          (network.exchange (request config options.unrestricted url []) world).1,
        [.request (request config options.unrestricted url [])],
        (network.exchange (request config options.unrestricted url []) world).2⟩ := by
  simp [hop, permit_unrestricted, web, Run.andThen, Network.send, Run.pure]

variable (options) in
theorem describe_unrestricted (page : Response) :
    describe options page = describe options.unrestricted page ∨
    (page.ok = true ∧
      describe options page = .failed .unsupportedContentType page.url page.provenance) := by
  rcases describe_outcome options page with
    ⟨negative, same⟩ | ⟨ok, -, -, refused⟩ | ⟨positive, -, same⟩
  · rw [same, describe_of_neg _ _ negative]
    exact .inl rfl
  · exact .inr ⟨ok, refused⟩
  · rcases describe_outcome options.unrestricted page with
      ⟨negative, -⟩ | ⟨-, strict, -, -⟩ | ⟨-, -, same'⟩
    · exact absurd negative (Int.not_lt.2 positive)
    · cases strict
    · exact .inl (same.trans same'.symm)

omit [Charset.Library] in
/-- The transfer of a success tells of no failure, whether its content is accepted or not. -/
theorem not_reports_of_isSuccess {request : Request} {answer : Script.Answer} {reply : Reply}
    (honoured : answer.Honoured request reply) (whole : answer.failure = none)
    (success : Response.isSuccess answer.status = true) (failure : Failure) :
    ¬reply.Reports failure := by
  simp only [Response.isSuccess, Bool.and_eq_true, decide_eq_true_eq] at success
  refine reply.not_reports (fun reason => ?_) (by rw [honoured.status]; omega) failure
  by_cases closed : answer.gate? request = some false
  · simp [honoured.rejected closed]
  · simp [(honoured.complete whole closed).1]

/-- What two replies come to in both runs: the same, unless the restricted run refuses the content,
of which the transfer does not tell. -/
def Hop.Restricts (options : FetchOptions) (url : Bytes) (reply reply' : Reply) : Prop :=
  Hop.ofReply options url reply = Hop.ofReply options.unrestricted url reply' ∨
  ∃ response response', Hop.ofReply options url reply = .done response ∧
    Hop.ofReply options.unrestricted url reply' = .done response' ∧
    response.status = Failure.unsupportedContentType.code ∧
    ¬reply.Reports .unsupportedContentType

theorem ofReply_restricts {url pin pin' : Bytes} {answer : Script.Answer} {reply reply' : Reply}
    (honoured : answer.Honoured (request config options url pin) reply ∨
      answer.Preempted (request config options url pin) reply)
    (honoured' : answer.Honoured (request config options.unrestricted url pin') reply') :
    Hop.Restricts options url reply reply' := by
  rw [Hop.Restricts]
  rcases honoured with honoured | preempted
  case inr =>
    obtain ⟨failure, fails⟩ := Option.isSome_iff_exists.1 preempted.fails
    refine .inr ⟨_, _, ofReply_rejected _ _ _ preempted.rejected,
      ofReply_failed _ _ _ _ (honoured'.failed _ fails), rfl, ?_⟩
    simp [Reply.Reports, preempted.rejected]
  cases failure : answer.failure with
  | some reason =>
    left
    rw [ofReply_failed _ _ _ _ (honoured.failed _ failure),
      ofReply_failed _ _ _ _ (honoured'.failed _ failure)]
    simp [Reply.provenance, honoured.headers, honoured'.headers]
  | none =>
    -- Both come to what the whole answer comes to, with or without the early look at it.
    rw [ofReply_honoured honoured failure, ofReply_honoured honoured' failure,
      ofReply_complete _ _ _ rfl, ofReply_complete _ _ _ rfl]
    split
    · exact .inl rfl
    · rcases describe_unrestricted options (Reply.page
          ⟨answer.status, answer.headers, answer.body, .complete⟩ url) with same | ⟨ok, refused⟩
      · exact .inl (congrArg Hop.done same)
      · exact .inr ⟨_, _, rfl, rfl, congrArg Response.status refused,
          not_reports_of_isSuccess honoured failure ok _⟩

/-- What is asked of the servers, without what only the network is told. -/
def demands (exchanges : List Exchange) : List Request := exchanges.map (·.request.bare)

/-- What the restricted run can refuse, and the other run does not. -/
def refusals : List Failure := [.nameResolution, .privateAddress, .unsupportedContentType]

/-- The exchanges and the response of a run against those of an unrestricted one: the same demands
and the same response, or the first of the demands and a refusal. -/
def Restricts (exchanges exchanges' : List Exchange) (response response' : Response) : Prop :=
  (demands exchanges = demands exchanges' ∧ response = response') ∨
  (demands exchanges <+: demands exchanges' ∧
    ∃ failure ∈ refusals, Finds exchanges response failure)

omit [Charset.Library] in
theorem Restricts.cons {exchange exchange' : Exchange} {target : Bytes}
    (leads : exchange.target? = some target) (same : exchange.request.bare = exchange'.request.bare)
    {rest rest' : List Exchange} {response response' : Response}
    (restricts : Restricts rest rest' response response') :
    Restricts (exchange :: rest) (exchange' :: rest') response response' := by
  rcases restricts with ⟨agree, result⟩ | ⟨first, failure, member, finds⟩
  · exact .inl ⟨by simpa [demands, same] using agree, result⟩
  · exact .inr ⟨by simpa [demands, same] using first, failure, member,
      (finds_cons_iff leads _ _ _).2 finds⟩

omit [Charset.Library] in
theorem Restricts.requests {world : World} {run free : Run World Response}
    (restricts : Restricts (network.exchanges world run.events)
      (network.exchanges world free.events) run.result free.result) :
    run.requests.map Request.bare <+: free.requests.map Request.bare ∧
      ((∀ failure ∈ refusals,
          ¬Finds (network.exchanges world run.events) run.result failure) →
        run.requests.length = free.requests.length ∧ run.result = free.result) := by
  have demanded (run : Run World Response) :
      demands (network.exchanges world run.events) = run.requests.map Request.bare := by
    rw [← network.map_request_exchanges world run, List.map_map]
    rfl
  rcases restricts with ⟨agree, same⟩ | ⟨first, failure, member, finds⟩
  · rw [demanded, demanded] at agree
    refine ⟨agree ▸ List.prefix_refl _, fun _ => ⟨?_, same⟩⟩
    simpa using congrArg List.length agree
  · rw [demanded, demanded] at first
    exact ⟨first, fun none => absurd finds (none failure member)⟩

variable (config) in
/-- A permitted hop in both runs: what its replies come to, and the servers behind it. -/
theorem hop_restricts (oblivious : network.Oblivious Servers) {url pin : Bytes}
    {world world' : World} {own : List Event}
    (asked : permit network options url world = ⟨.ok pin, own, network.after world own⟩)
    (same : oblivious.servers world' = oblivious.servers world) :
    Hop.Restricts options url
        (network.exchange (request config options url pin) (network.after world own)).1
        (network.exchange (request config options.unrestricted url []) world').1 ∧
      oblivious.servers (network.exchange (request config options.unrestricted url []) world').2 =
        oblivious.servers
          (network.after world (own ++ [.request (request config options url pin)])) := by
  have beside := same.trans (oblivious.servers_after world own (silent_of_permit asked)).symm
  have honoured := oblivious.honoured (request config options url pin) (network.after world own)
  have honoured' :=
    (oblivious.honoured (request config options.unrestricted url []) world').resolve_right
      fun preempted => nomatch preempted.gated
  rw [beside] at honoured'
  refine ⟨ofReply_restricts honoured honoured', ?_⟩
  rw [oblivious.servers_exchange, network.after_append, beside]
  exact (oblivious.servers_exchange (request config options url pin) _).symm

section Unrestricted

variable {left : Nat} {url : Bytes} {world : World}

theorem follow_unrestricted_of_not_isWeb (noPage : Url.isWeb url = false) :
    follow network config options.unrestricted left url world =
      ⟨.failed .unknown url {}, [], world⟩ := by
  cases left <;> simp [follow, hop, permit_unrestricted, noPage, Run.andThen, Run.pure]

variable (web : Url.isWeb url = true)
include web

theorem follow_unrestricted_of_done {response : Response}
    (done : Hop.ofReply options.unrestricted url
      (network.exchange (request config options.unrestricted url []) world).1 = .done response) :
    follow network config options.unrestricted left url world =
      ⟨response, [.request (request config options.unrestricted url [])],
        (network.exchange (request config options.unrestricted url []) world).2⟩ := by
  rw [follow]
  simp [hop_unrestricted url world web, Run.andThen, Run.pure, done]

variable {target : Bytes} {provenance : Provenance}
  (led : Hop.ofReply options.unrestricted url
    (network.exchange (request config options.unrestricted url []) world).1 =
      .redirected target provenance)
include led

theorem follow_unrestricted_of_exhausted :
    follow network config options.unrestricted 0 url world =
      ⟨.failed .tooManyRedirects url provenance,
        [.request (request config options.unrestricted url [])],
        (network.exchange (request config options.unrestricted url []) world).2⟩ := by
  rw [follow]
  simp [hop_unrestricted url world web, Run.andThen, Run.pure, led]

theorem follow_unrestricted_of_redirected :
    follow network config options.unrestricted (left + 1) url world =
      let rest := follow network config options.unrestricted left target
        (network.exchange (request config options.unrestricted url []) world).2
      ⟨rest.result, .request (request config options.unrestricted url []) :: rest.events,
        rest.world⟩ := by
  rw [follow]
  simp [hop_unrestricted url world web, Run.andThen, led]

end Unrestricted

/-- By induction on the restricted course, with the other run one hop at a time beside it. -/
theorem Course.restricts (oblivious : network.Oblivious Servers) {left : Nat} {url : Bytes}
    {world : World} {events : List Event} {response : Response}
    (course : Course network config options left url world events response) (world' : World)
    (same : oblivious.servers world' = oblivious.servers world) :
    Restricts (network.exchanges world events)
      (network.exchanges world' (follow network config options.unrestricted left url world').events)
      response (follow network config options.unrestricted left url world').result := by
  induction course generalizing world' with
  | @refused left url world own failure asked =>
    rw [network.exchanges_of_silent world own (silent_of_permit asked)]
    rcases permit_error network options url world failure (by rw [asked]) with rfl | guarded
    · rw [follow_unrestricted_of_not_isWeb (isWeb_of_permit_unknown url world (by rw [asked]))]
      exact .inl ⟨rfl, rfl⟩
    · -- The guard of the restricted run, which the other run does not have.
      have refusal : failure ∈ refusals := by rcases guarded with rfl | rfl <;> decide
      exact .inr ⟨List.nil_prefix, failure, refusal, rfl, by simp⟩
  | @answered left url pin world own response asked reply =>
    have web := isWeb_of_permit network options url world pin (by rw [asked])
    rw [network.exchanges_hop world (silent_of_permit asked)]
    rcases (hop_restricts config oblivious asked same).1 with
      agree | ⟨_, response', done, done', status, untold⟩
    · rw [follow_unrestricted_of_done web (agree.symm.trans reply)]
      exact .inl ⟨rfl, rfl⟩
    · obtain rfl := Hop.done.inj (reply.symm.trans done)
      rw [follow_unrestricted_of_done web done']
      refine .inr ⟨List.prefix_refl _, .unsupportedContentType, by decide, status, ?_⟩
      intro last isLast
      obtain rfl := Option.some.inj isLast
      exact untold
  | @exhausted url pin target world own provenance asked reply =>
    have web := isWeb_of_permit network options url world pin (by rw [asked])
    rw [network.exchanges_hop world (silent_of_permit asked)]
    rcases (hop_restricts config oblivious asked same).1 with agree | ⟨_, _, done, -⟩
    · rw [follow_unrestricted_of_exhausted web (agree.symm.trans reply)]
      exact .inl ⟨rfl, rfl⟩
    · cases reply.symm.trans done
  | @redirected left url pin target world own later provenance response asked reply rest ih =>
    have web := isWeb_of_permit network options url world pin (by rw [asked])
    obtain ⟨alike, behind⟩ := hop_restricts config oblivious asked same
    rw [network.exchanges_hop world (silent_of_permit asked)]
    rcases alike with agree | ⟨_, _, done, -⟩
    · obtain ⟨leads, -⟩ := Exchange.target?_of_ofReply_redirected options
        ⟨request config options url pin, _⟩ reply
      rw [follow_unrestricted_of_redirected web (agree.symm.trans reply)]
      exact Restricts.cons leads rfl (ih _ behind)
    · cases reply.symm.trans done

omit [Charset.Library] in
theorem lookups_eq_nil_iff {Result : Type} (run : Run World Result) :
    run.lookups = [] ↔ ∀ host, .lookup host ∉ run.events := by
  simp only [Run.lookups, List.filterMap_eq_nil_iff]
  constructor
  · intro none host member
    cases none _ member
  · intro none event member
    cases event with
    | lookup host => exact absurd member (none host)
    | request request => rfl

/-- Where no address is refused, no name is looked up. -/
theorem Course.lookup_not_mem {left : Nat} {url : Bytes} {world : World} {events : List Event}
    {response : Response} (free : options.allowPrivate = true)
    (course : Course network config options left url world events response) (host : Bytes) :
    .lookup host ∉ events := by
  have quiet {url : Bytes} {world next : World} {own : List Event} {result : Except Failure Bytes}
      (asked : permit network options url world = ⟨result, own, next⟩) : own = [] := by
    have events : (permit network options url world).events = [] := by
      cases web : Url.isWeb url <;> simp [permit, free, web, Run.pure]
    rwa [asked] at events
  induction course with
  | refused asked => simp [quiet asked]
  | answered asked | exhausted asked => simp [quiet asked]
  | redirected asked _ _ ih => simp [quiet asked, ih]

end Fetch

/-- Behind a relay only the kind of the content can be refused. -/
theorem Reader.readRelayed_restricts [Charset.Library] {World : Type} (network : Network World)
    (client : Relay.Client) (url : Bytes) (options : FetchOptions) (world : World) :
    Fetch.Restricts
      (network.exchanges world (readRelayed network client url options world).events)
      (network.exchanges world (readRelayed network client url options.unrestricted world).events)
      (readRelayed network client url options world).result
      (readRelayed network client url options.unrestricted world).result := by
  cases web : Url.isWeb url with
  | false =>
    simp only [readRelayed, web]
    exact .inl ⟨rfl, rfl⟩
  | true =>
    rw [readRelayed_result network client url options world web,
      readRelayed_result network client url options.unrestricted world web,
      readRelayed_events network client url options world web,
      readRelayed_events network client url options.unrestricted world web]
    rcases Fetch.describe_unrestricted options (Relay.interpret url (network.exchange
        (client.request url (Fetch.headers options)) world).1) with same | ⟨ok, refused⟩
    · exact .inl ⟨rfl, same⟩
    · have answered := Response.nonneg_of_ok _ ok
      obtain ⟨value, tells⟩ := (Relay.interpret_nonneg_iff _ _).1 answered
      refine .inr ⟨List.prefix_refl _, .unsupportedContentType, by decide, ?_, ?_⟩
      · rw [refused]
        rfl
      · intro last isLast
        obtain rfl := Option.some.inj isLast
        exact Reply.not_reports _ tells.transferred (by rw [tells.content]; decide) _

/-- Two reads of one URL from servers that cannot tell them apart: as asked for, and with all
addresses and all content allowed. What the first asks of the servers is where the second begins.
Unless the first found by itself that a host has no address or one that is not public, or that
content is not supported, the second asks for no more and gives the same response. The second never
looks up a name. -/
theorem Reader.read_restricts [Charset.Library] {World Servers : Type} (reader : Reader)
    (network : Network World) (oblivious : network.Oblivious Servers) (url : Bytes)
    (options : FetchOptions) (world : World) :
    (∃ fault, reader.read network url options world = .error fault ∧
      reader.read network url options.unrestricted world = .error fault) ∨
    ∃ run free, reader.read network url options world = .ok run ∧
      reader.read network url options.unrestricted world = .ok free ∧
      run.requests.map Request.bare <+: free.requests.map Request.bare ∧
      free.lookups = [] ∧
      ((∀ failure ∈ [.nameResolution, .privateAddress, .unsupportedContentType],
          ¬Fetch.Finds (network.exchanges world run.events) run.result failure) →
        run.requests.length = free.requests.length ∧ run.result = free.result) := by
  have route : reader.relay? options.unrestricted = reader.relay? options := rfl
  cases routed : reader.relay? options with
  | error fault =>
    exact .inl ⟨fault, reader.read_of_fault network url options world routed,
      reader.read_of_fault network url options.unrestricted world (route.trans routed)⟩
  | ok client? =>
    right
    cases client? with
    | some client =>
      obtain ⟨first, same⟩ := (readRelayed_restricts network client url options world).requests
      refine ⟨_, _, reader.read_of_relayed network url options world routed,
        reader.read_of_relayed network url options.unrestricted world (route.trans routed),
        first, ?_, same⟩
      rw [Fetch.lookups_eq_nil_iff]
      cases web : Url.isWeb url with
      | false => simp [readRelayed, web, Run.pure]
      | true => simp [readRelayed_events network client url options.unrestricted world web]
    | none =>
      have course := reader.readDirect_course network url options world
      have free := reader.readDirect_course network url options.unrestricted world
      obtain ⟨first, same⟩ := (course.restricts oblivious world rfl).requests
      refine ⟨_, _, reader.read_of_direct network url options world routed,
        reader.read_of_direct network url options.unrestricted world (route.trans routed),
        first, ?_, same⟩
      exact (Fetch.lookups_eq_nil_iff _).2 fun host => free.lookup_not_mem rfl host

namespace Fetch.Crossing

/-- The restricted run stops in front of the third request, which the other run makes. -/
theorem read_restricts_crossing :
    ∃ run free, reader.read (Script.network addresses) start {} answers = .ok run ∧
      reader.read (Script.network addresses) start ({} : FetchOptions).unrestricted answers =
        .ok free ∧
      run.requests.map Request.bare <+: free.requests.map Request.bare ∧
      run.requests.length = 2 ∧ free.requests.length = 3 ∧ free.lookups = [] ∧
      Finds ((Script.network addresses).exchanges answers run.events) run.result
        .privateAddress := by
  rcases reader.read_restricts (Script.network addresses) (Script.oblivious addresses) start {}
      answers with ⟨fault, refused, -⟩ | ⟨run, free, same, same', first, quiet, -⟩
  · cases refused
  · refine ⟨run, free, same, same', first, ?_⟩
    obtain rfl : reader.readDirect (Script.network addresses) start {} answers = run :=
      Except.ok.inj same
    obtain rfl : reader.readDirect (Script.network addresses) start
      ({} : FetchOptions).unrestricted answers = free := Except.ok.inj same'
    exact ⟨by decide +kernel, by decide +kernel, quiet, by decide +kernel⟩

end Fetch.Crossing

end FeedIntake
