import FeedIntake.Fetch.Script
import FeedIntake.Proofs.Fetch.Admission
import FeedIntake.Proofs.Fetch.Course

/-!
What a direct fetch asks of the network while addresses that are not public are refused. `Guarded`
describes the events hop by hop: a hop is admitted and sends one request, or is refused and ends the
fetch. Main statement: every direct fetch is guarded, however servers and the resolver answer.
-/
namespace FeedIntake

namespace Fetch

variable {World : Type} (network : Network World)

/-- A URL whose host has been found to be public, with what was asked of the network to find that
out, and the pin for the request. -/
inductive Admitted (url : Bytes) (world : World) : List Event → Bytes → Prop where
  /-- The host is a public address: nothing is looked up and nothing is pinned. -/
  | literal {endpoint : Url.Endpoint} (web : Url.isWeb url = true)
      (named : Url.Endpoint.ofText? url = some endpoint)
      (literal : Address.isText endpoint.host = true)
      (isPublic : Address.isNonPublicText endpoint.host = false) : Admitted url world [] []
  /-- The host is a name: it is looked up once, all its addresses are public, and the first of them
  is pinned. -/
  | resolved {endpoint : Url.Endpoint} {first : Bytes} {others : List Bytes}
      (web : Url.isWeb url = true) (named : Url.Endpoint.ofText? url = some endpoint)
      (name : Address.isText endpoint.host = false)
      (answer : (network.lookup endpoint.host world).1 = first :: others)
      (arePublic : ∀ address ∈ first :: others, Address.isNonPublicText address = false) :
      Admitted url world [.lookup endpoint.host] (Admission.pinText endpoint first)

/-- A URL to which nothing may be sent, with what was asked of the network to find that out. -/
inductive Refused (url : Bytes) (world : World) : List Event → Prop where
  | invalid (invalid : Url.isWeb url = false) : Refused url world []
  | literal {endpoint : Url.Endpoint} (named : Url.Endpoint.ofText? url = some endpoint)
      (literal : Address.isText endpoint.host = true)
      (nonPublic : Address.isNonPublicText endpoint.host = true) : Refused url world []
  | resolved {endpoint : Url.Endpoint} (named : Url.Endpoint.ofText? url = some endpoint)
      (name : Address.isText endpoint.host = false)
      (bad : (network.lookup endpoint.host world).1 = [] ∨
        ∃ address ∈ (network.lookup endpoint.host world).1,
          Address.isNonPublicText address = true) :
      Refused url world [.lookup endpoint.host]

variable {network}

theorem Refused.not_admitted {url : Bytes} {world : World} {own seen : List Event} {pin : Bytes}
    (refused : Refused network url world own) : ¬Admitted network url world seen pin := by
  intro admitted
  cases admitted with
  | literal web named literal isPublic =>
    cases refused with
    | invalid invalid => simp [web] at invalid
    | literal named' _ nonPublic => simp_all
    | resolved named' name _ => simp_all
  | resolved web named name answer arePublic =>
    cases refused with
    | invalid invalid => simp [web] at invalid
    | literal named' literal _ => simp_all
    | resolved named' _ bad =>
      obtain rfl := Option.some.inj (named.symm.trans named')
      rcases bad with none | ⟨address, member, nonPublic⟩
      · simp [none] at answer
      · simp [arePublic address (answer ▸ member)] at nonPublic

theorem Admitted.request_not_mem {url : Bytes} {world : World} {own : List Event} {pin : Bytes}
    (admitted : Admitted network url world own pin) (request : Request) :
    .request request ∉ own := by
  cases admitted <;> simp

theorem Refused.request_not_mem {url : Bytes} {world : World} {own : List Event}
    (refused : Refused network url world own) (request : Request) : .request request ∉ own := by
  cases refused <;> simp

variable (network)

/-- The events of a fetch from a URL on: each hop but the last sends one request to an admitted URL
and is redirected by the reply, and the last one either does so too or is refused. -/
inductive Guarded : Bytes → World → List Event → Prop where
  | refused {url : Bytes} {world : World} {own : List Event}
      (refused : Refused network url world own) : Guarded url world own
  | last (request : Request) {world : World} {own : List Event}
      (admitted : Admitted network request.url world own request.pin) :
      Guarded request.url world (own ++ [.request request])
  | redirected (request : Request) {world : World} {own later : List Event} {location : Bytes}
      (admitted : Admitted network request.url world own request.pin)
      (status : isRedirect
        (network.exchange request (network.after world own)).1.status = true)
      (header : (network.exchange request (network.after world own)).1.headers.value? "location" =
        some location)
      (rest : Guarded (Url.normalize location request.url)
        (network.after world (own ++ [.request request])) later) :
      Guarded request.url world (own ++ .request request :: later)

/-- Each request goes to a URL that was admitted by what was asked since the request before it. -/
theorem Guarded.admitted {url : Bytes} {world : World} {events : List Event}
    (guarded : Guarded network url world events) (earlier : List Event) (request : Request)
    (later : List Event) (split : events = earlier ++ .request request :: later) :
    ∃ before own, earlier = before ++ own ∧
      (before = [] ∨ ∃ front previous, before = front ++ [.request previous]) ∧
      Admitted network request.url (network.after world before) own request.pin := by
  induction guarded generalizing earlier with
  | refused refused =>
    exact absurd (by simp [split]) (refused.request_not_mem request)
  | last hop admitted =>
    rcases request_split (admitted.request_not_mem request) split with
      ⟨rfl, rfl⟩ | ⟨between, -, behind⟩
    · exact ⟨[], _, rfl, .inl rfl, admitted⟩
    · simp at behind
  | @redirected hop world own _ _ admitted _ _ _ ih =>
    rcases request_split (admitted.request_not_mem request) split with
      ⟨rfl, rfl⟩ | ⟨between, rfl, behind⟩
    · exact ⟨[], _, rfl, .inl rfl, admitted⟩
    · obtain ⟨before, own', rfl, ends, admitted'⟩ := ih between behind
      refine ⟨own ++ .request hop :: before, own', by simp, .inr ?_, ?_⟩
      · rcases ends with rfl | ⟨front, previous, rfl⟩
        · exact ⟨own, hop, rfl⟩
        · exact ⟨own ++ .request hop :: front, previous, by simp⟩
      · simpa [Network.after_append, Network.after] using admitted'

variable (config : Config) (options : FetchOptions) (url : Bytes) (world : World)

theorem permit_of_check (restricted : options.allowPrivate = false)
    (web : Url.isWeb url = true) (verdict : Verdict) (own : List Event) (next : World)
    (checked : Admission.check network url world = ⟨verdict, own, next⟩) :
    permit network options url world = ⟨match verdict with
      | .invalidUrl => .error .unknown
      | .unresolved _ _ => .error .nameResolution
      | .nonPublic _ _ _ => .error .privateAddress
      | .allowed _ _ _ => .ok verdict.pin, own, next⟩ := by
  cases verdict <;> simp [permit, web, restricted, checked, Run.andThen, Run.pure]

/-- A URL is admitted with its pin, or refused; the network behind is that behind the events. -/
theorem permit_cases (restricted : options.allowPrivate = false) :
    (∃ pin own, Admitted network url world own pin ∧
      permit network options url world = ⟨.ok pin, own, network.after world own⟩) ∨
    (∃ failure own, Refused network url world own ∧
      permit network options url world = ⟨.error failure, own, network.after world own⟩) := by
  cases web : Url.isWeb url with
  | false =>
    refine .inr ⟨.unknown, [], .invalid web, ?_⟩
    simp [permit, web, Run.pure, Network.after]
  | true =>
    have decided := permit_of_check network options url world restricted web
    obtain ⟨endpoint, named, scheme⟩ := Url.exists_endpoint_of_isWeb url web
    cases literal : Address.isText endpoint.host with
    | true =>
      have checked := Admission.check_literal network url world endpoint named scheme literal
      rcases Admission.judge_cases endpoint.host endpoint.port [endpoint.host] with
        ⟨none, -⟩ | ⟨address, member, nonPublic, judged⟩ | ⟨first, others, -, arePublic, judged⟩
      · cases none
      · obtain rfl := List.mem_singleton.1 member
        rw [judged] at checked
        exact .inr ⟨_, _, .literal named literal nonPublic, decided _ _ _ checked⟩
      · rw [judged] at checked
        refine .inl ⟨_, _, .literal web named literal (arePublic _ (by simp)), ?_⟩
        rw [decided _ _ _ checked, Admission.pin_allowed_literal _ _ _ literal]
        rfl
    | false =>
      have checked := Admission.check_name network url world endpoint named scheme literal
      rcases Admission.judge_cases endpoint.host endpoint.port
          (network.lookup endpoint.host world).1 with
        ⟨none, judged⟩ | ⟨address, member, nonPublic, judged⟩ |
          ⟨first, others, answer, arePublic, judged⟩
      · rw [judged] at checked
        exact .inr ⟨_, _, .resolved named literal (.inl none), decided _ _ _ checked⟩
      · rw [judged] at checked
        exact .inr ⟨_, _, .resolved named literal (.inr ⟨address, member, nonPublic⟩),
          decided _ _ _ checked⟩
      · rw [judged] at checked
        refine .inl ⟨_, _, .resolved web named literal answer (answer ▸ arePublic), ?_⟩
        rw [decided _ _ _ checked, Admission.pin_allowed_name _ _ literal]
        rfl

variable {network options} in
theorem admitted_of_permit (restricted : options.allowPrivate = false) {url pin : Bytes}
    {world next : World} {own : List Event}
    (asked : permit network options url world = ⟨.ok pin, own, next⟩) :
    Admitted network url world own pin := by
  rcases permit_cases network options url world restricted with
    ⟨pin, own, admitted, permitted⟩ | ⟨failure, own, -, permitted⟩
  · rw [permitted] at asked
    cases asked
    exact admitted
  · rw [permitted] at asked
    cases asked

variable {network options} in
theorem refused_of_permit (restricted : options.allowPrivate = false) {url : Bytes}
    {world next : World} {own : List Event} {failure : Failure}
    (asked : permit network options url world = ⟨.error failure, own, next⟩) :
    Refused network url world own := by
  rcases permit_cases network options url world restricted with
    ⟨pin, own, -, permitted⟩ | ⟨failure, own, refused, permitted⟩
  · rw [permitted] at asked
    cases asked
  · rw [permitted] at asked
    cases asked
    exact refused

variable [Charset.Library]

/-- While only public addresses are admitted, the first URL that is refused ends the course. -/
theorem Course.guarded (restricted : options.allowPrivate = false) {left : Nat} {url : Bytes}
    {world : World} {events : List Event} {response : Response}
    (course : Course network config options left url world events response) :
    Guarded network url world events := by
  induction course with
  | refused asked => exact .refused (refused_of_permit restricted asked)
  | @answered _ url pin _ _ _ asked reply =>
    exact .last (request config options url pin) (admitted_of_permit restricted asked)
  | @exhausted url pin _ _ _ _ asked reply =>
    exact .last (request config options url pin) (admitted_of_permit restricted asked)
  | @redirected _ url pin _ _ _ _ _ _ asked reply rest ih =>
    obtain ⟨-, status, location, header, -, rfl⟩ := ofReply_redirected _ _ _ _ _ reply
    exact .redirected (request config options url pin) (admitted_of_permit restricted asked)
      status header ih

theorem follow_guarded (restricted : options.allowPrivate = false) (left : Nat) :
    Guarded network url world (follow network config options left url world).events :=
  Course.guarded network config options restricted
    (follow_course network config options left url world)

end Fetch

/-- A direct fetch that is kept to public addresses sends each request to an admitted URL and asks
for nothing behind the first URL that is refused. -/
theorem Reader.read_guarded [Charset.Library] {World : Type} (reader : Reader)
    (network : Network World) (url : Bytes) (options : FetchOptions) (world : World)
    (direct : reader.relay? options = .ok none) (restricted : options.allowPrivate = false) :
    ∃ run, reader.read network url options world = .ok run ∧
      Fetch.Guarded network url world run.events ∧
      (∀ url world own seen pin, Fetch.Refused network url world own →
        ¬Fetch.Admitted network url world seen pin) ∧
      (∀ earlier request later, run.events = earlier ++ .request request :: later →
        ∃ before own, earlier = before ++ own ∧
          (before = [] ∨ ∃ front previous, before = front ++ [.request previous]) ∧
          Fetch.Admitted network request.url (network.after world before) own request.pin) ∧
      (∀ text address, Address.ofText? text = some (.v6 address) →
        Admission.bracketed text = [Mark.openBracket] ++ text ++ [Mark.closeBracket]) ∧
      (∀ text address, 0 ∉ text → Address.ofText? text = some (.v4 address) →
        Admission.bracketed text = text) := by
  have guarded := Fetch.follow_guarded network reader.config options url world restricted
    reader.config.maxRedirects.toNat
  refine ⟨reader.readDirect network url options world, by simp [read, direct], guarded, ?_, ?_, ?_⟩
  · intro url world own seen pin refused
    exact refused.not_admitted
  · exact Fetch.Guarded.admitted network guarded
  · exact ⟨Admission.bracketed_v6, Admission.bracketed_v4⟩

namespace Fetch.Crossing

/-- Two names with public addresses, and all others with one address that is not public. -/
def addresses (host : Bytes) : List Bytes :=
  if host = Bytes.ofString "a.example" then [Bytes.ofString "93.184.216.34"]
  else if host = Bytes.ofString "b.example" then
    [Bytes.ofString "2606:4700:4700::1111", Bytes.ofString "8.8.8.8"]
  else [Bytes.ofString "8.8.8.8", Bytes.ofString "10.0.0.5"]

/-- Two redirects, the second of them to a name that is refused, and a page behind them. -/
def answers : List Script.Answer := [
  { status := 301,
    headers := [(Bytes.ofString "location", Bytes.ofString "//b.example:8080/feed")] },
  { status := 302, headers := [(Bytes.ofString "location", Bytes.ofString "http://c.example/")] },
  { status := 200, body := Bytes.ofString "<rss>" }]

def start : Bytes := Bytes.ofString "http://a.example/"

def reader : Reader := { config := {}, valid := Config.valid_default }

/-- The third hop looks its host up and sends nothing. -/
theorem read_guarded_crossing :
    reader.relay? {} = .ok none ∧ ({} : FetchOptions).allowPrivate = false ∧
    ∃ run, reader.read (Script.network addresses) start {} answers = .ok run ∧
      Guarded (Script.network addresses) start answers run.events ∧
      run.lookups = ["a.example", "b.example", "c.example"].map Bytes.ofString ∧
      run.requests.map (·.pin) = ["a.example:80:93.184.216.34",
        "b.example:8080:[2606:4700:4700::1111]"].map Bytes.ofString := by
  refine ⟨rfl, rfl, ?_⟩
  obtain ⟨run, same, guarded, -⟩ :=
    reader.read_guarded (Script.network addresses) start {} answers rfl rfl
  refine ⟨run, same, guarded, ?_⟩
  obtain rfl : reader.readDirect (Script.network addresses) start {} answers = run :=
    Except.ok.inj same
  exact ⟨by decide +kernel, by decide +kernel⟩

end Fetch.Crossing

end FeedIntake
