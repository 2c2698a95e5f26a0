import FeedIntake.Fetch.Script
import FeedIntake.Proofs.Fetch.Course

/-!
The look at the beginning of a body against the look at all of it. A body is classified by its first
bytes, so what the early look accepts the late one does not refuse. Main statement: a direct fetch
ends as unsupported exactly if the early look at the last reply refused it, or if the transfer
itself told so.
-/
namespace FeedIntake

namespace Family

variable {k : Nat} (enough : sniffLimit ≤ k) (body : Bytes)
include enough

theorem take_sniffLimit_take : (body.take k).take sniffLimit = body.take sniffLimit := by
  rw [List.take_take, Nat.min_eq_left enough]

theorem sniff?_take : sniff? (body.take k) = sniff? body := by
  rw [sniff?, sniff?, headOf, headOf, take_sniffLimit_take enough]

/-- Nothing behind the first bytes of a body has a say in its family. -/
theorem classify?_take (contentType : Option Bytes) (url : Bytes) :
    classify? contentType (body.take k) url = classify? contentType body url := by
  have some : k ≠ 0 := by
    intro none
    subst none
    contradiction
  have isEmpty : (body.take k).isEmpty = body.isEmpty := by
    cases body <;> cases k <;> simp_all
  rw [classify?, classify?, sniff?_take enough, isEmpty, take_sniffLimit_take enough]

end Family

namespace Failure

theorem code_inj {first second : Failure} (same : first.code = second.code) : first = second := by
  have found := ofCode?_code first
  rw [same, ofCode?_code] at found
  exact (Option.some.inj found).symm

end Failure

namespace Script.Answer

/-- A transfer as a reply tells of it: the beginning of its body was looked at if the request asked
for that and the transfer did not fail, and it went on exactly if that was accepted. -/
structure Honoured (answer : Answer) (request : Request) (reply : Reply) : Prop where
  status : reply.status = answer.status
  headers : reply.headers = answer.headers
  failed : ∀ failure, answer.failure = some failure → reply.ending = .failed failure
  rejected : answer.gate? request = some false → reply.ending = .rejected
  complete : answer.failure = none → answer.gate? request ≠ some false →
    reply.ending = .complete ∧ reply.body = answer.body

/-- The transfer itself tells of a failure: by how it ended, or in the place of a status. -/
def Reports (answer : Answer) (failure : Failure) : Prop :=
  answer.failure = some failure ∨ answer.failure = none ∧ answer.status = failure.code

variable (answer : Answer) (request : Request)

variable {answer request} in
theorem Honoured.eq_whole {reply : Reply} (honoured : answer.Honoured request reply)
    (whole : answer.failure = none) (opened : answer.gate? request ≠ some false) :
    reply = ⟨answer.status, answer.headers, answer.body, .complete⟩ := by
  obtain ⟨ending, body⟩ := honoured.complete whole opened
  rw [← honoured.status, ← honoured.headers, ← body, ← ending]

theorem honoured_reply : answer.Honoured request (answer.reply request) := by
  cases failure : answer.failure with
  | some failure =>
    constructor <;> simp [reply, gate?, failure]
  | none =>
    by_cases rejected : answer.gate? request = some false <;>
      constructor <;> simp [reply, failure, rejected]

end Script.Answer

namespace Response

theorem nonneg_of_ok (page : Response) (ok : page.ok = true) : 0 ≤ page.status := by
  simp only [Response.ok, isSuccess, Bool.and_eq_true, decide_eq_true_eq] at ok
  omega

/-- The family of the documents that a page belongs to, if it is supported. -/
def family? (page : Response) : Option Family :=
  Family.classify? page.provenance.contentType page.content page.url

variable [Charset.Library] in
/-- A page with what there is to say of its content: its family if it is a success, and its charset
if it is not empty. -/
def described (page : Response) : Response :=
  { page with
    feedType := if page.ok then page.family?.map Family.name else none
    encoding :=
      if page.content.isEmpty then none
      else some (Charset.detect (page.provenance.contentType.bind Label.ofContentType?)
        page.content) }

end Response

namespace Fetch

variable (options : FetchOptions)

theorem isRedirect_of_isSuccess (status : Int) (success : Response.isSuccess status = true) :
    isRedirect status = false := by
  simp only [Response.isSuccess, Bool.and_eq_true, decide_eq_true_eq] at success
  simp only [isRedirect, List.contains_eq_mem, List.mem_cons, List.not_mem_nil, or_false,
    decide_eq_false_iff_not]
  omega

section Descriptions

variable [Charset.Library]

theorem describe_of_neg (response : Response) (negative : response.status < 0) :
    describe options response = response := by
  rw [describe, if_pos negative]

theorem describe_of_unsupported (response : Response) (success : response.ok = true)
    (strict : options.allowAnyContent = false)
    (family : Family.classify? response.provenance.contentType response.content response.url =
      none) :
    describe options response =
      .failed .unsupportedContentType response.url response.provenance := by
  have positive : ¬ response.status < 0 := by
    simp only [Response.ok, Response.isSuccess, Bool.and_eq_true, decide_eq_true_eq] at success
    omega
  simp [describe, positive, success, family, strict]

/-- A page is a failure, or it is refused for its content, or it is kept and described. -/
theorem describe_outcome (page : Response) :
    (page.status < 0 ∧ describe options page = page) ∨
    (page.ok = true ∧ options.allowAnyContent = false ∧ page.family? = none ∧
      describe options page = .failed .unsupportedContentType page.url page.provenance) ∨
    (0 ≤ page.status ∧
      (page.ok = true → page.family? = none → options.allowAnyContent = true) ∧
      describe options page = page.described) := by
  by_cases negative : page.status < 0
  · exact .inl ⟨negative, describe_of_neg options page negative⟩
  · have positive : 0 ≤ page.status := Int.not_lt.1 negative
    cases ok : page.ok with
    | false =>
      refine .inr (.inr ⟨positive, by simp, ?_⟩)
      simp [describe, Response.described, negative, ok]
    | true =>
      cases family : page.family? with
      | none =>
        cases strict : options.allowAnyContent with
        | false =>
          exact .inr (.inl ⟨rfl, rfl, rfl, describe_of_unsupported options page ok strict family⟩)
        | true =>
          refine .inr (.inr ⟨positive, by simp, ?_⟩)
          rw [Response.family?] at family
          simp [describe, Response.described, Response.family?, negative, ok, family, strict]
      | some family' =>
        refine .inr (.inr ⟨positive, by simp, ?_⟩)
        rw [Response.family?] at family
        simp [describe, Response.described, Response.family?, negative, ok, family]

end Descriptions

section Replies

variable {options} {config : Config} {url pin : Bytes} {answer : Script.Answer}

/-- The early look refuses what the late one would refuse. -/
theorem gate?_eq_false_iff :
    answer.gate? (request config options url pin) = some false ↔
      answer.failure = none ∧ options.allowAnyContent = false ∧
      Response.isSuccess answer.status = true ∧
      Family.classify? (answer.headers.value? "content-type") answer.body url = none := by
  have late := Family.classify?_take (Nat.le_refl Family.sniffLimit) answer.body
    (answer.headers.value? "content-type") url
  cases failure : answer.failure with
  | some failure => simp [Script.Answer.gate?, failure]
  | none => simp [Script.Answer.gate?, failure, request, Request.accepts, late]

variable [Charset.Library] {reply : Reply}
  (honoured : answer.Honoured (request config options url pin) reply)
include honoured

/-- With the early look a transfer comes to what it would come to without. -/
theorem ofReply_honoured (whole : answer.failure = none) :
    Hop.ofReply options url reply =
      Hop.ofReply options url ⟨answer.status, answer.headers, answer.body, .complete⟩ := by
  by_cases closed : answer.gate? (request config options url pin) = some false
  · obtain ⟨-, strict, success, family⟩ := gate?_eq_false_iff.1 closed
    have still := isRedirect_of_isSuccess answer.status success
    have refused := describe_of_unsupported options
      { status := answer.status, url, content := answer.body,
        provenance := reply.provenance false } success strict (by
          simpa [Reply.provenance, honoured.headers] using family)
    rw [ofReply_rejected _ _ _ (honoured.rejected closed), ofReply_complete _ _ _ rfl,
      if_neg (by simp [still])]
    simpa [Reply.provenance, honoured.headers] using refused.symm
  · rw [honoured.eq_whole whole closed]

/-- What the early look refuses, and what is told of as unsupported, ends a fetch as unsupported. -/
theorem ofReply_of_refused
    (refused : answer.gate? (request config options url pin) = some false ∨
      answer.Reports .unsupportedContentType) :
    ∃ response, Hop.ofReply options url reply = .done response ∧
      response.status = Failure.unsupportedContentType.code := by
  rcases refused with closed | failed | ⟨whole, status⟩
  · exact ⟨_, ofReply_rejected _ _ _ (honoured.rejected closed), rfl⟩
  · exact ⟨_, ofReply_failed _ _ _ _ (honoured.failed _ failed), rfl⟩
  · have still : isRedirect answer.status = false := by
      rw [status]
      decide
    have negative : answer.status < 0 := by
      rw [status]
      exact Failure.code_neg _
    rw [ofReply_honoured honoured whole, ofReply_complete _ _ _ rfl, if_neg (by simp [still]),
      describe_of_neg _ _ negative]
    exact ⟨_, rfl, status⟩

/-- A transfer that does not fail and leads nowhere else keeps its status, unless the early look
refuses it. -/
theorem status_of_done (whole : answer.failure = none) {response : Response}
    (done : Hop.ofReply options url reply = .done response) :
    answer.gate? (request config options url pin) = some false ∨
      response.status = answer.status := by
  rw [ofReply_honoured honoured whole, ofReply_complete _ _ _ rfl] at done
  split at done
  · cases done
  · obtain rfl := Hop.done.inj done
    rcases describe_outcome options
        { status := answer.status, url, content := answer.body,
          provenance := Reply.provenance ⟨answer.status, answer.headers, answer.body, .complete⟩
            false } with
      ⟨-, same⟩ | ⟨success, strict, family, -⟩ | ⟨-, -, same⟩
    · exact .inr (by rw [same])
    · exact .inl (gate?_eq_false_iff.2 ⟨whole, strict, success, family⟩)
    · exact .inr (by rw [same]; rfl)

theorem refused_of_done {response : Response}
    (done : Hop.ofReply options url reply = .done response)
    (unsupported : response.status = Failure.unsupportedContentType.code) :
    answer.gate? (request config options url pin) = some false ∨
      answer.Reports .unsupportedContentType := by
  cases failure : answer.failure with
  | some reason =>
    rw [ofReply_failed _ _ _ _ (honoured.failed _ failure)] at done
    obtain rfl := Hop.done.inj done
    obtain rfl : reason = .unsupportedContentType := Failure.code_inj unsupported
    exact .inr (.inl failure)
  | none =>
    rcases status_of_done honoured failure done with closed | status
    · exact .inl closed
    · exact .inr (.inr ⟨failure, status.symm.trans unsupported⟩)

end Replies

/-- A request that is the last of some events, with the events in front of it. -/
def LastRequest (events earlier : List Event) (request : Request) : Prop :=
  ∃ later, events = earlier ++ .request request :: later ∧ ∀ other, .request other ∉ later

theorem lastRequest_singleton_iff {own earlier : List Event} {sent last : Request}
    (silent : ∀ request, .request request ∉ own) :
    LastRequest (own ++ [.request sent]) earlier last ↔ earlier = own ∧ last = sent := by
  constructor
  · rintro ⟨later, split, -⟩
    rcases request_split (silent last) split with ⟨rfl, rfl⟩ | ⟨between, -, behind⟩
    · exact ⟨rfl, rfl⟩
    · simp at behind
  · rintro ⟨rfl, rfl⟩
    exact ⟨[], rfl, by simp⟩

theorem lastRequest_cons {own later earlier : List Event} {sent last : Request}
    (silent : ∀ request, .request request ∉ own) :
    LastRequest (own ++ .request sent :: later) earlier last ↔
      (∃ between, earlier = own ++ .request sent :: between ∧ LastRequest later between last) ∨
      (earlier = own ∧ last = sent ∧ ∀ other, .request other ∉ later) := by
  constructor
  · rintro ⟨behind, split, quiet⟩
    rcases request_split (silent last) split with ⟨rfl, rfl⟩ | ⟨between, rfl, rest⟩
    · simp only [List.append_cancel_left_eq, List.cons.injEq, true_and] at split
      subst split
      exact .inr ⟨rfl, rfl, quiet⟩
    · exact .inl ⟨between, rfl, behind, rest, quiet⟩
  · rintro (⟨between, rfl, behind, rfl, quiet⟩ | ⟨rfl, rfl, quiet⟩)
    · exact ⟨behind, by simp, quiet⟩
    · exact ⟨later, rfl, quiet⟩

/-- By induction on the course: a hop that passes a fetch on has not been refused, and neither have
those that send nothing. -/
theorem Course.unsupported_iff [Charset.Library] {World : Type} {network : Network World}
    {answer : Request → World → Script.Answer}
    (honoured : ∀ request world,
      (answer request world).Honoured request (network.exchange request world).1)
    {config : Config} {options : FetchOptions} {left : Nat} {url : Bytes} {world : World}
    {events : List Event} {response : Response}
    (course : Course network config options left url world events response) :
    response.status = Failure.unsupportedContentType.code ↔
      ∃ earlier request, LastRequest events earlier request ∧
        ((answer request (network.after world earlier)).gate? request = some false ∨
          (answer request (network.after world earlier)).Reports .unsupportedContentType) := by
  induction course with
  | @refused _ url world own failure asked =>
    have reason := permit_error network options url world failure
    rw [asked] at reason
    constructor
    · intro status
      obtain rfl : failure = .unsupportedContentType := Failure.code_inj status
      simp at reason
    · rintro ⟨earlier, request, ⟨later, rfl, -⟩, -⟩
      exact absurd (by simp) (silent_of_permit asked request)
  | @answered _ url pin world own response asked reply =>
    have silent := silent_of_permit asked
    have honest := honoured (request config options url pin) (network.after world own)
    constructor
    · intro status
      exact ⟨own, _, (lastRequest_singleton_iff silent).2 ⟨rfl, rfl⟩,
        refused_of_done honest reply status⟩
    · rintro ⟨earlier, last, isLast, refused⟩
      obtain ⟨rfl, rfl⟩ := (lastRequest_singleton_iff silent).1 isLast
      obtain ⟨response', done, status⟩ := ofReply_of_refused honest refused
      obtain rfl := Hop.done.inj (reply.symm.trans done)
      exact status
  | @exhausted url pin target world own provenance asked reply =>
    have silent := silent_of_permit asked
    have honest := honoured (request config options url pin) (network.after world own)
    constructor
    · intro status
      have same : Failure.tooManyRedirects = .unsupportedContentType := Failure.code_inj status
      cases same
    · rintro ⟨earlier, last, isLast, refused⟩
      obtain ⟨rfl, rfl⟩ := (lastRequest_singleton_iff silent).1 isLast
      obtain ⟨response, done, -⟩ := ofReply_of_refused honest refused
      cases reply.symm.trans done
  | @redirected _ url pin target world own later provenance response asked reply rest ih =>
    have silent := silent_of_permit asked
    have honest := honoured (request config options url pin) (network.after world own)
    rw [ih]
    constructor
    · rintro ⟨between, last, isLast, refused⟩
      refine ⟨_, last, (lastRequest_cons silent).2 (.inl ⟨between, rfl, isLast⟩), ?_⟩
      simpa [Network.after_append, Network.after] using refused
    · rintro ⟨earlier, last, isLast, refused⟩
      rcases (lastRequest_cons silent).1 isLast with ⟨between, rfl, isLast'⟩ | ⟨rfl, rfl, -⟩
      · refine ⟨between, last, isLast', ?_⟩
        simpa [Network.after_append, Network.after] using refused
      · obtain ⟨response, done, -⟩ := ofReply_of_refused honest refused
        cases reply.symm.trans done

end Fetch

/-- A body is classified by its first bytes, however many of them are looked at. So a direct fetch
ends as unsupported exactly if the early look at the reply to its last request refused it, or if
that transfer itself told so; and what was accepted early keeps its status, unless it leads
elsewhere. -/
theorem Reader.read_unsupported_iff [Charset.Library] {World : Type} (reader : Reader)
    (network : Network World) (url : Bytes) (options : FetchOptions) (world : World)
    (answer : Request → World → Script.Answer) (direct : reader.relay? options = .ok none)
    (honoured : ∀ request world,
      (answer request world).Honoured request (network.exchange request world).1) :
    (∀ contentType body url k, Family.sniffLimit ≤ k →
      Family.classify? contentType (body.take k) url = Family.classify? contentType body url) ∧
    (∃ run, reader.read network url options world = .ok run ∧
      (run.result.status = Failure.unsupportedContentType.code ↔
        ∃ earlier request, Fetch.LastRequest run.events earlier request ∧
          ((answer request (network.after world earlier)).gate? request = some false ∨
            (answer request (network.after world earlier)).Reports .unsupportedContentType))) ∧
    ∀ url pin world response,
      (answer (Fetch.request reader.config options url pin) world).gate?
        (Fetch.request reader.config options url pin) = some true →
      Fetch.Hop.ofReply options url
        (network.exchange (Fetch.request reader.config options url pin) world).1 = .done response →
      response.status = (answer (Fetch.request reader.config options url pin) world).status := by
  refine ⟨?_, ⟨reader.readDirect network url options world, by simp [read, direct], ?_⟩, ?_⟩
  · intro contentType body url k enough
    exact Family.classify?_take enough body contentType url
  · have course := Fetch.follow_course network reader.config options
      reader.config.maxRedirects.toNat url world
    exact course.unsupported_iff honoured
  · intro url pin world response opened done
    have whole : (answer (Fetch.request reader.config options url pin) world).failure = none := by
      cases failed : (answer (Fetch.request reader.config options url pin) world).failure with
      | none => rfl
      | some failure => simp [Script.Answer.gate?, failed] at opened
    rcases Fetch.status_of_done (honoured _ world) whole done with closed | status
    · rw [opened] at closed
      cases closed
    · exact status

namespace Script

/-- The transfer for the next request. -/
def next (answers : List Answer) : Answer := answers.headD { failure := some .connection }

theorem honoured_network (addresses : Bytes → List Bytes) (request : Request)
    (answers : List Answer) :
    (next answers).Honoured request ((network addresses).exchange request answers).1 := by
  cases answers with
  | nil => exact Answer.honoured_reply _ request
  | cons answer rest => exact answer.honoured_reply request

end Script

namespace Fetch.Picture

/-- A redirect to a picture that begins as a feed does. -/
def answers : List Script.Answer := [
  { status := 302, headers := [(Bytes.ofString "location", Bytes.ofString "/image")] },
  { status := 200,
    headers := [(Bytes.ofString "content-type", Bytes.ofString "image/png")],
    body := Bytes.ofString "<rss>" }]

def start : Bytes := Bytes.ofString "http://a.example/"

def reader : Reader := { config := {}, valid := Config.valid_default }

def options : FetchOptions := { allowPrivate := true }

/-- The early look at the picture refuses it, and the fetch ends as unsupported. -/
theorem read_unsupported_picture :
    reader.relay? options = .ok none ∧
    ∃ run, reader.read (Script.network fun _ => []) start options answers = .ok run ∧
      run.result.status = Failure.unsupportedContentType.code ∧
      run.requests.map (·.url) =
        ["http://a.example/", "http://a.example/image"].map Bytes.ofString := by
  refine ⟨rfl, ?_⟩
  obtain ⟨-, ⟨run, same, exactly⟩, -⟩ := reader.read_unsupported_iff (Script.network fun _ => [])
    start options answers (fun _ => Script.next) rfl fun request answers =>
      Script.honoured_network _ request answers
  obtain rfl : reader.readDirect (Script.network fun _ => []) start options answers = run :=
    Except.ok.inj same
  refine ⟨_, same, exactly.2 ⟨[.request (request reader.config options start [])],
    request reader.config options (Bytes.ofString "http://a.example/image") [],
    ⟨[], by decide +kernel, by simp⟩, .inl (by decide +kernel)⟩, by decide +kernel⟩

end Fetch.Picture

end FeedIntake
