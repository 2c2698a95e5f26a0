import FeedIntake.Fetch.Script
import FeedIntake.Intake.Normalize
import FeedIntake.Proofs.Fetch.Chain
import FeedIntake.Proofs.Url.Foreign

/-!
Redirects to where nothing may be fetched. Such a redirect is the last event of a fetch: nothing is
looked up and nothing is sent for it. Main statement: a link with another scheme than those of pages
is left as it is, is not published, and ends every fetch that it comes up in as a location.
-/
namespace FeedIntake

namespace Fetch

variable [Charset.Library] {World : Type} {network : Network World} {config : Config}
  {options : FetchOptions}

/-- A URL that may not be fetched is refused before anything is asked of the network. -/
theorem Course.of_not_isWeb {left : Nat} {url : Bytes} {world : World} {events : List Event}
    {response : Response} (course : Course network config options left url world events response)
    (refused : Url.isWeb url = false) :
    events = [] ∧ response = .failed .unknown url {} := by
  have permitted : permit network options url world = .pure (.error .unknown) world := by
    simp [permit, refused]
  cases course with
  | refused asked =>
    cases permitted.symm.trans asked
    exact ⟨rfl, rfl⟩
  | answered asked | exhausted asked | redirected asked => cases permitted.symm.trans asked

/-- A redirect to a URL that may not be fetched ends the fetch. The response names that URL, unless
the redirect is one too many in any case. -/
theorem Course.ends_at_target {left : Nat} {url : Bytes} {world : World} {events : List Event}
    {response : Response} (course : Course network config options left url world events response)
    (target : Bytes) (refused : Url.isWeb target = false) (earlier : List Event)
    (request : Request) (later : List Event)
    (split : events = earlier ++ .request request :: later) (reply : Reply)
    (replied : reply = (network.exchange request (network.after world earlier)).1)
    (leads : Exchange.target? ⟨request, reply⟩ = some target) :
    later = [] ∧ response =
      if (network.exchanges world events).length ≤ left then .failed .unknown target {}
      else .failed .tooManyRedirects request.url (reply.provenance false) := by
  have led := Exchange.ofReply_of_target? options leads
  induction course generalizing earlier with
  | refused asked => exact absurd (by simp [split]) (silent_of_permit asked request)
  | answered asked done =>
    rcases request_split (silent_of_permit asked request) split with
      ⟨rfl, rfl⟩ | ⟨between, -, behind⟩
    · rw [replied] at led
      cases done.symm.trans led
    · simp at behind
  | exhausted asked redirected =>
    rcases request_split (silent_of_permit asked request) split with
      ⟨rfl, rfl⟩ | ⟨between, -, behind⟩
    · rw [replied] at led ⊢
      obtain ⟨-, rfl⟩ := Hop.redirected.inj (redirected.symm.trans led)
      rw [network.exchanges_hop _ (silent_of_permit asked), if_neg (by simp)]
      exact ⟨(List.cons.inj (List.append_cancel_left split)).2.symm, rfl⟩
    · simp at behind
  | redirected asked redirected rest ih =>
    rw [network.exchanges_hop _ (silent_of_permit asked), List.length_cons]
    rcases request_split (silent_of_permit asked request) split with
      ⟨rfl, rfl⟩ | ⟨between, rfl, behind⟩
    · -- This reply leads to the target, and the fetch has nothing left but to refuse it.
      rw [replied] at led
      obtain ⟨rfl, -⟩ := Hop.redirected.inj (redirected.symm.trans led)
      obtain ⟨rfl, rfl⟩ := rest.of_not_isWeb refused
      refine ⟨(List.cons.inj (List.append_cancel_left split)).2.symm, ?_⟩
      rw [if_pos (by simp [Network.exchanges])]
    · rw [List.append_cons, Network.after_append] at replied
      simpa using ih between behind replied

end Fetch

/-- A link with another scheme than those of pages, as it is found in any document: it is left as it
is but for line breaks, tabs and the blanks around it, and it is not published. A direct fetch that
gets it as the location of a redirect asks nothing of the network any more; it ends with the link as
a URL that may not be fetched, unless it is one redirect too many in any case. -/
theorem foreign_link_leads_nowhere [Charset.Library] (link base : Bytes)
    (foreign : Url.IsForeign (Url.tidy link)) :
    Url.normalize link base = Url.tidy link ∧
    Url.web? (Url.tidy link) = none ∧
    Normalize.link? (some link) base = none ∧
    ∀ (World : Type) (reader : Reader) (network : Network World) (url : Bytes)
      (options : FetchOptions) (world : World), reader.relay? options = .ok none →
      ∃ run, reader.read network url options world = .ok run ∧
        ∀ earlier request later, run.events = earlier ++ .request request :: later →
          ∀ reply, reply = (network.exchange request (network.after world earlier)).1 →
            reply.ending = .complete →
            reply.status ∈ ([301, 302, 303, 307, 308] : List Int) →
            reply.headers.value? "location" = some link →
            later = [] ∧ run.result =
              if run.requests.length ≤ reader.config.maxRedirects then
                .failed .unknown (Url.tidy link) {}
              else .failed .tooManyRedirects request.url (reply.provenance false) := by
  have kept := Url.normalize_of_isForeign link base foreign
  have refused := foreign.isWeb_eq_false
  have unpublished : Url.web? (Url.tidy link) = none := by simp [Url.web?, refused]
  refine ⟨kept, unpublished, by simp [Normalize.link?, kept, unpublished], ?_⟩
  intro World reader network url options world direct
  let run := reader.readDirect network url options world
  refine ⟨run, reader.read_of_direct network url options world direct, ?_⟩
  intro earlier request later split reply replied complete status header
  have full : link ≠ [] := by
    rintro rfl
    obtain ⟨name, rest, whole, -⟩ := foreign
    simp [Url.tidy, Bytes.trim, Bytes.dropEndWhile] at whole
  have leads : Exchange.target? ⟨request, reply⟩ = some (Url.tidy link) :=
    Exchange.target?_eq_some_iff.2 ⟨complete, status, link, header, full,
      (Url.normalize_of_isForeign link request.url foreign).symm⟩
  have ends := (reader.readDirect_course network url options world).ends_at_target
    (Url.tidy link) refused earlier request later split reply replied leads
  have counted : (network.exchanges world run.events).length = run.requests.length := by
    rw [← network.map_request_exchanges world run, List.length_map]
  have bound : run.requests.length ≤ reader.config.maxRedirects.toNat ↔
      run.requests.length ≤ reader.config.maxRedirects := by
    have positive := reader.maxRedirects_nonneg
    omega
  rw [counted] at ends
  simpa only [bound] using ends

namespace Fetch.Smuggling

/-- A script behind a blank, with a tab in its scheme. -/
def link : Bytes := Bytes.ofString " java\tScript:alert(1)\r\n"

def start : Bytes := Bytes.ofString "http://a.example/"

def reader : Reader := { config := {}, valid := Config.valid_default }

def options : FetchOptions := { allowPrivate := true }

/-- A redirect to the script, and a page that nobody asks for. -/
def answers : List Script.Answer := [
  { status := 302, headers := [(Bytes.ofString "location", link)] },
  { status := 200, body := Bytes.ofString "<rss>" }]

theorem isForeign_tidy_link : Url.IsForeign (Url.tidy link) := by
  refine ⟨Bytes.ofString "javaScript", Bytes.ofString "alert(1)", by decide,
    ⟨0x6A, Bytes.ofString "avaScript", by decide, by decide,
      Bytes.forall_mem_of_all _ _ (by decide)⟩, by decide, by decide⟩

theorem foreign_link_leads_nowhere_script :
    Url.IsForeign (Url.tidy link) ∧
    Url.normalize link start = Bytes.ofString "javaScript:alert(1)" ∧
    Normalize.link? (some link) start = none ∧
    ∃ run, reader.read (Script.network fun _ => []) start options answers = .ok run ∧
      run.requests.map (·.url) = [start] ∧
      run.result = .failed .unknown (Bytes.ofString "javaScript:alert(1)") {} := by
  have tidied : Url.tidy link = Bytes.ofString "javaScript:alert(1)" := by decide
  obtain ⟨kept, -, dropped, ends⟩ := foreign_link_leads_nowhere link start isForeign_tidy_link
  obtain ⟨run, same, last⟩ :=
    ends _ reader (Script.network fun _ => []) start options answers rfl
  obtain rfl : reader.readDirect (Script.network fun _ => []) start options answers = run :=
    Except.ok.inj same
  refine ⟨isForeign_tidy_link, kept.trans tidied, dropped, _, same, by decide +kernel, ?_⟩
  obtain ⟨-, result⟩ := last [] (request reader.config options start []) [] (by decide +kernel) _
    rfl (by decide +kernel) (by decide +kernel) (by decide +kernel)
  rw [result, tidied]
  exact if_pos (by decide +kernel)

end Fetch.Smuggling

end FeedIntake
