import FeedIntake.Fetch.Relay
import FeedIntake.Proofs.Bytes.Decimal

/-!
What a relay's reply is taken for. Main statement: a relay is asked once, and the outcome is the
page's exactly if the exchange was complete, the relay itself was content and its status header
holds one to four digits; every other reply is one of two failures, without content.
-/
namespace FeedIntake.Relay

/-- The text of a status header that gives a status: one to four digits between blanks. -/
def IsStatus (value : Bytes) : Prop :=
  1 ≤ (Bytes.trim value).length ∧ (Bytes.trim value).length ≤ 4 ∧
    ∀ b ∈ Bytes.trim value, Bytes.isDigit b = true

/-- The number that the digits of a status header denote, the last of them the units. -/
def statusOf (value : Bytes) : Nat :=
  Nat.ofDigits 10 ((Bytes.trim value).reverse.map fun b => b.toNat - 0x30)

theorem status?_eq_some_iff (value : Bytes) (status : Nat) :
    status? value = some status ↔ IsStatus value ∧ statusOf value = status := by
  have some : 1 ≤ (Bytes.trim value).length ↔ Bytes.trim value ≠ [] := by
    rw [Nat.one_le_iff_ne_zero, ne_eq, List.length_eq_zero_iff]
  rw [status?, IsStatus, some]
  by_cases short : (Bytes.trim value).length ≤ 4
  · simp only [short, if_true, true_and, Numeral.decimal?_eq_some_iff]
    constructor
    · rintro ⟨full, digits, rfl⟩
      exact ⟨⟨full, digits⟩, (Numeral.value_eq_ofDigits _ digits).symm⟩
    · rintro ⟨⟨full, digits⟩, rfl⟩
      exact ⟨full, digits, Numeral.value_eq_ofDigits _ digits⟩
  · simp [short]

theorem status?_eq_none_iff (value : Bytes) : status? value = none ↔ ¬IsStatus value := by
  constructor
  · intro none isStatus
    have found := (status?_eq_some_iff value _).2 ⟨isStatus, rfl⟩
    rw [none] at found
    cases found
  · intro isNone
    cases read : status? value with
    | none => rfl
    | some status => exact absurd ((status?_eq_some_iff value status).1 read).1 isNone

theorem status?_decimal (status : Nat) (bounded : status ≤ 9999) :
    status? (Numeral.decimal status) = some status := by
  have whole := Bytes.trim_of_isDigit _ (Numeral.isDigit_of_mem_decimal status)
  have short := (Numeral.length_decimal_le_iff status 4 (by decide)).2 (by omega)
  simp only [status?, whole]
  rw [if_pos short, Numeral.decimal?_decimal]

/-- A reply of a relay that tells of a page, with its status header. -/
structure Tells (reply : Reply) (value : Bytes) : Prop where
  transferred : ∀ failure, reply.ending ≠ .failed failure
  content : reply.status = 200
  header : reply.headers.value? statusHeader = some value
  status : IsStatus value

/-- The failure that stands for a reply that tells of no page. -/
def failureOf (reply : Reply) : Failure :=
  if reply.ending = .failed .response then .response else .relay

/-- Once a reply is there, its own status and then the header decide. -/
theorem interpret_of_transferred (url : Bytes) (reply : Reply)
    (transferred : ∀ failure, reply.ending ≠ .failed failure) :
    interpret url reply =
      if reply.status = 200 then
        match (reply.headers.value? statusHeader).bind status? with
        | none => .failed .relay url { viaRelay := true }
        | some status =>
          { status, url, content := reply.body, provenance := reply.provenance true }
      else .failed .relay url { viaRelay := true } := by
  cases ending : reply.ending with
  | failed failure => exact absurd ending (transferred failure)
  | complete =>
    cases read : (reply.headers.value? statusHeader).bind status? <;> simp [interpret, ending, read]
  | rejected =>
    cases read : (reply.headers.value? statusHeader).bind status? <;> simp [interpret, ending, read]

theorem interpret_of_tells (url : Bytes) (reply : Reply) (value : Bytes)
    (tells : Tells reply value) :
    interpret url reply =
      { status := statusOf value, url, content := reply.body,
        provenance := reply.provenance true } := by
  have read := (status?_eq_some_iff value _).2 ⟨tells.status, rfl⟩
  rw [interpret_of_transferred url reply tells.transferred, if_pos tells.content, tells.header,
    Option.bind_some, read]

theorem interpret_of_not_tells (url : Bytes) (reply : Reply)
    (silent : ∀ value, ¬Tells reply value) :
    interpret url reply = .failed (failureOf reply) url { viaRelay := true } := by
  by_cases transferred : ∀ failure, reply.ending ≠ .failed failure
  · have other : failureOf reply = .relay := if_neg (transferred .response)
    rw [interpret_of_transferred url reply transferred, other]
    by_cases content : reply.status = 200
    · have unread : (reply.headers.value? statusHeader).bind status? = none := by
        cases header : reply.headers.value? statusHeader with
        | none => rfl
        | some value =>
          refine (status?_eq_none_iff value).2 fun status => ?_
          exact silent value ⟨transferred, content, header, status⟩
      rw [if_pos content, unread]
    · rw [if_neg content]
  · obtain ⟨failure, ending⟩ := not_forall_not.1 transferred
    cases failure <;> simp [interpret, failureOf, ending]

theorem interpret_nonneg_iff (url : Bytes) (reply : Reply) :
    0 ≤ (interpret url reply).status ↔ ∃ value, Tells reply value := by
  constructor
  · intro nonneg
    by_contra silent
    rw [interpret_of_not_tells url reply (not_exists.1 silent)] at nonneg
    have negative := Failure.code_neg (failureOf reply)
    exact absurd nonneg (Int.not_le.2 negative)
  · rintro ⟨value, tells⟩
    rw [interpret_of_tells url reply value tells]
    exact Int.natCast_nonneg _

theorem interpret_viaRelay (url : Bytes) (reply : Reply) :
    (interpret url reply).provenance.viaRelay = true := by
  by_cases told : ∃ value, Tells reply value
  · obtain ⟨value, tells⟩ := told
    rw [interpret_of_tells url reply value tells]
    rfl
  · rw [interpret_of_not_tells url reply (not_exists.1 told)]
    rfl

/-- One request is sent, a POST to the relay that asks for the page. The status is a number of the
server's exactly if the reply tells of a page, and then it is the one in the header, with the body
as it came; all other outcomes are empty, and their status is that of an unreadable response if the
transfer said so, else that of the relay. -/
theorem fetch_classified {World : Type} (network : Network World) (client : Client) (url : Bytes)
    (headers : List (Bytes × Bytes)) (world : World) :
    let run := fetch network client url headers world
    let reply := (network.exchange (client.request url headers) world).1
    run.events = [.request (client.request url headers)] ∧
    (client.request url headers).method = Bytes.ofString "POST" ∧
    (client.request url headers).url = client.url ∧
    (client.request url headers).body = requestBody url headers client.token ∧
    (0 ≤ run.result.status ↔ (∀ failure, reply.ending ≠ .failed failure) ∧ reply.status = 200 ∧
      ∃ value, reply.headers.value? statusHeader = some value ∧ IsStatus value) ∧
    (0 ≤ run.result.status → ∀ value, reply.headers.value? statusHeader = some value →
      run.result.status = statusOf value ∧ run.result.content = reply.body) ∧
    (run.result.status < 0 → run.result.content = [] ∧
      (reply.ending = .failed .response ∧ run.result.status = Failure.response.code ∨
        reply.ending ≠ .failed .response ∧ run.result.status = Failure.relay.code)) ∧
    run.result.provenance.viaRelay = true := by
  intro run reply
  have result : run.result = interpret url reply := rfl
  rw [result]
  refine ⟨rfl, rfl, rfl, rfl, ?_, ?_, ?_, interpret_viaRelay url reply⟩
  · rw [interpret_nonneg_iff]
    constructor
    · rintro ⟨value, tells⟩
      exact ⟨tells.transferred, tells.content, value, tells.header, tells.status⟩
    · rintro ⟨transferred, content, value, header, status⟩
      exact ⟨value, transferred, content, header, status⟩
  · intro nonneg value header
    obtain ⟨told, tells⟩ := (interpret_nonneg_iff url reply).1 nonneg
    obtain rfl := Option.some.inj (tells.header.symm.trans header)
    rw [interpret_of_tells url reply _ tells]
    exact ⟨rfl, rfl⟩
  · intro negative
    have silent : ¬∃ value, Tells reply value := by
      rw [← interpret_nonneg_iff url reply]
      exact Int.not_le.2 negative
    rw [interpret_of_not_tells url reply (not_exists.1 silent)]
    refine ⟨rfl, ?_⟩
    by_cases unreadable : reply.ending = .failed .response
    · exact .inl ⟨unreadable, congrArg Failure.code (if_pos unreadable)⟩
    · exact .inr ⟨unreadable, congrArg Failure.code (if_neg unreadable)⟩

end FeedIntake.Relay
