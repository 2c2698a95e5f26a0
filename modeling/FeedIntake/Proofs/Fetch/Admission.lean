import FeedIntake.Fetch.Admission
import FeedIntake.Proofs.Address.Text
import FeedIntake.Proofs.Url.Reading

/-!
What the guard in front of a connection answers. A host is admitted only with addresses all of which
are public; a host that is an address itself is judged without a look-up. The pin of an admitted
name is written so that an IPv6 address stands in brackets.
-/
namespace FeedIntake

namespace Admission

/-- An address as it stands behind a port: with brackets if it has a colon, as IPv6 addresses do. -/
def bracketed (address : Bytes) : Bytes :=
  if Mark.colon ∈ address then [Mark.openBracket] ++ address ++ [Mark.closeBracket] else address

/-- The pin of a looked-up endpoint: host, port and address. -/
def pinText (endpoint : Url.Endpoint) (address : Bytes) : Bytes :=
  endpoint.host ++ [Mark.colon] ++ Numeral.decimal endpoint.port ++ [Mark.colon]
    ++ bracketed address

theorem bracketed_v6 (text : Bytes) (address : Ipv6)
    (read : Address.ofText? text = some (.v6 address)) :
    bracketed text = [Mark.openBracket] ++ text ++ [Mark.closeBracket] :=
  if_pos (Address.colon_mem_of_ofText?_v6 text address read)

theorem bracketed_v4 (text : Bytes) (address : Ipv4) (whole : 0 ∉ text)
    (read : Address.ofText? text = some (.v4 address)) : bracketed text = text :=
  if_neg (Address.colon_not_mem_of_ofText?_v4 text address whole read)

/-- The three judgements on a list of addresses, with what each says of the addresses. -/
theorem judge_cases (host : Bytes) (port : Nat) (addresses : List Bytes) :
    (addresses = [] ∧ judge host port addresses = .unresolved host port) ∨
    (∃ address ∈ addresses, Address.isNonPublicText address = true ∧
      judge host port addresses = .nonPublic host port address) ∨
    (∃ first others, addresses = first :: others ∧
      (∀ address ∈ addresses, Address.isNonPublicText address = false) ∧
      judge host port addresses = .allowed host port first) := by
  cases addresses with
  | nil => exact .inl ⟨rfl, rfl⟩
  | cons first others =>
    cases search : (first :: others).find? Address.isNonPublicText with
    | some address =>
      refine .inr (.inl ⟨address, List.mem_of_find?_eq_some search, ?_, ?_⟩)
      · exact List.find?_some search
      · simp [judge, search]
    | none =>
      refine .inr (.inr ⟨first, others, rfl, ?_, ?_⟩)
      · intro address member
        exact Bool.eq_false_iff.2 (List.find?_eq_none.1 search address member)
      · simp [judge, search]

theorem pin_allowed_literal (host : Bytes) (port : Nat) (address : Bytes)
    (literal : Address.isText host = true) : (Verdict.allowed host port address).pin = [] := by
  simp [Verdict.pin, literal]

theorem pin_allowed_name (endpoint : Url.Endpoint) (address : Bytes)
    (name : Address.isText endpoint.host = false) :
    (Verdict.allowed endpoint.host endpoint.port address).pin = pinText endpoint address := by
  by_cases colon : Mark.colon ∈ address <;>
    simp [Verdict.pin, pinText, bracketed, name, colon]

variable {World : Type} (network : Network World) (url : Bytes) (world : World)
  (endpoint : Url.Endpoint)

/-- A host that is an address is judged at once. -/
theorem check_literal (named : Url.Endpoint.ofText? url = some endpoint)
    (web : endpoint.scheme.isWeb = true) (literal : Address.isText endpoint.host = true) :
    check network url world = ⟨judge endpoint.host endpoint.port [endpoint.host], [], world⟩ := by
  simp [check, named, Option.filter, web, addresses, literal, Run.andThen, Run.pure]

/-- A name is judged by what the network answers to one look-up. -/
theorem check_name (named : Url.Endpoint.ofText? url = some endpoint)
    (web : endpoint.scheme.isWeb = true) (name : Address.isText endpoint.host = false) :
    check network url world =
      ⟨judge endpoint.host endpoint.port (network.lookup endpoint.host world).1,
        [.lookup endpoint.host], (network.lookup endpoint.host world).2⟩ := by
  simp [check, named, Option.filter, web, addresses, name, Network.resolve, Run.andThen, Run.pure]

/-- A page's URL always has a host to judge. -/
theorem check_ne_invalidUrl (web : Url.isWeb url = true) :
    (check network url world).result ≠ .invalidUrl := by
  obtain ⟨endpoint, named, scheme⟩ := Url.exists_endpoint_of_isWeb url web
  have judged (addresses : List Bytes) :
      judge endpoint.host endpoint.port addresses ≠ .invalidUrl := by
    rcases judge_cases endpoint.host endpoint.port addresses with
      ⟨-, same⟩ | ⟨address, -, -, same⟩ | ⟨first, others, -, -, same⟩ <;> simp [same]
  cases literal : Address.isText endpoint.host with
  | true =>
    rw [check_literal network url world endpoint named scheme literal]
    exact judged [endpoint.host]
  | false =>
    rw [check_name network url world endpoint named scheme literal]
    exact judged (network.lookup endpoint.host world).1

end Admission

end FeedIntake
