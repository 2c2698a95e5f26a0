import FeedIntake.Fetch.Script
import FeedIntake.Proofs.Address.Block
import FeedIntake.Proofs.Address.Spelling
import FeedIntake.Proofs.Fetch.Admission
import FeedIntake.Proofs.Url.Endpoint

/-!
Hosts that are IPv4 addresses in numbers. Main statement: however the address is spelt, the guard
judges it as what it is and asks the network nothing; a URL that is too long is refused as well.
-/
namespace FeedIntake

namespace Ipv4.IsSpelling

variable {address : Ipv4} {s : Bytes} (spelling : address.IsSpelling s)

include spelling

/-- No byte of a numeric spelling ends a host. -/
theorem isHostByte : ∀ b ∈ s, Url.IsHostByte b := by
  have number : ∀ b : UInt8, IsNumberByte b ∨ b = Mark.dot → Url.IsHostByte b :=
    Bytes.forall_of_all _ (by decide +kernel)
  exact fun b member => number b (spelling.isNumberByte_or_dot b member)

/-- The host of a URL is the dotted form of the address that is spelt. -/
theorem hostOfText? : Host.ofText? s = some (.name address.render) := by
  have read := spelling.ofNumeric?_eq
  unfold Host.ofText?
  split
  · exact absurd rfl spelling.ne_nil
  · exact absurd (spelling.isHostByte _ List.mem_cons_self) (by decide)
  · rw [read]

end Ipv4.IsSpelling

namespace Admission

variable {World : Type} (network : Network World) (world : World)

/-- The judgement on a host that is an IPv4 address. -/
def literalVerdict (address : Ipv4) (port : Nat) : Verdict :=
  if ∃ block ∈ Ipv4.nonPublicBlocks, block.Spans address.bits then
    .nonPublic address.render port address.render
  else .allowed address.render port address.render

theorem judge_render (address : Ipv4) (port : Nat) :
    judge address.render port [address.render] = literalVerdict address port := by
  have text := Address.isNonPublicText_eq _ _ address.ofText?_render
  have listed := address.isNonPublic_iff
  cases nonPublic : address.isNonPublic with
  | true =>
    rw [literalVerdict, if_pos (listed.1 nonPublic)]
    simp [judge, text, Address.isNonPublic, nonPublic]
  | false =>
    rw [literalVerdict, if_neg fun inside => Bool.eq_false_iff.1 nonPublic (listed.2 inside)]
    simp [judge, text, Address.isNonPublic, nonPublic]

theorem pin_literalVerdict (address : Ipv4) (port : Nat) :
    (literalVerdict address port).pin = [] := by
  rw [literalVerdict]
  split
  · rfl
  · exact pin_allowed_literal _ _ _ address.isText_render

section Spelling

variable {address : Ipv4} {host portText path : Bytes} {port : Option Nat} {scheme : Scheme}
  (spelling : address.IsSpelling host) (web : scheme.isWeb = true)
  (written : Url.IsPort port portText) (plain : Url.IsPlainPath path)

include spelling web written plain

theorem check_short_spelling
    (short : (Url.pageText scheme host portText path).length ≤ Url.byteLimit) :
    check network (Url.pageText scheme host portText path) world =
      ⟨literalVerdict address (port.getD scheme.defaultPort), [], world⟩ := by
  obtain ⟨endpoint, named, same, text, number⟩ := Url.exists_endpoint_pageText spelling.isHostByte
    spelling.hostOfText? written web plain short
  have literal : Address.isText endpoint.host = true := text ▸ address.isText_render
  rw [check_literal network _ world endpoint named (same ▸ web) literal, text, number, Host.text,
    judge_render]

theorem check_long_spelling
    (long : Url.byteLimit < (Url.pageText scheme host portText path).length) :
    check network (Url.pageText scheme host portText path) world = ⟨.invalidUrl, [], world⟩ := by
  have unread := Url.ofText?_pageText spelling.isHostByte spelling.hostOfText? written web plain
  rw [if_neg (Nat.not_le.2 long)] at unread
  rw [check, Url.Endpoint.ofText?, unread]
  rfl

/-- However an IPv4 address is spelt in numbers as the host of a page, the guard judges the address
and asks the network nothing, and there is no pin; only a URL of more than 8000000 bytes is refused
before. -/
theorem check_spelling :
    check network (Url.pageText scheme host portText path) world =
      ⟨if (Url.pageText scheme host portText path).length ≤ Url.byteLimit then
          literalVerdict address (port.getD scheme.defaultPort)
        else .invalidUrl, [], world⟩ ∧
    (check network (Url.pageText scheme host portText path) world).result.pin = [] := by
  by_cases short : (Url.pageText scheme host portText path).length ≤ Url.byteLimit
  · rw [check_short_spelling network world spelling web written plain short, if_pos short]
    exact ⟨rfl, pin_literalVerdict address _⟩
  · rw [check_long_spelling network world spelling web written plain (Nat.not_le.1 short),
      if_neg short]
    exact ⟨rfl, rfl⟩

end Spelling

/-- The loopback address in two parts of different bases, on a network where all names are
public. -/
theorem check_spelling_loopback :
    check (Script.network fun _ => [Bytes.ofString "8.8.8.8"])
        (Bytes.ofString "https://0X7f.0000001:8443/feed?page=1") [] =
      ⟨.nonPublic (Bytes.ofString "127.0.0.1") 8443 (Bytes.ofString "127.0.0.1"), [], []⟩ := by
  have spelling : (⟨0x7F000001⟩ : Ipv4).IsSpelling (Bytes.ofString "0X7f.0000001") :=
    ⟨[(0x7F, Bytes.ofString "0X7f"), (1, Bytes.ofString "0000001")], by decide,
      List.forall_mem_cons.2 ⟨.hexadecimal 'X'.toUInt8 (Bytes.ofString "7f") (by decide)
        (by decide) (by decide +kernel), List.forall_mem_cons.2 ⟨.octal (Bytes.ofString "000001")
          (by decide +kernel), nofun⟩⟩, .two 0x7F 1 (by decide) (by decide)⟩
  have written : Url.IsPort (some 8443) (Bytes.ofString ":8443") :=
    .some 8443 (Bytes.ofString "8443") (by decide) (by decide) (by decide)
  have plain : Url.IsPlainPath (Bytes.ofString "/feed?page=1") :=
    ⟨.inr rfl, by decide +kernel⟩
  have checked := check_spelling (Script.network fun _ => [Bytes.ofString "8.8.8.8"]) []
    spelling (rfl : Scheme.https.isWeb = true) written plain
  exact checked.1.trans (congrArg (fun verdict => Run.mk verdict [] []) (by decide +kernel))

/-- The unspecified address, written with so many digits that the URL cannot be read, is not judged
as the address that it is. -/
theorem check_overlong_spelling :
    (⟨0⟩ : Ipv4).IsSpelling (List.replicate 7999994 Mark.zero) ∧
      literalVerdict ⟨0⟩ 80 =
        .nonPublic (Bytes.ofString "0.0.0.0") 80 (Bytes.ofString "0.0.0.0") ∧
      check Script.offline (Url.pageText .http (List.replicate 7999994 Mark.zero) [] []) [] =
        ⟨.invalidUrl, [], []⟩ := by
  have spelling := Ipv4.isSpelling_replicate_zero 7999994 (by decide)
  have front : Scheme.http.name.length + (Bytes.ofString "://").length = 7 := by decide
  refine ⟨spelling, by decide +kernel, ?_⟩
  refine check_long_spelling Script.offline [] spelling rfl .none ⟨.inl rfl, nofun⟩ ?_
  rw [Url.pageText, List.append_nil, List.append_nil, List.length_append, List.length_append,
    List.length_replicate, front]
  decide

end Admission

end FeedIntake
