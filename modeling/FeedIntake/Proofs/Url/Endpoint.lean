import FeedIntake.Proofs.Bytes.Decimal
import FeedIntake.Proofs.Bytes.Split
import FeedIntake.Url.Basic

/-!
URLs of pages that are made of their parts. Main statement: a scheme, a host without signs that
would end it, a port and a path are read as these parts, unless they are too long together.
-/
namespace FeedIntake

open Bytes

namespace Url

/-- The bytes that end a host or what stands in front of it. -/
def signs : Bytes :=
  [Mark.slash, Mark.question, Mark.hash, Mark.atSign, Mark.colon, Mark.openBracket]

/-- A byte that can stand anywhere in a host. -/
def IsHostByte (b : UInt8) : Prop := isJunk b = false ∧ b ∉ signs

instance : DecidablePred IsHostByte := fun b =>
  inferInstanceAs (Decidable (isJunk b = false ∧ b ∉ signs))

/-- The URL of a page, made of its parts. -/
def pageText (scheme : Scheme) (host port path : Bytes) : Bytes :=
  scheme.name ++ ofString "://" ++ host ++ port ++ path

/-- A port from 1 to 65535 in decimal digits behind a colon, or none. -/
inductive IsPort : Option Nat → Bytes → Prop where
  | none : IsPort none []
  | some (port : Nat) (digits : Bytes) (written : Numeral.decimal? digits = some port)
      (first : 1 ≤ port) (last : port ≤ 65535) : IsPort (some port) (Mark.colon :: digits)

/-- Nothing, or a slash and printable ASCII behind it. -/
def IsPlainPath (path : Bytes) : Prop :=
  (path = [] ∨ path.head? = some Mark.slash) ∧ ∀ b ∈ path, 0x20 < b ∧ b < 0x7F

end Url

theorem Scheme.split?_web (scheme : Scheme) (web : scheme.isWeb = true) (rest : Bytes) :
    split? (scheme.name ++ Mark.colon :: rest) = some (scheme.name, rest) := by
  cases scheme <;> first | contradiction | rfl

section Parts

variable {scheme : Scheme} {host portText path : Bytes} {port : Option Nat} {named : Host}
  (bytes : ∀ b ∈ host, Url.IsHostByte b) (read : Host.ofText? host = some named)
  (written : Url.IsPort port portText)

include bytes in
theorem Url.not_mem_host (sign : UInt8) (listed : sign ∈ signs) : sign ∉ host := fun member =>
  (bytes sign member).2 listed

include written in
theorem Url.isDigit_or_colon_of_isPort : ∀ b ∈ portText, isDigit b = true ∨ b = Mark.colon := by
  cases written with
  | none => exact nofun
  | some port digits decimal first last =>
    have digital := ((Numeral.decimal?_eq_some_iff digits port).1 decimal).2.1
    exact List.forall_mem_cons.2 ⟨.inr rfl, fun b member => .inl (digital b member)⟩

theorem Host.ne_nil_of_ofText? (s : Bytes) (host : Host) (read : ofText? s = some host) :
    s ≠ [] := by
  rintro rfl
  contradiction

include bytes read in
theorem Url.exists_cons_host : ∃ first rest, host = first :: rest ∧ first ∉ signs := by
  obtain ⟨first, rest, rfl⟩ := List.exists_cons_of_ne_nil (Host.ne_nil_of_ofText? _ _ read)
  exact ⟨first, rest, rfl, fun listed => not_mem_host bytes first listed List.mem_cons_self⟩

include bytes read written in
/-- The host ends at the colon, and what is behind it is the port. -/
theorem Authority.exists_splitPort? :
    ∃ behind, splitPort? (host ++ portText) = some (host, behind) ∧
      (match behind with
        | none => some none
        | some digits => port? digits) = some port := by
  obtain ⟨first, rest, rfl, plain⟩ := Url.exists_cons_host bytes read
  have bracket : (first == Mark.openBracket) = false :=
    beq_eq_false_iff_ne.2 fun same => plain (same ▸ by decide)
  have colon := Url.not_mem_host bytes Mark.colon (by decide)
  cases written with
  | none =>
    refine ⟨none, ?_, rfl⟩
    simp [splitPort?, bracket, cut?_of_not_mem _ _ colon]
  | some port digits decimal low high =>
    have nonempty := ((Numeral.decimal?_eq_some_iff digits port).1 decimal).1
    refine ⟨some digits, ?_, ?_⟩
    · have cut := cut?_append_cons Mark.colon (first :: rest) digits colon
      rw [splitPort?, cut]
      simp [bracket]
    · simp [port?, nonempty, decimal, high]

include bytes read written in
theorem Authority.ofText?_of_parts :
    ofText? scheme (host ++ portText) = some ⟨none, named, port⟩ := by
  have sign : Mark.atSign ∉ host ++ portText := by
    rw [List.mem_append, not_or]
    refine ⟨Url.not_mem_host bytes _ (by decide), fun member => ?_⟩
    exact absurd (Url.isDigit_or_colon_of_isPort written _ member) (by decide)
  obtain ⟨behind, split, value⟩ := exists_splitPort? bytes read written
  rw [ofText?, cut?_of_not_mem _ _ sign]
  simp only [split, Option.bind_eq_bind, Option.bind_some, read]
  cases behind with
  | none =>
    obtain rfl := Option.some.inj value
    rfl
  | some digits =>
    have value : port? digits = some port := value
    simp only [value]
    rfl

include bytes read in
/-- Two slashes stand in front of the host. -/
theorem Url.takeWhile_slash_host (behind : Bytes) :
    (Mark.slash :: Mark.slash :: (host ++ behind)).takeWhile (· == Mark.slash) =
      [Mark.slash, Mark.slash] := by
  obtain ⟨first, rest, rfl, plain⟩ := exists_cons_host bytes read
  have other : first ≠ Mark.slash := fun same => plain (same ▸ by decide)
  simp [other]

include bytes written in
/-- Host and port end where the path begins. -/
theorem Url.takeWhile_authority (plain : IsPlainPath path) :
    (host ++ portText ++ path).takeWhile
      (fun b => b != Mark.slash && b != Mark.question && b != Mark.hash) = host ++ portText := by
  refine takeWhile_append_of_all _ _ _ (fun b member => ?_) fun b first => ?_
  · have inPort : ∀ b : UInt8, isDigit b = true ∨ b = Mark.colon →
        (b != Mark.slash && b != Mark.question && b != Mark.hash) = true :=
      forall_of_all _ (by decide +kernel)
    have inHost : ∀ b : UInt8, IsHostByte b →
        (b != Mark.slash && b != Mark.question && b != Mark.hash) = true :=
      forall_of_all _ (by decide +kernel)
    rcases List.mem_append.1 member with front | behind
    · exact inHost b (bytes b front)
    · exact inPort b (isDigit_or_colon_of_isPort written b behind)
  · rcases plain.1 with rfl | slash
    · contradiction
    · obtain rfl := Option.some.inj (first.symm.trans slash)
      rfl

include bytes written in
theorem Url.not_isJunk_of_parts (web : scheme.isWeb = true) (plain : IsPlainPath path) :
    ∀ b ∈ pageText scheme host portText path, isJunk b = false := by
  have front : ∀ b ∈ scheme.name ++ ofString "://", isJunk b = false := by
    cases scheme <;> first | contradiction | decide +kernel
  have inPort : ∀ b : UInt8, isDigit b = true ∨ b = Mark.colon → isJunk b = false :=
    forall_of_all _ (by decide +kernel)
  have inPath : ∀ b : UInt8, 0x20 < b ∧ b < 0x7F → isJunk b = false :=
    forall_of_all _ (by decide +kernel)
  simp only [pageText, List.forall_mem_append] at front ⊢
  exact ⟨⟨⟨front, fun b member => (bytes b member).1⟩,
    fun b member => inPort b (isDigit_or_colon_of_isPort written b member)⟩,
    fun b member => inPath b (plain.2 b member)⟩

include bytes read written in
/-- A page's URL is read as its parts, unless it is too long to be read at all. -/
theorem Url.ofText?_pageText (web : scheme.isWeb = true) (plain : IsPlainPath path) :
    ofText? (pageText scheme host portText path) =
      if (pageText scheme host portText path).length ≤ byteLimit then
        some (withRest scheme (some ⟨none, named, port⟩) path)
      else none := by
  have clean := not_isJunk_of_parts bytes written web plain
  have zero : (0 : UInt8) ∉ pageText scheme host portText path := fun member =>
    absurd (clean 0 member) (by decide)
  have junk : (pageText scheme host portText path).any isJunk = false :=
    List.any_eq_false.2 fun b member => Bool.eq_false_iff.1 (clean b member)
  have split : Scheme.split? (pageText scheme host portText path) =
      some (scheme.name, Mark.slash :: Mark.slash :: (host ++ portText ++ path)) := by
    have colon := scheme.split?_web web (Mark.slash :: Mark.slash :: (host ++ portText ++ path))
    have marks : ofString "://" = [Mark.colon, Mark.slash, Mark.slash] := by decide
    simpa [pageText, marks] using colon
  have page : scheme ≠ .file := by
    rintro rfl
    contradiction
  have slashes := takeWhile_slash_host bytes read (portText ++ path)
  rw [← List.append_assoc] at slashes
  rw [ofText?, untilNul_of_not_mem _ zero, junk]
  by_cases long : byteLimit < (pageText scheme host portText path).length
  · rw [if_pos (by simpa using long), if_neg (Nat.not_le.2 long)]
  · rw [if_neg (by simpa using long), if_pos (Nat.not_lt.1 long), split]
    have behind : (Mark.slash :: Mark.slash :: (host ++ portText ++ path)).drop
        [Mark.slash, Mark.slash].length = host ++ portText ++ path := rfl
    have served : Authority.ofText? scheme (host ++ portText) = some ⟨none, named, port⟩ :=
      Authority.ofText?_of_parts bytes read written
    simp only [Option.bind_eq_bind, Option.bind_some, Scheme.ofName?_name, if_neg page, slashes,
      behind, takeWhile_authority bytes written plain, served, List.drop_left]
    rfl

include bytes read written in
/-- A connection goes to the host and the port of a page's URL. -/
theorem Url.exists_endpoint_pageText (web : scheme.isWeb = true) (plain : IsPlainPath path)
    (short : (pageText scheme host portText path).length ≤ byteLimit) :
    ∃ endpoint, Endpoint.ofText? (pageText scheme host portText path) = some endpoint ∧
      endpoint.scheme = scheme ∧ endpoint.host = named.text ∧
      endpoint.port = port.getD scheme.defaultPort := by
  rw [Endpoint.ofText?, ofText?_pageText bytes read written web plain, if_pos short]
  exact ⟨_, rfl, rfl, rfl, rfl⟩

end Parts

end FeedIntake
