import FeedIntake.Bytes.Ascii
import FeedIntake.Proofs.Bytes.Split
import FeedIntake.Url.Reference

/-!
Which pieces of a text the parts of a URL are read from. What is proved of all URLs that can be read
starts here, with the cuts that were made, instead of going through the reader again.
-/
namespace FeedIntake

open Bytes

namespace Scheme

/-- The scheme is what stands in front of the first colon. -/
theorem eq_of_split? (s name rest : Bytes) (split : split? s = some (name, rest)) :
    ∃ front, s = front ++ Mark.colon :: rest ∧ Mark.colon ∉ front ∧ name = lower front := by
  rw [split?] at split
  split at split
  · next behind found =>
    split at split
    · contradiction
    · obtain ⟨rfl, rfl⟩ := Prod.mk.inj (Option.some.inj split)
      have front : (s.take nameLimit).takeWhile isNameByte <+: s :=
        (List.takeWhile_prefix _).trans (List.take_prefix _ _)
      have whole := List.prefix_iff_eq_append.1 front
      rw [found] at whole
      refine ⟨_, whole.symm, fun colon => ?_, rfl⟩
      exact absurd (List.all_eq_true.1 List.all_takeWhile _ colon) (by decide)
  · contradiction

theorem eq_name_of_ofName? (name : Bytes) (scheme : Scheme) (known : ofName? name = some scheme) :
    name = scheme.name := by
  have named : ∀ entry ∈ table, entry.2.name = ofString entry.1 := by decide +kernel
  obtain ⟨entry, found, rfl⟩ := Option.map_eq_some_iff.1 known
  have same := List.find?_some found
  rw [named entry (List.mem_of_find?_eq_some found), eq_of_beq same]

end Scheme

namespace Authority

theorem subset_of_splitPort? (s host : Bytes) (port : Option Bytes)
    (split : splitPort? s = some (host, port)) : host ⊆ s := by
  have bracketed : ∀ front rest, cut? Mark.closeBracket s = some (front, rest) →
      front ++ [Mark.closeBracket] ⊆ s := by
    intro front rest cut
    have whole := eq_of_cut? _ s front rest cut
    rw [List.append_cons] at whole
    rw [whole]
    exact List.subset_append_left _ _
  rw [splitPort?] at split
  split at split
  · split at split
    · contradiction
    · next front cut =>
      obtain ⟨rfl, -⟩ := Prod.mk.inj (Option.some.inj split)
      exact bracketed front _ cut
    · next front port cut =>
      obtain ⟨rfl, -⟩ := Prod.mk.inj (Option.some.inj split)
      exact bracketed front _ cut
    · contradiction
  · split at split
    · obtain ⟨rfl, -⟩ := Prod.mk.inj (Option.some.inj split)
      exact List.Subset.refl s
    · next front rest cut =>
      obtain ⟨rfl, -⟩ := Prod.mk.inj (Option.some.inj split)
      rw [eq_of_cut? _ s front rest cut]
      exact List.subset_append_left _ _

/-- A login is what stands in front of the first sign, and the host stands behind it. -/
theorem exists_of_ofText? (scheme : Scheme) (s : Bytes) (authority : Authority)
    (read : ofText? scheme s = some authority) :
    authority.login =
      (cut? Mark.atSign s).map (fun parts => Login.ofText scheme.takesOptions parts.1) ∧
    ∃ host port, splitPort? (((cut? Mark.atSign s).map (·.2)).getD s) = some (host, port) ∧
      Host.ofText? host = some authority.host := by
  rw [ofText?] at read
  generalize cut? Mark.atSign s = parts at read ⊢
  cases parts <;>
  · obtain ⟨⟨host, port⟩, split, read⟩ := Option.bind_eq_some_iff.1 read
    dsimp only at read
    split at read <;>
    · obtain ⟨_, -, read⟩ := Option.bind_eq_some_iff.1 read
      obtain ⟨named, served, read⟩ := Option.bind_eq_some_iff.1 read
      obtain rfl := Option.some.inj read
      exact ⟨rfl, host, _, split, served⟩

/-- The host is read from a piece of the text. -/
theorem exists_host_of_ofText? (scheme : Scheme) (s : Bytes) (authority : Authority)
    (read : ofText? scheme s = some authority) :
    ∃ host, host ⊆ s ∧ Host.ofText? host = some authority.host := by
  obtain ⟨-, host, port, split, served⟩ := exists_of_ofText? scheme s authority read
  refine ⟨host, List.Subset.trans (subset_of_splitPort? _ host port split) ?_, served⟩
  cases cut : cut? Mark.atSign s with
  | none => exact List.Subset.refl s
  | some parts =>
    rw [eq_of_cut? _ s parts.1 parts.2 cut, List.append_cons]
    exact List.subset_append_right _ _

end Authority

namespace Url

theorem ascii_of_lower (s start : Bytes) (ascii : ∀ b ∈ start, b < 0x80)
    (begins : startsWith (lower s) start = true) : ∀ b ∈ s.take start.length, b < 0x80 := by
  have table : ∀ b : UInt8, lowerByte b < 0x80 → b < 0x80 := forall_of_all _ (by decide +kernel)
  obtain ⟨behind, whole⟩ := List.isPrefixOf_iff_prefix.1 begins
  have front : (s.take start.length).map lowerByte = start := by
    rw [List.map_take, ← lower, ← whole, List.take_left]
  intro b member
  exact table b (ascii (lowerByte b) (front ▸ List.mem_map_of_mem member))

/-- A file has nothing but a path, which is all of the text but for slashes and a host in front of
it. -/
theorem exists_of_ofFileText? (s : Bytes) (url : Url) (read : ofFileText? s = some url) :
    ∃ front path, s = front ++ path ∧ (∀ b ∈ front, b < 0x80) ∧
      url = withRest .file none path := by
  rw [ofFileText?] at read
  split at read
  · contradiction
  dsimp only at read
  split at read
  · contradiction
  · next path found =>
    split at read
    · contradiction
    obtain rfl := Option.some.inj read
    split at found
    · next slashes =>
      obtain ⟨behind, rfl⟩ := List.isPrefixOf_iff_prefix.1 slashes
      have drop : (ofString "//" ++ behind).drop 2 = behind := rfl
      rw [drop] at found
      split at found
      · obtain rfl := Option.some.inj found
        exact ⟨_, behind, rfl, forall_mem_of_all _ _ (by decide), rfl⟩
      · obtain ⟨host, listed, rfl⟩ := Option.map_eq_some_iff.1 found
        have begins := List.find?_some listed
        have ascii : ∀ b ∈ host, b < 0x80 := by
          have table : localHosts.all (·.all (· < 0x80)) = true := by decide
          have all := List.all_eq_true.1 table host (List.mem_of_find?_eq_some listed)
          simpa using all
        refine ⟨ofString "//" ++ behind.take (host.length - 1), _, ?_, ?_, rfl⟩
        · rw [List.append_assoc, List.take_append_drop]
        · refine List.forall_mem_append.2
            ⟨forall_mem_of_all _ _ (by decide), fun b member => ?_⟩
          exact ascii_of_lower behind host ascii begins b
            (List.take_subset_take_left _ (Nat.sub_le _ _) member)
    · exact ⟨[], s, rfl, nofun, by rw [Option.some.inj found]⟩

/-- A text without control bytes and spaces names a scheme that is understood, and behind it either
a file or an authority with what follows. -/
theorem exists_of_ofText? (s : Bytes) (url : Url) (read : ofText? s = some url) :
    (∀ b ∈ untilNul s, isJunk b = false) ∧ ∃ name rest,
      Scheme.split? (untilNul s) = some (name, rest) ∧ Scheme.ofName? name = some url.scheme ∧
      (ofFileText? rest = some url ∨
        let behind := rest.dropWhile (· == Mark.slash)
        ∃ authority,
          Authority.ofText? url.scheme (behind.takeWhile fun b =>
            b != Mark.slash && b != Mark.question && b != Mark.hash) = some authority ∧
          url = withRest url.scheme (some authority) (behind.dropWhile fun b =>
            b != Mark.slash && b != Mark.question && b != Mark.hash)) := by
  rw [ofText?] at read
  dsimp only at read
  split at read
  · contradiction
  next fits =>
  simp only [Bool.or_eq_true, List.any_eq_true, not_or, not_exists, not_and,
    Bool.not_eq_true] at fits
  refine ⟨fits.2, ?_⟩
  obtain ⟨⟨name, rest⟩, split, read⟩ := Option.bind_eq_some_iff.1 read
  obtain ⟨scheme, known, read⟩ := Option.bind_eq_some_iff.1 read
  refine ⟨name, rest, split, ?_⟩
  dsimp only at read
  split at read
  · next file =>
    obtain ⟨front, path, -, -, rfl⟩ := exists_of_ofFileText? rest url read
    exact ⟨by rw [known, file]; rfl, .inl read⟩
  split at read
  · contradiction
  obtain ⟨authority, served, read⟩ := Option.bind_eq_some_iff.1 read
  obtain rfl := Option.some.inj read
  rw [drop_length_takeWhile] at served
  refine ⟨known, .inr ⟨authority, served, ?_⟩⟩
  rw [drop_length_takeWhile, drop_length_takeWhile]
  rfl

theorem exists_endpoint_of_isWeb (url : Bytes) (web : isWeb url = true) :
    ∃ endpoint, Endpoint.ofText? url = some endpoint ∧ endpoint.scheme.isWeb = true := by
  simp only [isWeb, Bool.and_eq_true, Option.any_eq_true] at web
  exact web.2

end Url

end FeedIntake
