import FeedIntake.Proofs.Fetch.Routes

/-!
Where a read goes, and what it gives away of the relay's token on the way. Main statement: a read is
refused exactly if it should go to a relay that cannot be asked, and then whatever the network is;
one that goes to a relay sends it one request at most; and one that does not is the same for all
tokens.
-/
namespace FeedIntake

namespace Reader

/-- The relay that a read has to go to: that of the call, else the configured one. -/
def relayUrl? (reader : Reader) (options : FetchOptions) : Option Bytes :=
  if options.useRelay then options.relayUrl <|> reader.config.proxyUrl else none

/-- The token for a relay: that of the call, else the configured one. -/
def relayToken? (reader : Reader) (options : FetchOptions) : Option Bytes :=
  options.relayToken <|> reader.config.proxyToken

/-- The relay of a read cannot be asked: its URL is no page's, or there is no token for it. -/
def Misrouted (reader : Reader) (options : FetchOptions) : Prop :=
  ∃ relay, reader.relayUrl? options = some relay ∧
    (Url.isWeb relay = false ∨ reader.relayToken? options = none ∨
      reader.relayToken? options = some [])

/-- Two reads that differ in the token for a relay at most, and also in its URL if no relay is asked
for. -/
structure SameButToken (reader reader' : Reader) (options options' : FetchOptions) : Prop where
  sameConfig : reader'.config = { reader.config with
    proxyUrl := reader'.config.proxyUrl
    proxyToken := reader'.config.proxyToken }
  sameOptions : options' = { options with
    relayUrl := options'.relayUrl
    relayToken := options'.relayToken }
  sameRelay : options.useRelay = true →
    reader'.config.proxyUrl = reader.config.proxyUrl ∧ options'.relayUrl = options.relayUrl

section Route

variable (reader : Reader) (options : FetchOptions)

theorem relay?_of_none (direct : reader.relayUrl? options = none) :
    reader.relay? options = .ok none := by
  rw [relayUrl?] at direct
  simp only [relay?, direct]

theorem relay?_of_some (relay : Bytes) (routed : reader.relayUrl? options = some relay) :
    reader.relay? options =
      if Url.isWeb relay = false then .error .invalidCallProxyUrl
      else if (reader.relayToken? options).getD [] = [] then .error .missingCallProxyToken
      else .ok (some {
        url := relay
        token := (reader.relayToken? options).getD []
        timeout := reader.config.timeout
        bodyLimit := reader.config.maxContentLength }) := by
  rw [relayUrl?] at routed
  simp only [relay?, routed]
  simp [relayToken?]

/-- The ways of a read: to its server, to a relay, or nowhere. -/
theorem relay?_cases :
    (reader.relayUrl? options = none ∧ reader.relay? options = .ok none) ∨
    (reader.Misrouted options ∧ ∃ fault,
      (fault = .invalidCallProxyUrl ∨ fault = .missingCallProxyToken) ∧
      reader.relay? options = .error fault) ∨
    (¬reader.Misrouted options ∧ ∃ client : Relay.Client,
      reader.relayUrl? options = some client.url ∧ reader.relay? options = .ok (some client)) := by
  cases routed : reader.relayUrl? options with
  | none => exact .inl ⟨rfl, reader.relay?_of_none options routed⟩
  | some relay =>
    have decided := reader.relay?_of_some options relay routed
    right
    cases web : Url.isWeb relay with
    | false =>
      rw [if_pos web] at decided
      exact .inl ⟨⟨relay, routed, .inl web⟩, _, .inl rfl, decided⟩
    | true =>
      rw [if_neg (by simp [web])] at decided
      cases token : reader.relayToken? options with
      | none =>
        rw [if_pos (by simp [token])] at decided
        exact .inl ⟨⟨relay, routed, .inr (.inl token)⟩, _, .inr rfl, decided⟩
      | some secret =>
        by_cases empty : secret = []
        · subst empty
          rw [if_pos (by simp [token])] at decided
          exact .inl ⟨⟨relay, routed, .inr (.inr token)⟩, _, .inr rfl, decided⟩
        · rw [if_neg (by simp [token, empty])] at decided
          refine .inr ⟨?_, _, rfl, decided⟩
          rintro ⟨relay', routed', noPage | none | noText⟩
          · obtain rfl := Option.some.inj (routed.symm.trans routed')
            simp [web] at noPage
          · simp [token] at none
          · exact empty (Option.some.inj (token.symm.trans noText))

end Route

end Reader

namespace Fetch

variable [Charset.Library] {World : Type} (network : Network World) (config : Config)
  (options : FetchOptions)

/-- A fetch from the server itself does not ask for what there is to know of a relay. -/
theorem follow_same (proxyUrl proxyToken relayUrl relayToken : Option Bytes) (left : Nat)
    (url : Bytes) (world : World) :
    follow network { config with proxyUrl, proxyToken } { options with relayUrl, relayToken } left
        url world =
      follow network config options left url world := by
  -- A hop reads none of these fields, whatever the URL; the induction is on what is left to follow.
  have hops (url : Bytes) (world : World) :
      hop network { config with proxyUrl, proxyToken } { options with relayUrl, relayToken } url
          world =
        hop network config options url world := rfl
  induction left generalizing url world with
  | zero => rw [follow, follow, hops]
  | succ left ih =>
    rw [follow, follow, hops]
    simp only [ih]

end Fetch

namespace Reader

variable {reader reader' : Reader} {options options' : FetchOptions}

theorem SameButToken.relayUrl?_eq (same : SameButToken reader reader' options options') :
    reader'.relayUrl? options' = reader.relayUrl? options := by
  have useRelay : options'.useRelay = options.useRelay := by rw [same.sameOptions]
  rw [relayUrl?, relayUrl?, useRelay]
  split
  · next asked =>
    obtain ⟨url, relay⟩ := same.sameRelay asked
    rw [url, relay]
  · rfl

variable [Charset.Library]

theorem SameButToken.readDirect_eq (same : SameButToken reader reader' options options')
    {World : Type} (network : Network World) (url : Bytes) (world : World) :
    reader'.readDirect network url options' world =
      reader.readDirect network url options world := by
  rw [readDirect, same.sameConfig, same.sameOptions]
  exact Fetch.follow_same network reader.config options _ _ _ _ _ url world

theorem read_misrouted (misrouted : reader.Misrouted options) :
    ∃ fault, (fault = .invalidCallProxyUrl ∨ fault = .missingCallProxyToken) ∧
      ∀ (World : Type) (network : Network World) url world,
        reader.read network url options world = .error fault := by
  rcases reader.relay?_cases options with ⟨direct, -⟩ | ⟨-, fault, kind, refused⟩ | ⟨sound, -⟩
  · obtain ⟨relay, routed, -⟩ := misrouted
    simp [direct] at routed
  · refine ⟨fault, kind, fun World network url world => ?_⟩
    exact reader.read_of_fault network url options world refused
  · exact absurd misrouted sound

theorem exists_read_eq_ok (sound : ¬reader.Misrouted options) {World : Type}
    (network : Network World) (url : Bytes) (world : World) :
    ∃ run, reader.read network url options world = .ok run := by
  rcases reader.relay?_cases options with ⟨-, direct⟩ | ⟨misrouted, -⟩ | ⟨-, client, -, routed⟩
  · exact ⟨_, reader.read_of_direct network url options world direct⟩
  · exact absurd misrouted sound
  · exact ⟨_, reader.read_of_relayed network url options world routed⟩

theorem readRelayed_asks {World : Type} (network : Network World) (client : Relay.Client)
    (url : Bytes) (world : World) :
    (Url.isWeb url = false ∧ (readRelayed network client url options world).events = []) ∨
    (Url.isWeb url = true ∧ ∃ request,
      (readRelayed network client url options world).events = [.request request] ∧
      request.method = Bytes.ofString "POST" ∧ request.url = client.url) := by
  cases web : Url.isWeb url with
  | false => exact .inl ⟨rfl, by simp [readRelayed, web, Run.pure]⟩
  | true =>
    exact .inr ⟨rfl, _, readRelayed_events network client url options world web, rfl, rfl⟩

/-- A read is refused exactly if it should go to a relay whose URL is no page's or for which there
is no token, and then it is refused alike for every network: nothing is asked of one. Any other read
gives a response. One that goes to a relay looks up nothing and sends one request to the relay, or
none if its own URL is no page's. One that does not go to a relay asks for the same, in the same
order, and gives the same response whatever the token is, and if it should not go to one, whatever
the URL of the relay is. -/
theorem read_confines (reader : Reader) (options : FetchOptions) :
    (∀ (World : Type) (network : Network World) url world,
      (∃ fault, reader.read network url options world = .error fault) ↔
        reader.Misrouted options) ∧
    (reader.Misrouted options → ∃ fault,
      (fault = .invalidCallProxyUrl ∨ fault = .missingCallProxyToken) ∧
      ∀ (World : Type) (network : Network World) url world,
        reader.read network url options world = .error fault) ∧
    (∀ relay, reader.relayUrl? options = some relay → ¬reader.Misrouted options →
      ∀ (World : Type) (network : Network World) url world,
        ∃ run, reader.read network url options world = .ok run ∧
          (Url.isWeb url = false ∧ run.events = [] ∨
            Url.isWeb url = true ∧ ∃ request, run.events = [.request request] ∧
              request.method = Bytes.ofString "POST" ∧ request.url = relay)) ∧
    (reader.relayUrl? options = none →
      ∀ reader' options', SameButToken reader reader' options options' →
        ∀ (World : Type) (network : Network World) url world,
          ∃ run, reader.read network url options world = .ok run ∧
            reader'.read network url options' world = .ok run) := by
  refine ⟨fun World network url world => ⟨?_, ?_⟩, read_misrouted, ?_, ?_⟩
  · rintro ⟨fault, refused⟩
    by_contra sound
    obtain ⟨run, returned⟩ := exists_read_eq_ok sound network url world
    rw [returned] at refused
    cases refused
  · intro misrouted
    obtain ⟨fault, -, refused⟩ := read_misrouted misrouted
    exact ⟨fault, refused World network url world⟩
  · intro relay routed sound World network url world
    rcases reader.relay?_cases options with ⟨direct, -⟩ | ⟨misrouted, -⟩ | ⟨-, client, url?, asked⟩
    · simp [direct] at routed
    · exact absurd misrouted sound
    · obtain rfl : client.url = relay := Option.some.inj (url?.symm.trans routed)
      exact ⟨_, reader.read_of_relayed network url options world asked,
        readRelayed_asks network client url world⟩
  · intro direct reader' options' same World network url world
    have direct' : reader'.relayUrl? options' = none := same.relayUrl?_eq.trans direct
    refine ⟨_, reader.read_of_direct network url options world
      (reader.relay?_of_none options direct), ?_⟩
    rw [reader'.read_of_direct network url options' world
      (reader'.relay?_of_none options' direct'), same.readDirect_eq]

end Reader

namespace Fetch.Secret

/-- A configured relay, with one token and with another. -/
def reader : Reader where
  config := {
    proxyUrl := some (Bytes.ofString "http://relay.example/")
    proxyToken := some (Bytes.ofString "secret") }
  valid := by decide +kernel

def stranger : Reader where
  config := { reader.config with proxyToken := some (Bytes.ofString "guess") }
  valid := by decide +kernel

def start : Bytes := Bytes.ofString "http://a.example/"

def answers : List Script.Answer := [{ status := 200, body := Bytes.ofString "<rss>" }]

/-- An empty token of the call hides the configured one; and what both readers do without the relay
is the same. -/
theorem read_confines_secret :
    (∃ fault, reader.read Script.offline start
      { useRelay := true, relayToken := some [] } answers = .error fault) ∧
    ∃ run, reader.read Script.offline start { allowPrivate := true } answers = .ok run ∧
      stranger.read Script.offline start { allowPrivate := true } answers = .ok run ∧
      run.result.content = Bytes.ofString "<rss>" := by
  constructor
  · obtain ⟨exactly, -⟩ := reader.read_confines { useRelay := true, relayToken := some [] }
    exact (exactly _ Script.offline start answers).2 ⟨_, rfl, .inr (.inr rfl)⟩
  · obtain ⟨-, -, -, alike⟩ := reader.read_confines { allowPrivate := true }
    obtain ⟨run, same, same'⟩ := alike rfl stranger { allowPrivate := true }
      ⟨rfl, rfl, fun asked => by cases asked⟩ _ Script.offline start answers
    obtain rfl : reader.readDirect Script.offline start { allowPrivate := true } answers = run :=
      Except.ok.inj same
    exact ⟨_, same, same', by decide +kernel⟩

end Fetch.Secret

end FeedIntake
