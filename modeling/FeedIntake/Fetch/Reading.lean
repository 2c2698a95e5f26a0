import FeedIntake.Fetch.Redirects
import FeedIntake.Fetch.Relay

/-!
Fetching with a configuration: a fetch goes to the relay if the caller asks for that and there is
one, and else to the server itself.
-/
namespace FeedIntake

/-- A configuration with which pages can be fetched. -/
structure Reader where
  config : Config
  valid : config.Valid := by decide

namespace Reader

/-- The reader with a configuration, or what is wrong with it. -/
def ofConfig (config : Config) : Except ConfigError Reader :=
  match h : config.fault? with
  | some fault => .error fault
  | none => .ok ⟨config, h⟩

/-- The relay for a fetch, if it has to go to one. What a call gives comes before what is
configured. -/
def relay? (reader : Reader) (options : FetchOptions) :
    Except ConfigError (Option Relay.Client) :=
  let url? := if options.useRelay then options.relayUrl <|> reader.config.proxyUrl else none
  match url? with
  | none => .ok none
  | some url =>
    let token := (options.relayToken <|> reader.config.proxyToken).getD []
    if !Url.isWeb url then .error .invalidCallProxyUrl
    else if token.isEmpty then .error .missingCallProxyToken
    else .ok (some
      { url, token, timeout := reader.config.timeout, bodyLimit := reader.config.maxContentLength })

variable [Charset.Library] {World : Type}

/-- A page fetched through a relay; a URL that may not be fetched is not sent there. -/
def readRelayed (network : Network World) (client : Relay.Client) (url : Bytes)
    (options : FetchOptions) (world : World) : Run World Response :=
  if !Url.isWeb url then .pure (.failed .unknown url { viaRelay := true }) world
  else
    (Relay.fetch network client url (Fetch.headers options) world).andThen fun response world =>
      .pure (Fetch.describe options response) world

def readDirect (reader : Reader) (network : Network World) (url : Bytes) (options : FetchOptions)
    (world : World) : Run World Response :=
  Fetch.follow network reader.config options reader.config.maxRedirects.toNat url world

/-- The outcome of a fetch; it is an error only if it should go to a relay that cannot be asked. -/
def read (reader : Reader) (network : Network World) (url : Bytes) (options : FetchOptions)
    (world : World) : Except ConfigError (Run World Response) :=
  match reader.relay? options with
  | .error fault => .error fault
  | .ok (some client) => .ok (readRelayed network client url options world)
  | .ok none => .ok (reader.readDirect network url options world)

end Reader

end FeedIntake
