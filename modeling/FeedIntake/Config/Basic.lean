import FeedIntake.Config.Setting
import FeedIntake.Url.Reference

/-!
The configuration of the program: its fields, what is wrong with one, and how one is read from the
environment.
-/
namespace FeedIntake

/-- Why a configuration, or the proxy of a single call, is refused. -/
inductive ConfigError where
  | invalidInteger (setting : Setting) (text : Bytes)
  | integerOutOfRange (setting : Setting) (value : Int)
  | secretUnreadable (path : Bytes)
  | secretEmpty (path : Bytes)
  | invalidProxyUrl (url : Bytes)
  | missingProxyToken
  | invalidTimeout (value : Int)
  | invalidMaxContentLength (value : Int)
  | invalidMaxRedirects (value : Int)
  | invalidPoolSize (value : Int)
  /-- The proxy of one call is no page URL. -/
  | invalidCallProxyUrl
  /-- The proxy of one call has no token. -/
  | missingCallProxyToken
  deriving DecidableEq, Repr

/-- The fields of a configuration, whether they fit together or not. -/
structure Config where
  logLevel : Bytes := Bytes.ofString "info"
  proxyUrl : Option Bytes := none
  proxyToken : Option Bytes := none
  /-- Seconds that a request may take. -/
  timeout : Int := 30
  /-- Bytes that a body may have. -/
  maxContentLength : Int := 10485760
  maxRedirects : Int := 10
  /-- Workers of a pool; 0 leaves the number to the machine. -/
  poolSize : Int := 0
  deriving DecidableEq, Repr

namespace Config

/-- The longest timeout: a request through a proxy waits twice as long, which still has to fit a
32-bit field. -/
def timeoutLimit : Int := int32Range.2 / 2

def proxyFault? (config : Config) : Option ConfigError :=
  match config.proxyUrl with
  | none => none
  | some url =>
    if !Url.isWeb url then some (.invalidProxyUrl url)
    else if (config.proxyToken.getD []).isEmpty then some .missingProxyToken
    else none

def rangeFault? (config : Config) : Option ConfigError :=
  if config.timeout < 1 || timeoutLimit < config.timeout then some (.invalidTimeout config.timeout)
  else if config.maxContentLength < 1 then
    some (.invalidMaxContentLength config.maxContentLength)
  else if config.maxRedirects < 0 then some (.invalidMaxRedirects config.maxRedirects)
  else if config.poolSize < 0 then some (.invalidPoolSize config.poolSize)
  else none

def fault? (config : Config) : Option ConfigError := config.proxyFault? <|> config.rangeFault?

def Valid (config : Config) : Prop := config.fault? = none

instance (config : Config) : Decidable config.Valid :=
  inferInstanceAs (Decidable (config.fault? = none))

def readInt64 (environment : Environment) (setting : Setting) (usual : Int) :
    Except ConfigError Int :=
  let text := environment setting
  if text.isEmpty then .ok usual
  else match (integer? text).filter (inRange int64Range) with
    | some value => .ok value
    | none => .error (.invalidInteger setting text)

def readInt32 (environment : Environment) (setting : Setting) (usual : Int) :
    Except ConfigError Int := do
  let value ← readInt64 environment setting usual
  if inRange int32Range value then .ok value else .error (.integerOutOfRange setting value)

/-- The file that has to be read for the token, if there is one. -/
def secretPath? (environment : Environment) : Option Bytes :=
  if !(environment .proxyToken).isEmpty then none
  else if (environment .proxyTokenFile).isEmpty then none
  else some (environment .proxyTokenFile)

/-- Line breaks and spaces, which may end a file with a secret. -/
def endsSecret (b : UInt8) : Bool :=
  b == Mark.lineFeed || b == Mark.carriageReturn || b == Mark.space

/-- The token: given by itself, or the content of a file, which is none if it cannot be opened. -/
def readToken (environment : Environment) (secret : Option Bytes) :
    Except ConfigError (Option Bytes) :=
  match secretPath? environment with
  | none =>
    let token := environment .proxyToken
    .ok (if token.isEmpty then none else some token)
  | some path =>
    match secret with
    | none => .error (.secretUnreadable path)
    | some content =>
      let token := Bytes.dropEndWhile endsSecret content
      if token.isEmpty then .error (.secretEmpty path) else .ok (some token)

/-- The configuration that the environment gives, with the content of the file that `secretPath?`
asks for. -/
def load (environment : Environment) (secret : Option Bytes) : Except ConfigError Config := do
  let usual : Config := {}
  let logLevel := environment .logLevel
  let proxyUrl := environment .proxyUrl
  let proxyToken ← readToken environment secret
  let timeout ← readInt32 environment .timeout usual.timeout
  let maxContentLength ← readInt64 environment .maxContentLength usual.maxContentLength
  let maxRedirects ← readInt32 environment .maxRedirects usual.maxRedirects
  let poolSize ← readInt32 environment .poolSize usual.poolSize
  let config : Config := {
    logLevel := if logLevel.isEmpty then usual.logLevel else logLevel
    proxyUrl := if proxyUrl.isEmpty then none else some proxyUrl
    proxyToken, timeout, maxContentLength, maxRedirects, poolSize }
  match config.fault? with
  | none => .ok config
  | some fault => .error fault

end Config

namespace ConfigError

def code : ConfigError → Bytes
  | invalidInteger _ _ => Bytes.ofString "invalid_integer"
  | integerOutOfRange _ _ => Bytes.ofString "integer_out_of_range"
  | secretUnreadable _ => Bytes.ofString "secret_file_unreadable"
  | secretEmpty _ => Bytes.ofString "secret_file_empty"
  | invalidProxyUrl _ | invalidCallProxyUrl => Bytes.ofString "invalid_proxy_url"
  | missingProxyToken | missingCallProxyToken => Bytes.ofString "missing_proxy_token"
  | invalidTimeout _ => Bytes.ofString "invalid_timeout"
  | invalidMaxContentLength _ => Bytes.ofString "invalid_max_content_length"
  | invalidMaxRedirects _ => Bytes.ofString "invalid_max_redirects"
  | invalidPoolSize _ => Bytes.ofString "invalid_thread_pool_size"

def refusal (setting : Setting) (condition : String) (value : Int) : Bytes :=
  setting.name ++ Bytes.ofString condition ++ Bytes.ofString " (got " ++ Numeral.signed value
    ++ Bytes.ofString ")"

def message : ConfigError → Bytes
  | invalidInteger setting text =>
    Bytes.ofString "Invalid integer value for " ++ setting.name ++ Bytes.ofString ": " ++ text
  | integerOutOfRange setting value =>
    Bytes.ofString "Integer value for " ++ setting.name ++ Bytes.ofString " is out of range: "
      ++ Numeral.signed value
  | secretUnreadable path =>
    Bytes.ofString "Cannot open secret file specified by " ++ Setting.proxyTokenFile.name
      ++ Bytes.ofString ": " ++ path
  | secretEmpty path =>
    Bytes.ofString "Secret file is empty: " ++ path ++ Bytes.ofString " (from "
      ++ Setting.proxyTokenFile.name ++ Bytes.ofString ")"
  | invalidProxyUrl url =>
    Setting.proxyUrl.name ++ Bytes.ofString " must be an http(s) URL (got '" ++ url
      ++ Bytes.ofString "')"
  | missingProxyToken =>
    Setting.proxyToken.name ++ Bytes.ofString " is required when "
      ++ Setting.proxyUrl.name ++ Bytes.ofString " is set"
  | invalidTimeout value =>
    Setting.timeout.name ++ Bytes.ofString " must be between 1 and "
      ++ Numeral.signed Config.timeoutLimit ++ Bytes.ofString " (got " ++ Numeral.signed value
      ++ Bytes.ofString ")"
  | invalidMaxContentLength value => refusal .maxContentLength " must be >= 1" value
  | invalidMaxRedirects value => refusal .maxRedirects " must be >= 0" value
  | invalidPoolSize value => refusal .poolSize " must be >= 0" value
  | invalidCallProxyUrl => Bytes.ofString "RSS proxy URL is not a valid http(s) URL"
  | missingCallProxyToken => Bytes.ofString "RSS proxy URL set without a token"

end ConfigError

end FeedIntake
