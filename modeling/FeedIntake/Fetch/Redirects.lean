import FeedIntake.Charset.Detection
import FeedIntake.Config.Basic
import FeedIntake.Fetch.Admission

/-!
Fetching from the server itself. A fetch is a chain of hops: each hop refuses its URL, ends the
fetch with a response, or is sent on to another URL. The number of redirects that may still be
followed bounds the chain.
-/
namespace FeedIntake

/-- What a caller asks of one fetch. -/
structure FetchOptions where
  useRelay : Bool := false
  allowPrivate : Bool := false
  allowAnyContent : Bool := false
  /-- The relay of this fetch, in place of the configured one. -/
  relayUrl : Option Bytes := none
  relayToken : Option Bytes := none
  /-- What is known already: the fetch may answer that nothing has changed. -/
  etag : Option Bytes := none
  lastModified : Option Bytes := none
  deriving DecidableEq, Repr

namespace Fetch

def userAgent : Bytes := Bytes.ofString "feedlib/1.0 (feed fetcher; compatible; Mozilla/5.0)"

def acceptedTypes : Bytes := Bytes.ofString <|
  "application/rss+xml, application/atom+xml, application/feed+json, application/xml;q=0.9, "
    ++ "text/html;q=0.8, */*;q=0.5"

def headers (options : FetchOptions) : List (Bytes × Bytes) :=
  [(Bytes.ofString "User-Agent", userAgent), (Bytes.ofString "Accept", acceptedTypes)]
    ++ (options.etag.map fun etag => (Bytes.ofString "If-None-Match", etag)).toList
    ++ (options.lastModified.map fun date => (Bytes.ofString "If-Modified-Since", date)).toList

/-- The request for a page, to an address that may be pinned. -/
def request (config : Config) (options : FetchOptions) (url pin : Bytes) : Request where
  method := Bytes.ofString "GET"
  url := url
  headers := headers options
  pin := pin
  timeout := config.timeout
  bodyLimit := config.maxContentLength
  gated := !options.allowAnyContent

variable [Charset.Library]

/-- A response with the family and charset of its content, unless it is the success of a fetch whose
content is not supported. A failure has neither. -/
def describe (options : FetchOptions) (response : Response) : Response :=
  if response.status < 0 then response
  else
    let family :=
      if response.ok then
        Family.classify? response.provenance.contentType response.content response.url
      else none
    if response.ok && family.isNone && !options.allowAnyContent then
      .failed .unsupportedContentType response.url response.provenance
    else
      let declared := response.provenance.contentType.bind Label.ofContentType?
      { response with
        feedType := family.map Family.name
        encoding :=
          if response.content.isEmpty then none
          else some (Charset.detect declared response.content) }

/-- Whether a status tells to look elsewhere. -/
def isRedirect (status : Int) : Bool := [301, 302, 303, 307, 308].contains status

/-- What one hop of a fetch comes to. -/
inductive Hop where
  | done (response : Response)
  /-- The fetch goes on at another URL, unless this redirect is one too many. -/
  | redirected (target : Bytes) (provenance : Provenance)
  deriving DecidableEq, Repr

/-- What the reply to the request for a page comes to. -/
def Hop.ofReply (options : FetchOptions) (url : Bytes) (reply : Reply) : Hop :=
  let provenance := reply.provenance false
  match reply.ending with
  | .rejected => .done (.failed .unsupportedContentType url provenance)
  | .failed failure => .done (.failed failure url provenance)
  | .complete =>
    let location := (reply.headers.value? "location").getD []
    if isRedirect reply.status && !location.isEmpty then
      .redirected (Url.normalize location url) provenance
    else
      .done (describe options { status := reply.status, url, content := reply.body, provenance })

/-- The pin for a URL, or why it is refused. -/
def permit {World : Type} (network : Network World) (options : FetchOptions) (url : Bytes)
    (world : World) : Run World (Except Failure Bytes) :=
  if !Url.isWeb url then .pure (.error .unknown) world
  else if options.allowPrivate then .pure (.ok []) world
  else
    (Admission.check network url world).andThen fun verdict world =>
      .pure (match verdict with
        | .invalidUrl => .error .unknown
        | .unresolved _ _ => .error .nameResolution
        | .nonPublic _ _ _ => .error .privateAddress
        | .allowed _ _ _ => .ok verdict.pin) world

/-- One hop: nothing is sent to a URL that is not admitted. -/
def hop {World : Type} (network : Network World) (config : Config) (options : FetchOptions)
    (url : Bytes) (world : World) : Run World Hop :=
  (permit network options url world).andThen fun permitted world =>
    match permitted with
    | .error failure => .pure (.done (.failed failure url {})) world
    | .ok pin =>
      (network.send (request config options url pin) world).andThen fun reply world =>
        .pure (.ofReply options url reply) world

/-- A page fetched from its server, with so many redirects that may still be followed. -/
def follow {World : Type} (network : Network World) (config : Config) (options : FetchOptions) :
    Nat → Bytes → World → Run World Response
  | left, url, world =>
    (hop network config options url world).andThen fun outcome world =>
      match outcome with
      | .done response => .pure response world
      | .redirected target provenance =>
        match left with
        | 0 => .pure (.failed .tooManyRedirects url provenance) world
        | left + 1 => follow network config options left target world

end Fetch

end FeedIntake
