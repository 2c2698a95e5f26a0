import FeedIntake.Content.MediaType
import FeedIntake.Fetch.Failure

/-!
The outcome of a fetch: a status, the body as it came, and what its sender said of it.
-/
namespace FeedIntake

/-- What the headers of an answer say of its body, and on which way it came. -/
structure Provenance where
  etag : Option Bytes := none
  lastModified : Option Bytes := none
  contentType : Option Bytes := none
  /-- The relay was asked for it. -/
  viaRelay : Bool := false
  deriving DecidableEq, Repr

structure Response where
  /-- The code with which the server answered, or that of a failure. -/
  status : Int
  url : Bytes
  content : Bytes := []
  encoding : Option Bytes := none
  feedType : Option Bytes := none
  provenance : Provenance := {}
  deriving DecidableEq, Repr

namespace Response

def failed (failure : Failure) (url : Bytes) (provenance : Provenance) : Response :=
  { status := failure.code, url, provenance }

/-- Whether the server gave what was asked for. -/
def isSuccess (status : Int) : Bool := 200 ≤ status && status < 300

def ok (response : Response) : Bool := isSuccess response.status

/-- The media type that the sender declared, if it declared one. -/
def mediaType? (response : Response) : Option Bytes :=
  (response.provenance.contentType.map MediaType.ofHeader).filter (!·.isEmpty)

end Response

end FeedIntake
