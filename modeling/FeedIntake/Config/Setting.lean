import FeedIntake.Numeral

/-!
Settings in the environment: their variables, and the reading of numbers from them.
-/
namespace FeedIntake

inductive Setting where
  | logLevel
  | proxyUrl
  | proxyToken
  | proxyTokenFile
  | timeout
  | maxContentLength
  | maxRedirects
  | poolSize
  deriving DecidableEq, Repr

namespace Setting

def name : Setting → Bytes
  | logLevel => Bytes.ofString "FEEDLIB_LOG_LEVEL"
  | proxyUrl => Bytes.ofString "FEEDLIB_RSS_PROXY_URL"
  | proxyToken => Bytes.ofString "FEEDLIB_RSS_PROXY_TOKEN"
  | proxyTokenFile => Bytes.ofString "FEEDLIB_RSS_PROXY_TOKEN_FILE"
  | timeout => Bytes.ofString "FEEDLIB_REQUEST_TIMEOUT_SECONDS"
  | maxContentLength => Bytes.ofString "FEEDLIB_MAX_CONTENT_LENGTH"
  | maxRedirects => Bytes.ofString "FEEDLIB_MAX_REDIRECTS"
  | poolSize => Bytes.ofString "FEEDLIB_THREAD_POOL_SIZE"

end Setting

/-- The settings that are given; one that is not given and an empty one are the same. -/
abbrev Environment := Setting → Bytes

def int64Range : Int × Int := (-0x8000000000000000, 0x7FFFFFFFFFFFFFFF)

def int32Range : Int × Int := (-0x80000000, 0x7FFFFFFF)

def inRange (range : Int × Int) (value : Int) : Bool := range.1 ≤ value && value ≤ range.2

/-- The integer that a text consists of: blanks, a sign or none, and decimal digits. -/
def integer? (s : Bytes) : Option Int :=
  match s.dropWhile Bytes.isBlank with
  | Mark.hyphen :: digits => (Numeral.decimal? digits).map fun n => -(n : Int)
  | Mark.plus :: digits => (Numeral.decimal? digits).map fun n => (n : Int)
  | digits => (Numeral.decimal? digits).map fun n => (n : Int)

end FeedIntake
