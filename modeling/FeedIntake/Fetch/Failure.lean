import FeedIntake.Numeral

/-!
Failures of a fetch. Each has a negative code, so that codes and the status codes of servers share
one number without ever meeting.
-/
namespace FeedIntake

/-- Why a fetch brought no answer of a server. -/
inductive Failure where
  | unknown
  | connection
  | nameResolution
  | privateAddress
  | connectionTimeout
  | encryption
  | readTimeout
  | connectionReset
  | proxy
  /-- The relay was not reached, did not answer or could not fetch the page. -/
  | relay
  | response
  | tooManyRedirects
  | chunkedEncoding
  | contentDecoding
  | unsupportedContentType
  deriving DecidableEq, Repr

namespace Failure

def all : List Failure :=
  [unknown, connection, nameResolution, privateAddress, connectionTimeout, encryption, readTimeout,
    connectionReset, proxy, relay, response, tooManyRedirects, chunkedEncoding, contentDecoding,
    unsupportedContentType]

/-- The number that stands for a failure in the place of a status code. -/
def code : Failure → Int
  | unknown => -100
  | connection => -200
  | nameResolution => -201
  | privateAddress => -202
  | connectionTimeout => -203
  | encryption => -204
  | readTimeout => -205
  | connectionReset => -206
  | proxy => -300
  | relay => -301
  | response => -400
  | tooManyRedirects => -401
  | chunkedEncoding => -402
  | contentDecoding => -403
  | unsupportedContentType => -404

def name : Failure → Bytes
  | unknown => Bytes.ofString "UNKNOWN_ERROR"
  | connection => Bytes.ofString "CONNECTION_ERROR"
  | nameResolution => Bytes.ofString "DNS_ERROR"
  | privateAddress => Bytes.ofString "PRIVATE_ADDRESS_ERROR"
  | connectionTimeout => Bytes.ofString "CONNECTION_TIMEOUT"
  | encryption => Bytes.ofString "SSL_ERROR"
  | readTimeout => Bytes.ofString "READ_TIMEOUT"
  | connectionReset => Bytes.ofString "CONNECTION_RESET"
  | proxy => Bytes.ofString "PROXY_ERROR"
  | relay => Bytes.ofString "RSS_PROXY_ERROR"
  | response => Bytes.ofString "RESPONSE_ERROR"
  | tooManyRedirects => Bytes.ofString "TOO_MANY_REDIRECT_ERROR"
  | chunkedEncoding => Bytes.ofString "CHUNKED_ENCODING_ERROR"
  | contentDecoding => Bytes.ofString "CONTENT_DECODING_ERROR"
  | unsupportedContentType => Bytes.ofString "CONTENT_TYPE_NOT_SUPPORT_ERROR"

/-- The failure that a number stands for. -/
def ofCode? (code : Int) : Option Failure := all.find? fun failure => failure.code == code

/-- The failure behind a number with which the network layer reports the end of a transfer. A
timeout means something else before a connection stands than behind it. -/
def ofTransfer (number : Int) (connected : Bool) : Failure :=
  if number == 5 then proxy
  else if number == 6 then nameResolution
  else if number == 7 then connection
  else if number == 28 then if connected then readTimeout else connectionTimeout
  else if number == 47 then tooManyRedirects
  else if number == 18 then chunkedEncoding
  else if number == 61 then contentDecoding
  else if [8, 23, 63].contains number then response
  else if [16, 52, 55, 56, 92].contains number then connectionReset
  else if [35, 58, 59, 60, 77, 83, 90, 91].contains number then encryption
  else unknown

theorem code_neg (failure : Failure) : failure.code < 0 := by cases failure <;> decide

theorem ofCode?_code (failure : Failure) : ofCode? failure.code = some failure := by
  cases failure <;> decide

end Failure

/-- The name of a status: of a failure, or of the code with which a server answered. -/
def statusName (status : Int) : Bytes :=
  match Failure.ofCode? status with
  | some failure => failure.name
  | none => Bytes.ofString "HTTP_" ++ Numeral.signed status

end FeedIntake
