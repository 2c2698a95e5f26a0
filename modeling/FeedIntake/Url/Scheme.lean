import FeedIntake.Bytes.Ascii

/-!
The schemes of URLs that are understood, and how a scheme stands at the front of a text.
-/
namespace FeedIntake

inductive Scheme where
  | dict | file | ftp | ftps | gopher | gophers | http | https | imap | imaps | ldap | ldaps | mqtt
  | pop3 | pop3s | rtmp | rtmpe | rtmps | rtmpt | rtmpte | rtmpts | rtsp | scp | sftp | smb | smbs
  | smtp | smtps | telnet | tftp
  deriving DecidableEq, Repr

namespace Scheme

def table : List (String × Scheme) := [
  ("dict", dict), ("file", file), ("ftp", ftp), ("ftps", ftps), ("gopher", gopher),
  ("gophers", gophers), ("http", http), ("https", https), ("imap", imap), ("imaps", imaps),
  ("ldap", ldap), ("ldaps", ldaps), ("mqtt", mqtt), ("pop3", pop3), ("pop3s", pop3s),
  ("rtmp", rtmp), ("rtmpe", rtmpe), ("rtmps", rtmps), ("rtmpt", rtmpt), ("rtmpte", rtmpte),
  ("rtmpts", rtmpts), ("rtsp", rtsp), ("scp", scp), ("sftp", sftp), ("smb", smb), ("smbs", smbs),
  ("smtp", smtp), ("smtps", smtps), ("telnet", telnet), ("tftp", tftp)]

/-- The scheme with this name, which is in lower case. -/
def ofName? (name : Bytes) : Option Scheme :=
  (table.find? fun entry => Bytes.ofString entry.1 == name).map (·.2)

def name (scheme : Scheme) : Bytes :=
  ((table.find? fun entry => entry.2 == scheme).map fun entry => Bytes.ofString entry.1).getD []

/-- The port that is used where a URL names none; files have none, which is written 0. -/
def defaultPort : Scheme → Nat
  | dict => 2628
  | file => 0
  | ftp => 21
  | ftps => 990
  | gopher | gophers => 70
  | http | rtmpt | rtmpte => 80
  | https | rtmps | rtmpts => 443
  | imap => 143
  | imaps => 993
  | ldap => 389
  | ldaps => 636
  | mqtt => 1883
  | pop3 => 110
  | pop3s => 995
  | rtmp | rtmpe => 1935
  | rtsp => 554
  | scp | sftp => 22
  | smb | smbs => 445
  | smtp => 25
  | smtps => 465
  | telnet => 23
  | tftp => 69

/-- Whether a login may carry options behind a semicolon: the mail schemes. -/
def takesOptions : Scheme → Bool
  | imap | imaps | pop3 | pop3s | smtp | smtps => true
  | _ => false

def isWeb : Scheme → Bool
  | http | https => true
  | _ => false

/-- A byte that may stand in a scheme. -/
def isNameByte (b : UInt8) : Bool :=
  Bytes.isLetter b || Bytes.isDigit b || b == Mark.plus || b == Mark.hyphen || b == Mark.dot

/-- The most bytes that a scheme has. -/
def nameLimit : Nat := 40

/-- The scheme in front of the first colon, in lower case and whether understood or not, and the
text behind the colon. -/
def split? (s : Bytes) : Option (Bytes × Bytes) :=
  let front := (s.take nameLimit).takeWhile isNameByte
  match s.drop front.length with
  | Mark.colon :: rest =>
    if front.isEmpty then none else some (Bytes.lower front, rest)
  | _ => none

theorem ofName?_name (scheme : Scheme) : ofName? scheme.name = some scheme := by
  cases scheme <;> rfl

end Scheme

end FeedIntake
