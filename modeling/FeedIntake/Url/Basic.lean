import FeedIntake.Numeral
import FeedIntake.Url.Host
import FeedIntake.Url.Path
import FeedIntake.Url.Scheme

/-!
URLs in parts: reading an absolute URL, printing one, and the few parts that a connection needs.
-/
namespace FeedIntake

/-- What stands in front of the host: a user, who may be empty, with what belongs to it. -/
structure Login where
  user : Bytes
  password : Option Bytes
  options : Option Bytes
  deriving DecidableEq, Repr

namespace Login

/-- A login text in parts: the password is behind the first colon and, where options are taken, they
are behind the first semicolon; whichever comes first ends where the other begins. -/
def ofText (takesOptions : Bool) (s : Bytes) : Login :=
  let user := s.takeWhile fun b => b != Mark.colon && !(takesOptions && b == Mark.semicolon)
  match s.drop user.length with
  | [] => ⟨user, none, none⟩
  | Mark.colon :: rest =>
    match if takesOptions then Bytes.cut? Mark.semicolon rest else none with
    | none => ⟨user, some rest, none⟩
    | some (password, options) => ⟨user, some password, some options⟩
  | _ :: rest =>
    match Bytes.cut? Mark.colon rest with
    | none => ⟨user, none, some rest⟩
    | some (options, password) => ⟨user, some password, some options⟩

def render (login : Login) : Bytes :=
  let password := match login.password with
    | some password => Mark.colon :: password
    | none => []
  let options := match login.options with
    | none | some [] => []
    | some options => Mark.semicolon :: options
  login.user ++ password ++ options ++ [Mark.atSign]

end Login

/-- Where a resource is served. -/
structure Authority where
  login : Option Login
  host : Host
  port : Option Nat
  deriving DecidableEq, Repr

namespace Authority

/-- The host text and the text of a port, if one follows a colon. Brackets keep colons together. -/
def splitPort? (s : Bytes) : Option (Bytes × Option Bytes) :=
  if s.head? == some Mark.openBracket then
    match Bytes.cut? Mark.closeBracket s with
    | none => none
    | some (host, []) => some (host ++ [Mark.closeBracket], none)
    | some (host, Mark.colon :: port) => some (host ++ [Mark.closeBracket], some port)
    | some _ => none
  else match Bytes.cut? Mark.colon s with
    | none => some (s, none)
    | some (host, port) => some (host, some port)

/-- The port that a text behind a colon names: none if it is empty. -/
def port? (s : Bytes) : Option (Option Nat) :=
  if s.isEmpty then some none
  else match Numeral.decimal? s with
    | none => none
    | some port => if port ≤ 0xFFFF then some (some port) else none

/-- The authority that a text stands for. The login ends at the first sign. -/
def ofText? (scheme : Scheme) (s : Bytes) : Option Authority := do
  let (login, s) := match Bytes.cut? Mark.atSign s with
    | none => (none, s)
    | some (login, rest) => (some (Login.ofText scheme.takesOptions login), rest)
  let (host, port) ← splitPort? s
  let port ← match port with
    | none => some none
    | some port => port? port
  let host ← Host.ofText? host
  return ⟨login, host, port⟩

def render (authority : Authority) : Bytes :=
  let login := match authority.login with
    | some login => login.render
    | none => []
  let port := match authority.port with
    | some port => Mark.colon :: Numeral.decimal port
    | none => []
  login ++ authority.host.render ++ port

end Authority

/-- An absolute URL in parts. Only a file has no authority. An empty query or fragment is the same
as none, and a path that is nothing but a slash is left out. -/
structure Url where
  scheme : Scheme
  authority : Option Authority
  path : Option Bytes
  query : Bytes
  fragment : Bytes
  deriving DecidableEq, Repr

namespace Url

/-- The most bytes of a text that is read as a URL; one that is written has fewer. -/
def byteLimit : Nat := 8000000

/-- A byte that no URL may hold: a control byte or a space. -/
def isJunk (b : UInt8) : Bool := b ≤ 0x20 || b == 0x7F

/-- A URL whose path, query and fragment are read from the text behind the authority. -/
def withRest (scheme : Scheme) (authority : Option Authority) (rest : Bytes) : Url :=
  let (rest, fragment) := (Bytes.cut? Mark.hash rest).getD (rest, [])
  let (path, query) := (Bytes.cut? Mark.question rest).getD (rest, [])
  let path := if path.length ≤ 1 then none else some (Path.removeDots path)
  ⟨scheme, authority, path, query, fragment⟩

/-- Whether a path begins with the letter of a drive. -/
def startsWithDrive : Bytes → Bool
  | letter :: sign :: rest =>
    Bytes.isLetter letter && (sign == Mark.colon || sign == Mark.bar)
      && rest.head?.all fun b => b == Mark.slash || b == Mark.backslash
  | _ => false

/-- The names that may stand in front of the path of a file. -/
def localHosts : List Bytes := [Bytes.ofString "localhost/", Bytes.ofString "127.0.0.1/"]

/-- The file that the text behind `file:` names. -/
def ofFileText? (s : Bytes) : Option Url :=
  if s.length ≤ 1 then none
  else
    let path? :=
      if Bytes.startsWith s (Bytes.ofString "//") then
        let rest := s.drop 2
        if rest.head? == some Mark.slash then some rest
        else (localHosts.find? (Bytes.startsWith (Bytes.lower rest))).map fun host =>
          rest.drop (host.length - 1)
      else some s
    match path? with
    | none => none
    | some path =>
      if startsWithDrive path
          || (path.head? == some Mark.slash && startsWithDrive path.tail) then none
      else some (withRest .file none path)

/-- The URL that a text stands for, up to its first zero byte. One to three slashes may stand
between the scheme and the authority. -/
def ofText? (s : Bytes) : Option Url := do
  let s := Bytes.untilNul s
  if byteLimit < s.length || s.any isJunk then none
  else
    let (name, rest) ← Scheme.split? s
    let scheme ← Scheme.ofName? name
    if scheme = .file then ofFileText? rest
    else
      let slashes := (rest.takeWhile (· == Mark.slash)).length
      if slashes < 1 ∨ 3 < slashes then none
      else
        let rest := rest.drop slashes
        let authority := rest.takeWhile fun b =>
          b != Mark.slash && b != Mark.question && b != Mark.hash
        let authority? ← Authority.ofText? scheme authority
        return withRest scheme (some authority?) (rest.drop authority.length)

/-- Everything behind the two slashes. The path of a file without one is written `(nil)`. -/
def renderRest (url : Url) : Bytes :=
  let fragment := if url.fragment.isEmpty then [] else Mark.hash :: url.fragment
  match url.authority with
  | none => url.path.getD (Bytes.ofString "(nil)") ++ fragment
  | some authority =>
    let query := if url.query.isEmpty then [] else Mark.question :: url.query
    authority.render ++ url.path.getD [Mark.slash] ++ query ++ fragment

/-- The text of the scheme with its colon and two slashes. -/
def renderFront (url : Url) : Bytes := url.scheme.name ++ Bytes.ofString "://"

def render (url : Url) : Bytes := url.renderFront ++ url.renderRest

/-- The text itself, if it is short enough to be written. -/
def short? (s : Bytes) : Option Bytes := if s.length < byteLimit then some s else none

def text? (url : Url) : Option Bytes := short? url.render

/-- What a client needs to know of a URL in order to connect. -/
structure Endpoint where
  scheme : Scheme
  host : Bytes
  port : Nat
  path : Bytes
  deriving DecidableEq, Repr

/-- The endpoint of a URL with a host. -/
def endpoint? (url : Url) : Option Endpoint :=
  url.authority.map fun authority =>
    ⟨url.scheme, authority.host.text, authority.port.getD url.scheme.defaultPort,
      url.path.getD [Mark.slash]⟩

end Url

namespace Url.Endpoint

def ofText? (s : Bytes) : Option Endpoint := (Url.ofText? s).bind Url.endpoint?

end Url.Endpoint

end FeedIntake
