import FeedIntake.Url.Basic
import FeedIntake.Utf8

/-!
References: texts that name a URL by themselves or in relation to another. `resolve?` joins the text
of a base with a relative reference and reads the result again; `normalize` gives every link one
form or leaves it as it is; `web?` tells which texts may be fetched.
-/
namespace FeedIntake.Url

/-- How a relative reference is copied into a URL: a space is written `%20` in the path and `+` in
the query, and bytes from 0x80 on are percent-encoded. -/
def encodeByte (inQuery : Bool) (b : UInt8) : Bytes :=
  if b == Mark.space then if inQuery then [Mark.plus] else Bytes.ofString "%20"
  else if b < 0x80 then [b]
  else Mark.percent :: Numeral.digits 16 b.toNat

/-- A relative reference as it is copied into a URL. -/
def encode (s : Bytes) : Bytes :=
  let path := s.takeWhile (· != Mark.question)
  path.flatMap (encodeByte false) ++ (s.drop path.length).flatMap (encodeByte true)

/-- Without its last part, from the last slash on; all of it is dropped if there is no slash. -/
def dropPart (s : Bytes) : Bytes := ((Bytes.cutLast? Mark.slash s).map (·.1)).getD []

/-- The number of `../` at the front and the text behind them. -/
def countParents (level : Nat) : Bytes → Nat × Bytes
  | Mark.dot :: Mark.dot :: Mark.slash :: rest => countParents (level + 1) rest
  | s => (level, s)

/-- A base, in the text behind its two slashes, joined with a reference that begins with a slash. -/
def joinRooted (base reference : Bytes) : Bytes :=
  base.takeWhile (fun b => b != Mark.slash && b != Mark.question) ++ encode reference

/-- A base, in the text behind its two slashes, joined with any other reference: the query of the
base goes, its last part too unless only a query comes, and then one part for each `../`. -/
def joinBeside (base reference : Bytes) : Bytes :=
  let base := base.takeWhile (· != Mark.question)
  let base :=
    if reference.head? == some Mark.question then base
    else ((Bytes.cutLast? Mark.slash base).map (·.1)).getD base
  let reference := match reference with
    | Mark.dot :: Mark.slash :: rest => rest
    | s => s
  let (level, reference) := countParents 0 reference
  let standsAlone := match reference.head? with
    | some b => b == Mark.slash || b == Mark.question
    | none => false
  match Bytes.cut? Mark.slash base with
  | none => base ++ (if standsAlone then [] else [Mark.slash]) ++ encode reference
  | some (host, path) =>
    let path := level.repeat dropPart path
    host ++ [Mark.slash] ++ path
      ++ (if standsAlone || path.isEmpty then [] else [Mark.slash]) ++ encode reference

/-- The text of a base joined with a relative reference. An empty reference names what the base
stands in: the base without its last part. -/
def join (base : Url) (reference : Bytes) : Bytes :=
  base.renderFront ++
    if reference.head? == some Mark.slash then joinRooted base.renderRest reference
    else joinBeside base.renderRest reference

/-- The URL that a reference names in relation to `base`, up to its first zero byte. -/
def resolve? (base : Url) (reference : Bytes) : Option Url :=
  let reference := Bytes.untilNul reference
  if byteLimit < reference.length then none
  else if (Scheme.split? reference).isSome then ofText? reference
  else base.text?.bind fun _ => (short? (base.join reference)).bind ofText?

/-- Without line breaks and tabs, and without blanks at the ends. -/
def tidy (s : Bytes) : Bytes :=
  Bytes.trim (s.filter fun b =>
    b != Mark.lineFeed && b != Mark.carriageReturn && b != Mark.tab)

/-- Whether a link begins with a scheme, whatever scheme that is; a dot is not taken for a part of
one, since `example.com:80` is a host with a port. -/
def hasSchemeForm (s : Bytes) : Bool :=
  match Bytes.cut? Mark.colon s with
  | none => false
  | some (front, _) =>
    front.head?.any Bytes.isLetter
      && front.all fun b =>
        Bytes.isLetter b || Bytes.isDigit b || b == Mark.plus || b == Mark.hyphen

/-- Whether a link begins with one of the two schemes of pages and two slashes. -/
def hasWebForm (s : Bytes) : Bool :=
  let s := Bytes.lower s
  Bytes.startsWith s (Bytes.ofString "http://") || Bytes.startsWith s (Bytes.ofString "https://")

/-- An absolute link in its own form; what cannot be read is left as it is. -/
def normalizeAbsolute (s : Bytes) : Bytes := ((ofText? s).bind text?).getD s

/-- A link found in the document at `base`, made absolute. Links of other schemes and links that
cannot be read are left as they are, and without a base a bare link is taken for a host. -/
def normalize (link base : Bytes) : Bytes :=
  let link := tidy link
  if link.isEmpty then link
  else if Bytes.startsWith link (Bytes.ofString "//") then
    let scheme := ((Endpoint.ofText? base).map (·.scheme)).getD .http
    normalizeAbsolute (scheme.name ++ [Mark.colon] ++ link)
  else if hasWebForm link then normalizeAbsolute link
  else if hasSchemeForm link then link
  else if base.isEmpty then normalizeAbsolute (Bytes.ofString "http://" ++ link)
  else (((ofText? base).bind (resolve? · link)).bind text?).getD link

def lengthLimit : Nat := 2048

/-- Whether a text names a page or feed that may be fetched and published. -/
def isWeb (s : Bytes) : Bool :=
  !s.isEmpty && Utf8.length s ≤ lengthLimit && (Endpoint.ofText? s).any (·.scheme.isWeb)

/-- The text itself, if it names a page or feed that may be fetched and published. -/
def web? (s : Bytes) : Option Bytes := if isWeb s then some s else none

/-- The extension of the last part of a URL's path, in lower case; empty if there is none. Of a text
that is no URL everything in front of a query or fragment counts as the path. -/
def extension (s : Bytes) : Bytes :=
  let path := match Endpoint.ofText? s with
    | some endpoint => endpoint.path
    | none => s.takeWhile fun b => b != Mark.question && b != Mark.hash
  match Bytes.cutLast? Mark.dot path with
  | none => []
  | some (_, extension) =>
    if extension.contains Mark.slash then [] else Bytes.lower extension

end FeedIntake.Url
