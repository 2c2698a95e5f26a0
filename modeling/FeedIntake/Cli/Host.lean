import FeedIntake.Config.Setting
import FeedIntake.Fetch.Reading
import FeedIntake.Fetch.Script
import FeedIntake.Json.Reader
import FeedIntake.Markup.Fragment

/-!
What the program needs of the machine it runs on. A `Machine` is one whose files are a value, of
whatever kind, and which has no connection to any network; `Store` is the smallest of them, a single
directory.
-/
namespace FeedIntake.Cli

/-- What the libraries do that the program is built with: one for HTML, and one for JSON, as far as
it words its errors. -/
structure Libraries where
  html : Html
  readError : Json.ReadError → Bytes
  writeError : Utf8.Fault → Bytes

/-- Libraries for documents whose HTML is plain text. -/
def Libraries.plain : Libraries where
  html := Fragment.html
  readError
    | .malformed => Bytes.ofString "[json.exception.parse_error.101] parse error"
    | .overflow literal =>
      Bytes.ofString "[json.exception.out_of_range.406] number overflow parsing '" ++ literal
        ++ Bytes.ofString "'"
  writeError _ := Bytes.ofString "invalid UTF-8"

inductive Found where
  | nothing
  | directory
  | file (content : Bytes)
  deriving DecidableEq, Repr

/-- A machine whose actions are of the kind `m`. -/
structure Host (m : Type → Type) where
  environment : Environment
  libraries : Libraries
  read : Bytes → m Found
  /-- True if the file could be opened; whether everything was written is not looked at. -/
  write : Bytes → Bytes → m Bool
  fetch : Reader → Bytes → FetchOptions → m (Except ConfigError Response)

/-- A fetch without any connection. -/
def fetchOffline (reader : Reader) (url : Bytes) (options : FetchOptions) :
    Except ConfigError Response :=
  (reader.read Script.offline url options []).map (·.result)

/-- A machine that is in some state. -/
class Machine (State : Type) where
  find : State → (path : Bytes) → Found
  /-- The state behind an attempt to write a file, if it could be opened. What the file holds then,
  and which other paths lead to it, is the machine's own business. -/
  put? : State → (path content : Bytes) → Option State
  /-- How much of a text gets through where it is printed. -/
  taken : State → (text : Bytes) → Bytes

/-- The actions of a machine. -/
def Machine.host {State : Type} [Machine State] (environment : Environment)
    (libraries : Libraries) : Host (StateM State) where
  environment := environment
  libraries := libraries
  read path := return Machine.find (← get) path
  write path content := do
    match Machine.put? (← get) path content with
    | some state =>
      set state
      return true
    | none => return false
  fetch reader url options := return fetchOffline reader url options

/-- The files of a directory by their names; of two of one name the first one counts. -/
abbrev Store := List (Bytes × Bytes)

/-- What a path leads to in a directory without others in it. -/
inductive Place where
  | nowhere
  | directory
  | name (name : Bytes)
  deriving DecidableEq, Repr

def nameLimit : Nat := 255

/-- The place of a path. Only a directory has anything behind a slash, be it nothing or a dot. -/
def Place.ofPath (path : Bytes) : Place :=
  if path.isEmpty || path.head? == some Mark.slash then .nowhere
  else
    let steps := Bytes.splitOn Mark.slash path
    match steps.filter fun step => !step.isEmpty && step != [Mark.dot] with
    | [] => .directory
    | [step] =>
      if step == [Mark.dot, Mark.dot] then .directory
      else if steps.getLast? == some step && step.length ≤ nameLimit then .name step
      else .nowhere
    | _ => .nowhere

namespace Store

def find (store : Store) (path : Bytes) : Found :=
  match Place.ofPath path with
  | .nowhere => .nothing
  | .directory => .directory
  | .name name =>
    match store.lookup name with
    | some content => .file content
    | none => .nothing

/-- The directory with a file at a path, if there can be one. -/
def put? (store : Store) (path content : Bytes) : Option Store :=
  match Place.ofPath path with
  | .name name => some ((name, content) :: store)
  | _ => none

/-- A directory as a machine, where everything is written and printed that can be. -/
instance : Machine Store where
  find := find
  put? := put?
  taken _ text := text

def host (environment : Environment) : Host (StateM Store) := Machine.host environment .plain

end Store

end FeedIntake.Cli
