import FeedIntake.Cli.Command
import FeedIntake.Cli.Host
import FeedIntake.Intake.Basic
import FeedIntake.Json.Writer

/-!
The program: it loads the configuration, does what its arguments ask for, and reports. A checksum is
saved before the result is printed.
-/
namespace FeedIntake.Cli

inductive Failing where
  | usage (error : UsageError)
  | config (error : ConfigError)
  | checksum (error : ChecksumError)
  | field (error : FieldError)
  | intake (error : IntakeError)
  | cannotOpen (path : Bytes)
  | cannotWrite (path : Bytes)
  /-- A directory stands where a file should be read. -/
  | isDirectory
  | json (error : Json.ReadError)
  /-- The result is not well-formed text. -/
  | illFormed (fault : Utf8.Fault)
  deriving DecidableEq, Repr

/-- What the program leaves behind: its exit code and what it prints. It does not look whether all
of that gets through. -/
structure Report where
  code : Nat
  output : Bytes := []
  errors : Bytes := []
  deriving DecidableEq, Repr

def textLine (s : Bytes) : Bytes := s ++ [Mark.lineFeed]

def usage : Bytes := Bytes.ofString <|
  "usage:\n"
    ++ "  feedlib fetch <url> [--proxy] [--allow-private] [--allow-non-webpage]\n"
    ++ "  feedlib parse <raw.json> [--checksum <in>] [--save-checksum <out>] [--no-validate]\n"

def UsageError.text : UsageError → Bytes
  | .incomplete => usage
  | .unknownArgument argument =>
    textLine (Bytes.ofString "unknown argument: " ++ argument) ++ usage
  | .unknownCommand name => textLine (Bytes.ofString "unknown command: " ++ name) ++ usage

def errorReport (code message : Bytes) : Report where
  code := 1
  errors := textLine (Bytes.ofString "[error] " ++ code ++ Bytes.ofString ": " ++ message)

def fatalReport (message : Bytes) : Report where
  code := 1
  errors := textLine (Bytes.ofString "[fatal] " ++ message)

/-- What the program leaves behind when it fails. -/
def Failing.report (libraries : Libraries) : Failing → Report
  | .usage error => { code := 2, errors := error.text }
  | .config error => errorReport error.code error.message
  | .checksum error => errorReport error.code error.message
  | .field error => errorReport error.code error.message
  | .intake error => errorReport error.code error.message
  | .cannotOpen path => fatalReport (Bytes.ofString "Cannot open " ++ path)
  | .cannotWrite path => fatalReport (Bytes.ofString "Cannot write " ++ path)
  | .isDirectory =>
    fatalReport (Bytes.ofString "basic_filebuf::underflow error reading the file: Is a directory")
  | .json error => fatalReport (libraries.readError error)
  | .illFormed fault => fatalReport (libraries.writeError fault)

def entryLine (name : String) (value : Bytes) : Bytes := textLine (Bytes.ofString name ++ value)

/-- What the program leaves behind after a fetch. -/
def fetchReport (response : Response) : Report :=
  let orDash (value : Option Bytes) : Bytes := value.getD [Mark.hyphen]
  { code := if response.ok then 0 else 1
    output :=
      entryLine "status:       " (Numeral.signed response.status ++ Bytes.ofString " ("
        ++ statusName response.status ++ Bytes.ofString ")")
      ++ entryLine "url:          " response.url
      ++ entryLine "encoding:     " (orDash response.encoding)
      ++ entryLine "feed_type:    " (orDash response.feedType)
      ++ entryLine "content_type: " (orDash response.provenance.contentType)
      ++ entryLine "use_proxy:    "
        (Bytes.ofString (if response.provenance.viaRelay then "yes" else "no"))
      ++ entryLine "length:       " (Numeral.decimal response.content.length) }

/-- What the program leaves behind after a document has been taken in. -/
def parseReport (result : FeedResult) : Except Failing Report :=
  match result.toJson.renderStrict .indented with
  | .ok text => .ok { code := 0, output := textLine text }
  | .error fault => .error (.illFormed fault)

section

variable {m : Type → Type} [Monad m]

/-- A result that may have failed for a cause of its own. -/
def orFail {Cause Value : Type} (failing : Cause → Failing) :
    Except Cause Value → ExceptT Failing m Value
  | .ok value => pure value
  | .error cause => throw (failing cause)

def readFile (host : Host m) (path : Bytes) : ExceptT Failing m Bytes := do
  match ← (host.read path : m Found) with
  | .file content => return content
  | .directory => throw .isDirectory
  | .nothing => throw (.cannotOpen path)

def writeFile (host : Host m) (path content : Bytes) : ExceptT Failing m Unit := do
  unless ← (host.write path content : m Bool) do throw (.cannotWrite path)

/-- The configuration that the machine gives. A directory in the place of a file is an empty one. -/
def loadConfig (host : Host m) : ExceptT Failing m Config := do
  let secret ← match Config.secretPath? host.environment with
    | none => pure none
    | some path =>
      match ← (host.read path : m Found) with
      | .file content => pure (some content)
      | .directory => pure (some [])
      | .nothing => pure none
  orFail .config (Config.load host.environment secret)

def runFetch (host : Host m) (config : Config) (url : Bytes) (options : FetchOptions) :
    ExceptT Failing m Report := do
  let reader ← orFail .config (Reader.ofConfig config)
  let outcome ← (host.fetch reader url options : m (Except ConfigError Response))
  return fetchReport (← orFail .config outcome)

/-- What has been seen so far. -/
def loadChecksum (host : Host m) (path : Option Bytes) : ExceptT Failing m Checksum := do
  match path with
  | none => return .empty
  | some path => orFail .checksum (Checksum.load (← readFile host path))

def runParse (host : Host m) (order : ParseOrder) : ExceptT Failing m Report := do
  let seen ← loadChecksum host order.checksum
  let value ← orFail .json (Json.ofText (← readFile host order.input))
  let document ← orFail .field (RawDocument.ofJson value)
  let (outcome, intake) := (Intake.mk seen order.validates).parseBy host.libraries.html document
  let result ← orFail .intake outcome
  match order.saveChecksum with
  | none => pure ()
  | some path => writeFile host path (intake.seen.dump Checksum.usualLimit)
  orFail id (parseReport result)

def runCommand (host : Host m) (name : Bytes) (arguments : List Bytes) :
    ExceptT Failing m Report := do
  let config ← loadConfig host
  match ← orFail .usage (Command.ofArguments name arguments) with
  | .fetch url options => runFetch host config url options
  | .parse order => runParse host order

def run (host : Host m) (arguments : List Bytes) : m Report :=
  match arguments with
  | [] => pure ((Failing.usage .incomplete).report host.libraries)
  | name :: arguments => do
    match ← (runCommand host name arguments).run with
    | .ok report => return report
    | .error failing => return failing.report host.libraries

end

end FeedIntake.Cli
