import FeedIntake.Fetch.Redirects

/-!
The command line: what a list of arguments asks for, or why it asks for nothing.
-/
namespace FeedIntake.Cli

structure ParseOrder where
  input : Bytes
  /-- The file with the checksum of what has been seen. -/
  checksum : Option Bytes := none
  /-- The file for the checksum of what has been seen then. -/
  saveChecksum : Option Bytes := none
  validates : Bool := true
  deriving DecidableEq, Repr

inductive Command where
  | fetch (url : Bytes) (options : FetchOptions)
  | parse (order : ParseOrder)
  deriving DecidableEq, Repr

inductive UsageError where
  /-- An argument that everything needs is missing. -/
  | incomplete
  | unknownArgument (argument : Bytes)
  | unknownCommand (name : Bytes)
  deriving DecidableEq, Repr

def isOption (argument : Bytes) : Bool := Bytes.startsWith argument (Bytes.ofString "--")

/-- The rest of the arguments of `fetch`, behind those that gave a URL and options. -/
def fetchCommand (url : Option Bytes) (options : FetchOptions) :
    List Bytes → Except UsageError Command
  | [] =>
    match url with
    | some url => .ok (.fetch url options)
    | none => .error .incomplete
  | argument :: rest =>
    if argument == Bytes.ofString "--proxy" then
      fetchCommand url { options with useRelay := true } rest
    else if argument == Bytes.ofString "--allow-private" then
      fetchCommand url { options with allowPrivate := true } rest
    else if argument == Bytes.ofString "--allow-non-webpage" then
      fetchCommand url { options with allowAnyContent := true } rest
    else if url.isNone && !isOption argument then fetchCommand (some argument) options rest
    else .error (.unknownArgument argument)

structure ParseArguments where
  input : Option Bytes := none
  checksum : Option Bytes := none
  saveChecksum : Option Bytes := none
  validates : Bool := true

/-- The rest of the arguments of `parse`, behind those that have been read. An option that needs a
value takes the next argument, whatever it is. -/
def parseCommand (read : ParseArguments) : List Bytes → Except UsageError Command
  | [] =>
    match read.input with
    | some input => .ok (.parse
        ⟨input, read.checksum, read.saveChecksum, read.validates⟩)
    | none => .error .incomplete
  | argument :: rest =>
    if argument == Bytes.ofString "--no-validate" then
      parseCommand { read with validates := false } rest
    else if argument == Bytes.ofString "--checksum" then
      match rest with
      | value :: rest => parseCommand { read with checksum := some value } rest
      | [] => .error (.unknownArgument argument)
    else if argument == Bytes.ofString "--save-checksum" then
      match rest with
      | value :: rest => parseCommand { read with saveChecksum := some value } rest
      | [] => .error (.unknownArgument argument)
    else if read.input.isNone && !isOption argument then
      parseCommand { read with input := some argument } rest
    else .error (.unknownArgument argument)

/-- What a command with its arguments asks for. -/
def Command.ofArguments (name : Bytes) (arguments : List Bytes) : Except UsageError Command :=
  if name == Bytes.ofString "fetch" then fetchCommand none {} arguments
  else if name == Bytes.ofString "parse" then parseCommand {} arguments
  else .error (.unknownCommand name)

end FeedIntake.Cli
