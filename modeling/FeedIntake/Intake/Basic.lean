import FeedIntake.Checksum.Blob
import FeedIntake.Intake.Normalize

/-!
The intake of documents: only the stories that are new or have changed are taken, and a checksum
keeps what has been seen. It keeps that of a document that is refused, too.
-/
namespace FeedIntake

structure FeedResult where
  feed : Feed
  stories : List Story
  deriving DecidableEq, Repr

def FeedResult.toJson (result : FeedResult) : Json := .ofMembers [
  (Field.feed.name, result.feed.toJson),
  (Field.storys.name, .array (result.stories.map Story.toJson))]

/-- Why a document is refused: a field of the feed, or of the story at a place among those taken. -/
structure IntakeError where
  story? : Option Nat
  cause : FieldError
  deriving DecidableEq, Repr

namespace IntakeError

def code (error : IntakeError) : Bytes := error.cause.code

def message (error : IntakeError) : Bytes :=
  (match error.story? with
    | none => Field.feed.name
    | some index =>
      Field.storys.name ++ [Mark.openBracket] ++ Numeral.decimal index ++ [Mark.closeBracket])
    ++ [Mark.dot] ++ error.cause.message

end IntakeError

/-- The stories that are new or have changed, in order, and what has been seen behind them. -/
def Checksum.sift (checksum : Checksum) : List RawStory → List RawStory × Checksum
  | [] => ([], checksum)
  | story :: rest =>
    let (changed, next) := checksum.update story.identity story.body
    let (stories, last) := next.sift rest
    (if changed then story :: stories else stories, last)

/-- The first thing wrong with some stories, the first of which stands at `index`. -/
def storiesFault? (index : Nat) : List Story → Option IntakeError
  | [] => none
  | story :: rest =>
    match story.fault? with
    | some cause => some ⟨some index, cause⟩
    | none => storiesFault? (index + 1) rest

def FeedResult.fault? (result : FeedResult) : Option IntakeError :=
  match result.feed.fault? with
  | some cause => some ⟨none, cause⟩
  | none => storiesFault? 0 result.stories

/-- What takes in documents: what has been seen so far, and whether results are checked. -/
structure Intake where
  seen : Checksum
  validates : Bool

namespace Intake

/-- The result for a document from which these stories are taken. -/
def resultBy (html : Html) (feed : RawFeed) (stories : List RawStory) : FeedResult :=
  let feed := feed.normalizeBy html
  ⟨feed, stories.map fun story => story.normalizeBy html feed.url⟩

/-- What is taken from a document, and what has been seen behind it. -/
def parseBy (html : Html) (intake : Intake) (document : RawDocument) :
    Except IntakeError FeedResult × Intake :=
  let (stories, seen) := intake.seen.sift document.stories
  let result := resultBy html document.feed stories
  let outcome := match if intake.validates then result.fault? else none with
    | some fault => .error fault
    | none => .ok result
  (outcome, { intake with seen })

def resultOf (feed : RawFeed) (stories : List RawStory) : FeedResult :=
  resultBy Fragment.html feed stories

/-- What is taken from a document whose HTML is plain text, and what has been seen behind it. -/
def parse (intake : Intake) (document : RawDocument) : Except IntakeError FeedResult × Intake :=
  intake.parseBy Fragment.html document

end Intake

end FeedIntake
