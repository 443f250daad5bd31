/-
**Rehearsals.** A rehearsal is a review over an empty store with a clock that is moved by hand, a
recorder that keeps every event, and a few users: an administrator, an editor, and voters who may
edit too.

* `Rehearsal.begin`: the rehearsal with given rules;
* `Rehearsal.carryOut`: an operation at the time of the clock, with its events recorded;
* `Rehearsal.submit`, `Rehearsal.create`, `Rehearsal.ballots`: steps that most rehearsals need.
-/

import Curation.Clock
import Curation.Identity.Serial
import Curation.Procedure.Desk

namespace Curation

/-! ### Recorded events -/

/-- What a recorder keeps of a notice. -/
inductive Event where
  | created (edit : EditId)
  | amended (edit : EditId)
  | commented (edit : EditId) (comment : CommentId)
  | downvoted (edit : EditId)
  | canceled (edit : EditId)
  | applied (edit : EditId)
deriving DecidableEq

/-- The event of a notice. -/
def Notice.event : Notice → Event
  | .created edit => .created edit.id
  | .amended edit => .amended edit.id
  | .commented edit comment => .commented edit.id comment.id
  | .downvoted edit => .downvoted edit.id
  | .canceled edit => .canceled edit.id
  | .applied edit => .applied edit.id

/-- A listener that keeps every event, and reports a failure of each while it is failing. -/
structure Recorder where
  events : List Event
  failing : Bool
deriving DecidableEq

namespace Recorder

/-- Keeps the event of a notice, and tells whether the notice was received well. -/
def receive (recorder : Recorder) (notice : Notice) : Bool × Recorder :=
  (!recorder.failing, { recorder with events := recorder.events ++ [notice.event] })

/-- Receives some notices, one after the other; failures have no consequence. -/
def receiveAll (recorder : Recorder) (notices : List Notice) : Recorder :=
  notices.foldl (fun recorder notice => (recorder.receive notice).2) recorder

end Recorder

/-! ### Rehearsals -/

/-- A review over a store of its own. -/
structure Rehearsal where
  ledger : Ledger
  desk : Desk
  clock : Clock
  recorder : Recorder
  /-- The store outlives the desk, so that others can be opened on it. -/
  lasting : Bool
  admin : UserId
  editor : UserId
  voters : List UserId

/-- Why a step of a rehearsal fails that is none of the review. -/
inductive Rehearsal.Failure where
  | notReopened
  | notShared

/-- The message of a failure. -/
def Rehearsal.Failure.message : Rehearsal.Failure → String
  | .notReopened => "in-memory env cannot be reopened"
  | .notShared => "in-memory env has no file to share"

namespace Rehearsal

/-- The number of voters. -/
def voterCount : Nat := 5

/-- The time at which a rehearsal begins: noon of 1 March 2024. -/
def startTime : Instant := Instant.ofMillis 1709294400000

/-- A rehearsal whose users are not yet registered. -/
def unattended (rules : Rules) (policy : Policy) (lasting : Bool) : Rehearsal where
  ledger := .empty
  desk := ⟨rules, policy, Uuid.serial⟩
  clock := .start startTime
  recorder := ⟨[], false⟩
  lasting
  admin := default
  editor := default
  voters := []

/-- Carries out an operation of a desk and records its events. -/
def carryOutAt {α : Type} (rehearsal : Rehearsal) (operation : Ledger → Outcome α) :
    Except Halt α × Rehearsal :=
  let outcome := operation rehearsal.ledger
  (outcome.result, { rehearsal with
    ledger := outcome.ledger
    recorder := rehearsal.recorder.receiveAll outcome.notices })

/-- Registers a user with some roles. -/
def register (rehearsal : Rehearsal) (name : String) (roles : List Role) :
    Except Halt UserId × Rehearsal :=
  rehearsal.carryOutAt
    (Procedure.registerUser rehearsal.desk rehearsal.clock.now name roles).outcome

/-- Registers the users of a rehearsal; none is missing, as their names differ. -/
def enlist (rehearsal : Rehearsal) (name : String) (roles : List Role) : UserId × Rehearsal :=
  let (result, rehearsal) := rehearsal.register name roles
  (result.toOption.getD default, rehearsal)

/-- Registers some voters, the first of whom has a given number. -/
def registerVoters : Nat → Nat → Rehearsal → List UserId × Rehearsal
  | 0, _, rehearsal => ([], rehearsal)
  | count + 1, number, rehearsal =>
    let (voter, rehearsal) := rehearsal.enlist
      ("voter" ++ String.ofList (Text.Decimal.digits number)) [.edit, .vote]
    let (others, rehearsal) := registerVoters count (number + 1) rehearsal
    (voter :: others, rehearsal)

/-- The rehearsal with given rules and policy. -/
def begin (rules : Rules) (policy : Policy) (lasting : Bool) : Rehearsal :=
  let rehearsal := unattended rules policy lasting
  let (admin, rehearsal) := rehearsal.enlist "admin" [.admin]
  let (editor, rehearsal) := rehearsal.enlist "editor" [.edit]
  let (voters, rehearsal) := registerVoters voterCount 1 rehearsal
  { rehearsal with admin, editor, voters }

/-! ### Desks on the same store -/

/-- A desk newly opened on the store of a rehearsal, with its rules and the usual policy. -/
def freshDesk (rehearsal : Rehearsal) : Desk := { rehearsal.desk with policy := .standard }

/-- The rehearsal with its desk opened anew. -/
def reopen (rehearsal : Rehearsal) : Except Failure Rehearsal :=
  if rehearsal.lasting then .ok { rehearsal with desk := rehearsal.freshDesk }
  else .error .notReopened

/-- Another desk on the store of a rehearsal. -/
def second (rehearsal : Rehearsal) : Except Failure Desk :=
  if rehearsal.lasting then .ok rehearsal.freshDesk else .error .notShared

/-! ### Common steps -/

/-- Submits an edit as the editor. -/
def submit (rehearsal : Rehearsal) (submission : Submission) : Except Halt Edit × Rehearsal :=
  rehearsal.carryOutAt
    (Procedure.createEdit rehearsal.desk rehearsal.clock.now rehearsal.editor submission).outcome

/-- The target of a submitted creation, which must have been applied. -/
def targetOf (edit : Edit) : Except Halt EntityId :=
  match edit.target with
  | some target => .ok target
  | none => .error (.refused (.conflict (.notApplied edit.id)))

/-- Creates a record as the editor. -/
def create (rehearsal : Rehearsal) (proposal : Proposal) : Except Halt EntityId × Rehearsal :=
  let (result, rehearsal) := rehearsal.submit (.create proposal)
  (result >>= targetOf, rehearsal)

/-- The edit with an identifier. -/
def findEdit (rehearsal : Rehearsal) (id : EditId) : Except Halt Edit :=
  (Desk.loadEdit rehearsal.ledger.store id).mapError .refused

/-- Lets some voters vote in turn, until one vote fails; the last edit is what they leave. -/
def ballotsOf (id : EditId) (choice : Choice) :
    List UserId → Except Halt Edit → Rehearsal → Except Halt Edit × Rehearsal
  | [], last, rehearsal => (last, rehearsal)
  | voter :: others, _, rehearsal =>
    let (result, rehearsal) := rehearsal.carryOutAt
      (Procedure.vote rehearsal.desk rehearsal.clock.now voter id choice).outcome
    match result with
    | .ok edit => ballotsOf id choice others (.ok edit) rehearsal
    | .error error => (.error error, rehearsal)

/-- Lets the first voters vote in turn. -/
def ballots (rehearsal : Rehearsal) (id : EditId) (choice : Choice) (count : Nat) :
    Except Halt Edit × Rehearsal :=
  ballotsOf id choice (rehearsal.voters.take count) (rehearsal.findEdit id) rehearsal

/-! ### Common proposals -/

/-- The request that gives a record a name and nothing else. -/
def naming (name : String) : {kind : Kind} → (field : Field kind) → Request field.Carrier
  | _, .tagName => .value name
  | _, .performerName => .value name
  | _, .studioName => .value name
  | _, .sceneTitle => .value name
  | _, _ => .untouched

/-- The input for a record of a kind with a name. -/
def named (kind : Kind) (name : String) : Input kind := { Input.empty kind with scalar := naming name }

/-- The request for an optional value. -/
def optional {α : Type} : Option α → Request α
  | some wanted => .value wanted
  | none => .untouched

/-- The proposal of a tag. -/
def tag (name : String) : Proposal := ⟨.tag, named .tag name⟩

/-- The proposal of a performer. -/
def performer (name : String) : Proposal := ⟨.performer, named .performer name⟩

/-- The proposal of a studio. -/
def studio (name : String) (parent : Option EntityId) : Proposal :=
  ⟨.studio, { named .studio name with
    scalar := fun
      | .studioParent => optional parent
      | field => naming name field }⟩

/-- The proposal of a scene. -/
def scene (title : String) (studio : Option EntityId) (tags : List EntityId)
    (performers : List Appearance) : Proposal :=
  ⟨.scene, { named .scene title with
    scalar := fun
      | .sceneStudio => optional studio
      | field => naming title field
    links := fun
      | .sceneTags => ⟨tags, []⟩
      | .scenePerformers => ⟨performers, []⟩ }⟩

end Rehearsal

end Curation
