import Retrovert.Queue.Publishing
import Retrovert.Update.Jobs

/-!
# Acquiring the artifacts of a plan

A call that acquires the artifacts of a plan keeps a list of the transfers it has queued and not
yet seen off. It queues what there is room for, sweeps the list, places what has landed and frees
its slot, and begins again; on the first failure it lets go of all that is left. Its transfers
settle in any order, and other callers of the queue and the workers take their steps in between.

`Retrovert.Update.Jobs` has the same call as the body of a job, without what it places. Here the
queue's workers may settle a slot with any verdict at all. Other callers free the slots that they
queued themselves, as every caller of the source does.
-/

set_option autoImplicit false

namespace Retrovert.Update.Acquire

open Retrovert.Transport (ArtifactDigest Cache CacheName)
open Retrovert.Queue (Action EntryId Failure Priority Request Shared)
open Retrovert.Apply (Error Installed Plan digestOf installedFrom)
open Retrovert.Tuf (Artifact)

/-! ## Placing an artifact -/

/-- What the filesystem does with one placing: whether the parent folder is there, what the copy
holds if there is one, and whether it is renamed into place. -/
structure Landing where
  parent : Bool := true
  landed : Option Bytes := none
  persists : Bool := true

/-- Check that a copy reads back as `digest`. -/
def verifyLanded (sha256 : Bytes → ArtifactDigest) (landed : Bytes) (digest : ArtifactDigest) :
    Except Failure Unit :=
  if landed = [] then .error .unreadable
  else if sha256 landed ≠ digest then .error (.diskDigest (sha256 landed))
  else .ok ()

/-- Copy one acquired artifact into the generation. Beside an error is the digest whose cache
entry it quarantines. -/
def place (sha256 : Bytes → ArtifactDigest) (artifact : Artifact) (cached : Option CacheName)
    (landing : Landing) : Except (Error × Option ArtifactDigest) Installed :=
  match digestOf artifact with
  | .error error => .error (error, none)
  | .ok digest =>
      if landing.parent then
        match cached, landing.landed with
        | none, _ => .error (.artifact artifact.name .unreadable, some digest)
        | some _, none => .error (.install, none)
        | some _, some landed =>
            match verifyLanded sha256 landed digest with
            | .error refused => .error (.artifact artifact.name refused, some digest)
            | .ok () =>
                if landing.persists then .ok (installedFrom artifact digest)
                else .error (.install, none)
      else .error (.install, none)

/-- What is placed came from a path, under the digest that the artifact names. -/
theorem place_eq_ok {sha256 : Bytes → ArtifactDigest} {artifact : Artifact}
    {cached : Option CacheName} {landing : Landing} {installed : Installed}
    (placed : place sha256 artifact cached landing = .ok installed) :
    ∃ digest path, digestOf artifact = .ok digest ∧ cached = some path ∧
      installed = installedFrom artifact digest := by
  unfold place at placed
  split at placed
  · cases placed
  · rename_i digest found
    split at placed
    · split at placed
      · cases placed
      · cases placed
      · rename_i path _ _
        split at placed
        · cases placed
        · split at placed
          · exact ⟨digest, path, found, rfl, (Except.ok.inj placed).symm⟩
          · cases placed
    · cases placed

/-! ## The queue, and what is written down of its use -/

/-- The queue, which of its slots other callers hold, and what was written down: the number of
the entry that each slot took last, the paths that the transfer of each entry has published, and
the numbers of the call's own entries, in the order of the plan's artifacts. -/
structure Ledger (n : Nat) where
  shared : Shared n
  others : EntryId → Bool
  entries : EntryId → Nat
  count : Nat
  published : Nat → List CacheName
  tickets : List Nat

namespace Ledger

variable {n : Nat}

/-- Before the call, the slots in use are those of others. -/
def new (shared : Shared n) : Ledger n where
  shared := shared
  others id := (shared.slots id).inUse
  entries id := id.val
  count := Queue.queueMax
  published _ := []
  tickets := []

/-- No slot in use holds the entry. -/
def Freed (ledger : Ledger n) (number : Nat) : Prop :=
  ∀ id, ledger.entries id = number → (ledger.shared.slots id).inUse = false

/-- A slot has taken a request. -/
def takes (ledger : Ledger n) (shared : Shared n) (id : EntryId) : Ledger n :=
  { ledger with
    shared
    entries := Function.update ledger.entries id ledger.count
    count := ledger.count + 1 }

/-- The paths that transfers have published after a step: a settle that leaves a slot complete
publishes the slot's path. -/
def publishes (ledger : Ledger n) (action : Action n) (after : Shared n) :
    Nat → List CacheName :=
  match action with
  | .settle worker _ =>
      match (ledger.shared.active worker).slot with
      | some id =>
          if (after.slots id).state = .complete then
            Function.update ledger.published (ledger.entries id)
              ((after.slots id).path.toList ++ ledger.published (ledger.entries id))
          else ledger.published
      | none => ledger.published
  | _ => ledger.published

/-- A step of a worker, or of another caller, who frees only what it queued. -/
def queueStep (ledger : Ledger n) (action : Action n) : Option (Ledger n) :=
  match action with
  | .queue request nowMs spawned =>
      match ledger.shared.queue request nowMs spawned with
      | none => some ledger
      | some (shared, id) =>
          some { ledger.takes shared id with others := Function.update ledger.others id true }
  | .remove id =>
      if ledger.others id then
        match ledger.shared.remove id with
        | none => some ledger
        | some shared => some { ledger with
            shared, others := Function.update ledger.others id false }
      else none
  | action => (ledger.shared.step action).map fun shared =>
      { ledger with shared, published := ledger.publishes action shared }

end Ledger

/-! ## The call -/

/-- Where the call is. An entry of its list is a slot, and which artifact it is for. -/
inductive Stage where
  | heading (active : Acquisition) (next : Nat)
  | filling (active : Acquisition) (next : Nat)
  | sweeping (active : Acquisition) (next cursor : Nat)
  /-- The slot reads failed, and its failure is to be read. -/
  | failing (active : Acquisition) (entry : EntryId × Nat)
  /-- The slot reads complete, and its path is to be read. -/
  | landed (active : Acquisition) (next cursor : Nat) (entry : EntryId × Nat)
  | placing (active : Acquisition) (next cursor : Nat) (entry : EntryId × Nat)
      (cached : Option CacheName)
  /-- The artifact is in place, and its slot is to be freed. -/
  | placed (active : Acquisition) (next cursor : Nat) (entry : EntryId × Nat)
  /-- What is left is cancelled, and then freed. -/
  | releasing (error : Error) (cancels frees : Acquisition)
  | returned (result : Except Error (List Installed))

/-- The entries that the call has yet to see off. -/
def Stage.active : Stage → Acquisition
  | .heading active _ | .filling active _ | .sweeping active _ _ | .failing active _
  | .landed active _ _ _ | .placing active _ _ _ _ | .placed active _ _ _ => active
  | .releasing _ _ frees => frees
  | .returned _ => []

/-- A call, with the paths that its artifacts were placed from. -/
structure Acquiring (n : Nat) where
  ledger : Ledger n
  cache : Cache
  placed : List (Option Installed)
  sources : List (Option CacheName)
  stage : Stage

/-- What happens outside the call at one of its steps. -/
structure Answer (n : Nat) where
  nowMs : Int := 0
  spawned : Fin n → Bool := fun _ => false
  landing : Landing := {}

/-- A step of the call, of the queue's other callers and workers, or of somebody who changes the
cache directory. -/
inductive Step (n : Nat) where
  | call (answer : Answer n)
  | queue (action : Action n)
  | disk (cache : Cache)

namespace Acquiring

variable {n : Nat}

def begin (plan : Plan) (shared : Shared n) (cache : Cache) : Acquiring n where
  ledger := .new shared
  cache := cache
  placed := List.replicate plan.artifacts.length none
  sources := List.replicate plan.artifacts.length none
  stage := .heading [] 0

def goesTo (state : Acquiring n) (stage : Stage) : Acquiring n := { state with stage }

def setShared (state : Acquiring n) (shared : Shared n) : Acquiring n :=
  { state with ledger := { state.ledger with shared } }

/-- Return the error, once everything on the list is let go of. -/
def refuses (state : Acquiring n) (active : Acquisition) (error : Error) : Acquiring n :=
  state.goesTo (.releasing error active active)

/-- Queue the next transfer, if there is one and room for it. -/
def fill (config : Config) (plan : Plan) (priority : Priority) (state : Acquiring n)
    (active : Acquisition) (next : Nat) (answer : Answer n) : Acquiring n :=
  match plan.artifacts[next]? with
  | none => state.goesTo (.sweeping active next 0)
  | some artifact =>
      match Updater.requestFor config artifact plan.releaseVersion priority with
      | .error error => state.refuses active error
      | .ok request =>
          match state.ledger.shared.queue request answer.nowMs answer.spawned with
          | none => state.goesTo (.sweeping active next 0)
          | some (shared, id) =>
              { state with
                ledger := { state.ledger.takes shared id with
                  tickets := state.ledger.tickets ++ [state.ledger.count] }
                stage := .filling (active ++ [(id, next)]) (next + 1) }

/-- Look at the state of a slot. -/
def look (state : Acquiring n) (artifact : Artifact) (active : Acquisition) (next cursor : Nat)
    (entry : EntryId × Nat) : Acquiring n :=
  match (state.ledger.shared.slots entry.1).state with
  | .complete => state.goesTo (.landed active next cursor entry)
  | .failed => state.goesTo (.failing active entry)
  | .cancelled => state.refuses active (.cancelled artifact.name)
  | .pending | .downloading | .paused | .preempted =>
      state.goesTo (.sweeping active next (cursor + 1))

/-- Place an artifact, or refuse it. -/
def settle (sha256 : Bytes → ArtifactDigest) (state : Acquiring n) (artifact : Artifact)
    (active : Acquisition) (next cursor : Nat) (entry : EntryId × Nat)
    (cached : Option CacheName) (landing : Landing) : Acquiring n :=
  match place sha256 artifact cached landing with
  | .ok installed =>
      { state with
        placed := state.placed.set entry.2 (some installed)
        sources := state.sources.set entry.2 cached
        stage := .placed active next cursor entry }
  | .error (error, quarantined) =>
      { state with cache := quarantined.elim state.cache state.cache.evict }.refuses active error

/-- Let go of one entry, or return the error. A slot that is still active is not freed yet. -/
def release (state : Acquiring n) (error : Error) : Acquisition → Acquisition → Acquiring n
  | entry :: cancels, frees =>
      (state.setShared ((state.ledger.shared.cancel entry.1).getD state.ledger.shared)).goesTo
        (.releasing error cancels frees)
  | [], entry :: frees =>
      match state.ledger.shared.remove entry.1 with
      | some shared => (state.setShared shared).goesTo (.releasing error [] frees)
      | none => state
  | [], [] => state.goesTo (.returned (.error error))

/-- One step of the call. -/
def advance (sha256 : Bytes → ArtifactDigest) (config : Config) (plan : Plan)
    (priority : Priority) (state : Acquiring n) (answer : Answer n) : Option (Acquiring n) :=
  match state.stage with
  | .heading active next =>
      if next < plan.artifacts.length ∨ active ≠ [] then
        some (state.goesTo (.filling active next))
      else some (state.goesTo (.returned (.ok (state.placed.filterMap id))))
  | .filling active next => some (state.fill config plan priority active next answer)
  | .sweeping active next cursor =>
      match active[cursor]? with
      | none => some (state.goesTo (.heading active next))
      | some entry => plan.artifacts[entry.2]?.map fun artifact =>
          state.look artifact active next cursor entry
  | .failing active entry => plan.artifacts[entry.2]?.map fun artifact =>
      state.refuses active (.artifact artifact.name
        ((state.ledger.shared.slots entry.1).failure.getD .panicked))
  | .landed active next cursor entry =>
      some (state.goesTo (.placing active next cursor entry
        (state.ledger.shared.slots entry.1).path))
  | .placing active next cursor entry cached => plan.artifacts[entry.2]?.map fun artifact =>
      state.settle sha256 artifact active next cursor entry cached answer.landing
  | .placed active next cursor entry =>
      some ((state.setShared ((state.ledger.shared.remove entry.1).getD state.ledger.shared)).goesTo
        (.sweeping (swapRemove active cursor) next cursor))
  | .releasing error cancels frees => some (state.release error cancels frees)
  | .returned _ => none

def step (sha256 : Bytes → ArtifactDigest) (config : Config) (plan : Plan) (priority : Priority)
    (state : Acquiring n) : Step n → Option (Acquiring n)
  | .call answer => state.advance sha256 config plan priority answer
  | .queue action => (state.ledger.queueStep action).map fun ledger => { state with ledger }
  | .disk cache => some { state with cache }

/-- The queue frees a slot that the call has seen complete, when it is asked to. -/
def FreesSettled (state : Acquiring n) : Step n → Prop
  | .call _ =>
      match state.stage with
      | .placed _ _ _ entry => (state.ledger.shared.remove entry.1).isSome = true
      | _ => True
  | _ => True

instance (state : Acquiring n) (action : Step n) : Decidable (state.FreesSettled action) := by
  unfold FreesSettled
  split
  · split <;> infer_instance
  · infer_instance

end Acquiring

end Retrovert.Update.Acquire
