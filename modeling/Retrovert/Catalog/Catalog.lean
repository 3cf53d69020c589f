import Mathlib.Data.List.Sort
import Retrovert.Apply.InstallRoot

/-!
# The plugin catalog

A catalog keeps the decoders of one backend current against a channel. Its updater
checks the channel, applies what it finds new, and offers what it has applied through
a queue of completions; the catalog takes one completion in each tick, and activates
it when no session is open. Activation drops the set that is loaded before it loads
the next one. A set that is refused is followed by the previous one, from disk, or by
the next of the generations that stood on disk at boot.

The updater's thread runs beside the catalog's, so its steps are actions of their
own. What comes of listing the install root, of extracting a generation and of
loading a library is part of the action that does it (`Outcomes`). The payload trees
are left to their own model.
-/

set_option autoImplicit false

namespace Retrovert.Catalog

open Retrovert.Apply (Generation Installed)

/-! ## The backend -/

/-- A library of an extracted payload tree: the generation's, and the artifact's name
in it. -/
structure Library where
  generation : String
  artifact : String
deriving DecidableEq

/-- The library each artifact loads from. -/
def libraries (generation : Generation) : List Library :=
  generation.artifacts.map fun artifact => ⟨generation.id, artifact.name⟩

inductive PluginKind where
  | playback
  | other
deriving DecidableEq

/-- A library that has been loaded. -/
structure Plugin where
  library : Library
  kind : PluginKind
deriving DecidableEq

/-- What comes of loading a library. -/
abbrev Probe := Library → Except String PluginKind

/-- The decoder set, and whether a session is open. Beside them, whether the set was
ever swapped under an open session. -/
structure Backend where
  plugins : List Plugin := []
  live : Bool := false
  interrupted : Bool := false
deriving DecidableEq

structure SwapReport where
  loaded : Nat
  errors : List String
deriving DecidableEq

def loadPlugins (probe : Probe) (paths : List Library) : List Plugin × List String :=
  (paths.filterMap fun path => (probe path).toOption.map fun kind => ⟨path, kind⟩,
    paths.filterMap fun path => match probe path with
      | .ok _ => none
      | .error error => some error)

/-- Replace the decoder set. The session and the old set go first. -/
def Backend.swapPlugins (backend : Backend) (probe : Probe) (paths : List Library) :
    Backend × SwapReport :=
  let (plugins, errors) := loadPlugins probe paths
  ({ plugins, live := false, interrupted := backend.interrupted || backend.live },
    ⟨plugins.countP (·.kind = .playback), errors⟩)

def Backend.close (backend : Backend) : Backend := { backend with live := false }

/-- A session opens on a plugin of the set, if on any. -/
def Backend.mount (backend : Backend) (opens : Bool) : Backend :=
  { backend with live := opens && !backend.plugins.isEmpty }

/-- Whether a swap took every plugin the generation names. -/
def accepted (report : SwapReport) (expected : Nat) : Bool :=
  report.errors.isEmpty && report.loaded == expected

def describe (report : SwapReport) (expected : Nat) : String :=
  let counts := toString report.loaded ++ " of " ++ toString expected ++ " plugins loaded"
  if report.errors.isEmpty then counts else counts ++ ": " ++ "; ".intercalate report.errors

/-! ## The activation record -/

inductive EventKind where
  | activated
  | fellBack
  | probeFailed
  | extractFailed
deriving DecidableEq

/-- An entry of the history, less its time. -/
structure Event where
  what : EventKind
  generation : String
  detail : Option String
deriving DecidableEq

def historyCap : Nat := 64

structure ActivationLog where
  active : Option String := none
  previous : Option String := none
  history : List Event := []
deriving DecidableEq

namespace ActivationLog

def push (log : ActivationLog) (what : EventKind) (generation : String)
    (detail : Option String) : ActivationLog :=
  let history := log.history ++ [⟨what, generation, detail⟩]
  { log with history := history.drop (history.length - historyCap) }

/-- Record that `id` went live. -/
def activated (log : ActivationLog) (id : String) : ActivationLog :=
  let previous := if log.active ≠ some id then log.active else log.previous
  { log with active := some id, previous }.push .activated id none

def fellBack (log : ActivationLog) (refused previous detail : String) : ActivationLog :=
  log.push .fellBack refused (some (detail ++ "; reloaded " ++ previous))

def probeFailed (log : ActivationLog) (id detail : String) : ActivationLog :=
  log.push .probeFailed id (some detail)

def extractFailed (log : ActivationLog) (id detail : String) : ActivationLog :=
  log.push .extractFailed id (some detail)

end ActivationLog

/-! ## The updater -/

/-- The generations that have been published, each offered once. -/
structure Completions where
  seen : List String := []
  pending : List Generation := []
deriving DecidableEq

namespace Completions

def record (completions : Completions) (generation : Generation) : Completions :=
  if generation.id ∈ completions.seen then completions
  else ⟨generation.id :: completions.seen, completions.pending ++ [generation]⟩

def nextCompleted (completions : Completions) : Option Generation × Completions :=
  (completions.pending.head?, { completions with pending := completions.pending.tail })

end Completions

/-- What the updater's thread is at: it acquires a generation, or it has published one
that it has yet to offer. -/
inductive Job where
  | idle
  | applying (generation : Generation)
  | offering (generation : Generation)
deriving DecidableEq

/-- The generations of the install root, the completions, the generation that a check
is answered against, and the job that runs. -/
structure Updater where
  root : List Generation := []
  completions : Completions := {}
  installed : Option String := none
  job : Job := .idle
deriving DecidableEq

namespace Updater

/-- Find a generation by its id. -/
def find (updater : Updater) (id : String) : Option Generation :=
  updater.root.find? (·.id == id)

/-- Check what the channel offers, and apply it when it is not what is installed. -/
def check (updater : Updater) (offered : Generation) : Updater :=
  if updater.installed = some offered.id then updater
  else { updater with job := .applying offered }

/-- The generation is installed: it was already, or it is published now. -/
def publish (updater : Updater) (generation : Generation) : Updater :=
  match updater.find generation.id with
  | some installed => { updater with job := .offering installed }
  | none => { updater with root := generation :: updater.root, job := .offering generation }

/-- The generation is offered, and the job is done. -/
def offer (updater : Updater) (generation : Generation) : Updater :=
  { updater with
    completions := updater.completions.record generation
    installed := some generation.id
    job := .idle }

/-- Remove every generation but the ones `live` names. -/
def retain (updater : Updater) (live : List String) : Updater :=
  { updater with root := updater.root.filter (·.id ∈ live) }

end Updater

/-! ## The catalog -/

/-- The catalog's own state. The boot queue has the newest last. -/
structure PluginCatalog where
  log : ActivationLog := {}
  pending : Option Generation := none
  bootQueue : List Generation := []
  loaded : Option String := none
  booted : Bool := false
deriving DecidableEq

/-- What comes of an operation's dealings with its environment. -/
structure Outcomes where
  /-- Whether the install root can be listed. -/
  lists : Bool
  /-- When a generation's directory was modified. -/
  modified : String → Nat
  /-- Why a generation's libraries cannot be had, if they cannot. -/
  extract : Generation → Option String
  probe : Probe

/-- Whether a generation extracts and loads clean. -/
def Outcomes.accepts (outcomes : Outcomes) (generation : Generation) : Bool :=
  (outcomes.extract generation).isNone &&
    (libraries generation).all fun library =>
      match outcomes.probe library with
      | .ok .playback => true
      | _ => false

/-- The catalog, its backend, its updater, and what the channel offers. -/
structure World where
  catalog : PluginCatalog := {}
  backend : Backend := {}
  updater : Updater := {}
  channel : Option Generation := none
deriving DecidableEq

/-- Take the newest of the boot candidates that are left. -/
def PluginCatalog.popBoot (catalog : PluginCatalog) : PluginCatalog :=
  { catalog with
    pending := catalog.bootQueue.getLast?
    bootQueue := catalog.bootQueue.dropLast }

/-- The boot candidates in the order they are tried, the last one first: the recorded
generation, and then the newest. -/
def PluginCatalog.candidates (catalog : PluginCatalog) (modified : String → Nat)
    (generations : List Generation) : List Generation :=
  let sorted := generations.insertionSort fun first second =>
    modified first.id ≤ modified second.id
  match catalog.log.active.bind fun id => sorted.findIdx? (·.id == id) with
  | some position => sorted.eraseIdx position ++ sorted[position]?.toList
  | none => sorted

namespace World

/-- The generations that a listing of the install root finds. -/
def generations (world : World) (outcomes : Outcomes) : List Generation :=
  if outcomes.lists then world.updater.root else []

/-- Seed the first activation from disk, once. -/
def bootOnce (world : World) (outcomes : Outcomes) : World :=
  if world.catalog.booted then world
  else
    let bootQueue := world.catalog.candidates outcomes.modified (world.generations outcomes)
    { world with catalog := { world.catalog with booted := true, bootQueue }.popBoot }

/-- Load a generation from disk again, and say whether it was accepted. -/
def reload (world : World) (outcomes : Outcomes) (id : String) : Backend × Bool :=
  match (world.generations outcomes).find? (·.id == id) with
  | none => (world.backend, false)
  | some generation =>
      match outcomes.extract generation with
      | some _ => (world.backend, false)
      | none =>
          let (backend, report) :=
            world.backend.swapPlugins outcomes.probe (libraries generation)
          (backend, accepted report generation.artifacts.length)

/-- Put a working set back after `refused` did not activate. -/
def recover (world : World) (outcomes : Outcomes) (refused : String) : World :=
  match world.catalog.loaded with
  | none =>
      { world with
        backend := (world.backend.swapPlugins outcomes.probe []).1
        catalog := world.catalog.popBoot }
  | some previous =>
      let (backend, reloaded) := world.reload outcomes previous
      if reloaded then
        { world with
          backend
          catalog := { world.catalog with
            log := world.catalog.log.fellBack refused previous "the previous set was reloaded" } }
      else
        { world with
          backend := (backend.swapPlugins outcomes.probe []).1
          catalog := { world.catalog with
            loaded := none
            log := world.catalog.log.probeFailed previous
              "the previous generation would not reload" } }

/-- Collect what the activation retired: live are the active generation and the one
before it. -/
def cleanUp (world : World) (activated : Generation) : World :=
  { world with
    updater := world.updater.retain (activated.id :: world.catalog.log.previous.toList) }

/-- Load the pending generation into the backend, all or nothing. -/
def activate (world : World) (outcomes : Outcomes) : World :=
  match world.catalog.pending with
  | none => world
  | some generation =>
      let catalog := { world.catalog with pending := none }
      if catalog.loaded = some generation.id then
        { world with catalog := { catalog with bootQueue := [] } }
      else
        match outcomes.extract generation with
        | some detail =>
            recover { world with
              catalog := { catalog with
                log := catalog.log.extractFailed generation.id detail } }
              outcomes generation.id
        | none =>
            let (backend, report) :=
              world.backend.swapPlugins outcomes.probe (libraries generation)
            if accepted report generation.artifacts.length then
              cleanUp { world with
                backend
                catalog := { catalog with
                  loaded := some generation.id
                  log := catalog.log.activated generation.id
                  bootQueue := [] } }
                generation
            else
              recover { world with
                backend
                catalog := { catalog with
                  log := catalog.log.probeFailed generation.id
                    (describe report generation.artifacts.length) } }
                outcomes generation.id

/-- A completion takes the place of whatever is pending. -/
def nextCompleted (world : World) : World :=
  let (next, completions) := world.updater.completions.nextCompleted
  { world with
    updater := { world.updater with completions }
    catalog := { world.catalog with pending := next.or world.catalog.pending } }

/-- One pump from the audio worker's loop. -/
def tick (world : World) (outcomes : Outcomes) : World :=
  let ready := (world.bootOnce outcomes).nextCompleted
  if ready.catalog.pending.isSome && !ready.backend.live then ready.activate outcomes else ready

/-- Replace the session, activating a pending generation first. -/
def mount (world : World) (outcomes : Outcomes) (opens : Bool) : World :=
  let booted := world.bootOnce outcomes
  let ready :=
    if booted.catalog.pending.isSome then
      activate { booted with backend := booted.backend.close } outcomes
    else booted
  { ready with backend := ready.backend.mount opens }

end World

/-! ## Runs -/

/-- A step of the catalog's thread, of the updater's, or of the channel. -/
inductive Action where
  | tick (outcomes : Outcomes)
  | mount (outcomes : Outcomes) (opens : Bool)
  | close
  | release (generation : Generation)
  | check
  | publish
  | fail
  | offer

/-- The updater runs one job at a time. -/
def World.step (world : World) : Action → Option World
  | .tick outcomes => some (world.tick outcomes)
  | .mount outcomes opens => some (world.mount outcomes opens)
  | .close => some { world with backend := world.backend.close }
  | .release generation => some { world with channel := some generation }
  | .check =>
      match world.updater.job, world.channel with
      | .idle, some offered => some { world with updater := world.updater.check offered }
      | _, _ => none
  | .publish =>
      match world.updater.job with
      | .applying generation => some { world with updater := world.updater.publish generation }
      | _ => none
  | .fail =>
      match world.updater.job with
      | .applying _ => some { world with updater := { world.updater with job := .idle } }
      | _ => none
  | .offer =>
      match world.updater.job with
      | .offering generation => some { world with updater := world.updater.offer generation }
      | _ => none

/-- A catalog that has just started, over what its last run left on disk. -/
def World.started (root : List Generation) (log : ActivationLog) : World where
  catalog := { log }
  updater := { root }

/-- A generation of one decoder. -/
def decoder (id : String) : Generation where
  id
  artifacts := [{
    name := "decoder"
    target := none
    version := none
    revision := "1"
    sha256 := ""
    size := 1
    path := "decoder.tar.zst" }]

/-- Extraction succeeds, and the libraries of the generations that `clean` names load. -/
def Outcomes.loading (clean : String → Bool) : Outcomes where
  lists := true
  modified _ := 0
  extract _ := none
  probe library := if clean library.generation then .ok .playback else .error "it has no decoder"

end Retrovert.Catalog
