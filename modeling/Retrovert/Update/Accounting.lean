import Mathlib.Data.List.Perm.Basic
import Retrovert.Update.Books

/-!
# What an acquisition accounts for

An artifact is placed, or its transfer is on the list of the call (`Partial`). So whichever way
the call ends, its slots are free again, and if it ends well its result is the plan's artifacts
in their order (`acquire_accounts`).

That the queue frees the slot of what has been placed, when it is asked to, is assumed of the
run. It does so as long as no sweep of a worker resumes a slot that another worker still holds
(`frees_settled`).
-/

set_option autoImplicit false

namespace Retrovert.Update.Acquire

open Retrovert.Runs
open Retrovert.Transport (ArtifactDigest Cache CacheName)
open Retrovert.Queue (Action EntryId Priority Shared)
open Retrovert.Apply (Error Installed Plan digestOf installedFrom)
open Retrovert.Tuf (Artifact)

/-! ## Lists -/

section Lists

variable {α : Type}

/-- Taking a member out leaves the others, in some order. -/
theorem swapRemove_perm {list : List α} {index : Nat} {member : α}
    (found : list[index]? = some member) : list.Perm (member :: swapRemove list index) := by
  obtain ⟨within, rfl⟩ := List.getElem?_eq_some_iff.mp found
  obtain ⟨init, last, rfl⟩ := List.eq_nil_or_concat' list |>.resolve_left fun empty => by
    simp [empty] at within
  rw [swapRemove, List.getLast?_concat, Option.map_some, Option.getD_some]
  rcases Nat.lt_or_ge index init.length with inside | past
  · rw [List.set_append_left _ _ inside, List.dropLast_concat, List.getElem_append_left inside]
    have apart : init.Perm (init[index] :: init.eraseIdx index) :=
      (List.getElem_cons_eraseIdx_perm inside).symm
    have instead : (last :: init.eraseIdx index).Perm (init.set index last) :=
      (List.set_perm_cons_eraseIdx inside last).symm
    calc List.Perm _ (last :: init) := List.perm_append_singleton last init
      List.Perm _ (last :: init[index] :: init.eraseIdx index) := apart.cons last
      List.Perm _ (init[index] :: last :: init.eraseIdx index) := .swap ..
      List.Perm _ (init[index] :: init.set index last) := instead.cons _
  · have same : index = init.length := by
      rw [List.length_append, List.length_singleton] at within
      omega
    subst same
    rw [List.set_append_right _ _ (Nat.le_refl _), Nat.sub_self, List.set_cons_zero,
      List.dropLast_concat, List.getElem_concat_length rfl]
    exact List.perm_append_singleton last init

/-- Of a list without gaps the members are what is left of it. -/
theorem filterMap_id_map_some {list : List (Option α)} (full : ∀ member ∈ list, member ≠ none) :
    (list.filterMap id).map some = list := by
  induction list with
  | nil => rfl
  | cons member rest ih =>
      rw [List.forall_mem_cons] at full
      cases member with
      | none => exact absurd rfl full.1
      | some value => exact congrArg (some value :: ·) (ih full.2)

end Lists

/-! ## What has been placed -/

namespace Acquiring

variable {n : Nat} {sha256 : Bytes → ArtifactDigest} {config : Config} {plan : Plan}
  {priority : Priority} {state after : Acquiring n}

/-- The artifact of an index is in place, from a path that its own transfer has published. -/
def Delivered (plan : Plan) (state : Acquiring n) (index : Nat) : Prop :=
  ∃ artifact digest number path, plan.artifacts[index]? = some artifact ∧
    digestOf artifact = .ok digest ∧
    state.placed[index]? = some (some (installedFrom artifact digest)) ∧
    state.ledger.tickets[index]? = some number ∧ state.sources[index]? = some (some path) ∧
    path ∈ state.ledger.published number

/-- The artifacts before `next` have been queued, and each of them is placed or on the list. -/
structure Partial (plan : Plan) (state : Acquiring n) (active : Acquisition) (next : Nat) :
    Prop where
  queued : next = state.ledger.tickets.length
  within : next ≤ plan.artifacts.length
  placed : state.placed.length = plan.artifacts.length
  sources : state.sources.length = plan.artifacts.length
  delivered : ∀ index < next, index ∈ active.map Prod.snd ∨ state.Delivered plan index

/-- What holds of a call by where it is. -/
def Stands (plan : Plan) (state : Acquiring n) : Prop :=
  match state.stage with
  | .heading active next | .filling active next | .sweeping active next _ =>
      state.Partial plan active next
  | .landed active next cursor entry =>
      state.Partial plan active next ∧ active[cursor]? = some entry
  | .placing active next cursor entry cached =>
      state.Partial plan active next ∧ active[cursor]? = some entry ∧
        ∀ path, cached = some path → ∃ number, state.ledger.tickets[entry.2]? = some number ∧
          path ∈ state.ledger.published number
  | .placed active next cursor entry =>
      state.Partial plan active next ∧ active[cursor]? = some entry ∧
        state.Delivered plan entry.2
  | .failing _ entry => entry.2 < plan.artifacts.length
  | .releasing _ _ _ | .returned (.error _) => True
  | .returned (.ok installed) => installed = state.placed.filterMap id ∧
      state.Partial plan [] plan.artifacts.length

/-- The books are in order, and so is what has been placed. -/
structure Accounts (plan : Plan) (state : Acquiring n) : Prop where
  books : state.ledger.Books state.stage.active
  stands : state.Stands plan

theorem accounts_begin {shared : Shared n} {cache : Cache} (wired : shared.Wired) :
    (begin plan shared cache).Accounts plan where
  books := Ledger.books_new wired
  stands := ⟨rfl, Nat.zero_le _, List.length_replicate, List.length_replicate, nofun⟩

/-- What is placed stays, while no ticket and no path is taken back. -/
theorem Delivered.mono {index : Nat} (delivered : state.Delivered plan index)
    (placed : after.placed = state.placed) (sources : after.sources = state.sources)
    (tickets : ∀ number, state.ledger.tickets[index]? = some number →
      after.ledger.tickets[index]? = some number)
    (published : ∀ number path, path ∈ state.ledger.published number →
      path ∈ after.ledger.published number) : after.Delivered plan index := by
  obtain ⟨artifact, digest, number, path, member, named, installed, ticket, source, own⟩ := delivered
  exact ⟨artifact, digest, number, path, member, named, placed ▸ installed, tickets number ticket,
    sources ▸ source, published number path own⟩

theorem Partial.mono {active : Acquisition} {next : Nat} (part : state.Partial plan active next)
    (placed : after.placed = state.placed) (sources : after.sources = state.sources)
    (tickets : after.ledger.tickets = state.ledger.tickets)
    (published : ∀ number path, path ∈ state.ledger.published number →
      path ∈ after.ledger.published number) : after.Partial plan active next where
  queued := tickets ▸ part.queued
  within := part.within
  placed := placed ▸ part.placed
  sources := sources ▸ part.sources
  delivered index earlier := (part.delivered index earlier).imp_right fun delivered =>
    delivered.mono placed sources (fun _ ticket => tickets ▸ ticket) published

theorem Partial.goes {active : Acquisition} {next : Nat} (part : state.Partial plan active next)
    (stage : Stage) : (state.goesTo stage).Partial plan active next :=
  part.mono rfl rfl rfl fun _ _ => id

theorem Stands.mono (stands : state.Stands plan) (stage : after.stage = state.stage)
    (placed : after.placed = state.placed) (sources : after.sources = state.sources)
    (tickets : after.ledger.tickets = state.ledger.tickets)
    (published : ∀ number path, path ∈ state.ledger.published number →
      path ∈ after.ledger.published number) : after.Stands plan := by
  have part : ∀ {active next}, state.Partial plan active next → after.Partial plan active next :=
    fun part => part.mono placed sources tickets published
  unfold Stands at stands ⊢
  rw [stage]
  split at stands
  · exact part stands
  · exact part stands
  · exact part stands
  · exact stands.imp_left part
  · obtain ⟨earlier, member, own⟩ := stands
    refine ⟨part earlier, member, fun path reads => ?_⟩
    obtain ⟨number, ticket, listed⟩ := own path reads
    exact ⟨number, tickets ▸ ticket, published number path listed⟩
  · obtain ⟨earlier, member, delivered⟩ := stands
    exact ⟨part earlier, member,
      delivered.mono placed sources (fun _ ticket => tickets ▸ ticket) published⟩
  · exact stands
  · trivial
  · trivial
  · exact ⟨placed ▸ stands.1, part stands.2⟩

/-! ## The steps of the call -/

/-- A step of the others leaves what has been placed as it is. -/
theorem Accounts.queue {action : Action n} (accounts : state.Accounts plan)
    (stepped : (state.ledger.queueStep action).map (fun ledger => { state with ledger }) =
      some after) : after.Accounts plan := by
  obtain ⟨ledger, moved, rfl⟩ := Option.map_eq_some_iff.mp stepped
  obtain ⟨books, tickets, published⟩ := accounts.books.queueStep moved
  exact ⟨books, accounts.stands.mono rfl rfl rfl tickets published⟩

section Steps

variable {active : Acquisition} {next cursor : Nat} {entry : EntryId × Nat}

theorem Accounts.fill (books : state.ledger.Books active) (part : state.Partial plan active next)
    (answer : Answer n) :
    (state.fill config plan priority active next answer).Accounts plan := by
  rw [Acquiring.fill]
  split
  · exact ⟨books, part.goes _⟩
  · rename_i artifact found
    split
    · exact ⟨books, trivial⟩
    · split
      · exact ⟨books, part.goes _⟩
      · rename_i queued
        obtain rfl := part.queued
        refine ⟨books.queues queued, ?_, ?_, part.placed, part.sources, fun index earlier => ?_⟩
        · show _ = (state.ledger.tickets ++ [state.ledger.count]).length
          rw [List.length_append, List.length_singleton]
        · exact (List.getElem?_eq_some_iff.mp found).1
        · rw [List.map_append]
          rcases Nat.lt_succ_iff_lt_or_eq.mp earlier with before | rfl
          · refine (part.delivered index before).imp (List.mem_append_left _) fun delivered => ?_
            refine delivered.mono rfl rfl (fun number ticket => ?_) fun _ _ => id
            exact (List.getElem?_append_left before).trans ticket
          · exact .inl (List.mem_append_right _ List.mem_cons_self)

theorem Accounts.look (books : state.ledger.Books active) (part : state.Partial plan active next)
    (member : active[cursor]? = some entry) {artifact : Artifact}
    (named : plan.artifacts[entry.2]? = some artifact) :
    (state.look artifact active next cursor entry).Accounts plan := by
  rw [Acquiring.look]
  split
  · exact ⟨books, part.goes _, member⟩
  · exact ⟨books, (List.getElem?_eq_some_iff.mp named).1⟩
  · exact ⟨books, trivial⟩
  all_goals exact ⟨books, part.goes _⟩

/-- The path that a slot on the list reads is one that its own transfer has published. -/
theorem Accounts.reads (books : state.ledger.Books active) (part : state.Partial plan active next)
    (member : active[cursor]? = some entry) :
    (state.goesTo (.placing active next cursor entry
      (state.ledger.shared.slots entry.1).path)).Accounts plan := by
  refine ⟨books, part.goes _, member, fun path reads => ?_⟩
  obtain ⟨ticket, -, published⟩ := books.tracked entry (List.mem_of_getElem? member)
  exact ⟨_, ticket, published path reads⟩

theorem Accounts.settle {artifact : Artifact} {cached : Option CacheName} {landing : Landing}
    (books : state.ledger.Books active) (part : state.Partial plan active next)
    (member : active[cursor]? = some entry)
    (own : ∀ path, cached = some path → ∃ number, state.ledger.tickets[entry.2]? = some number ∧
      path ∈ state.ledger.published number)
    (named : plan.artifacts[entry.2]? = some artifact) :
    (state.settle sha256 artifact active next cursor entry cached landing).Accounts plan := by
  rw [Acquiring.settle]
  split
  · rename_i installed placed
    obtain ⟨digest, path, under, rfl, rfl⟩ := place_eq_ok placed
    obtain ⟨number, ticket, published⟩ := own path rfl
    have within := (List.getElem?_eq_some_iff.mp named).1
    have here : Delivered plan { state with
        placed := state.placed.set entry.2 (some (installedFrom artifact digest))
        sources := state.sources.set entry.2 (some path)
        stage := .placed active next cursor entry } entry.2 := by
      refine ⟨artifact, digest, number, path, named, under, ?_, ticket, ?_, published⟩
      · exact List.getElem?_set_self (part.placed ▸ within)
      · exact List.getElem?_set_self (part.sources ▸ within)
    refine ⟨books, ⟨part.queued, part.within, ?_, ?_, fun index earlier => ?_⟩, member, here⟩
    · exact (List.length_set ..).trans part.placed
    · exact (List.length_set ..).trans part.sources
    · by_cases same : index = entry.2
      · exact .inr (same ▸ here)
      · refine (part.delivered index earlier).imp_right fun delivered => ?_
        obtain ⟨artifact, digest, number, path, rest⟩ := delivered
        obtain ⟨one, two, three, four, five, six⟩ := rest
        refine ⟨artifact, digest, number, path, one, two, ?_, four, ?_, six⟩
        · exact (List.getElem?_set_ne (Ne.symm same) ..).trans three
        · exact (List.getElem?_set_ne (Ne.symm same) ..).trans five
  · exact ⟨books, trivial⟩

/-- The slot of what has been placed is freed, and its entry taken off the list. -/
theorem Accounts.frees (books : state.ledger.Books active) (part : state.Partial plan active next)
    (member : active[cursor]? = some entry) (delivered : state.Delivered plan entry.2)
    (frees : (state.ledger.shared.remove entry.1).isSome = true) :
    ((state.setShared ((state.ledger.shared.remove entry.1).getD state.ledger.shared)).goesTo
      (.sweeping (swapRemove active cursor) next cursor)).Accounts plan := by
  obtain ⟨shared, removed⟩ := Option.isSome_iff_exists.mp frees
  rw [removed, Option.getD_some]
  have order := swapRemove_perm member
  refine ⟨(books.perm order).frees removed, part.queued, part.within, part.placed, part.sources,
    fun index earlier => ?_⟩
  rcases part.delivered index earlier with listed | done
  · rcases List.mem_cons.mp ((order.map Prod.snd).mem_iff.mp listed) with rfl | later
    · exact .inr delivered
    · exact .inl later
  · exact .inr done

theorem Accounts.release {error : Error} {cancels frees : Acquisition}
    (books : state.ledger.Books frees) (stage : state.stage = .releasing error cancels frees) :
    (state.release error cancels frees).Accounts plan := by
  cases cancels with
  | cons entry cancels => exact ⟨books.cancels, trivial⟩
  | nil =>
      cases frees with
      | cons entry frees =>
          rw [Acquiring.release]
          split
          · rename_i removed
            exact ⟨books.frees removed, trivial⟩
          · refine ⟨stage ▸ books, ?_⟩
            rw [Stands, stage]
            trivial
      | nil => exact ⟨books, trivial⟩

end Steps

/-- **Every step of the call keeps its accounts in order**, if the queue frees what it is asked
to. -/
theorem Accounts.advance {answer : Answer n} (accounts : state.Accounts plan)
    (frees : state.FreesSettled (.call answer))
    (stepped : state.advance sha256 config plan priority answer = some after) :
    after.Accounts plan := by
  obtain ⟨books, stands⟩ := accounts
  unfold Stands at stands
  unfold FreesSettled at frees
  rw [Acquiring.advance] at stepped
  cases stage : state.stage with
  | heading active next =>
      rw [stage] at books stands stepped
      dsimp only at stepped
      split at stepped
      · cases stepped
        exact ⟨books, Partial.goes stands _⟩
      · rename_i finished
        cases stepped
        obtain ⟨queued, none⟩ := not_or.mp finished
        rw [not_not] at none
        subst none
        have whole := Nat.le_antisymm stands.within (Nat.not_lt.mp queued)
        exact ⟨books, rfl, whole ▸ Partial.goes stands _⟩
  | filling active next =>
      rw [stage] at books stands stepped
      cases stepped
      exact .fill books stands answer
  | sweeping active next cursor =>
      rw [stage] at books stands stepped
      dsimp only at stepped
      cases found : active[cursor]? with
      | none =>
          rw [found] at stepped
          cases stepped
          exact ⟨books, Partial.goes stands _⟩
      | some entry =>
          rw [found] at stepped
          obtain ⟨artifact, named, rfl⟩ := Option.map_eq_some_iff.mp stepped
          exact .look books stands found named
  | failing active entry =>
      rw [stage] at books stepped
      obtain ⟨artifact, -, rfl⟩ := Option.map_eq_some_iff.mp stepped
      exact ⟨books, trivial⟩
  | landed active next cursor entry =>
      rw [stage] at books stands stepped
      cases stepped
      exact .reads books stands.1 stands.2
  | placing active next cursor entry cached =>
      rw [stage] at books stands stepped
      obtain ⟨artifact, named, rfl⟩ := Option.map_eq_some_iff.mp stepped
      exact .settle books stands.1 stands.2.1 stands.2.2 named
  | placed active next cursor entry =>
      rw [stage] at books stands stepped frees
      cases stepped
      exact .frees books stands.1 stands.2.1 stands.2.2 frees
  | releasing error cancels frees =>
      rw [stage] at books stepped
      cases stepped
      exact .release books stage
  | returned result =>
      rw [stage] at stepped
      cases stepped

theorem Accounts.step {action : Step n} (frees : state.FreesSettled action)
    (stepped : state.step sha256 config plan priority action = some after)
    (accounts : state.Accounts plan) : after.Accounts plan := by
  cases action with
  | call answer => exact accounts.advance frees stepped
  | queue action => exact accounts.queue stepped
  | disk cache =>
      cases stepped
      exact ⟨accounts.books, accounts.stands.mono rfl rfl rfl rfl fun _ _ => id⟩

/-- An entry on the list is for an artifact of the plan. -/
theorem Partial.index_lt {active : Acquisition} {next cursor : Nat} {entry : EntryId × Nat}
    (part : state.Partial plan active next) (books : state.ledger.Books active)
    (member : active[cursor]? = some entry) : entry.2 < plan.artifacts.length := by
  have ticket := (books.tracked entry (List.mem_of_getElem? member)).1
  have within := (List.getElem?_eq_some_iff.mp ticket).1
  exact Nat.lt_of_lt_of_le within (part.queued ▸ part.within)

/-- A call that has not returned goes on. -/
theorem Accounts.goesOn (accounts : state.Accounts plan)
    (going : ∀ result, state.stage ≠ .returned result) (answer : Answer n) :
    (state.advance sha256 config plan priority answer).isSome = true := by
  obtain ⟨books, stands⟩ := accounts
  unfold Stands at stands
  rw [Acquiring.advance]
  cases stage : state.stage with
  | heading active next =>
      dsimp only
      split <;> rfl
  | filling | landed | placed | releasing => rfl
  | sweeping active next cursor =>
      rw [stage] at books stands
      dsimp only
      cases found : active[cursor]? with
      | none => rfl
      | some entry =>
          dsimp only
          rw [List.getElem?_eq_getElem (Partial.index_lt stands books found)]
          rfl
  | failing active entry =>
      rw [stage] at stands
      dsimp only
      rw [List.getElem?_eq_getElem stands]
      rfl
  | placing active next cursor entry cached =>
      rw [stage] at books stands
      dsimp only
      rw [List.getElem?_eq_getElem (Partial.index_lt stands.1 books stands.2.1)]
      rfl
  | returned result => exact absurd stage (going result)

/-- **A call accounts for every artifact and every slot.** From any state of the queue, over any
plan, and in any order of steps in which the queue frees the slots it is asked to: when the call
returns, every entry that it queued is out of its slot. And if it returns the artifacts, they are
the plan's, each once and in its order, and each was placed from a path that its own transfer
published. -/
theorem acquire_accounts (sha256 : Bytes → ArtifactDigest) (config : Config) (plan : Plan)
    (priority : Priority) {shared : Shared n} {cache : Cache} (wired : shared.Wired)
    (run : Moves (step sha256 config plan priority) FreesSettled (begin plan shared cache) state)
    {result : Except Error (List Installed)} (returned : state.stage = .returned result) :
    (∀ number ∈ state.ledger.tickets, state.ledger.Freed number) ∧
      ∀ artifacts, result = .ok artifacts →
        artifacts.length = plan.artifacts.length ∧ state.ledger.tickets.Nodup ∧
        state.ledger.tickets.length = plan.artifacts.length ∧
        ∀ (index : Nat) (artifact : Artifact), plan.artifacts[index]? = some artifact →
          ∃ digest number path,
          digestOf artifact = .ok digest ∧
          artifacts[index]? = some (installedFrom artifact digest) ∧
          state.ledger.tickets[index]? = some number ∧
          state.sources[index]? = some (some path) ∧ path ∈ state.ledger.published number := by
  have accounts : state.Accounts plan :=
    Moves.invariant (Accounts plan) (fun _ _ _ => Accounts.step) run (accounts_begin wired)
  obtain ⟨books, stands⟩ := accounts
  rw [returned] at books
  refine ⟨fun number member => ?_, ?_⟩
  · obtain ⟨index, found⟩ := List.mem_iff_getElem?.mp member
    exact (books.freed index number found).resolve_left (fun listed => nomatch listed)
  · rintro artifacts rfl
    rw [Stands, returned] at stands
    obtain ⟨rfl, part⟩ := stands
    have done : ∀ index < plan.artifacts.length, state.Delivered plan index := fun index within =>
      (part.delivered index within).resolve_left (fun listed => nomatch listed)
    have full : ∀ member ∈ state.placed, member ≠ none := by
      intro member there
      obtain ⟨index, found⟩ := List.mem_iff_getElem?.mp there
      have within := (List.getElem?_eq_some_iff.mp found).1
      obtain ⟨_, _, _, _, _, _, placed, _⟩ := done index (part.placed ▸ within)
      rw [Option.some.inj (found.symm.trans placed)]
      exact Option.some_ne_none _
    have whole := filterMap_id_map_some full
    refine ⟨?_, books.once, part.queued.symm, fun index artifact named => ?_⟩
    · rw [← part.placed, ← congrArg List.length whole, List.length_map]
    · obtain ⟨_, digest, number, path, named', under, placed, rest⟩ :=
        done index (List.getElem?_eq_some_iff.mp named).1
      obtain rfl := Option.some.inj (named.symm.trans named')
      refine ⟨digest, number, path, under, ?_, rest⟩
      rw [← whole, List.getElem?_map] at placed
      obtain ⟨installed, found, same⟩ := Option.map_eq_some_iff.mp placed
      rw [found, Option.some.inj same]

/-- A plan of two artifacts. -/
def pairPlan : Plan where
  generationId := "0000000000000000000000000000000000000000000000000000000000000000"
  releaseVersion := 1
  artifacts :=
    [{ name := "a", target := none, path := "a", size := 1, revision := "r", version := none,
        sha256 := "6100000000000000000000000000000000000000000000000000000000000000" },
      { name := "b", target := none, path := "b", size := 1, revision := "r", version := none,
        sha256 := "6200000000000000000000000000000000000000000000000000000000000000" }]

/-- Each worker takes a transfer. -/
def takenByTwo : List (Step 2) :=
  [.queue (.hookReturns 0), .queue (.look 0), .queue (.claim 0 fun _ => true),
    .queue (.hookReturns 1), .queue (.look 1), .queue (.claim 1 fun _ => true)]

/-- A transfer settles. -/
def settles (worker : Fin 2) (content : UInt8) : List (Step 2) :=
  [.queue (.settle worker (.complete (ArtifactDigest.leading [content])))]

/-- The call goes on for so many steps, in which a copy holds one byte. -/
def calls (count : Nat) (content : UInt8) : List (Step 2) :=
  List.replicate count (.call { spawned := fun _ => true, landing := { landed := some [content] } })

/-- The call has returned artifacts. -/
def returnsArtifacts (state : Acquiring 2) : Bool :=
  match state.stage with
  | .returned (.ok _) => true
  | _ => false

/-- The second of two transfers settles first. -/
theorem acquire_accounts_of_two : ∃ (state : Acquiring 2) (artifacts : List Installed),
    state.stage = .returned (.ok artifacts) ∧ artifacts.length = 2 ∧
      ∀ number ∈ state.ledger.tickets, state.ledger.Freed number := by
  obtain ⟨state, run, found⟩ := Moves.of_check
    (step ArtifactDigest.leading ⟨['u', '/'], false, 0⟩ pairPlan .user) FreesSettled
    (begin pairPlan (Shared.fresh 2) Disk.empty)
    (calls 4 0 ++ takenByTwo ++ settles 1 0x62 ++ calls 8 0x62 ++ settles 0 0x61 ++ calls 6 0x61)
    returnsArtifacts (by decide +kernel)
  cases stage : state.stage with
  | returned result =>
      cases result with
      | ok artifacts =>
          have accounts := acquire_accounts _ _ _ _ Shared.wired_fresh run stage
          exact ⟨state, artifacts, stage, (accounts.2 artifacts rfl).1, accounts.1⟩
      | error error =>
          rw [returnsArtifacts, stage] at found
          cases found
  | _ =>
      rw [returnsArtifacts, stage] at found
      cases found

/-! ## When the queue frees what it is asked to -/

/-- No sweep of a worker resumes a slot that another worker still holds. -/
def SparesHeld (state : Acquiring n) : Step n → Prop
  | .queue action => state.ledger.shared.SweepSparesHeld action
  | _ => True

/-- The slot that the call has seen complete and not yet freed. -/
def seen (state : Acquiring n) : Option EntryId :=
  match state.stage with
  | .landed _ _ _ entry | .placing _ _ _ entry _ | .placed _ _ _ entry => some entry.1
  | _ => none

/-- The slots are owned by one worker each, and one that the call has seen complete by none. -/
structure Settled (state : Acquiring n) : Prop where
  owned : ∀ id, state.ledger.shared.Owned id
  rests : ∀ id, state.seen = some id → state.ledger.shared.Rests id

/-- An entry that has come to its end is freed when that is asked. -/
theorem isSome_remove {shared : Shared n} {id : EntryId} (rests : shared.Rests id) :
    (shared.remove id).isSome = true := by
  have idle : shared.isActive id = false :=
    Bool.eq_false_iff.mpr (mt Shared.isActive_iff.mp rests.idle)
  have still : (shared.slots id).state ≠ .downloading := by
    rcases rests.ended with ended | ended | ended <;> rw [ended] <;> nofun
  rw [Shared.remove, Queue.Entry.remove, idle]
  simp [Queue.Slot.snapshot, still]

theorem Settled.freesSettled (settled : state.Settled) (action : Step n) :
    state.FreesSettled action := by
  cases action with
  | queue | disk => trivial
  | call answer =>
      unfold FreesSettled
      have rests := settled.rests
      unfold seen at rests
      cases stage : state.stage with
      | placed active next cursor entry =>
          rw [stage] at rests
          exact isSome_remove (rests _ rfl)
      | _ => trivial

/-- What a step of the call does: it looks at the queue, and has seen complete what it had, or
what reads complete; or it takes a step of the queue that no sweep is part of. -/
inductive Calls (state after : Acquiring n) : Prop
  | looks (ledger : after.ledger = state.ledger) (seen : ∀ id, after.seen = some id →
      state.seen = some id ∨ (state.ledger.shared.slots id).inUse = true ∧
        (state.ledger.shared.slots id).state = .complete)
  | acts (action : Action n) (seen : after.seen = none)
      (stepped : state.ledger.shared.step action = some after.ledger.shared)
      (spares : state.ledger.shared.SweepSparesHeld action)

/-- Where the call goes on to has seen nothing complete. -/
theorem Calls.goes (stage : Stage) (seen : (state.goesTo stage).seen = none) :
    Calls state (state.goesTo stage) :=
  .looks rfl fun _ found => by rw [seen] at found; cases found

theorem Calls.refuses (active : Acquisition) (error : Error) :
    Calls state (state.refuses active error) :=
  .goes _ rfl

theorem fill_calls (active : Acquisition) (next : Nat) (answer : Answer n) :
    Calls state (state.fill config plan priority active next answer) := by
  rw [Acquiring.fill]
  split
  · exact .goes _ rfl
  · split
    · exact .refuses active _
    · rename_i request _
      split
      · exact .goes _ rfl
      · rename_i queued
        refine .acts (.queue request answer.nowMs answer.spawned) rfl ?_ trivial
        rw [Shared.step, queued]
        rfl

theorem look_calls {active : Acquisition} {next cursor : Nat} {entry : EntryId × Nat}
    (inUse : (state.ledger.shared.slots entry.1).inUse = true) (artifact : Artifact) :
    Calls state (state.look artifact active next cursor entry) := by
  rw [Acquiring.look]
  split
  case h_1 complete =>
    refine .looks rfl fun id seen => .inr ?_
    cases seen
    exact ⟨inUse, complete⟩
  all_goals exact .goes _ rfl

theorem release_calls {error : Error} {cancels frees : Acquisition} :
    Calls state (state.release error cancels frees) :=
  match cancels, frees with
  | entry :: cancels, frees => .acts (.cancel entry.1) rfl rfl trivial
  | [], entry :: frees => by
      rw [Acquiring.release]
      split
      · rename_i removed
        refine .acts (.remove entry.1) rfl ?_ trivial
        rw [Shared.step, removed]
        rfl
      · exact .looks rfl fun _ seen => .inl seen
  | [], [] => .goes _ rfl

/-- **What every step of the call does** to the queue, and to what it has seen of it. -/
theorem advance_calls {answer : Answer n} (books : state.ledger.Books state.stage.active)
    (stepped : state.advance sha256 config plan priority answer = some after) :
    Calls state after := by
  rw [Acquiring.advance] at stepped
  cases stage : state.stage with
  | heading active next =>
      rw [stage] at stepped
      dsimp only at stepped
      split at stepped <;> cases stepped <;> exact .goes _ rfl
  | filling active next =>
      rw [stage] at stepped
      cases stepped
      exact fill_calls active next answer
  | sweeping active next cursor =>
      rw [stage] at stepped books
      dsimp only at stepped
      cases found : active[cursor]? with
      | none =>
          rw [found] at stepped
          cases stepped
          exact .goes _ rfl
      | some entry =>
          rw [found] at stepped
          obtain ⟨artifact, -, rfl⟩ := Option.map_eq_some_iff.mp stepped
          exact look_calls (books.tracked entry (List.mem_of_getElem? found)).2.1 artifact
  | failing active entry =>
      rw [stage] at stepped
      obtain ⟨artifact, -, rfl⟩ := Option.map_eq_some_iff.mp stepped
      exact .refuses active _
  | landed active next cursor entry =>
      rw [stage] at stepped
      cases stepped
      refine .looks rfl fun id found => .inl ?_
      rw [Acquiring.seen, stage]
      exact found
  | placing active next cursor entry cached =>
      rw [stage] at stepped
      obtain ⟨artifact, -, rfl⟩ := Option.map_eq_some_iff.mp stepped
      rw [Acquiring.settle]
      split
      · refine .looks rfl fun id found => .inl ?_
        rw [Acquiring.seen, stage]
        exact found
      · exact .looks rfl nofun
  | placed active next cursor entry =>
      rw [stage] at stepped
      cases stepped
      exact .acts (.remove entry.1) rfl rfl trivial
  | releasing error cancels frees =>
      rw [stage] at stepped
      cases stepped
      exact release_calls
  | returned result =>
      rw [stage] at stepped
      cases stepped

/-- What the call has seen complete is on its list. -/
theorem mem_of_seen {id : EntryId} (accounts : state.Accounts plan) (seen : state.seen = some id) :
    ∃ entry ∈ state.stage.active, entry.1 = id := by
  have stands := accounts.stands
  unfold Stands at stands
  unfold Acquiring.seen at seen
  cases stage : state.stage with
  | landed active next cursor entry =>
      rw [stage] at stands seen
      exact ⟨entry, List.mem_of_getElem? stands.2, Option.some.inj seen⟩
  | placing active next cursor entry cached =>
      rw [stage] at stands seen
      exact ⟨entry, List.mem_of_getElem? stands.2.1, Option.some.inj seen⟩
  | placed active next cursor entry =>
      rw [stage] at stands seen
      exact ⟨entry, List.mem_of_getElem? stands.2.1, Option.some.inj seen⟩
  | _ =>
      rw [stage] at seen
      cases seen

theorem settled_step {action : Step n} (meets : state.SparesHeld action)
    (stepped : state.step sha256 config plan priority action = some after)
    (accounts : state.Accounts plan) (settled : state.Settled) : after.Settled := by
  have wired := accounts.books.wired
  cases action with
  | disk cache =>
      cases stepped
      exact ⟨settled.owned, settled.rests⟩
  | call answer =>
      cases advance_calls accounts.books stepped with
      | looks same seen =>
          refine ⟨fun id => same ▸ settled.owned id, fun id found => ?_⟩
          rw [same]
          rcases seen id found with earlier | ⟨inUse, complete⟩
          · exact settled.rests id earlier
          · refine ⟨inUse, .inl complete, fun held => ?_⟩
            -- Who holds a slot is downloading, or has been told to make way.
            rcases ((settled.owned id).held held).2 with running | running <;>
              rw [complete] at running <;> cases running
      | acts action seen moved spares =>
          refine ⟨fun id => Shared.owned_step spares moved wired (settled.owned id), ?_⟩
          rw [seen]
          exact nofun
  | queue action =>
      obtain ⟨ledger, moved, rfl⟩ := Option.map_eq_some_iff.mp stepped
      obtain ⟨stepped, removes⟩ := Ledger.step_of_queueStep moved
      refine ⟨fun id => Shared.owned_step meets stepped wired (settled.owned id),
        fun id seen => ?_⟩
      have kept : action ≠ .remove id := fun same => by
        obtain ⟨entry, member, here⟩ := mem_of_seen accounts seen
        exact (accounts.books.others id (removes id same)).2 entry member here
      exact (Shared.rests_step kept stepped wired (settled.rests id seen)).1

/-- **The queue frees what the call asks it to**, in every run in which no sweep resumes a slot
that is still held. -/
theorem frees_settled {shared : Shared n} {cache : Cache} (wired : shared.Wired)
    (owned : ∀ id, shared.Owned id)
    (run : Moves (step sha256 config plan priority) SparesHeld (begin plan shared cache) state) :
    Moves (step sha256 config plan priority) FreesSettled (begin plan shared cache) state := by
  have kept : Moves (step sha256 config plan priority) FreesSettled (begin plan shared cache)
      state ∧ state.Accounts plan ∧ state.Settled := by
    refine Moves.invariant (fun state => Moves (step sha256 config plan priority) FreesSettled
      (begin plan shared cache) state ∧ state.Accounts plan ∧ state.Settled)
      (fun before action after meets stepped held => ?_) run
      ⟨.refl _, accounts_begin wired, owned, nofun⟩
    obtain ⟨earlier, accounts, settled⟩ := held
    have frees := settled.freesSettled action
    exact ⟨earlier.tail frees stepped, accounts.step frees stepped,
      settled_step meets stepped accounts settled⟩
  exact kept.1

end Acquiring

end Retrovert.Update.Acquire
