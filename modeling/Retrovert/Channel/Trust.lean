import Mathlib.Order.Lattice
import Retrovert.Library.Disk

/-!
# Trust state and authentication

A channel keeps a floor: the lowest version of each role that it accepts, and
the earliest time it lets a chain be verified against. A check reads the floor,
verifies a chain at the later of the host's date and the local clock, and raises
the floor to what it verified before it resolves the target.

The metadata library that fetches and verifies the chain is left open: a call is
given whatever its refresh answers. So are the host, both clocks, and whether
the floor's record can be read and written. The record is what its bytes parse
to, or garbled when they do not parse.
-/

set_option autoImplicit false

namespace Retrovert.Channel

/-! ## Time -/

/-- An instant, in nanoseconds since the Unix epoch. -/
abbrev Timestamp := Int

/-- Whole seconds since the Unix epoch, rounded towards it. -/
def asSecond (instant : Timestamp) : Int := instant.tdiv 1000000000

/-- The instant a check verifies against: the host's word, but never earlier
than this machine's own clock. -/
def verificationTime (reported localClock : Timestamp) : Timestamp := max reported localClock

/-! ## The floor -/

/-- The top-level roles. -/
inductive RoleName where
  | root
  | timestamp
  | snapshot
  | targets
deriving DecidableEq

/-- The lowest version accepted for each role, and the earliest verification
time, in seconds. -/
structure Floor where
  root : Nat := 0
  timestamp : Nat := 0
  snapshot : Nat := 0
  targets : Nat := 0
  verifiedAt : Int := 0
deriving DecidableEq

/-- Why a check did not authenticate. -/
inductive Error where
  | tuf
  | manifest
  | rollback (role : RoleName) (floor offered : Nat)
  | timeRollback (floor offered : Int)
  | trust
  | incompleteRefresh (role : RoleName)
deriving DecidableEq

/-- The versions of the metadata a refresh left trusted. -/
structure TrustedMetadataSet where
  root : Nat
  timestamp : Option Nat
  snapshot : Option Nat
  targets : Option Nat

namespace Floor

/-- The versions a refresh completed at `verifiedAt` left trusted. -/
def of (trusted : TrustedMetadataSet) (verifiedAt : Timestamp) : Except Error Floor :=
  match trusted.timestamp, trusted.snapshot, trusted.targets with
  | none, _, _ => .error (.incompleteRefresh .timestamp)
  | some _, none, _ => .error (.incompleteRefresh .snapshot)
  | some _, some _, none => .error (.incompleteRefresh .targets)
  | some timestamp, some snapshot, some targets =>
      .ok { root := trusted.root, timestamp, snapshot, targets, verifiedAt := asSecond verifiedAt }

/-- Refuse a verification time earlier than one already verified against. -/
def admitTime (floor : Floor) (offered : Timestamp) : Except Error Unit :=
  if asSecond offered < floor.verifiedAt then
    .error (.timeRollback floor.verifiedAt (asSecond offered))
  else .ok ()

/-- Refuse a chain with any role below the floor, naming the first. -/
def admitOffered (floor offered : Floor) : Except Error Unit :=
  if offered.root < floor.root then .error (.rollback .root floor.root offered.root)
  else if offered.timestamp < floor.timestamp then
    .error (.rollback .timestamp floor.timestamp offered.timestamp)
  else if offered.snapshot < floor.snapshot then
    .error (.rollback .snapshot floor.snapshot offered.snapshot)
  else if offered.targets < floor.targets then
    .error (.rollback .targets floor.targets offered.targets)
  else .ok ()

/-- This floor lifted to whichever of the two is higher, role by role. -/
def raisedTo (floor offered : Floor) : Floor where
  root := max floor.root offered.root
  timestamp := max floor.timestamp offered.timestamp
  snapshot := max floor.snapshot offered.snapshot
  targets := max floor.targets offered.targets
  verifiedAt := max floor.verifiedAt offered.verifiedAt

/-! ### Floors as a lattice -/

/-- One floor refuses no more than another: it is below it in every role and in
time. -/
instance : LE Floor where
  le lower upper := lower.root ≤ upper.root ∧ lower.timestamp ≤ upper.timestamp ∧
    lower.snapshot ≤ upper.snapshot ∧ lower.targets ≤ upper.targets ∧
    lower.verifiedAt ≤ upper.verifiedAt

theorem le_def {lower upper : Floor} : lower ≤ upper ↔
    lower.root ≤ upper.root ∧ lower.timestamp ≤ upper.timestamp ∧
      lower.snapshot ≤ upper.snapshot ∧ lower.targets ≤ upper.targets ∧
      lower.verifiedAt ≤ upper.verifiedAt := Iff.rfl

/-- Raising a floor is taking the join. -/
instance : SemilatticeSup Floor where
  sup := raisedTo
  le_refl floor := by simp [le_def]
  le_trans first second third lower upper := by
    simp only [le_def] at *
    omega
  le_antisymm first second lower upper := by
    obtain ⟨_, _, _, _, _⟩ := first
    obtain ⟨_, _, _, _, _⟩ := second
    simp only [le_def, mk.injEq] at *
    omega
  le_sup_left first second := by simp [le_def, raisedTo]
  le_sup_right first second := by simp [le_def, raisedTo]
  sup_le first second third lower upper := by
    simp only [le_def, raisedTo] at *
    omega

theorem raisedTo_eq_sup (floor offered : Floor) : floor.raisedTo offered = floor ⊔ offered := rfl

theorem verifiedAt_of {trusted : TrustedMetadataSet} {at' : Timestamp} {offered : Floor}
    (whole : of trusted at' = .ok offered) : offered.verifiedAt = asSecond at' := by
  unfold of at whole
  split at whole
  all_goals cases whole
  rfl

/-- What the two refusals leave: a chain at or above the floor, at a time at or
after it. -/
theorem le_of_admitted {floor offered : Floor} {trusted : TrustedMetadataSet} {at' : Timestamp}
    (timely : floor.admitTime at' = .ok ()) (whole : of trusted at' = .ok offered)
    (admitted : floor.admitOffered offered = .ok ()) : floor ≤ offered := by
  have time : floor.verifiedAt ≤ asSecond at' := by
    unfold admitTime at timely
    split at timely
    · cases timely
    · omega
  have verified := verifiedAt_of whole
  unfold admitOffered at admitted
  split at admitted
  · cases admitted
  · split at admitted
    · cases admitted
    · split at admitted
      · cases admitted
      · split at admitted
        · cases admitted
        · simp only [le_def]
          omega

end Floor

/-! ## The trust store -/

/-- The floor's record: not there, there but not a floor, or a floor. -/
inductive TrustStore where
  | absent
  | garbled
  | recorded (floor : Floor)
deriving DecidableEq

/-- The floor recorded by the last successful check. Only an absent record
starts at zero; a record that cannot be read is an error. -/
def TrustStore.floor (store : TrustStore) (readFails : Bool) : Except Error Floor :=
  if readFails then .error .trust
  else
    match store with
    | .absent => .ok {}
    | .garbled => .error .trust
    | .recorded floor => .ok floor

/-- How an atomic write of the record ends: it may fail after it has landed. -/
inductive Written where
  | ok
  | failed (landed : Bool)
deriving DecidableEq

/-- Record a floor as the new refusal boundary. -/
def TrustStore.record (store : TrustStore) (floor : Floor) (written : Written) :
    TrustStore × Except Error Unit :=
  match written with
  | .ok => (.recorded floor, .ok ())
  | .failed true => (.recorded floor, .error .trust)
  | .failed false => (store, .error .trust)

/-! ## One check -/

/-- What one check is given: the host's date (`none` when there is none to be
had), the local clock, and how the trust directory and the metadata library
answer. -/
structure Check where
  date : Option Timestamp
  localClock : Timestamp
  readFails : Bool := false
  refresh : Option TrustedMetadataSet
  written : Written := .ok
  target : Option Bytes

/-- The network's time, no earlier than the local clock. -/
def Check.networkTime (check : Check) : Option Timestamp :=
  check.date.map fun reported => verificationTime reported check.localClock

/-- What the refresh left trusted, or the library's own error. -/
def Check.refreshed (check : Check) : Except Error TrustedMetadataSet :=
  match check.refresh with
  | none => .error .tuf
  | some trusted => .ok trusted

section Authenticate

variable {Manifest Id : Type} (parse : Bytes → Option Manifest) (generationId : Bytes → Id)

/-- A manifest the channel's signatures vouch for. -/
structure Authenticated (Manifest Id : Type) where
  manifest : Manifest
  generationId : Id
  verifiedAt : Timestamp

/-- What one authentication attempt produced. -/
inductive Attempt (Manifest Id : Type) where
  | skipped
  | authenticated (result : Authenticated Manifest Id)

/-- The target the verified chain names, read as a manifest. -/
def resolve (check : Check) (at' : Timestamp) : Except Error (Attempt Manifest Id) :=
  match check.target with
  | none => .error .tuf
  | some bytes =>
      match parse bytes with
      | none => .error .manifest
      | some manifest =>
          .ok (.authenticated ⟨manifest, generationId bytes, at'⟩)

/-- Everything a check does before it writes: refuse a time or a chain below the
floor, and lift the floor to what the refresh left trusted. -/
def raise (store : TrustStore) (check : Check) (at' : Timestamp) : Except Error Floor := do
  let floor ← store.floor check.readFails
  floor.admitTime at'
  let trusted ← check.refreshed
  let offered ← Floor.of trusted at'
  floor.admitOffered offered
  return floor.raisedTo offered

/-- Resolve the channel to the manifest it currently names. The floor is
recorded as soon as the chain verifies, before the target is resolved. -/
def authenticate (store : TrustStore) (check : Check) :
    TrustStore × Except Error (Attempt Manifest Id) :=
  match check.networkTime with
  | none => (store, .ok .skipped)
  | some at' =>
      match raise store check at' with
      | .error error => (store, .error error)
      | .ok raised =>
          ((store.record raised check.written).1, do
            (store.record raised check.written).2
            resolve parse generationId check at')

/-- The trust store after a sequence of checks. -/
def afterChecks (store : TrustStore) : List Check → TrustStore
  | [] => store
  | check :: later => afterChecks (authenticate parse generationId store check).1 later

end Authenticate

end Retrovert.Channel
