import Retrovert.Channel.Trust
import Retrovert.Library.Fallible

/-!
# What the floor protects against, and what it does not

A check that records anything records exactly the chain it verified, since the
chain was admitted above the floor in every role and in time. So the floor only
ever rises, and no later check authenticates less than an earlier one did
(`rollback_is_refused`).

The time in the floor is the verification time of the check, which neither the
host nor the local clock vouches for. A check that is told a time ahead of the
true one, but still within its metadata's lifetime, raises the floor to it, and
every check is refused until the true time catches up
(`forward_lie_poisons_the_floor`). That is the only way an honest check is
refused for its time (`time_rollback_iff`).
-/

set_option autoImplicit false

namespace Retrovert.Channel

open Retrovert.Fallible

/-! ## What a check does -/

theorem refreshed_eq_ok {check : Check} {trusted : TrustedMetadataSet} :
    check.refreshed = .ok trusted ↔ check.refresh = some trusted := by
  unfold Check.refreshed
  cases check.refresh <;> simp

/-- A check gets as far as a verified chain. -/
def Verifies (store : TrustStore) (check : Check) (at' : Timestamp) (floor : Floor)
    (trusted : TrustedMetadataSet) : Prop :=
  check.networkTime = some at' ∧ store.floor check.readFails = .ok floor ∧
    floor.admitTime at' = .ok () ∧ check.refresh = some trusted

/-- A check verifies a chain and may record it: the chain is complete and
admitted. -/
def Offers (store : TrustStore) (check : Check) (at' : Timestamp) (offered : Floor) : Prop :=
  ∃ floor trusted, Verifies store check at' floor trusted ∧
    Floor.of trusted at' = .ok offered ∧ floor.admitOffered offered = .ok ()

/-- A check records the chain it verified. -/
def Records (store : TrustStore) (check : Check) (offered : Floor) : Prop :=
  ∃ at', Offers store check at' offered ∧ check.written ≠ .failed false

/-- A chain that is offered is at or above the floor the store holds. -/
theorem Offers.le {store : TrustStore} {check : Check} {at' : Timestamp} {offered floor : Floor}
    (offers : Offers store check at' offered) (read : store.floor false = .ok floor) :
    floor ≤ offered := by
  obtain ⟨held, trusted, ⟨_, readable, timely, _⟩, whole, admitted⟩ := offers
  have same : held = floor := by
    unfold TrustStore.floor at read readable
    split at readable
    · cases readable
    · rw [if_neg (by simp)] at read
      exact Except.ok.inj (readable.symm.trans read)
  exact same ▸ Floor.le_of_admitted timely whole admitted

/-- The chain that is offered carries the second of its check. -/
theorem Offers.verifiedAt {store : TrustStore} {check : Check} {at' : Timestamp} {offered : Floor}
    (offers : Offers store check at' offered) : offered.verifiedAt = asSecond at' := by
  obtain ⟨_, _, _, whole, _⟩ := offers
  exact Floor.verifiedAt_of whole

/-- What a check is about to write is the chain it verified. -/
theorem raise_eq_ok {store : TrustStore} {check : Check} {at' : Timestamp} {raised : Floor}
    (time : check.networkTime = some at') :
    raise store check at' = .ok raised ↔ Offers store check at' raised := by
  unfold raise
  simp only [bind_eq_ok, refreshed_eq_ok, pure, Except.pure, Except.ok.injEq]
  constructor
  · rintro ⟨floor, read, ⟨⟩, timely, trusted, refreshed, offered, whole, ⟨⟩, admitted, rfl⟩
    have above := Floor.le_of_admitted timely whole admitted
    rw [Floor.raisedTo_eq_sup, sup_eq_right.mpr above]
    exact ⟨floor, trusted, ⟨time, read, timely, refreshed⟩, whole, admitted⟩
  · rintro ⟨floor, trusted, ⟨_, read, timely, refreshed⟩, whole, admitted⟩
    have above := Floor.le_of_admitted timely whole admitted
    exact ⟨floor, read, (), timely, trusted, refreshed, raised, whole, (), admitted,
      by rw [Floor.raisedTo_eq_sup, sup_eq_right.mpr above]⟩

/-! ## Refusals of a time -/

/-- A result that is not a refusal of its time. -/
def Timely {α : Type} (result : Except Error α) : Prop :=
  ∀ floor offered, result ≠ .error (.timeRollback floor offered)

theorem Timely.ok {α : Type} (value : α) : Timely (.ok value) := nofun

theorem Timely.bind {α β : Type} {first : Except Error α} {next : α → Except Error β}
    (earlier : Timely first) (later : ∀ value, first = .ok value → Timely (next value)) :
    Timely (first >>= next) := by
  cases first with
  | error error => exact fun floor offered refused => earlier floor offered (by cases refused; rfl)
  | ok value => exact later value rfl

section Runs

variable {Manifest Id : Type} {parse : Bytes → Option Manifest} {generationId : Bytes → Id}

theorem verifiedAt_of_resolve {check : Check} {at' : Timestamp}
    {result : Authenticated Manifest Id}
    (resolved : resolve parse generationId check at' = .ok (.authenticated result)) :
    result.verifiedAt = at' := by
  unfold resolve at resolved
  split at resolved
  · cases resolved
  · split at resolved
    · cases resolved
    · cases resolved
      rfl

/-- The floor becomes the chain that a check records. -/
theorem Records.store {store : TrustStore} {check : Check} {offered : Floor}
    (records : Records store check offered) :
    (authenticate parse generationId store check).1 = .recorded offered := by
  obtain ⟨at', offers, landed⟩ := records
  obtain ⟨_, _, ⟨time, _⟩, _⟩ := id offers
  unfold authenticate
  rw [time]
  dsimp only
  rw [(raise_eq_ok time).mpr offers]
  cases written : check.written with
  | ok => rfl
  | failed kept =>
      cases kept with
      | true => rfl
      | false => exact absurd written landed

/-- A check that records nothing leaves the floor alone. -/
theorem authenticate_store_of_not_records {store : TrustStore} {check : Check}
    (nothing : ∀ offered, ¬Records store check offered) :
    (authenticate parse generationId store check).1 = store := by
  unfold authenticate
  cases time : check.networkTime with
  | none => rfl
  | some at' =>
      dsimp only
      cases raised : raise store check at' with
      | error _ => rfl
      | ok offered =>
          have offers := (raise_eq_ok time).mp raised
          dsimp only
          cases written : check.written with
          | ok => exact absurd ⟨at', offers, by simp [written]⟩ (nothing offered)
          | failed landed =>
              cases landed with
              | true => exact absurd ⟨at', offers, by simp [written]⟩ (nothing offered)
              | false => rfl

/-- A check that authenticates has recorded the chain it verified. -/
theorem records_of_authenticated {store : TrustStore} {check : Check}
    {result : Authenticated Manifest Id}
    (authenticated : (authenticate parse generationId store check).2 = .ok (.authenticated result)) :
    ∃ offered, Records store check offered ∧ offered.verifiedAt = asSecond result.verifiedAt := by
  unfold authenticate at authenticated
  cases time : check.networkTime with
  | none => simp [time] at authenticated
  | some at' =>
      simp only [time] at authenticated
      cases raised : raise store check at' with
      | error _ => simp [raised] at authenticated
      | ok offered =>
          simp only [raised] at authenticated
          have offers := (raise_eq_ok time).mp raised
          obtain ⟨_, recorded, resolved⟩ := bind_eq_ok.mp authenticated
          have landed : check.written = .ok := by
            cases written : check.written with
            | ok => rfl
            | failed landed => cases landed <;> simp [TrustStore.record, written] at recorded
          refine ⟨offered, ⟨at', offers, by simp [landed]⟩, ?_⟩
          rw [offers.verifiedAt, verifiedAt_of_resolve resolved]

/-! ## The floor only rises -/

/-- One check leaves the floor where it was or raises it. -/
theorem authenticate_floor {store : TrustStore} {low : Floor} (read : store.floor false = .ok low)
    (check : Check) : ∃ high,
      (authenticate parse generationId store check).1.floor false = .ok high ∧ low ≤ high := by
  by_cases records : ∃ offered, Records store check offered
  · obtain ⟨offered, records⟩ := records
    obtain ⟨_, offers, _⟩ := id records
    exact ⟨offered, by rw [records.store]; rfl, offers.le read⟩
  · rw [authenticate_store_of_not_records fun offered recorded => records ⟨offered, recorded⟩]
    exact ⟨low, read, le_refl low⟩

/-- So does a run of checks. -/
theorem afterChecks_floor {store : TrustStore} {low : Floor} (read : store.floor false = .ok low)
    (checks : List Check) : ∃ high,
      (afterChecks parse generationId store checks).floor false = .ok high ∧ low ≤ high := by
  induction checks generalizing store low with
  | nil => exact ⟨low, read, le_refl low⟩
  | cons check later ih =>
      obtain ⟨middle, read, above⟩ := authenticate_floor read check
      obtain ⟨high, read, above'⟩ := ih read
      exact ⟨high, read, above.trans above'⟩

/-- A record that does not parse is never replaced. -/
theorem afterChecks_garbled (checks : List Check) :
    afterChecks parse generationId .garbled checks = .garbled := by
  induction checks with
  | nil => rfl
  | cons check later ih =>
      have refused : ∀ offered, ¬Records .garbled check offered := by
        rintro offered ⟨_, ⟨_, _, ⟨_, read, _⟩, _⟩, _⟩
        unfold TrustStore.floor at read
        split at read <;> cases read
      rw [afterChecks, authenticate_store_of_not_records refused, ih]

variable (parse generationId) in
/-- **Rollback is refused over whole runs.** The floor never decreases; a check
that does not get as far as a verified chain leaves it unchanged; and a check
that authenticates verified a chain at or above every chain recorded before it,
in every role and in the second it verified it at. Every check that
authenticates has recorded its chain. -/
theorem rollback_is_refused :
    (∀ (store : TrustStore) (low : Floor) (checks : List Check), store.floor false = .ok low →
      ∃ high, (afterChecks parse generationId store checks).floor false = .ok high ∧ low ≤ high) ∧
    (∀ (store : TrustStore) (check : Check),
      (∀ at' floor trusted, ¬Verifies store check at' floor trusted) →
      (authenticate parse generationId store check).1 = store) ∧
    (∀ (store : TrustStore) (check : Check) (result : Authenticated Manifest Id),
      (authenticate parse generationId store check).2 = .ok (.authenticated result) →
      ∃ offered, Records store check offered ∧
        offered.verifiedAt = asSecond result.verifiedAt) ∧
    ∀ (store : TrustStore) (check : Check) (offered : Floor) (checks : List Check)
      (last : Check) (result : Authenticated Manifest Id), Records store check offered →
      (authenticate parse generationId
        (afterChecks parse generationId store (check :: checks)) last).2 =
          .ok (.authenticated result) →
      ∃ verified, Records (afterChecks parse generationId store (check :: checks)) last verified ∧
        offered ≤ verified ∧ verified.verifiedAt = asSecond result.verifiedAt := by
  refine ⟨fun store low checks read => afterChecks_floor read checks,
    fun store check unverified => ?_, fun _ _ _ => records_of_authenticated, ?_⟩
  · refine authenticate_store_of_not_records fun offered ⟨_, ⟨_, _, verified, _⟩, _⟩ => ?_
    exact unverified _ _ _ verified
  · intro store check offered checks last result records authenticated
    obtain ⟨verified, records', second⟩ := records_of_authenticated authenticated
    have recorded : (authenticate parse generationId store check).1.floor false = .ok offered := by
      rw [records.store]
      rfl
    obtain ⟨high, read, above⟩ : ∃ high, (afterChecks parse generationId
        (authenticate parse generationId store check).1 checks).floor false = .ok high ∧
          offered ≤ high := afterChecks_floor recorded checks
    obtain ⟨_, offers, _⟩ := id records'
    exact ⟨verified, records', above.trans (offers.le read), second⟩

/-! ## Time -/

/-- Some check of a run records a chain verified at a later second than this. -/
def RecordsLaterThan (parse : Bytes → Option Manifest) (generationId : Bytes → Id)
    (store : TrustStore) (checks : List Check) (second : Int) : Prop :=
  ∃ earlier check later offered, checks = earlier ++ check :: later ∧
    Records (afterChecks parse generationId store earlier) check offered ∧
    second < offered.verifiedAt

theorem recordsLaterThan_nil (store : TrustStore) (second : Int) :
    ¬RecordsLaterThan parse generationId store [] second := by
  rintro ⟨earlier, check, later, _, split, _⟩
  simp at split

theorem recordsLaterThan_cons (store : TrustStore) (check : Check) (checks : List Check)
    (second : Int) : RecordsLaterThan parse generationId store (check :: checks) second ↔
      (∃ offered, Records store check offered ∧ second < offered.verifiedAt) ∨
        RecordsLaterThan parse generationId (authenticate parse generationId store check).1 checks
          second := by
  constructor
  · rintro ⟨earlier, later_check, later, offered, split, records, after⟩
    cases earlier with
    | nil =>
        obtain ⟨rfl, rfl⟩ := List.cons.inj split
        exact .inl ⟨offered, records, after⟩
    | cons first rest =>
        obtain ⟨rfl, rest_split⟩ := List.cons.inj split
        exact .inr ⟨rest, later_check, later, offered, rest_split, records, after⟩
  · rintro (⟨offered, records, after⟩ | ⟨earlier, later_check, later, offered, rfl, records, after⟩)
    · exact ⟨[], check, checks, offered, rfl, records, after⟩
    · exact ⟨check :: earlier, later_check, later, offered, rfl, records, after⟩

/-- The floor a run leaves is later than a second exactly when the floor it
started from was, or some check recorded a chain that is. -/
theorem afterChecks_verifiedAt {store : TrustStore} {low high : Floor}
    (read : store.floor false = .ok low) (checks : List Check)
    (read' : (afterChecks parse generationId store checks).floor false = .ok high) (second : Int) :
    second < high.verifiedAt ↔
      second < low.verifiedAt ∨ RecordsLaterThan parse generationId store checks second := by
  induction checks generalizing store low with
  | nil =>
      cases read.symm.trans read'
      simp [recordsLaterThan_nil]
  | cons check later ih =>
      rw [recordsLaterThan_cons]
      by_cases records : ∃ offered, Records store check offered
      · obtain ⟨offered, records⟩ := records
        have only : ∀ other, Records store check other → other = offered := by
          intro other again
          have first : (authenticate parse generationId store check).1 = .recorded offered :=
            records.store
          cases again.store.symm.trans first
          rfl
        obtain ⟨_, offers, _⟩ := id records
        have above := (offers.le read).2.2.2.2
        have recorded : (authenticate parse generationId store check).1.floor false =
            .ok offered := by
          rw [records.store]
          rfl
        rw [ih recorded read']
        constructor
        · rintro (after | after)
          · exact .inr (.inl ⟨offered, records, after⟩)
          · exact .inr (.inr after)
        · rintro (after | ⟨other, again, after⟩ | after)
          · exact .inl (by omega)
          · exact .inl (only other again ▸ after)
          · exact .inr after
      · have nothing : ∀ offered, ¬Records store check offered :=
          fun offered recorded => records ⟨offered, recorded⟩
        have same : (authenticate parse generationId store check).1 = store :=
          authenticate_store_of_not_records nothing
        have unmoved : (authenticate parse generationId store check).1.floor false = .ok low := by
          rw [same, read]
        rw [ih unmoved read']
        constructor
        · rintro (after | after)
          · exact .inl after
          · exact .inr (.inr after)
        · rintro (after | ⟨other, again, _⟩ | after)
          · exact .inl after
          · exact absurd again (nothing other)
          · exact .inr after

theorem admitTime_eq_ok {floor : Floor} {offered : Timestamp} :
    floor.admitTime offered = .ok () ↔ floor.verifiedAt ≤ asSecond offered := by
  unfold Floor.admitTime
  split
  · simp
    omega
  · simp
    omega

/-- Nothing that follows the time floor refuses a time. -/
theorem timely_authenticate {store : TrustStore} {check : Check} {at' : Timestamp} {floor : Floor}
    (time : check.networkTime = some at') (read : store.floor check.readFails = .ok floor)
    (admitted : floor.admitTime at' = .ok ()) :
    Timely (authenticate parse generationId store check).2 := by
  have raised : Timely (raise store check at') := by
    refine .bind (read ▸ .ok _) fun held same => ?_
    cases read.symm.trans same
    refine .bind (admitted ▸ .ok _) fun _ _ => .bind ?_ fun trusted _ => .bind ?_
      fun offered _ => .bind ?_ fun _ _ => .ok _
    · intro first second refused
      unfold Check.refreshed at refused
      split at refused <;> cases refused
    · intro first second refused
      unfold Floor.of at refused
      split at refused <;> cases refused
    · intro first second refused
      unfold Floor.admitOffered at refused
      repeat (split at refused; cases refused)
      cases refused
  unfold authenticate
  rw [time]
  dsimp only
  cases result : raise store check at' with
  | error error =>
      intro first second refused
      cases refused
      exact raised first second result
  | ok high =>
      refine .bind ?_ fun _ _ => ?_
      · intro first second refused
        unfold TrustStore.record at refused
        split at refused <;> cases refused
      · intro first second refused
        unfold resolve at refused
        split at refused
        · cases refused
        · split at refused <;> cases refused

/-- Only the time floor refuses a time. -/
theorem timely_iff {store : TrustStore} {check : Check} {at' : Timestamp} {floor : Floor}
    (time : check.networkTime = some at') (read : store.floor check.readFails = .ok floor) :
    Timely (authenticate parse generationId store check).2 ↔
      floor.verifiedAt ≤ asSecond at' := by
  constructor
  · intro timely
    by_contra early
    refine timely floor.verifiedAt (asSecond at') ?_
    simp [authenticate, time, raise, read, Floor.admitTime, not_le.mp early, bind, Except.bind]
  · intro ordered
    exact timely_authenticate time read (admitTime_eq_ok.mpr ordered)

/-- **An honest check is refused for its time exactly when** the floor its run
started from, or a chain recorded since, carries a later second: whatever
refreshes and failures came between, a check at the true time by both clocks is
timely if and only if no such second was recorded. -/
theorem honest_check_is_timely_iff {store : TrustStore} {low : Floor}
    (read : store.floor false = .ok low) (checks : List Check) (honest : Check) (now : Timestamp)
    (date : honest.date = some now) (clock : honest.localClock = now)
    (readable : honest.readFails = false) :
    Timely (authenticate parse generationId
        (afterChecks parse generationId store checks) honest).2 ↔
      low.verifiedAt ≤ asSecond now ∧
        ¬RecordsLaterThan parse generationId store checks (asSecond now) := by
  have time : honest.networkTime = some now := by
    simp [Check.networkTime, date, clock, verificationTime]
  obtain ⟨high, read', _⟩ : ∃ high, (afterChecks parse generationId store checks).floor false =
      .ok high ∧ low ≤ high := afterChecks_floor read checks
  have later := afterChecks_verifiedAt read checks read' (asSecond now)
  rw [timely_iff time (readable ▸ read')]
  rw [← not_lt, later, not_or, not_lt]

/-! ## A time that was lied forward -/

/-- A check told the true time by the host and by its own clock, for which the
library verifies a complete chain no role of which is older than in any chain it
verified before. What an earlier check was told of the time is not restricted. -/
structure HonestAfter (checks : List Check) (honest : Check) (now : Timestamp) : Prop where
  date : honest.date = some now
  localClock : honest.localClock = now
  readable : honest.readFails = false
  current : ∃ trusted offered, honest.refresh = some trusted ∧
    Floor.of trusted now = .ok offered ∧
    ∀ check ∈ checks, ∀ earlier, check.refresh = some earlier → ∀ floor,
      Floor.of earlier now = .ok floor → floor ≤ offered

end Runs

/-- Noon of some day. -/
def noon : Timestamp := 20000 * 86400 * 1000000000

def day : Timestamp := 86400 * 1000000000

/-- A check at the true time by both clocks, of a channel that has published
once. -/
def checkAt (now : Timestamp) : Check where
  date := some now
  localClock := now
  refresh := some ⟨1, some 2, some 2, some 2⟩
  target := some []

/-- A check that is told a date five days ahead, within its metadata's
lifetime. -/
def liedForward : Check := { checkAt noon with date := some (noon + 5 * day) }

theorem honestAfter_liedForward : HonestAfter [liedForward] (checkAt (noon + day)) (noon + day) where
  date := rfl
  localClock := rfl
  readable := rfl
  current := by
    refine ⟨_, _, rfl, rfl, fun check member earlier refreshed floor whole => ?_⟩
    rw [List.mem_singleton] at member
    subst member
    cases refreshed
    cases whole
    exact le_refl _

theorem rollback_is_refused_twice : ∃ verified,
    Records (afterChecks (fun _ => some ()) (fun _ => ()) .absent [checkAt noon])
      (checkAt (noon + day)) verified ∧
    { root := 1, timestamp := 2, snapshot := 2, targets := 2, verifiedAt := 1728000000 } ≤
      verified := by
  have first : Records .absent (checkAt noon)
      { root := 1, timestamp := 2, snapshot := 2, targets := 2, verifiedAt := 1728000000 } :=
    ⟨noon, ⟨{}, ⟨1, some 2, some 2, some 2⟩, ⟨rfl, rfl, rfl, rfl⟩, rfl, rfl⟩, by simp [checkAt]⟩
  obtain ⟨verified, records, above, _⟩ :=
    (rollback_is_refused (fun _ => some ()) (fun _ => ())).2.2.2 .absent (checkAt noon) _ []
      (checkAt (noon + day)) ⟨(), (), noon + day⟩ first rfl
  exact ⟨verified, records, above⟩

/-- Nothing was recorded before the first check. -/
theorem honest_check_is_timely_iff_first :
    Timely (authenticate (fun _ => some ()) (fun _ => ())
      (afterChecks (fun _ => some ()) (fun _ => ()) .absent []) (checkAt noon)).2 :=
  (honest_check_is_timely_iff rfl [] (checkAt noon) noon rfl rfl rfl).mpr
    ⟨by decide, recordsLaterThan_nil _ _⟩

/-- **A forward lie poisons the floor**: a check told a date five days ahead
verifies and records it, and an honest check a day later is refused. -/
theorem forward_lie_poisons_the_floor :
    ¬∀ (checks : List Check) (honest : Check) (now : Timestamp), HonestAfter checks honest now →
      Timely (authenticate (fun _ => some ()) (fun _ => ())
        (afterChecks (fun _ => some ()) (fun _ => ()) .absent checks) honest).2 :=
  fun claimed => claimed _ _ _ honestAfter_liedForward _ _ rfl

end Retrovert.Channel
