import Retrovert.Library.Fallible
import Retrovert.Publish.Preparing

/-!
# What a refused ceremony leaves behind

The keys of a ceremony are checked before anything is written, but for one thing: that no
root key signs twice is found when the root is signed. By then the private keys have been
written, and the channel that was there has been cleared (`init_is_atomic`).
-/

set_option autoImplicit false

namespace Retrovert.Publish

open Retrovert.Fallible Retrovert.Tuf Workspace
open Retrovert.Transport (ArtifactDigest decodeHex)

/-- An error that lies in the keys that were given. -/
def InitError.OfKeys : InitError → Prop
  | .json | .authorization _ | .notEnoughRootSigners _ _ | .unauthorizedRootSigner _
  | .signing _ => True
  | .notEmpty | .io _ | .policy _ => False

/-- The keys that are there to sign the root. -/
def RootKeys.signing : RootKeys → List SigningKey
  | .generated key => [key]
  | .held _ _ signing => signing

section

variable (ceremony : Ceremony)

/-- A run of `init` is atomic with respect to its keys: if it fails for them the workspace is
as it was, and if it succeeds the root it wrote verifies as signed by itself. -/
def Atomic (workspace : Tree Entry) (outcome : Tree Entry × Except InitError InitReport) : Prop :=
  match outcome.2 with
  | .error error => error.OfKeys → outcome.1 = workspace
  | .ok _ => ∃ envelope : Signed Root, ∃ entry covered,
      (∀ file ∈ publishedNames .root initialVersion,
        outcome.1.fileAt (metadataPath file) =
          some (ceremony.text (envelope.write Root.write))) ∧
      envelope.VerifiesItself ceremony.hashing ceremony.scheme entry covered

/-- Keys that a root can be described with: the threshold can be met, and no key is listed
twice or holds a number that is no integer. -/
def RootKeys.Described : RootKeys → Prop
  | .generated _ => True
  | .held authorized threshold _ =>
      (1 ≤ threshold ∧ threshold ≤ authorized.length) ∧ authorized.Nodup ∧
        ∀ key ∈ authorized, key.write.integral = true

/-- Signing keys that are enough and are all authorized, whether or not one is given twice. -/
def RootKeys.CanSign : RootKeys → Prop
  | .generated _ => True
  | .held authorized threshold signing =>
      threshold ≤ signing.length ∧ ∀ key ∈ signing, key.publicKey ceremony.scheme ∈ authorized

/-- Every public key of a key set. -/
def KeySet.declared (keys : KeySet) : List PublicKey :=
  (keys.authorizations ceremony).flatMap RoleAuthorization.keys ++
    keys.root.signing.map (SigningKey.publicKey ceremony.scheme)

/-- What `init` refuses before it writes anything: a workspace that is not empty unless it is
forced, a root that cannot be dated or described, and signers that cannot sign it. -/
def Refuses (workspace : Tree Entry) (keys : KeySet) (now : Time) (force : Bool) : Prop :=
  (force = false ∧ isEmpty workspace ≠ some true) ∨ ceremony.expires .root now = none ∨
    ¬ keys.root.Described ∨ ¬ keys.root.CanSign ceremony

end

/-! ## The checks -/

theorem mapM_named {α β : Type} {f : α → Option β} {list : List α}
    (named : ∀ value ∈ list, ∃ name, f value = some name) :
    list.mapM f = some (list.filterMap f) := by
  induction list with
  | nil => rfl
  | cons first rest ih =>
      obtain ⟨name, found⟩ := named first List.mem_cons_self
      rw [List.mapM_cons, ih fun value member => named value (List.mem_cons_of_mem _ member),
        List.filterMap_cons, found]
      rfl

variable {ceremony : Ceremony}

theorem RootKeys.checkAuthorized_iff (canonicalizes : ceremony.hashing.Canonicalizes)
    {authorized : List String} {signing : List SigningKey} :
    checkAuthorized ceremony authorized signing = .ok () ↔
      ∀ key ∈ signing, key.id ceremony.hashing ceremony.scheme ∈ authorized := by
  induction signing with
  | nil => simp [checkAuthorized]
  | cons key rest ih =>
      rw [checkAuthorized, key.keyId_eq canonicalizes, List.forall_mem_cons]
      simp only
      split
      · rename_i listed
        rw [ih, and_iff_right listed]
      · rename_i missing
        exact iff_of_false (fun same => nomatch same) fun all => missing all.1

/-- The keys of a set whose ids are different are different. -/
theorem KeySet.id_mem_iff (canonicalizes : ceremony.hashing.Canonicalizes) {keys : KeySet}
    (separates : ceremony.hashing.Separates (keys.declared ceremony))
    {authorized : List PublicKey} (declared : authorized ⊆ keys.declared ceremony)
    {key : SigningKey} (signs : key ∈ keys.root.signing) :
    key.id ceremony.hashing ceremony.scheme ∈
        authorized.filterMap (PublicKey.keyId ceremony.hashing) ↔
      key.publicKey ceremony.scheme ∈ authorized := by
  have own : (key.publicKey ceremony.scheme).keyId ceremony.hashing =
      some (key.id ceremony.hashing ceremony.scheme) := key.keyId_eq canonicalizes
  rw [List.mem_filterMap]
  constructor
  · rintro ⟨other, listed, named⟩
    have same := separates other (declared listed) (key.publicKey ceremony.scheme)
      (List.mem_append_right _ (List.mem_map_of_mem signs)) (named.trans own.symm)
    exact same ▸ listed
  · intro listed
    exact ⟨_, listed, own⟩

theorem KeySet.authorized_declared (keys : KeySet) :
    (keys.root.authorization ceremony).keys ⊆ keys.declared ceremony := fun _ listed =>
  List.mem_append_left _ (List.mem_flatMap.mpr ⟨_, List.mem_cons_self, listed⟩)

theorem RootKeys.signers_iff (canonicalizes : ceremony.hashing.Canonicalizes) {keys : KeySet}
    (separates : ceremony.hashing.Separates (keys.declared ceremony))
    (named : ∀ key ∈ (keys.root.authorization ceremony).keys,
      ∃ id, key.keyId ceremony.hashing = some id) {signers : List SigningKey} :
    keys.root.signers ceremony = .ok signers ↔
      keys.root.CanSign ceremony ∧ signers = keys.root.signing := by
  have identified : ∀ key ∈ keys.root.signing,
      (key.id ceremony.hashing ceremony.scheme ∈
          (keys.root.authorization ceremony).keys.filterMap
            (PublicKey.keyId ceremony.hashing) ↔
        key.publicKey ceremony.scheme ∈ (keys.root.authorization ceremony).keys) :=
    fun key signs => KeySet.id_mem_iff canonicalizes separates keys.authorized_declared signs
  obtain ⟨root, targets, snapshot, timestamp⟩ := keys
  cases root with
  | generated key => simp [RootKeys.signers, CanSign, signing, eq_comm]
  | held authorized threshold signing =>
      simp only [authorization, RootKeys.signing] at named identified
      simp only [RootKeys.signers, CanSign, RootKeys.signing, mapM_named named]
      split
      · rename_i few
        exact iff_of_false (fun same => by cases same) fun able => by omega
      · rename_i enough
        rw [bind_eq_ok, and_assoc, and_iff_right (not_lt.mp enough), ← forall₂_congr identified]
        constructor
        · rintro ⟨_, checked, made⟩
          cases made
          exact ⟨(checkAuthorized_iff canonicalizes).mp checked, rfl⟩
        · rintro ⟨all, rfl⟩
          exact ⟨(), (checkAuthorized_iff canonicalizes).mpr all, rfl⟩

/-- The root role is described exactly by keys that it can be described with. -/
theorem RootKeys.resolves_iff (canonicalizes : ceremony.hashing.Canonicalizes) {keys : KeySet}
    (separates : ceremony.hashing.Separates (keys.declared ceremony)) :
    (∃ entry indexed,
      (keys.root.authorization ceremony).resolve ceremony.hashing = .ok (entry, indexed)) ↔
      keys.root.Described := by
  have declared : (keys.root.authorization ceremony).keys ⊆ keys.declared ceremony :=
    keys.authorized_declared
  obtain ⟨root, targets, snapshot, timestamp⟩ := keys
  cases root with
  | generated key =>
      refine iff_of_true (RoleAuthorization.resolves ⟨le_rfl, le_rfl⟩ ?_ ?_) trivial
      · intro other member
        rw [List.mem_singleton.mp member]
        exact ⟨_, key.keyId_eq canonicalizes⟩
      · exact List.pairwise_singleton _ _
  | held authorized threshold signing =>
      have named : ∀ key : PublicKey,
          (∃ id, key.keyId ceremony.hashing = some id) ↔ key.write.integral = true := fun key => by
        rw [← Option.isSome_iff_exists, PublicKey.keyId_isSome canonicalizes]
      constructor
      · rintro ⟨entry, indexed, resolved⟩
        have found := RoleAuthorization.resolve_eq_ok resolved
        have same : entry.threshold = threshold := (RoleAuthorization.resolve_plain resolved).2
        rw [same] at found
        refine ⟨found.2.2, found.1.nodup, ?_⟩
        exact fun key listed => (named key).mp (found.1.named key listed)
      · rintro ⟨satisfiable, distinct, integral⟩
        refine RoleAuthorization.resolves satisfiable
          (fun key listed => (named key).mpr (integral key listed)) ?_
        refine distinct.imp_of_mem fun {first second} firstListed secondListed differ same => ?_
        exact differ (separates first (declared firstListed) second (declared secondListed) same)

/-- A root is accepted exactly if its own role can be described. -/
theorem KeySet.accepted_iff (canonicalizes : ceremony.hashing.Canonicalizes) {keys : KeySet}
    (separates : ceremony.hashing.Separates (keys.declared ceremony)) {version : Nat}
    {expires : String} :
    (∃ root, Root.new ceremony.hashing version expires (keys.authorizations ceremony) = .ok root) ↔
      keys.root.Described := by
  rw [← RootKeys.resolves_iff canonicalizes separates]
  constructor
  · rintro ⟨root, accepted⟩
    exact Root.new_resolves accepted List.mem_cons_self
  · intro resolved
    refine Root.new_exists fun authorization member => ?_
    obtain rfl | online := List.mem_cons.mp member
    · exact resolved
    · obtain ⟨role, -, made⟩ := List.mem_filterMap.mp online
      obtain ⟨key, -, rfl⟩ := Option.map_eq_some_iff.mp made
      refine RoleAuthorization.resolves ⟨le_rfl, le_rfl⟩ ?_ (List.pairwise_singleton _ _)
      intro other member
      rw [List.mem_singleton.mp member]
      exact ⟨_, key.keyId_eq canonicalizes⟩

/-- What the checks have found when they let `init` go on. -/
theorem check_iff (canonicalizes : ceremony.hashing.Canonicalizes) {keys : KeySet}
    (separates : ceremony.hashing.Separates (keys.declared ceremony))
    {workspace : Tree Entry} {now : Time} {force : Bool} {root : Root}
    {signers : List SigningKey} :
    check ceremony workspace keys now force = .ok (root, signers) ↔
      (force = true ∨ isEmpty workspace = some true) ∧
      (∃ expires, ceremony.expires .root now = some expires ∧
        Root.new ceremony.hashing initialVersion expires (keys.authorizations ceremony) =
          .ok root) ∧
      keys.root.CanSign ceremony ∧ signers = keys.root.signing := by
  have named : ∀ expires root,
      Root.new ceremony.hashing initialVersion expires (keys.authorizations ceremony) = .ok root →
        ∀ key ∈ (keys.root.authorization ceremony).keys,
          ∃ id, key.keyId ceremony.hashing = some id := by
    intro expires root accepted
    obtain ⟨entry, indexed, resolved⟩ := Root.new_resolves accepted List.mem_cons_self
    exact (RoleAuthorization.resolve_eq_ok resolved).1.named
  rw [check]
  constructor
  · intro checked
    split at checked
    · cases checked
    · rename_i readable
      split at checked
      · cases checked
      · rename_i empty
        split at checked
        · cases checked
        · rename_i expires found
          split at checked
          · cases checked
          · rename_i accepted
            split at checked
            · cases checked
            · rename_i signed
              cases checked
              have able := (RootKeys.signers_iff canonicalizes separates
                (named expires root accepted)).mp signed
              refine ⟨?_, ⟨expires, found, accepted⟩, able⟩
              cases force <;> cases taken : isEmpty workspace <;> simp_all
  · rintro ⟨may, ⟨expires, found, accepted⟩, able⟩
    have signed := (RootKeys.signers_iff canonicalizes separates
      (named expires root accepted)).mpr able
    rw [if_neg fun refused => ?_, if_neg fun refused => ?_, found]
    · simp only [accepted, signed]
    all_goals rw [refused.1, refused.2] at may; simp at may

/-! ## Signing -/

/-- A payload of integers is signed exactly if no two of the keys have one id. -/
theorem Ceremony.signed_cases {α : Type} {write : α → Json} {payload : α}
    (canonicalizes : ceremony.hashing.Canonicalizes) (integral : (write payload).integral = true)
    (keys : List SigningKey) :
    ∃ covered, ceremony.hashing.canonical (write payload) = some covered ∧
      ((keys.map (·.id ceremony.hashing ceremony.scheme)).Nodup →
        ∃ signatures, signatures.Perm
            (keys.map (·.signature ceremony.hashing ceremony.scheme covered)) ∧
          ceremony.signed write payload keys =
            .ok (ceremony.text (Signed.write write ⟨signatures, payload, .none⟩))) ∧
      (¬ (keys.map (·.id ceremony.hashing ceremony.scheme)).Nodup →
        ∃ keyId, ceremony.signed write payload keys =
          .error (.signing (.duplicateKeyId keyId))) := by
  have has := canonicalizes (write payload)
  rw [integral] at has
  obtain ⟨covered, canonical⟩ := Option.isSome_iff_exists.mp has
  obtain ⟨once, twice⟩ := Signed.sign_cases canonicalizes canonical keys
  refine ⟨covered, canonical, fun apart => ?_, fun same => ?_⟩
  · obtain ⟨signatures, perm, made⟩ := once apart
    exact ⟨signatures, perm, by rw [Ceremony.signed, made]⟩
  · obtain ⟨keyId, failed⟩ := twice same
    exact ⟨keyId, by rw [Ceremony.signed, failed]⟩

/-- A payload of integers is signed by one key. -/
theorem Ceremony.signed_single {α : Type} {write : α → Json} {payload : α}
    (canonicalizes : ceremony.hashing.Canonicalizes) (integral : (write payload).integral = true)
    (key : SigningKey) (error : InitError) :
    ceremony.signed write payload [key] ≠ .error error := by
  obtain ⟨covered, -, once, -⟩ := Ceremony.signed_cases canonicalizes integral [key]
  obtain ⟨signatures, -, made⟩ := once (List.nodup_singleton _)
  rw [made]
  exact fun same => nomatch same

theorem Ceremony.expiry_error {role : RoleName} {now : Time} {error : InitError}
    (failed : ceremony.expiry role now = .error error) : ¬ error.OfKeys := by
  rw [Ceremony.expiry] at failed
  split at failed <;> cases failed
  exact id

/-- Once the root is signed, nothing fails for the keys. -/
theorem Ceremony.generation_error (canonicalizes : ceremony.hashing.Canonicalizes) {root : Root}
    {signers : List SigningKey} {keys : KeySet} {now : Time} {error : InitError}
    (failed : ceremony.generation root signers keys now = .error error) :
    ceremony.signed Root.write root signers = .error error ∨ ¬ error.OfKeys := by
  simp only [generation, bind_eq_error] at failed
  obtain failed | ⟨rootFile, -, failed⟩ := failed
  · exact .inl failed
  · right
    obtain failed | ⟨expires, -, failed⟩ := failed
    · exact expiry_error failed
    obtain failed | ⟨targets, -, failed⟩ := failed
    · exact absurd failed (signed_single canonicalizes (Targets.integral_empty _ _) _ _)
    obtain failed | ⟨expires, -, failed⟩ := failed
    · exact expiry_error failed
    obtain failed | ⟨snapshot, -, failed⟩ := failed
    · refine absurd failed (signed_single canonicalizes ?_ _ _)
      exact integral_writePinning rfl (integral_singleton _ _ _ _)
    obtain failed | ⟨expires, -, failed⟩ := failed
    · exact expiry_error failed
    obtain failed | ⟨timestamp, -, failed⟩ := failed
    · refine absurd failed (signed_single canonicalizes ?_ _ _)
      exact integral_writePinning rfl (integral_singleton _ _ _ _)
    · cases failed

theorem Ceremony.generation_ok {root : Root} {signers : List SigningKey} {keys : KeySet}
    {now : Time} {files : List (Place × Bytes)}
    (made : ceremony.generation root signers keys now = .ok files) :
    ∃ rootFile targets snapshot timestamp,
      ceremony.signed Root.write root signers = .ok rootFile ∧
      files = Ceremony.writeRole .root rootFile ++ Ceremony.writeRole .targets targets ++
        Ceremony.writeRole .snapshot snapshot ++ Ceremony.writeRole .timestamp timestamp := by
  simp only [generation, bind_eq_ok] at made
  obtain ⟨rootFile, signed, _, -, targets, -, _, -, snapshot, -, _, -, timestamp, -, made⟩ := made
  cases made
  exact ⟨rootFile, targets, snapshot, timestamp, signed, rfl⟩

/-- The keys that may sign a root are listed in it under their ids. -/
theorem RootKeys.CanSign.listed (canonicalizes : ceremony.hashing.Canonicalizes) {keys : KeySet}
    (separates : ceremony.hashing.Separates (keys.declared ceremony))
    (able : keys.root.CanSign ceremony) {version : Nat} {expires : String} {root : Root}
    (accepted : Root.new ceremony.hashing version expires (keys.authorizations ceremony) =
      .ok root) :
    ∃ entry, root.roles.lookup RoleName.root.asStr = some entry ∧ 1 ≤ entry.threshold ∧
      entry.threshold ≤ keys.root.signing.length ∧
      ∀ key ∈ keys.root.signing, key.id ceremony.hashing ceremony.scheme ∈ entry.keyids ∧
        root.keys.lookup (key.id ceremony.hashing ceremony.scheme) =
          some (key.publicKey ceremony.scheme) := by
  have collects := Root.new_collects accepted
  have member : keys.root.authorization ceremony ∈ keys.authorizations ceremony :=
    List.mem_cons_self
  obtain ⟨entry, indexed, resolved⟩ := Root.new_resolves accepted member
  obtain ⟨indexes, sorted, positive, -⟩ := RoleAuthorization.resolve_eq_ok resolved
  have threshold := (RoleAuthorization.resolve_plain resolved).2
  have counts : inForce (keys.authorizations ceremony) .root =
      some (keys.root.authorization ceremony) := by
    cases root : keys.root <;>
      simp [inForce, KeySet.authorizations, root, authorization, onlineRoles, KeySet.get,
        RoleAuthorization.single]
  have authorized : ∀ key ∈ keys.root.signing,
      key.publicKey ceremony.scheme ∈ (keys.root.authorization ceremony).keys := by
    cases root : keys.root with
    | generated key => simp [signing, authorization, RoleAuthorization.single]
    | held authorized threshold signing =>
        rw [root] at able
        exact able.2
  refine ⟨entry, ?_, positive, ?_, fun key signs => ?_⟩
  · exact (collects.entries _ entry).mpr ⟨.root, _, indexed, rfl, counts, resolved⟩
  · rw [threshold]
    cases root : keys.root with
    | generated key => exact le_rfl
    | held authorized threshold signing =>
        rw [root] at able
        exact able.1
  · have own : (key.publicKey ceremony.scheme).keyId ceremony.hashing =
        some (key.id ceremony.hashing ceremony.scheme) := key.keyId_eq canonicalizes
    have found := (indexes.lookup _ _).mpr ⟨authorized key signs, own⟩
    refine ⟨?_, collects.lookup_listed ?_ member (authorized key signs) own⟩
    · rw [sorted, Finset.mem_sort, Finmap.mem_keys]
      exact Finmap.mem_of_lookup_eq_some found
    · intro first firstListed second secondListed
      exact separates first (List.mem_append_left _ firstListed) second
        (List.mem_append_left _ secondListed)

/-! ## Runs -/

/-- Different keys of a set have different ids. -/
theorem KeySet.nodup_iff (canonicalizes : ceremony.hashing.Canonicalizes) {keys : KeySet}
    (separates : ceremony.hashing.Separates (keys.declared ceremony)) :
    (keys.root.signing.map (·.id ceremony.hashing ceremony.scheme)).Nodup ↔
      (keys.root.signing.map (SigningKey.publicKey ceremony.scheme)).Nodup := by
  rw [List.Nodup, List.Nodup, List.pairwise_map, List.pairwise_map]
  refine List.Pairwise.iff_of_mem fun {first second} firstSigns secondSigns => not_congr ?_
  have declared : ∀ key ∈ keys.root.signing,
      key.publicKey ceremony.scheme ∈ keys.declared ceremony := fun key signs =>
    List.mem_append_right _ (List.mem_map_of_mem signs)
  have named : ∀ key : SigningKey, (key.publicKey ceremony.scheme).keyId ceremony.hashing =
      some (key.id ceremony.hashing ceremony.scheme) := fun key => key.keyId_eq canonicalizes
  constructor
  · intro same
    refine separates _ (declared first firstSigns) _ (declared second secondSigns) ?_
    rw [named, named, same]
  · intro same
    have one := named first
    rw [same, named second, Option.some_inj] at one
    exact one.symm

theorem not_refuses_iff {workspace : Tree Entry} {keys : KeySet} {now : Time} {force : Bool} :
    ¬ Refuses ceremony workspace keys now force ↔
      (force = true ∨ isEmpty workspace = some true) ∧
        (∃ expires, ceremony.expires .root now = some expires) ∧ keys.root.Described ∧
          keys.root.CanSign ceremony := by
  rw [Refuses, not_or, not_or, not_or, not_not, not_not, ← ne_eq, Option.ne_none_iff_exists']
  refine and_congr_left fun _ => ?_
  cases force <;> simp

/-- What a run does that has come to the signing of the root. -/
theorem atomic_prepared (canonicalizes : ceremony.hashing.Canonicalizes) {keys : KeySet}
    (separates : ceremony.hashing.Separates (keys.declared ceremony)) {workspace : Tree Entry}
    {now : Time} {force : Bool} {root : Root}
    (checked : check ceremony workspace keys now force = .ok (root, keys.root.signing))
    (ended : (workspace.perform (preparation ceremony keys force)).2 = none) :
    Atomic ceremony workspace (init ceremony workspace keys now force) ↔
      (keys.root.signing.map (SigningKey.publicKey ceremony.scheme)).Nodup ∨
        Prepared ceremony keys workspace.nodeAt := by
  obtain ⟨may, ⟨expires, -, accepted⟩, able, -⟩ := (check_iff canonicalizes separates).mp checked
  obtain ⟨before, performed⟩ : ∃ before,
      workspace.perform (preparation ceremony keys force) = (before, none) :=
    ⟨_, Prod.ext rfl ended⟩
  have prepares : before.nodeAt = prepared ceremony keys force workspace.nodeAt := by
    have effects := Tree.perform_iff.2 ended
    rw [performed] at effects
    exact effects.trans (admits_preparation ceremony keys force workspace.nodeAt).2
  obtain ⟨covered, canonical, once, twice⟩ := Ceremony.signed_cases canonicalizes
    (Root.integral_of_new canonicalizes accepted) keys.root.signing
  rw [← KeySet.nodup_iff canonicalizes separates, init, checked]
  simp only [performed]
  by_cases apart : (keys.root.signing.map (·.id ceremony.hashing ceremony.scheme)).Nodup
  · refine iff_of_true ?_ (.inl apart)
    obtain ⟨signatures, perm, signed⟩ := once apart
    cases made : ceremony.generation root keys.root.signing keys now with
    | error error =>
        intro lies
        obtain failed | other := Ceremony.generation_error canonicalizes made
        · rw [signed] at failed
          cases failed
        · exact absurd lies other
    | ok files =>
        obtain ⟨rootFile, targets, snapshot, timestamp, signed', same⟩ :=
          Ceremony.generation_ok made
        rw [signed] at signed'
        cases signed'
        have stands := fileAt_written prepares same
        obtain ⟨entry, listed, positive, enough, authorized⟩ :=
          RootKeys.CanSign.listed canonicalizes separates able accepted
        simp only
        cases writes : before.perform (writing files) with
        | mk written failure =>
            cases failure with
            | some place => exact fun lies => lies.elim
            | none =>
                rw [writes] at stands
                exact ⟨⟨signatures, root, .none⟩, entry, covered, stands rfl,
                  Signed.verifiesItself canonicalizes (Root.new_plain accepted).1 listed canonical
                    apart perm authorized positive enough⟩
  · obtain ⟨keyId, failed⟩ := twice apart
    have made : ceremony.generation root keys.root.signing keys now =
        .error (.signing (.duplicateKeyId keyId)) := bind_eq_error.mpr (.inl failed)
    rw [or_iff_right apart, ← prepared_eq_of_may may, ← prepares, made]
    constructor
    · intro atomic
      have kept : before = workspace := atomic trivial
      rw [kept]
    · intro same _
      exact Tree.ext_nodeAt same

/-- **A run of `init` is atomic with respect to its keys exactly if no root key is given
twice to sign**, or it is refused for another reason, or something stands in the way of what
it makes, or the workspace is already as it would make it. -/
theorem init_is_atomic (ceremony : Ceremony) (canonicalizes : ceremony.hashing.Canonicalizes)
    (workspace : Tree Entry) (keys : KeySet) (now : Time) (force : Bool)
    (separates : ceremony.hashing.Separates (keys.declared ceremony)) :
    Atomic ceremony workspace (init ceremony workspace keys now force) ↔
      (keys.root.signing.map (SigningKey.publicKey ceremony.scheme)).Nodup ∨
        Refuses ceremony workspace keys now force ∨
        ¬ Clear ceremony keys workspace.nodeAt ∨ Prepared ceremony keys workspace.nodeAt := by
  cases checked : check ceremony workspace keys now force with
  | error error =>
      refine iff_of_true ?_ (.inr (.inl ?_))
      · rw [init, checked]
        exact fun _ => rfl
      · by_contra fine
        obtain ⟨may, ⟨expires, found⟩, described, able⟩ := not_refuses_iff.mp fine
        obtain ⟨root, accepted⟩ := (KeySet.accepted_iff canonicalizes separates).mpr described
        rw [(check_iff canonicalizes separates).mpr
          ⟨may, ⟨expires, found, accepted⟩, able, rfl⟩] at checked
        cases checked
  | ok taken =>
      obtain ⟨root, signers⟩ := taken
      obtain ⟨may, ⟨expires, found, accepted⟩, able, rfl⟩ :=
        (check_iff canonicalizes separates).mp checked
      have described := (KeySet.accepted_iff canonicalizes separates).mp ⟨root, accepted⟩
      have fine := not_refuses_iff.mpr ⟨may, ⟨expires, found⟩, described, able⟩
      have clear := Tree.perform_iff.1.trans
        (admits_preparation ceremony keys force workspace.nodeAt).1
      rw [← clear, iff_false_intro fine, false_or]
      cases ended : (workspace.perform (preparation ceremony keys force)).2 with
      | some place =>
          refine iff_of_true ?_ (.inr (.inl fun same => nomatch same))
          obtain ⟨before, performed⟩ : ∃ before,
              workspace.perform (preparation ceremony keys force) = (before, some place) :=
            ⟨_, Prod.ext rfl ended⟩
          rw [init, checked]
          simp only [performed]
          exact fun lies => lies.elim
      | none =>
          rw [atomic_prepared canonicalizes separates checked ended]
          exact or_congr_right (or_iff_right fun blocked => blocked rfl).symm

/-! ## A key that signs twice -/

/-- The keys made from a seed that repeats a byte: the byte, the public half, and the id. -/
def people : List (UInt8 × String × String) :=
  [(11, "66be7e332c7a453332bd9d0a7f7db055f5c5ef1a06ada66d98b39fb6810c473a",
      "48fb161d03445e4d97155a96ee648f3af8dfe3ad562c76e582dd665b42eb913b"),
    (12, "0b513ad9b4924015ca0902ed079044d3ac5dbec2306f06948c10da8eb6e39f2d",
      "fcc01ce3c4a0930ae0d007ff151a49f7a8a86409c23c937924ac53a8a1f9ac8b"),
    (2, "8139770ea87d175f56a35466c34c7ecccb8d8a91b4ee37a25df60f5b8fc9b394",
      "c3f860ca5da4454d33496ca33bb48f0cdcd5b731be7316b67ca191db0185aa26")]

/-- A string in quotes. -/
def quote (text : String) : List Char :=
  "\"".toList ++ (text.toList.flatMap fun char =>
    if char ∈ "\"\\".toList then "\\".toList ++ [char] else [char]) ++ "\"".toList

/-- Keys in order, by insertion, which computes. -/
def ordered (keys : Finset String) : List String :=
  Quotient.liftOn keys.val (List.insertionSort (· ≤ ·)) fun first second perm =>
    (((List.perm_insertionSort _ first).trans perm).trans
      (List.perm_insertionSort _ second).symm).eq_of_pairwise'
        (List.pairwise_insertionSort _ _) (List.pairwise_insertionSort _ _)

theorem mem_of_ordered {keys : Finset String} {key : String} (member : key ∈ ordered keys) :
    key ∈ keys := by
  obtain ⟨⟨list⟩, distinct⟩ := keys
  exact (List.mem_insertionSort _).mp member

/-- The canonical form of a value as text, without what is normalized in it. -/
def spell : Json → List Char
  | .null => "null".toList
  | .bool value => (toString value).toList
  | .natural value => (toString value).toList
  | .negative value => '-' :: (toString (value + 1)).toList
  | .float text => text.toList
  | .string text => quote text
  | .array _ element =>
      '[' :: [','].intercalate (List.ofFn fun index => spell (element index)) ++ [']']
  | .object keys value =>
      '\x7b' :: ([','].intercalate ((ordered keys).attach.map fun key =>
        quote key.1 ++ ':' :: spell (value ⟨key.1, mem_of_ordered key.2⟩))) ++ ['\x7d']

/-- SHA-256 of the keys that are used, over their canonical forms. Where the public half
starts in them tells them apart. -/
def digests : Hashing where
  canonical json :=
    if json.integral then some ((spell json).map fun char => char.toNat.toUInt8) else none
  sha256 bytes :=
    ((people.find? fun row => row.2.1.toList.head? = bytes[41]?.map fun byte =>
        Char.ofNat byte.toNat).bind fun row => ArtifactDigest.fromHex row.2.2).getD (.leading bytes)

theorem digests_ids : ∀ row ∈ people, (PublicKey.ed25519 row.2.1).keyId digests = some row.2.2 := by
  decide +kernel

theorem digests_apart : ∀ first ∈ people, ∀ second ∈ people,
    first.2.2 = second.2.2 → first = second := by
  decide +kernel

/-- Ed25519 on the seeds that are used. A signature is told by its message. -/
def curve : Ed25519 where
  verifyingKey seed :=
    (((people.find? fun row => List.replicate 32 row.1 = seed).bind fun row =>
      decodeHex row.2.1.toList).filter (·.length == 32)).getD (List.replicate 32 0)
  sign _ message := message
  verify _ message signature := message == signature
  toPkcs8Pem seed := seed
  length_verifyingKey seed := by
    cases found : ((people.find? fun row => List.replicate 32 row.1 = seed).bind fun row =>
        decodeHex row.2.1.toList).filter (·.length == 32) with
    | none => rfl
    | some bytes => exact beq_iff_eq.mp (Option.filter_eq_some_iff.mp found).2
  verify_sign _ _ := beq_self_eq_true _

def person (byte : UInt8) : SigningKey := ⟨List.replicate 32 byte⟩

/-- The public half of a key that is used. -/
theorem publicKey_person : ∀ row ∈ people,
    (person row.1).publicKey curve = PublicKey.ed25519 row.2.1 := by
  decide +kernel

def holders : Ceremony where
  hashing := digests
  scheme := curve
  text json := (spell json).map fun char => char.toNat.toUInt8
  expires
    | .root, _ => some "2036-08-15T12:00:00Z"
    | .targets, _ | .snapshot, _ => some "2027-08-15T12:00:00Z"
    | .timestamp, _ => some "2026-11-13T12:00:00Z"

/-- Two holders of which two must sign, and those that do. One key signs everything else. -/
def twoHolders (signing : List SigningKey) : KeySet where
  root := .held [(person 11).publicKey curve, (person 12).publicKey curve] 2 signing
  targets := person 2
  snapshot := person 2
  timestamp := person 2

theorem digests_canonicalize : digests.Canonicalizes := by
  intro json
  cases integral : json.integral <;> simp [digests, integral]

/-- The keys that are used have different ids. -/
theorem twoHolders_separated {signing : List SigningKey}
    (present : ∀ key ∈ signing, key = person 11) :
    holders.hashing.Separates ((twoHolders signing).declared holders) := by
  have listed : ∀ key ∈ (twoHolders signing).declared holders,
      ∃ row ∈ people, key = PublicKey.ed25519 row.2.1 := by
    have used : ∀ key ∈ (twoHolders signing).declared holders,
        ∃ row ∈ people, key = (person row.1).publicKey curve := by
      simp only [KeySet.declared, KeySet.authorizations, twoHolders, RootKeys.authorization,
        RootKeys.signing, onlineRoles, KeySet.get, RoleAuthorization.single, List.filterMap_cons,
        List.filterMap_nil, Option.map_some, List.flatMap_cons, List.flatMap_nil, List.mem_append,
        List.mem_cons, List.not_mem_nil, or_false, List.mem_map]
      have first : people[0] ∈ people := List.getElem_mem _
      have second : people[1] ∈ people := List.getElem_mem _
      have third : people[2] ∈ people := List.getElem_mem _
      rintro key (((rfl | rfl) | rfl | rfl | rfl) | ⟨signer, signs, rfl⟩)
      · exact ⟨_, first, rfl⟩
      · exact ⟨_, second, rfl⟩
      · exact ⟨_, third, rfl⟩
      · exact ⟨_, third, rfl⟩
      · exact ⟨_, third, rfl⟩
      · rw [present signer signs]
        exact ⟨_, first, rfl⟩
    intro key listed
    obtain ⟨row, member, same⟩ := used key listed
    exact ⟨row, member, same.trans (publicKey_person row member)⟩
  intro first firstListed second secondListed same
  obtain ⟨row, member, rfl⟩ := listed first firstListed
  obtain ⟨other, otherMember, rfl⟩ := listed second secondListed
  rw [holders, digests_ids row member, digests_ids other otherMember, Option.some_inj] at same
  rw [digests_apart row member other otherMember same]

/-- When the ceremonies are held. -/
def noon : Time := 1786795200

/-- A root signed below its own threshold is refused before anything is written. -/
theorem init_is_atomic_below :
    Atomic holders .absent (init holders .absent (twoHolders [person 11]) noon false) := by
  have few : ¬ (twoHolders [person 11]).root.CanSign holders := fun able =>
    absurd able.1 (by decide)
  have refused : Refuses holders .absent (twoHolders [person 11]) noon false :=
    .inr (.inr (.inr few))
  have separates : holders.hashing.Separates ((twoHolders [person 11]).declared holders) :=
    twoHolders_separated (by simp)
  rw [init_is_atomic holders digests_canonicalize .absent (twoHolders [person 11]) noon false
    separates]
  exact .inr (.inl refused)

/-- The same holder twice, where two must sign. -/
def oneForTwo : KeySet := twoHolders [person 11, person 11]

/-- One holder signs for two: that is found when the keys have been written. -/
theorem one_holder_signs_for_two :
    ¬ Atomic holders .absent (init holders .absent oneForTwo noon false) := by
  have separates : holders.hashing.Separates (oneForTwo.declared holders) :=
    twoHolders_separated (by simp)
  have described : oneForTwo.root.Described := by
    refine ⟨by decide, by decide +kernel, fun key listed => ?_⟩
    obtain rfl | rfl := List.mem_pair.mp listed <;> exact PublicKey.integral_ed25519 _
  have able : oneForTwo.root.CanSign holders := by
    refine ⟨le_rfl, fun key signs => ?_⟩
    obtain rfl | rfl := List.mem_pair.mp signs <;> exact List.mem_cons_self
  obtain ⟨root, accepted⟩ := (KeySet.accepted_iff digests_canonicalize separates).mpr described
  have checked : check holders .absent oneForTwo noon false = .ok (root, oneForTwo.root.signing) :=
    (check_iff digests_canonicalize separates).mpr
      ⟨.inr rfl, ⟨"2036-08-15T12:00:00Z", rfl, accepted⟩, able, rfl⟩
  have clear : Clear holders oneForTwo (Tree.absent).nodeAt :=
    ⟨fun _ _ _ stands => (nomatch stands), fun _ _ stands => (nomatch stands)⟩
  have ended := (Tree.perform_iff.1.trans (admits_preparation holders _ false _).1).mpr clear
  rw [atomic_prepared digests_canonicalize separates checked ended]
  rintro (apart | all)
  · simp [oneForTwo, twoHolders, RootKeys.signing] at apart
  · have stands := all.1 [] (by decide)
    cases stands

end Retrovert.Publish
