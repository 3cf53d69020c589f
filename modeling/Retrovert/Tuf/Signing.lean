import Retrovert.Tuf.Authorizing

/-!
# Signing with keys

A signing key shows of itself a public key, whose id names its signatures. Two signatures
under one id are an error, which is found when the payload is signed (`Signed.sign_eq_error`).
A root that as many keys have signed as it asks for of those it lists verifies as signed by
itself (`Signed.verifiesItself`).

Ed25519 is a parameter, of which a verifier accepts what the key has signed.
-/

set_option autoImplicit false

namespace Retrovert.Tuf

open Retrovert.Transport (decodeHex hexDigit decodeHex_encoded)

/-- The signature scheme: the public key of a seed, what it signs, how that is verified,
and how the seed is stored. -/
structure Ed25519 where
  verifyingKey : Bytes → Bytes
  sign : Bytes → Bytes → Bytes
  verify : Bytes → Bytes → Bytes → Bool
  toPkcs8Pem : Bytes → Bytes
  length_verifyingKey : ∀ seed, (verifyingKey seed).length = 32
  verify_sign : ∀ seed message, verify (verifyingKey seed) message (sign seed message) = true

/-- Bytes in lower-case hex. -/
def encodeHex (bytes : Bytes) : String :=
  String.ofList (bytes.flatMap fun byte => [hexDigit (byte / 16), hexDigit (byte % 16)])

theorem decodeHex_encodeHex (bytes : Bytes) : decodeHex (encodeHex bytes).toList = some bytes := by
  rw [encodeHex, String.toList_ofList, decodeHex_encoded]

/-- A private key, by its seed. -/
structure SigningKey where
  seed : Bytes
deriving DecidableEq

inductive SigningError where
  | json
  | duplicateKeyId (keyId : String)
deriving DecidableEq

section

variable (hashing : Hashing) (scheme : Ed25519)

namespace SigningKey

/-- The public half, as metadata declares it. -/
def publicKey (key : SigningKey) : PublicKey := .ed25519 (encodeHex (scheme.verifyingKey key.seed))

def signHex (key : SigningKey) (message : Bytes) : String :=
  encodeHex (scheme.sign key.seed message)

def keyId (key : SigningKey) : Option String := (key.publicKey scheme).keyId hashing

/-- The id, which every signing key has. -/
def id (key : SigningKey) : String := (key.keyId hashing scheme).getD ""

/-- What the key signs, under its id. -/
def signature (key : SigningKey) (covered : Bytes) : Signature :=
  ⟨key.id hashing scheme, key.signHex scheme covered, .none⟩

/-- The key, under its id. -/
def keyPair (key : SigningKey) : Option KeyPair :=
  (key.keyId hashing scheme).map fun keyId => ⟨keyId, key.signHex scheme⟩

end SigningKey

/-- The first of two neighbours that are the same. -/
def repeated : List String → Option String
  | first :: second :: rest => if first = second then some first else repeated (second :: rest)
  | _ => none

/-- Sign a payload with every key. -/
def Signed.sign {α : Type} (write : α → Json) (payload : α) (keys : List SigningKey) :
    Except SigningError (Signed α) :=
  match hashing.canonical (write payload) with
  | none => .error .json
  | some canonical =>
      match keys.mapM (SigningKey.keyPair hashing scheme) with
      | none => .error .json
      | some pairs =>
          let signatures := (pairs.map fun pair =>
              (⟨pair.keyId, pair.signHex canonical, .none⟩ : Signature))
            |>.mergeSort fun first second => first.keyid ≤ second.keyid
          match repeated (signatures.map Signature.keyid) with
          | some keyId => .error (.duplicateKeyId keyId)
          | none => .ok ⟨signatures, payload, .none⟩

/-- Whatever holds no number but integers has a canonical form. -/
def Hashing.Canonicalizes : Prop :=
  ∀ json : Json, (hashing.canonical json).isSome = json.integral

/-! ## Verifying -/

/-- The material of the key of a signature, if the role lists the key and the signature is
valid. -/
def Root.signer (root : Root) (entry : RoleKeys) (covered : Bytes) (signature : Signature) :
    Option Bytes := do
  let key ← root.keys.lookup signature.keyid
  let material ← key.material
  let sig ← decodeHex signature.sig.toList
  if signature.keyid ∈ entry.keyids ∧ key.keyId hashing = some signature.keyid ∧
      scheme.verify material covered sig = true then some material else none

/-- A root that verifies as signed by itself: of the keys it lists for its own role, as many
different ones have signed it as it asks for. -/
structure Signed.VerifiesItself (envelope : Signed Root) (entry : RoleKeys) (covered : Bytes) :
    Prop where
  typed : envelope.signed.type = RoleName.root.asStr
  listed : envelope.signed.roles.lookup RoleName.root.asStr = some entry
  canonical : hashing.canonical envelope.signed.write = some covered
  apart : (envelope.signatures.map Signature.keyid).Nodup
  positive : 1 ≤ entry.threshold
  met : entry.threshold ≤
    (envelope.signatures.filterMap
      (envelope.signed.signer hashing scheme entry covered)).dedup.length

end

variable {hashing : Hashing} {scheme : Ed25519}

/-! ## What has a canonical form -/

theorem Extra.integral_write {known : List String} {extra : Extra known}
    {members : List (Option Json)}
    (others : ∀ key member, extra.fields.lookup key = some member → member.integral = true)
    (each : ∀ member ∈ members, ∀ value, member = some value → value.integral = true) :
    (extra.write members).integral = true :=
  Json.integral_withKnown others fun field member value same =>
    each field.2 (List.of_mem_zip member).2 value same

theorem Extra.integral_none {known : List String} {extra : Extra known} (plain : extra = .none)
    (key : String) (member : Json) (there : extra.fields.lookup key = some member) :
    member.integral = true := by
  rw [plain, Extra.none, Finmap.lookup_empty] at there
  cases there

theorem KeyVal.integral_plain {keyval : KeyVal} (plain : keyval.extra = .none) :
    keyval.write.integral = true :=
  Extra.integral_write (Extra.integral_none plain) (by simp)

theorem PublicKey.integral_ed25519 (publicHex : String) :
    (PublicKey.ed25519 publicHex).write.integral = true := by
  refine Extra.integral_write (Extra.integral_none rfl) ?_
  have inner : (PublicKey.ed25519 publicHex).keyval.write.integral = true :=
    KeyVal.integral_plain rfl
  simpa using inner

theorem RoleKeys.integral_plain {entry : RoleKeys} (plain : entry.extra = .none) :
    entry.write.integral = true := by
  refine Extra.integral_write (Extra.integral_none plain) ?_
  have listed : (Json.ofList Json.string entry.keyids).integral = true :=
    Json.integral_ofList fun _ _ => rfl
  simpa using listed

theorem MetaFile.integral_pinning (sha256 : Bytes → Transport.ArtifactDigest) (version : Nat)
    (bytes : Bytes) : (MetaFile.pinning sha256 version bytes).write.integral = true := by
  refine Extra.integral_write (Extra.integral_none rfl) ?_
  have hashes : (writeHashes (sha256Map sha256 bytes)).integral = true :=
    Json.integral_ofMap.mpr fun _ _ _ => rfl
  simpa [pinning] using hashes

/-- Pins that are written with integers only are so in the role that has them. -/
theorem integral_writePinning {type specVersion expires : String} {version : Nat}
    {pins : Finmap fun _ : String => MetaFile} {extra : Extra pinning}
    (plain : extra = .none)
    (each : ∀ name pin, pins.lookup name = some pin → pin.write.integral = true) :
    (writePinning type specVersion version expires pins extra).integral = true := by
  refine Extra.integral_write (Extra.integral_none plain) ?_
  have listed : (Json.ofMap MetaFile.write pins).integral = true := Json.integral_ofMap.mpr each
  simpa using listed

/-- A single pin is written with integers only. -/
theorem integral_singleton (sha256 : Bytes → Transport.ArtifactDigest) (file : String)
    (version : Nat) (bytes : Bytes) (name : String) (pin : MetaFile)
    (there : (Finmap.singleton file (MetaFile.pinning sha256 version bytes) :
      Finmap fun _ : String => MetaFile).lookup name = some pin) :
    pin.write.integral = true := by
  by_cases same : name = file
  · subst same
    rw [Finmap.lookup_singleton_eq, Option.some_inj] at there
    exact there ▸ MetaFile.integral_pinning sha256 version bytes
  · have member := Finmap.mem_of_lookup_eq_some there
    rw [Finmap.mem_singleton] at member
    exact absurd member same

theorem Targets.integral_empty (version : Nat) (expires : String) :
    (Targets.new version expires ∅).write.integral = true := by
  refine Extra.integral_write (Extra.integral_none rfl) ?_
  have listed : (Json.ofMap TargetFile.write ∅).integral = true :=
    Json.integral_ofMap.mpr fun _ _ there => nomatch there
  simpa [Targets.new] using listed

/-- The key of a canonical form that has an id holds integers only. -/
theorem PublicKey.keyId_isSome (canonicalizes : hashing.Canonicalizes) (key : PublicKey) :
    (key.keyId hashing).isSome = key.write.integral := by
  rw [keyId, Option.isSome_map, canonicalizes]

/-- A root that is accepted has a canonical form. -/
theorem Root.integral_of_new (canonicalizes : hashing.Canonicalizes) {version : Nat}
    {expires : String} {authorizations : List RoleAuthorization} {root : Root}
    (accepted : Root.new hashing version expires authorizations = .ok root) :
    root.write.integral = true := by
  have collects := Root.new_collects accepted
  have keys : (Json.ofMap PublicKey.write root.keys).integral = true := by
    refine Json.integral_ofMap.mpr fun id key there => ?_
    rw [← PublicKey.keyId_isSome canonicalizes, (collects.listed id key there).1]
    rfl
  have roles : (Json.ofMap RoleKeys.write root.roles).integral = true := by
    refine Json.integral_ofMap.mpr fun name entry there => ?_
    obtain ⟨role, authorization, indexed, -, -, resolved⟩ := (collects.entries name entry).mp there
    exact RoleKeys.integral_plain (RoleAuthorization.resolve_plain resolved).1
  refine Extra.integral_write (Extra.integral_none (Root.new_plain accepted).2) ?_
  simpa using ⟨keys, roles⟩

/-! ## Signatures -/

theorem repeated_eq_none {ids : List String} (sorted : ids.Pairwise (· ≤ ·)) :
    repeated ids = none ↔ ids.Nodup := by
  induction ids with
  | nil => simp [repeated]
  | cons first rest ih =>
      cases rest with
      | nil => simp [repeated]
      | cons second rest =>
          rw [repeated, List.nodup_cons]
          have later := (List.pairwise_cons.mp sorted).2
          split
          · rename_i same
            refine iff_of_false (fun none => nomatch none) fun apart => apart.1 ?_
            rw [same]
            exact List.mem_cons_self
          · rename_i differ
            rw [ih later, and_iff_right]
            -- What comes after the second is not below it, nor is the first above it.
            intro member
            obtain same | behind := List.mem_cons.mp member
            · exact differ same
            · have above := (List.pairwise_cons.mp later).1 first behind
              have below := (List.pairwise_cons.mp sorted).1 second List.mem_cons_self
              exact differ (le_antisymm below above)

theorem SigningKey.keyId_eq (canonicalizes : hashing.Canonicalizes) (key : SigningKey) :
    key.keyId hashing scheme = some (key.id hashing scheme) := by
  have has : (key.keyId hashing scheme).isSome = true := by
    rw [keyId, PublicKey.keyId_isSome canonicalizes]
    exact PublicKey.integral_ed25519 _
  obtain ⟨id, found⟩ := Option.isSome_iff_exists.mp has
  rw [SigningKey.id, found, Option.getD_some]

theorem SigningKey.keyPairs (canonicalizes : hashing.Canonicalizes) (keys : List SigningKey) :
    keys.mapM (SigningKey.keyPair hashing scheme) =
      some (keys.map fun key => ⟨key.id hashing scheme, key.signHex scheme⟩) := by
  induction keys with
  | nil => rfl
  | cons key rest ih =>
      rw [List.mapM_cons, ih, keyPair, keyId_eq canonicalizes]
      rfl

/-- **Signing a payload that has a canonical form fails exactly if two keys have one id.** -/
theorem Signed.sign_cases {α : Type} {write : α → Json} {payload : α} {covered : Bytes}
    (canonicalizes : hashing.Canonicalizes)
    (canonical : hashing.canonical (write payload) = some covered) (keys : List SigningKey) :
    ((keys.map (·.id hashing scheme)).Nodup →
      ∃ signatures, signatures.Perm (keys.map (·.signature hashing scheme covered)) ∧
        Signed.sign hashing scheme write payload keys = .ok ⟨signatures, payload, .none⟩) ∧
    (¬ (keys.map (·.id hashing scheme)).Nodup →
      ∃ keyId, Signed.sign hashing scheme write payload keys =
        .error (.duplicateKeyId keyId)) := by
  have pairs : (keys.map fun key : SigningKey =>
        (⟨key.id hashing scheme, key.signHex scheme⟩ : KeyPair)).map
      (fun pair => (⟨pair.keyId, pair.signHex covered, .none⟩ : Signature)) =
      keys.map (·.signature hashing scheme covered) := List.map_map ..
  have sorted := List.pairwise_mergeSort'
    (fun first second : Signature => first.keyid ≤ second.keyid)
    (keys.map (·.signature hashing scheme covered))
  have perm := List.mergeSort_perm (keys.map (·.signature hashing scheme covered))
    fun first second => first.keyid ≤ second.keyid
  rw [sign, canonical, SigningKey.keyPairs canonicalizes]
  simp only [pairs]
  revert sorted perm
  generalize (keys.map (·.signature hashing scheme covered)).mergeSort
    (fun first second => first.keyid ≤ second.keyid) = signatures
  intro sorted perm
  have ids : (signatures.map Signature.keyid).Perm (keys.map (·.id hashing scheme)) := by
    have named := perm.map Signature.keyid
    rwa [List.map_map] at named
  have found := repeated_eq_none (List.pairwise_map.mpr sorted)
  rw [ids.nodup_iff] at found
  constructor
  · intro apart
    rw [found.mpr apart]
    exact ⟨signatures, perm, rfl⟩
  · intro twice
    cases first : repeated (signatures.map Signature.keyid) with
    | none => exact absurd (found.mp first) twice
    | some keyId => exact ⟨keyId, rfl⟩

/-- Signing is what it is with a codec that covers the same bytes. -/
theorem Signed.sign_eq_new {α : Type} {codec : Codec α} {write : α → Json} {payload : α}
    (covers : codec.canonical payload = hashing.canonical (write payload))
    (keys : List SigningKey) :
    (Signed.sign hashing scheme write payload keys).toOption =
      (keys.mapM (SigningKey.keyPair hashing scheme)).bind (Signed.new codec payload) := by
  cases canonical : hashing.canonical (write payload) with
  | none =>
      cases keys.mapM (SigningKey.keyPair hashing scheme) <;>
        simp [Signed.sign, Signed.new, covers, canonical, Except.toOption]
  | some covered =>
      cases made : keys.mapM (SigningKey.keyPair hashing scheme) with
      | none => simp [Signed.sign, canonical, made, Except.toOption]
      | some pairs =>
          have sorted := List.pairwise_mergeSort'
            (fun first second : Signature => first.keyid ≤ second.keyid)
            (pairs.map fun pair => ⟨pair.keyId, pair.signHex covered, .none⟩)
          have found := repeated_eq_none (List.pairwise_map.mpr sorted)
          simp only [Signed.sign, Signed.new, covers, canonical, made, Option.bind_eq_bind,
            Option.bind_some, ← found]
          split
          · rename_i keyId first
            rw [if_neg (by rw [first]; exact fun none => nomatch none)]
            rfl
          · rename_i apart
            rw [if_pos apart]
            rfl

/-! ## A root signed by its own keys -/

theorem SigningKey.material_publicKey (key : SigningKey) :
    (key.publicKey scheme).material = some (scheme.verifyingKey key.seed) := by
  rw [PublicKey.material, publicKey, PublicKey.ed25519, decodeHex_encodeHex, Option.filter_some,
    scheme.length_verifyingKey]
  rfl

/-- Keys that have one id have one public key; so different ids are of different keys. -/
theorem SigningKey.id_congr {first second : SigningKey}
    (same : scheme.verifyingKey first.seed = scheme.verifyingKey second.seed) :
    first.id hashing scheme = second.id hashing scheme := by
  rw [id, id, keyId, keyId, publicKey, publicKey, same]

/-- The signature of a key that a root lists is counted. -/
theorem SigningKey.signer_signature (canonicalizes : hashing.Canonicalizes) (key : SigningKey)
    {root : Root} {entry : RoleKeys} {covered : Bytes}
    (named : key.id hashing scheme ∈ entry.keyids)
    (kept : root.keys.lookup (key.id hashing scheme) = some (key.publicKey scheme)) :
    root.signer hashing scheme entry covered (key.signature hashing scheme covered) =
      some (scheme.verifyingKey key.seed) := by
  have own : (key.publicKey scheme).keyId hashing = some (key.id hashing scheme) :=
    key.keyId_eq canonicalizes
  simp [Root.signer, signature, kept, named, own, material_publicKey, signHex,
    decodeHex_encodeHex, scheme.verify_sign]

/-- **A root verifies as signed by itself** if keys that it lists for its own role have signed
it, each once, and as many as it asks for. -/
theorem Signed.verifiesItself (canonicalizes : hashing.Canonicalizes) {root : Root}
    {entry : RoleKeys} {covered : Bytes} {keys : List SigningKey} {signatures : List Signature}
    (typed : root.type = RoleName.root.asStr)
    (listed : root.roles.lookup RoleName.root.asStr = some entry)
    (canonical : hashing.canonical root.write = some covered)
    (apart : (keys.map (·.id hashing scheme)).Nodup)
    (perm : signatures.Perm (keys.map (·.signature hashing scheme covered)))
    (authorized : ∀ key ∈ keys, key.id hashing scheme ∈ entry.keyids ∧
      root.keys.lookup (key.id hashing scheme) = some (key.publicKey scheme))
    (positive : 1 ≤ entry.threshold) (enough : entry.threshold ≤ keys.length) :
    Signed.VerifiesItself hashing scheme ⟨signatures, root, .none⟩ entry covered where
  typed := typed
  listed := listed
  canonical := canonical
  positive := positive
  apart := by
    have named := perm.map Signature.keyid
    rw [List.map_map] at named
    exact named.nodup_iff.mpr apart
  met := by
    have materials : (keys.map fun key => scheme.verifyingKey key.seed).Nodup := by
      rw [List.Nodup, List.pairwise_map] at apart ⊢
      exact apart.imp fun differ same => differ (SigningKey.id_congr same)
    have signers : (signatures.filterMap (root.signer hashing scheme entry covered)).Perm
        (keys.map fun key => scheme.verifyingKey key.seed) := by
      refine (perm.filterMap _).trans (.of_eq ?_)
      rw [List.filterMap_map, ← List.filterMap_eq_map]
      refine List.filterMap_congr fun key member => ?_
      obtain ⟨named, kept⟩ := authorized key member
      exact key.signer_signature canonicalizes named kept
    rw [(signers.nodup_iff.mpr materials).dedup, signers.length_eq, List.length_map]
    exact enough

end Retrovert.Tuf
