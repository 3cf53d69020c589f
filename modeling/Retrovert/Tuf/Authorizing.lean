import Mathlib.Data.Finset.Sort
import Mathlib.Data.String.Basic
import Retrovert.Tuf.Documents

/-!
# The keys of a root

A root authorizes each role with keys and a threshold. Keys go by their ids, and an id is the
digest of the whole key as it is written, whatever else it holds and however its hex is
spelled. So the keys that a role lists are distinct, and their material need not be
(`thresholds_count_distinct_keys`).

SHA-256 and the canonical form of a value, which it has unless it holds a number that is no
integer, are parameters.
-/

set_option autoImplicit false

namespace Retrovert.Tuf

open Retrovert.Transport (ArtifactDigest decodeHex)

/-- What signatures cover of a value, and its digest. -/
structure Hashing where
  canonical : Json → Option Bytes
  sha256 : Bytes → ArtifactDigest

/-! ## Keys -/

/-- The id of a key: the digest of its canonical form. -/
def PublicKey.keyId (hashing : Hashing) (key : PublicKey) : Option String :=
  (hashing.canonical key.write).map fun bytes => (hashing.sha256 bytes).toHex

/-- The key material, if that is what the hex stands for. -/
def PublicKey.material (key : PublicKey) : Option Bytes :=
  (decodeHex key.keyval.publicHex.toList).filter (·.length == 32)

/-- The key that a signing key shows of itself, given the hex of it. -/
def PublicKey.ed25519 (publicHex : String) : PublicKey where
  keytype := "ed25519"
  scheme := "ed25519"
  keyval := { publicHex, extra := .none }
  extra := .none

/-- Two keys hold the same public key. -/
def PublicKey.SameMaterial (first second : PublicKey) : Prop :=
  first.material = second.material ∧ first.material ≠ none

instance (first second : PublicKey) : Decidable (first.SameMaterial second) :=
  inferInstanceAs (Decidable (_ ∧ _))

/-! ## Authorizations -/

/-- The keys one role is authorized with, and how many of them must sign. -/
structure RoleAuthorization where
  role : RoleName
  keys : List PublicKey
  threshold : Nat

inductive AuthorizationError where
  | json
  | unsatisfiableThreshold (role : RoleName) (threshold keys : Nat)
  | duplicateRoleKey (role : RoleName) (keyId : String)
deriving DecidableEq

/-- Keys under their ids. -/
abbrev KeyMap := Finmap fun _ : String => PublicKey

variable (hashing : Hashing)

namespace RoleAuthorization

/-- Authorize a role with a single key. -/
def single (role : RoleName) (key : PublicKey) : RoleAuthorization := ⟨role, [key], 1⟩

/-- Index keys by their ids, past those that are indexed. -/
def index (role : RoleName) : KeyMap → List PublicKey → Except AuthorizationError KeyMap
  | indexed, [] => .ok indexed
  | indexed, key :: rest =>
      match key.keyId hashing with
      | none => .error .json
      | some id =>
          if id ∈ indexed then .error (.duplicateRoleKey role id)
          else index role (indexed.insert id key) rest

/-- The ids of the role's keys, sorted, and the keys indexed by them. -/
def resolve (authorization : RoleAuthorization) :
    Except AuthorizationError (RoleKeys × KeyMap) :=
  if authorization.threshold = 0 ∨ authorization.keys.length < authorization.threshold then
    .error (.unsatisfiableThreshold authorization.role authorization.threshold
      authorization.keys.length)
  else
    match index hashing authorization.role ∅ authorization.keys with
    | .error error => .error error
    | .ok indexed =>
        .ok ({ keyids := indexed.keys.sort, threshold := authorization.threshold, extra := .none },
          indexed)

end RoleAuthorization

namespace Root

/-- The keys and the roles of a root, past those of earlier authorizations. Of two
authorizations of one role the later counts. -/
def collect (keys : KeyMap) (roles : Finmap fun _ : String => RoleKeys) :
    List RoleAuthorization →
      Except AuthorizationError (KeyMap × Finmap fun _ : String => RoleKeys)
  | [] => .ok (keys, roles)
  | authorization :: rest =>
      match authorization.resolve hashing with
      | .error error => .error error
      | .ok (roleKeys, indexed) =>
          collect (indexed ∪ keys) (roles.insert authorization.role.asStr roleKeys) rest

/-- Build a root from an authorization for each role. -/
def new (version : Nat) (expires : String) (authorizations : List RoleAuthorization) :
    Except AuthorizationError Root :=
  match collect hashing ∅ ∅ authorizations with
  | .error error => .error error
  | .ok (keys, roles) =>
      .ok
        { type := RoleName.root.asStr
          specVersion := Tuf.specVersion
          version
          expires
          consistentSnapshot := true
          keys
          roles
          extra := .none }

end Root

/-! ## What is indexed -/

/-- A map holds the given keys under their ids. They are as many as the map, so none is
given twice. -/
structure Indexes (indexed : KeyMap) (keys : List PublicKey) : Prop where
  lookup : ∀ id key, indexed.lookup id = some key ↔ key ∈ keys ∧ key.keyId hashing = some id
  counted : indexed.keys.card = keys.length
  named : ∀ key ∈ keys, ∃ id, key.keyId hashing = some id

variable {hashing}

theorem Indexes.empty : Indexes hashing ∅ [] where
  lookup := by simp
  counted := by simp
  named := by simp

/-- One more key goes under its id if nothing is there. -/
theorem Indexes.insert {indexed : KeyMap} {keys : List PublicKey} {key : PublicKey} {id : String}
    (before : Indexes hashing indexed keys) (named : key.keyId hashing = some id)
    (fresh : id ∉ indexed) : Indexes hashing (indexed.insert id key) (keys ++ [key]) where
  lookup := by
    intro other found
    rw [List.mem_append, List.mem_singleton]
    by_cases same : other = id
    · subst same
      rw [Finmap.lookup_insert, Option.some_inj]
      refine ⟨fun equal => equal ▸ ⟨.inr rfl, named⟩, ?_⟩
      rintro ⟨earlier | rfl, foundNamed⟩
      · have present := (before.lookup other found).mpr ⟨earlier, foundNamed⟩
        exact absurd (Finmap.mem_of_lookup_eq_some present) fresh
      · rfl
    · rw [Finmap.lookup_insert_of_ne _ same, before.lookup]
      refine ⟨fun earlier => ⟨.inl earlier.1, earlier.2⟩, ?_⟩
      rintro ⟨earlier | rfl, foundNamed⟩
      · exact ⟨earlier, foundNamed⟩
      · exact absurd (Option.some.inj (foundNamed.symm.trans named)) same
  counted := by
    have grown : (indexed.insert id key).keys = Insert.insert id indexed.keys := by
      ext other
      simp only [Finmap.mem_keys, Finmap.mem_insert, Finset.mem_insert]
    rw [grown, Finset.card_insert_of_notMem (mt Finmap.mem_keys.mp fresh), before.counted,
      List.length_append, List.length_singleton]
  named := by
    intro other member
    obtain earlier | rfl := List.mem_append.mp member |>.imp_right List.mem_singleton.mp
    · exact before.named other earlier
    · exact ⟨id, named⟩

theorem Indexes.nodup {indexed : KeyMap} {keys : List PublicKey}
    (indexes : Indexes hashing indexed keys) : keys.Nodup := by
  have covered : indexed.keys ⊆ (keys.toFinset.image fun key => (key.keyId hashing).getD "") := by
    intro id member
    obtain ⟨key, found⟩ := Finmap.mem_iff.mp (Finmap.mem_keys.mp member)
    obtain ⟨listed, named⟩ := (indexes.lookup id key).mp found
    exact Finset.mem_image.mpr ⟨key, List.mem_toFinset.mpr listed, by rw [named]; rfl⟩
  have many : keys.length ≤ keys.toFinset.card := calc
    keys.length = indexed.keys.card := indexes.counted.symm
    _ ≤ _ := Finset.card_le_card covered
    _ ≤ keys.toFinset.card := Finset.card_image_le
  rw [← Multiset.coe_nodup, ← Multiset.toFinset_card_eq_card_iff_nodup]
  exact Nat.le_antisymm (Multiset.toFinset_card_le _) many

theorem RoleAuthorization.index_indexes {role : RoleName} {indexed result : KeyMap}
    {done keys : List PublicKey} (before : Indexes hashing indexed done)
    (accepted : index hashing role indexed keys = .ok result) :
    Indexes hashing result (done ++ keys) := by
  induction keys generalizing indexed done with
  | nil =>
      cases accepted
      rwa [List.append_nil]
  | cons key rest ih =>
      rw [index] at accepted
      split at accepted
      · cases accepted
      · rename_i id named
        split at accepted
        · cases accepted
        · rename_i fresh
          have after := ih (before.insert named fresh) accepted
          rwa [List.append_assoc] at after

/-- The entry of a role lists the ids of its keys in order, and asks for no more of them
than there are. -/
theorem RoleAuthorization.resolve_eq_ok {authorization : RoleAuthorization} {entry : RoleKeys}
    {indexed : KeyMap} (accepted : authorization.resolve hashing = .ok (entry, indexed)) :
    Indexes hashing indexed authorization.keys ∧ entry.keyids = indexed.keys.sort ∧
      1 ≤ entry.threshold ∧ entry.threshold ≤ authorization.keys.length := by
  rw [resolve] at accepted
  split at accepted
  · cases accepted
  · rename_i satisfiable
    split at accepted
    · cases accepted
    · rename_i found
      cases accepted
      have indexes := index_indexes Indexes.empty found
      rw [List.nil_append] at indexes
      refine ⟨indexes, rfl, ?_, ?_⟩ <;> simp only <;> omega

theorem RoleAuthorization.resolve_plain {authorization : RoleAuthorization} {entry : RoleKeys}
    {indexed : KeyMap} (accepted : authorization.resolve hashing = .ok (entry, indexed)) :
    entry.extra = .none ∧ entry.threshold = authorization.threshold := by
  rw [resolve] at accepted
  split at accepted
  · cases accepted
  · split at accepted
    · cases accepted
    · cases accepted
      exact ⟨rfl, rfl⟩

/-- Keys of different ids, past those that are indexed, are indexed. -/
theorem RoleAuthorization.index_exists {role : RoleName} {indexed : KeyMap}
    {done keys : List PublicKey} (before : Indexes hashing indexed done)
    (named : ∀ key ∈ keys, ∃ id, key.keyId hashing = some id)
    (apart : (done ++ keys).Pairwise fun first second =>
      first.keyId hashing ≠ second.keyId hashing) :
    ∃ result, index hashing role indexed keys = .ok result := by
  induction keys generalizing indexed done with
  | nil => exact ⟨indexed, rfl⟩
  | cons key rest ih =>
      obtain ⟨id, keyNamed⟩ := named key List.mem_cons_self
      have fresh : id ∉ indexed := by
        intro present
        obtain ⟨other, found⟩ := Finmap.mem_iff.mp present
        obtain ⟨listed, otherNamed⟩ := (before.lookup id other).mp found
        exact (List.pairwise_append.mp apart).2.2 other listed key List.mem_cons_self
          (otherNamed.trans keyNamed.symm)
      rw [index, keyNamed]
      simp only [if_neg fresh]
      refine ih (before.insert keyNamed fresh)
        (fun other member => named other (List.mem_cons_of_mem _ member)) ?_
      rwa [List.append_assoc]

/-- An authorization resolves if its threshold can be met and its keys have different ids. -/
theorem RoleAuthorization.resolves {authorization : RoleAuthorization}
    (satisfiable : 1 ≤ authorization.threshold ∧
      authorization.threshold ≤ authorization.keys.length)
    (named : ∀ key ∈ authorization.keys, ∃ id, key.keyId hashing = some id)
    (apart : authorization.keys.Pairwise fun first second =>
      first.keyId hashing ≠ second.keyId hashing) :
    ∃ entry indexed, authorization.resolve hashing = .ok (entry, indexed) := by
  obtain ⟨indexed, found⟩ := index_exists Indexes.empty named apart
  have meetable : ¬ (authorization.threshold = 0 ∨
      authorization.keys.length < authorization.threshold) := by omega
  rw [resolve, if_neg meetable, found]
  exact ⟨_, _, rfl⟩

/-! ## What is collected -/

/-- The authorization that counts for a role: the last. -/
def inForce (authorizations : List RoleAuthorization) (role : RoleName) :
    Option RoleAuthorization :=
  authorizations.reverse.find? (·.role = role)

theorem inForce_append (authorizations : List RoleAuthorization) (last : RoleAuthorization)
    (role : RoleName) : inForce (authorizations ++ [last]) role =
      if last.role = role then some last else inForce authorizations role := by
  rw [inForce, List.reverse_append, List.reverse_singleton, List.singleton_append, List.find?_cons]
  by_cases same : last.role = role <;> simp [same, inForce]

theorem inForce_role {authorizations : List RoleAuthorization} {role : RoleName}
    {authorization : RoleAuthorization} (found : inForce authorizations role = some authorization) :
    authorization ∈ authorizations ∧ authorization.role = role := by
  have member := List.mem_of_find?_eq_some found
  have named := List.find?_some found
  exact ⟨List.mem_reverse.mp member, of_decide_eq_true named⟩

theorem RoleName.asStr_injective : Function.Injective RoleName.asStr := by
  intro first second same
  cases first <;> cases second <;> first | rfl | exact absurd same (by decide)

variable (hashing) in
/-- What a pass over authorizations has collected: the listed keys under their ids, and for
every role the entry of the authorization in force. -/
structure Collects (keys : KeyMap) (roles : Finmap fun _ : String => RoleKeys)
    (authorizations : List RoleAuthorization) : Prop where
  listed : ∀ id key, keys.lookup id = some key →
    key.keyId hashing = some id ∧ ∃ authorization ∈ authorizations, key ∈ authorization.keys
  present : ∀ authorization ∈ authorizations, ∀ key ∈ authorization.keys, ∀ id,
    key.keyId hashing = some id → id ∈ keys
  entries : ∀ name entry, roles.lookup name = some entry ↔
    ∃ role authorization indexed, role.asStr = name ∧
      inForce authorizations role = some authorization ∧
      authorization.resolve hashing = .ok (entry, indexed)

theorem Collects.empty : Collects hashing ∅ ∅ [] where
  listed := by simp
  present := by simp
  entries := by simp [inForce]

theorem Collects.append {keys : KeyMap} {roles : Finmap fun _ : String => RoleKeys}
    {authorizations : List RoleAuthorization} {last : RoleAuthorization} {entry : RoleKeys}
    {indexed : KeyMap} (before : Collects hashing keys roles authorizations)
    (resolved : last.resolve hashing = .ok (entry, indexed)) :
    Collects hashing (indexed ∪ keys) (roles.insert last.role.asStr entry)
      (authorizations ++ [last]) where
  listed := by
    intro id key found
    have indexes := (RoleAuthorization.resolve_eq_ok resolved).1
    rw [← Option.mem_def, Finmap.mem_lookup_union] at found
    obtain new | ⟨-, old⟩ := found
    · obtain ⟨member, named⟩ := (indexes.lookup id key).mp new
      exact ⟨named, last, List.mem_append_right _ (List.mem_singleton_self _), member⟩
    · obtain ⟨named, authorization, member, listed⟩ := before.listed id key old
      exact ⟨named, authorization, List.mem_append_left _ member, listed⟩
  present := by
    intro authorization member key listed id named
    have indexes := (RoleAuthorization.resolve_eq_ok resolved).1
    rw [Finmap.mem_union]
    obtain earlier | same := List.mem_append.mp member
    · exact .inr (before.present authorization earlier key listed id named)
    · rw [List.mem_singleton] at same
      subst same
      exact .inl (Finmap.mem_of_lookup_eq_some ((indexes.lookup id key).mpr ⟨listed, named⟩))
  entries := by
    intro name other
    by_cases same : name = last.role.asStr
    · subst same
      rw [Finmap.lookup_insert, Option.some_inj]
      constructor
      · rintro rfl
        exact ⟨last.role, last, indexed, rfl, by rw [inForce_append, if_pos rfl], resolved⟩
      · rintro ⟨role, authorization, indexed', named, found, resolved'⟩
        have sameRole := RoleName.asStr_injective named
        subst sameRole
        rw [inForce_append, if_pos rfl] at found
        cases found
        rw [resolved] at resolved'
        cases resolved'
        rfl
    · rw [Finmap.lookup_insert_of_ne _ same, before.entries]
      refine exists_congr fun role => exists_congr fun authorization => exists_congr fun found => ?_
      refine and_congr_right fun named => ?_
      have apart : last.role ≠ role := fun equal => same (by rw [equal, named])
      rw [inForce_append, if_neg apart]

theorem Root.collect_collects {keys keys' : KeyMap}
    {roles roles' : Finmap fun _ : String => RoleKeys} {done rest : List RoleAuthorization}
    (before : Collects hashing keys roles done)
    (accepted : collect hashing keys roles rest = .ok (keys', roles')) :
    Collects hashing keys' roles' (done ++ rest) := by
  induction rest generalizing keys roles done with
  | nil =>
      cases accepted
      rwa [List.append_nil]
  | cons authorization rest ih =>
      rw [collect] at accepted
      split at accepted
      · cases accepted
      · rename_i resolved
        have after := ih (before.append resolved) accepted
        rwa [List.append_assoc] at after

theorem Root.collect_resolves {keys keys' : KeyMap}
    {roles roles' : Finmap fun _ : String => RoleKeys} {authorizations : List RoleAuthorization}
    (accepted : collect hashing keys roles authorizations = .ok (keys', roles'))
    {authorization : RoleAuthorization} (member : authorization ∈ authorizations) :
    ∃ entry indexed, authorization.resolve hashing = .ok (entry, indexed) := by
  induction authorizations generalizing keys roles with
  | nil => cases member
  | cons head rest ih =>
      rw [collect] at accepted
      split at accepted
      · cases accepted
      · rename_i entry indexed resolved
        obtain rfl | later := List.mem_cons.mp member
        · exact ⟨entry, indexed, resolved⟩
        · exact ih accepted later

theorem Root.collect_exists {keys : KeyMap} {roles : Finmap fun _ : String => RoleKeys}
    {authorizations : List RoleAuthorization}
    (resolved : ∀ authorization ∈ authorizations,
      ∃ entry indexed, authorization.resolve hashing = .ok (entry, indexed)) :
    ∃ collected, collect hashing keys roles authorizations = .ok collected := by
  induction authorizations generalizing keys roles with
  | nil => exact ⟨_, rfl⟩
  | cons authorization rest ih =>
      obtain ⟨entry, indexed, found⟩ := resolved authorization List.mem_cons_self
      rw [collect, found]
      exact ih fun other member => resolved other (List.mem_cons_of_mem _ member)

/-- A root is accepted if each of its authorizations resolves. -/
theorem Root.new_exists {version : Nat} {expires : String}
    {authorizations : List RoleAuthorization}
    (resolved : ∀ authorization ∈ authorizations,
      ∃ entry indexed, authorization.resolve hashing = .ok (entry, indexed)) :
    ∃ root, Root.new hashing version expires authorizations = .ok root := by
  have collects : ∃ collected, collect hashing ∅ ∅ authorizations = .ok collected :=
    Root.collect_exists resolved
  obtain ⟨collected, found⟩ := collects
  rw [Root.new, found]
  exact ⟨_, rfl⟩

theorem Root.new_collects {version : Nat} {expires : String}
    {authorizations : List RoleAuthorization} {root : Root}
    (accepted : Root.new hashing version expires authorizations = .ok root) :
    Collects hashing root.keys root.roles authorizations := by
  rw [Root.new] at accepted
  split at accepted
  · cases accepted
  · rename_i found
    cases accepted
    have collects := Root.collect_collects Collects.empty found
    rwa [List.nil_append] at collects

theorem Root.new_plain {version : Nat} {expires : String}
    {authorizations : List RoleAuthorization} {root : Root}
    (accepted : Root.new hashing version expires authorizations = .ok root) :
    root.type = RoleName.root.asStr ∧ root.extra = .none := by
  rw [Root.new] at accepted
  split at accepted <;> cases accepted
  exact ⟨rfl, rfl⟩

/-- Every authorization of an accepted root is resolved. -/
theorem Root.new_resolves {version : Nat} {expires : String}
    {authorizations : List RoleAuthorization} {root : Root}
    (accepted : Root.new hashing version expires authorizations = .ok root)
    {authorization : RoleAuthorization} (member : authorization ∈ authorizations) :
    ∃ entry indexed, authorization.resolve hashing = .ok (entry, indexed) := by
  rw [Root.new] at accepted
  split at accepted
  · cases accepted
  · rename_i found
    exact Root.collect_resolves found member

/-! ## Thresholds -/

variable (hashing)

/-- No two of the keys have one id. -/
def Hashing.Separates (keys : List PublicKey) : Prop :=
  ∀ first ∈ keys, ∀ second ∈ keys, first.keyId hashing = second.keyId hashing → first = second

/-- The threshold of a role can be met, and counts distinct keys. -/
structure RoleKeys.CountsDistinctKeys (keys : KeyMap) (entry : RoleKeys) : Prop where
  satisfiable : 1 ≤ entry.threshold ∧ entry.threshold ≤ entry.keyids.length
  ordered : entry.keyids.Pairwise (· < ·)
  indexed : ∀ id ∈ entry.keyids,
    ∃ key, keys.lookup id = some key ∧ key.keyId hashing = some id
  apart : ∀ first ∈ entry.keyids, ∀ second ∈ entry.keyids, first ≠ second → ∀ key key',
    keys.lookup first = some key → keys.lookup second = some key' → ¬ key.SameMaterial key'

variable {hashing}

/-- A root keeps each key it lists under the key's id. -/
theorem Collects.lookup_listed {keys : KeyMap} {roles : Finmap fun _ : String => RoleKeys}
    {authorizations : List RoleAuthorization} (collects : Collects hashing keys roles authorizations)
    (separates : hashing.Separates (authorizations.flatMap RoleAuthorization.keys))
    {authorization : RoleAuthorization} (member : authorization ∈ authorizations) {key : PublicKey}
    (listed : key ∈ authorization.keys) {id : String} (named : key.keyId hashing = some id) :
    keys.lookup id = some key := by
  obtain ⟨kept, found⟩ :=
    Finmap.mem_iff.mp (collects.present authorization member key listed id named)
  obtain ⟨keptNamed, other, otherMember, otherListed⟩ := collects.listed id kept found
  have same : kept = key := separates kept (List.mem_flatMap.mpr ⟨other, otherMember, otherListed⟩)
    key (List.mem_flatMap.mpr ⟨authorization, member, listed⟩) (keptNamed.trans named.symm)
  rw [found, same]

/-- The entry of an authorization counts distinct keys exactly if no key material is listed
twice in it. -/
theorem Collects.countsDistinctKeys_iff {keys : KeyMap}
    {roles : Finmap fun _ : String => RoleKeys} {authorizations : List RoleAuthorization}
    (collects : Collects hashing keys roles authorizations)
    (separates : hashing.Separates (authorizations.flatMap RoleAuthorization.keys))
    {authorization : RoleAuthorization} (member : authorization ∈ authorizations)
    {entry : RoleKeys} {indexed : KeyMap}
    (resolved : authorization.resolve hashing = .ok (entry, indexed)) :
    entry.CountsDistinctKeys hashing keys ↔
      authorization.keys.Pairwise fun first second => ¬ first.SameMaterial second := by
  obtain ⟨indexes, sorted, positive, enough⟩ := RoleAuthorization.resolve_eq_ok resolved
  have listedIff : ∀ id, id ∈ entry.keyids ↔
      ∃ key ∈ authorization.keys, key.keyId hashing = some id := by
    intro id
    rw [sorted, Finset.mem_sort, Finmap.mem_keys, Finmap.mem_iff]
    exact exists_congr fun key => indexes.lookup id key
  constructor
  · intro counts
    refine indexes.nodup.imp_of_mem fun {first second} firstListed secondListed differ same => ?_
    obtain ⟨firstId, firstNamed⟩ := indexes.named first firstListed
    obtain ⟨secondId, secondNamed⟩ := indexes.named second secondListed
    have apart : firstId ≠ secondId := by
      rintro rfl
      have one := (indexes.lookup firstId first).mpr ⟨firstListed, firstNamed⟩
      have two := (indexes.lookup firstId second).mpr ⟨secondListed, secondNamed⟩
      exact differ (Option.some.inj (one.symm.trans two))
    exact counts.apart firstId ((listedIff firstId).mpr ⟨first, firstListed, firstNamed⟩)
      secondId ((listedIff secondId).mpr ⟨second, secondListed, secondNamed⟩) apart first second
      (collects.lookup_listed separates member firstListed firstNamed)
      (collects.lookup_listed separates member secondListed secondNamed) same
  · intro distinct
    have symmetric : ∀ first ∈ authorization.keys, ∀ second ∈ authorization.keys,
        first ≠ second → ¬ first.SameMaterial second := by
      have swapped : Std.Symm fun first second : PublicKey => ¬ first.SameMaterial second :=
        ⟨fun first second apart same => apart ⟨same.1.symm, same.1 ▸ same.2⟩⟩
      exact fun first firstListed second secondListed => distinct.forall firstListed secondListed
    refine ⟨⟨positive, ?_⟩, ?_, ?_, ?_⟩
    · rw [sorted, Finset.length_sort, indexes.counted]
      exact enough
    · rw [sorted]
      exact (Finset.sortedLT_sort _).pairwise
    · intro id listed
      obtain ⟨key, keyListed, named⟩ := (listedIff id).mp listed
      exact ⟨key, collects.lookup_listed separates member keyListed named, named⟩
    · intro first firstListed second secondListed differ key key' found found'
      obtain ⟨one, oneListed, oneNamed⟩ := (listedIff first).mp firstListed
      obtain ⟨two, twoListed, twoNamed⟩ := (listedIff second).mp secondListed
      rw [collects.lookup_listed separates member oneListed oneNamed, Option.some_inj] at found
      rw [collects.lookup_listed separates member twoListed twoNamed, Option.some_inj] at found'
      subst found found'
      refine symmetric one oneListed two twoListed fun equal => differ ?_
      rw [equal, twoNamed] at oneNamed
      exact (Option.some.inj oneNamed).symm

/-- **Every threshold of an accepted root counts distinct keys exactly if no authorization in
force lists one key material twice.** -/
theorem thresholds_count_distinct_keys {version : Nat} {expires : String}
    {authorizations : List RoleAuthorization} {root : Root}
    (accepted : Root.new hashing version expires authorizations = .ok root)
    (separates : hashing.Separates (authorizations.flatMap RoleAuthorization.keys)) :
    (∀ name entry, root.roles.lookup name = some entry →
      entry.CountsDistinctKeys hashing root.keys) ↔
    ∀ role authorization, inForce authorizations role = some authorization →
      authorization.keys.Pairwise fun first second => ¬ first.SameMaterial second := by
  have collects := Root.new_collects accepted
  constructor
  · intro counts role authorization found
    obtain ⟨member, -⟩ := inForce_role found
    obtain ⟨entry, indexed, resolved⟩ := Root.new_resolves accepted member
    have kept := (collects.entries role.asStr entry).mpr
      ⟨role, authorization, indexed, rfl, found, resolved⟩
    exact (collects.countsDistinctKeys_iff separates member resolved).mp (counts _ entry kept)
  · intro distinct name entry kept
    obtain ⟨role, authorization, indexed, -, found, resolved⟩ :=
      (collects.entries name entry).mp kept
    exact (collects.countsDistinctKeys_iff separates (inForce_role found).1 resolved).mpr
      (distinct role authorization found)

/-! ## One key in two spellings -/

/-- A public key in lower case. -/
def lowerHex : String := "d75a980182b10ab7d54bfed3c964073a0ee172f3daa62325af021a68f707511a"

/-- The same key in upper case. -/
def upperHex : String := "D75A980182B10AB7D54BFED3C964073A0EE172F3DAA62325AF021A68F707511A"

/-- The canonical form of a key. -/
def canonicalKey (publicHex : String) : Bytes :=
  ("\x7b\"keytype\":\"ed25519\",\"keyval\":\x7b\"public\":\"" ++ publicHex ++
    "\"\x7d,\"scheme\":\"ed25519\"\x7d").toUTF8.toList

/-- SHA-256 on the canonical forms of the two keys. -/
def spellings : Hashing where
  canonical json :=
    if json = (PublicKey.ed25519 lowerHex).write then some (canonicalKey lowerHex)
    else if json = (PublicKey.ed25519 upperHex).write then some (canonicalKey upperHex)
    else none
  sha256 bytes :=
    (ArtifactDigest.fromHex
      (if bytes = canonicalKey lowerHex then
        "74c181c7ad8a0855d4b55e44d2ba87aabdddb196832571f15f92fece332e4916"
      else "c8bab25fb830e29e082a19d4453ffa6fd991a291cf79883fcc92f8bcb35abf98")).getD (.leading bytes)

theorem keyId_lower : (PublicKey.ed25519 lowerHex).keyId spellings =
    some "74c181c7ad8a0855d4b55e44d2ba87aabdddb196832571f15f92fece332e4916" := by
  decide +kernel

theorem keyId_upper : (PublicKey.ed25519 upperHex).keyId spellings =
    some "c8bab25fb830e29e082a19d4453ffa6fd991a291cf79883fcc92f8bcb35abf98" := by
  decide +kernel

/-- Both spellings for the root role, of which two must sign. -/
def twoSpellings : List RoleAuthorization :=
  [⟨.root, [PublicKey.ed25519 lowerHex, PublicKey.ed25519 upperHex], 2⟩]

/-- Their ids differ, and so the root is accepted. -/
theorem twoSpellings_accepted : ∃ root entry, Root.new spellings 1 "" twoSpellings = .ok root ∧
    root.roles.lookup "root" = some entry ∧ entry.threshold = 2 := by
  have computed : ((Root.new spellings 1 "" twoSpellings).toOption.any fun root =>
      (root.roles.lookup "root").any (·.threshold = 2)) = true := by decide +kernel
  cases made : Root.new spellings 1 "" twoSpellings with
  | error error =>
      rw [made] at computed
      cases computed
  | ok root =>
      rw [made] at computed
      have counted : (root.roles.lookup "root").any (·.threshold = 2) = true := computed
      obtain ⟨entry, looked, threshold⟩ := (Option.any_eq_true _ _).mp counted
      exact ⟨root, entry, rfl, looked, of_decide_eq_true threshold⟩

theorem twoSpellings_separated :
    spellings.Separates (twoSpellings.flatMap RoleAuthorization.keys) := by
  intro first firstListed second secondListed same
  simp only [twoSpellings, List.flatMap_cons, List.flatMap_nil, List.append_nil, List.mem_cons,
    List.not_mem_nil, or_false] at firstListed secondListed
  obtain rfl | rfl := firstListed <;> obtain rfl | rfl := secondListed
  · rfl
  · rw [keyId_lower, keyId_upper] at same
    exact absurd same (by decide)
  · rw [keyId_lower, keyId_upper] at same
    exact absurd same (by decide)
  · rfl

theorem thresholds_count_distinct_keys_spelled : ∃ root : Root,
    (∀ name entry, root.roles.lookup name = some entry →
      entry.CountsDistinctKeys spellings root.keys) ↔
    ∀ role authorization, inForce twoSpellings role = some authorization →
      authorization.keys.Pairwise fun first second => ¬ first.SameMaterial second := by
  obtain ⟨root, -, accepted, -⟩ := twoSpellings_accepted
  exact ⟨root, thresholds_count_distinct_keys accepted twoSpellings_separated⟩

/-- A root that two of two keys must sign, and both are one key in two spellings. -/
theorem two_spellings_meet_a_threshold :
    ∃ root entry, Root.new spellings 1 "" twoSpellings = .ok root ∧
      root.roles.lookup "root" = some entry ∧ entry.threshold = 2 ∧
      ¬ entry.CountsDistinctKeys spellings root.keys := by
  obtain ⟨root, entry, accepted, kept, threshold⟩ := twoSpellings_accepted
  refine ⟨root, entry, accepted, kept, threshold, fun counts => ?_⟩
  have collects := Root.new_collects accepted
  have only : [PublicKey.ed25519 lowerHex, PublicKey.ed25519 upperHex].Pairwise
      fun first second => ¬ first.SameMaterial second := by
    obtain ⟨role, authorization, indexed, -, found, resolved⟩ :=
      (collects.entries "root" entry).mp kept
    have distinct := (collects.countsDistinctKeys_iff twoSpellings_separated
      (inForce_role found).1 resolved).mp counts
    rwa [List.mem_singleton.mp (inForce_role found).1] at distinct
  revert only
  decide +kernel

end Retrovert.Tuf
