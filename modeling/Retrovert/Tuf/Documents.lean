import Retrovert.Tuf.Metadata

/-!
# Metadata as JSON documents

Each type is read from an object by its known members, and keeps the others. A document is
written as it was read, unless it leaves out what a reader fills in: a root that does not say
whether its snapshots are consistent is written as one that says no, and a pin whose length or
hashes are `null` is written without them (`metadata_is_kept`).
-/

set_option autoImplicit false

namespace Retrovert.Tuf

/-! ## Known and unknown members -/

/-- The members of an object apart from the known ones. -/
def Extra.of (known : List String) (fields : Json.Fields) : Extra known where
  fields := Json.rest known fields
  apart key member := by
    rw [← Finmap.lookup_eq_none, Json.lookup_rest, if_pos member]

/-- The object of known members, in order, and unknown ones. -/
def Extra.write {known : List String} (extra : Extra known) (members : List (Option Json)) : Json :=
  .ofFields (Json.withKnown extra.fields (known.zip members))

theorem forall_mem_zip {α β : Type*} {f : α → β} {names : List α} {values : List β}
    (whole : values.length = names.length) :
    (∀ pair ∈ names.zip values, pair.2 = f pair.1) ↔ values = names.map f := by
  induction names generalizing values with
  | nil =>
      rw [List.length_eq_zero_iff.mp whole]
      exact iff_of_true (fun _ member => nomatch member) rfl
  | cons name names ih =>
      cases values with
      | nil => cases whole
      | cons value values =>
          rw [List.zip_cons_cons, List.forall_mem_cons, ih (Nat.succ.inj whole), List.map_cons,
            List.cons.injEq]

/-- A record is written as it was read if its known members are. -/
theorem Extra.write_of {known : List String} (distinct : known.Nodup) {json : Json}
    {fields : Json.Fields} (taken : json.fields? = some fields) {members : List (Option Json)}
    (whole : members.length = known.length) :
    (Extra.of known fields).write members = json ↔ members = known.map (Finmap.lookup · fields) := by
  have names : (known.zip members).map Prod.fst = known :=
    List.map_fst_zip (Nat.le_of_eq whole.symm)
  have kept := Json.withKnown_rest (names.symm ▸ distinct) fields
  rw [names] at kept
  rw [Extra.write, Json.ofFields_eq_iff taken, Extra.of, kept]
  exact forall_mem_zip (f := (Finmap.lookup · fields)) whole

/-- A member that a reader asks for. -/
def required {α : Type} (read : Json → Option α) (fields : Json.Fields) (key : String) : Option α :=
  (fields.lookup key).bind read

theorem required_kept {α : Type} {read : Json → Option α} {write : α → Json}
    {fields : Json.Fields} {key : String} {value : α} (found : required read fields key = some value)
    (keeps : ∀ json value, read json = some value → write value = json) :
    some (write value) = fields.lookup key := by
  obtain ⟨member, there, taken⟩ := Option.bind_eq_some_iff.mp found
  rw [keeps member value taken, there]

theorem text_kept {fields : Json.Fields} {key text : String}
    (found : required Json.text? fields key = some text) :
    some (.string text) = fields.lookup key :=
  required_kept found fun _ _ => Json.eq_of_text

theorem natural_kept {fields : Json.Fields} {key : String} {bits value : Nat}
    (found : required (Json.natural? bits) fields key = some value) :
    some (.natural value) = fields.lookup key :=
  required_kept found fun _ _ => Json.eq_of_natural

/-! ## Envelopes -/

namespace Signature

def read (json : Json) : Option Signature := do
  let fields ← json.fields?
  let keyid ← required Json.text? fields "keyid"
  let sig ← required Json.text? fields "sig"
  return { keyid, sig, extra := .of _ fields }

def write (signature : Signature) : Json :=
  signature.extra.write [some (.string signature.keyid), some (.string signature.sig)]

theorem write_read (json : Json) (signature : Signature) (found : read json = some signature) :
    signature.write = json := by
  simp only [read, Option.bind_eq_bind, Option.bind_eq_some_iff] at found
  obtain ⟨fields, taken, keyid, key, sig, signed, made⟩ := found
  cases made
  refine (Extra.write_of (by decide) taken rfl).mpr ?_
  simp only [List.map_cons, List.map_nil, ← text_kept key, ← text_kept signed]

end Signature

namespace Signed

variable {α : Type}

def read (readPayload : Json → Option α) (json : Json) : Option (Signed α) := do
  let fields ← json.fields?
  let signatures ← required (Json.list? Signature.read) fields "signatures"
  let signed ← required readPayload fields "signed"
  return { signatures, signed, extra := .of _ fields }

def write (writePayload : α → Json) (envelope : Signed α) : Json :=
  envelope.extra.write
    [some (Json.ofList Signature.write envelope.signatures), some (writePayload envelope.signed)]

/-- An envelope is written as it was read if its payload is. -/
theorem write_read {readPayload : Json → Option α} {writePayload : α → Json} {json : Json}
    {envelope : Signed α} (found : read readPayload json = some envelope) :
    ∃ payload, json.field? "signed" = some payload ∧ readPayload payload = some envelope.signed ∧
      (envelope.write writePayload = json ↔ writePayload envelope.signed = payload) := by
  simp only [read, Option.bind_eq_bind, Option.bind_eq_some_iff] at found
  obtain ⟨fields, taken, signatures, listed, signed, found, made⟩ := found
  cases made
  obtain ⟨payload, there, found⟩ := Option.bind_eq_some_iff.mp found
  have kept := required_kept listed fun _ _ found =>
    Json.list_kept found Signature.write_read
  refine ⟨payload, ?_, found, ?_⟩
  · rw [Json.field?, taken, Option.bind_some, there]
  · rw [write, Extra.write_of (by decide) taken rfl]
    simp only [List.map_cons, List.map_nil, ← kept, there, List.cons.injEq, Option.some.injEq,
      true_and, and_true]

end Signed

/-! ## Keys -/

namespace KeyVal

def read (json : Json) : Option KeyVal := do
  let fields ← json.fields?
  let publicHex ← required Json.text? fields "public"
  return { publicHex, extra := .of _ fields }

def write (keyval : KeyVal) : Json := keyval.extra.write [some (.string keyval.publicHex)]

theorem write_read (json : Json) (keyval : KeyVal) (found : read json = some keyval) :
    keyval.write = json := by
  simp only [read, Option.bind_eq_bind, Option.bind_eq_some_iff] at found
  obtain ⟨fields, taken, publicHex, hex, made⟩ := found
  cases made
  refine (Extra.write_of (by decide) taken rfl).mpr ?_
  simp only [List.map_cons, List.map_nil, ← text_kept hex]

end KeyVal

namespace PublicKey

def read (json : Json) : Option PublicKey := do
  let fields ← json.fields?
  let keytype ← required Json.text? fields "keytype"
  let scheme ← required Json.text? fields "scheme"
  let keyval ← required KeyVal.read fields "keyval"
  return { keytype, scheme, keyval, extra := .of _ fields }

def write (key : PublicKey) : Json :=
  key.extra.write [some (.string key.keytype), some (.string key.scheme), some key.keyval.write]

theorem write_read (json : Json) (key : PublicKey) (found : read json = some key) :
    key.write = json := by
  simp only [read, Option.bind_eq_bind, Option.bind_eq_some_iff] at found
  obtain ⟨fields, taken, keytype, kind, scheme, how, keyval, inner, made⟩ := found
  cases made
  refine (Extra.write_of (by decide) taken rfl).mpr ?_
  simp only [List.map_cons, List.map_nil, ← text_kept kind, ← text_kept how,
    ← required_kept inner KeyVal.write_read]

end PublicKey

namespace RoleKeys

def read (json : Json) : Option RoleKeys := do
  let fields ← json.fields?
  let keyids ← required (Json.list? Json.text?) fields "keyids"
  let threshold ← required (Json.natural? 32) fields "threshold"
  return { keyids, threshold, extra := .of _ fields }

def write (role : RoleKeys) : Json :=
  role.extra.write [some (Json.ofList Json.string role.keyids), some (.natural role.threshold)]

theorem write_read (json : Json) (role : RoleKeys) (found : read json = some role) :
    role.write = json := by
  simp only [read, Option.bind_eq_bind, Option.bind_eq_some_iff] at found
  obtain ⟨fields, taken, keyids, ids, threshold, bar, made⟩ := found
  cases made
  refine (Extra.write_of (by decide) taken rfl).mpr ?_
  simp only [List.map_cons, List.map_nil, ← natural_kept bar,
    ← required_kept ids fun _ _ found => Json.list_kept found fun _ _ => Json.eq_of_text]

end RoleKeys

/-! ## The root -/

namespace Root

def read (json : Json) : Option Root := do
  let fields ← json.fields?
  let type ← required Json.text? fields "_type"
  let specVersion ← required Json.text? fields "spec_version"
  let version ← required (Json.natural? 64) fields "version"
  let expires ← required Json.text? fields "expires"
  -- Optional in the specification; absent means `false`.
  let consistentSnapshot ← ((fields.lookup "consistent_snapshot").elim (some false) Json.bool?)
  let keys ← required (Json.map? PublicKey.read) fields "keys"
  let roles ← required (Json.map? RoleKeys.read) fields "roles"
  return { type, specVersion, version, expires, consistentSnapshot, keys, roles
           extra := .of _ fields }

def write (root : Root) : Json :=
  root.extra.write
    [some (.string root.type), some (.string root.specVersion), some (.natural root.version),
      some (.string root.expires), some (.bool root.consistentSnapshot),
      some (Json.ofMap PublicKey.write root.keys), some (Json.ofMap RoleKeys.write root.roles)]

/-- A root is written as it was read exactly if it says whether its snapshots are
consistent. -/
theorem write_read {json : Json} {root : Root} (found : read json = some root) :
    root.write = json ↔ json.field? "consistent_snapshot" ≠ none := by
  simp only [read, Option.bind_eq_bind, Option.bind_eq_some_iff] at found
  obtain ⟨fields, taken, type, kind, specVersion, spec, version, number, expires, date,
    consistentSnapshot, consistent, keys, listed, roles, named, made⟩ := found
  cases made
  have keys_kept := required_kept listed fun _ _ found =>
    (Json.map_kept found).mpr fun _ member value _ => PublicKey.write_read member value
  have roles_kept := required_kept named fun _ _ found =>
    (Json.map_kept found).mpr fun _ member value _ => RoleKeys.write_read member value
  have said : some (Json.bool consistentSnapshot) = fields.lookup "consistent_snapshot" ↔
      json.field? "consistent_snapshot" ≠ none := by
    rw [Json.field?, taken, Option.bind_some]
    cases there : fields.lookup "consistent_snapshot" with
    | none => exact iff_of_false (fun same => by cases same) fun differs => differs rfl
    | some member =>
        rw [there, Option.elim_some] at consistent
        exact iff_of_true (congrArg some (Json.eq_of_bool consistent)) fun none => by cases none
  rw [write, Extra.write_of (by decide) taken rfl, ← said]
  simp only [List.map_cons, List.map_nil, ← text_kept kind, ← text_kept spec, ← natural_kept number,
    ← text_kept date, ← keys_kept, ← roles_kept, List.cons.injEq, true_and, and_true]

end Root

/-! ## The online roles -/

/-- The hashes of a file, the algorithm to the hex digest. -/
def readHashes : Json → Option Hashes := Json.map? Json.text?

def writeHashes : Hashes → Json := Json.ofMap Json.string

theorem writeHashes_read (json : Json) (hashes : Hashes) (found : readHashes json = some hashes) :
    writeHashes hashes = json :=
  (Json.map_kept found).mpr fun _ _ _ _ => Json.eq_of_text

namespace MetaFile

def read (json : Json) : Option MetaFile := do
  let fields ← json.fields?
  let version ← required (Json.natural? 64) fields "version"
  let length ← Json.optional (Json.natural? 64) (fields.lookup "length")
  let hashes ← Json.optional readHashes (fields.lookup "hashes")
  return { version, length, hashes, extra := .of _ fields }

def write (pin : MetaFile) : Json :=
  pin.extra.write
    [some (.natural pin.version), pin.length.map .natural, pin.hashes.map writeHashes]

/-- A pin is written as it was read exactly if neither its length nor its hashes are
`null`. -/
theorem write_read {json : Json} {pin : MetaFile} (found : read json = some pin) :
    pin.write = json ↔
      json.field? "length" ≠ some .null ∧ json.field? "hashes" ≠ some .null := by
  simp only [read, Option.bind_eq_bind, Option.bind_eq_some_iff] at found
  obtain ⟨fields, taken, version, number, length, long, hashes, hashed, made⟩ := found
  cases made
  have length_kept : length.map Json.natural = fields.lookup "length" ↔ _ :=
    Json.optional_kept long fun _ _ => Json.eq_of_natural
  rw [write, Extra.write_of (by decide) taken rfl, Json.field?, Json.field?, taken,
    Option.bind_some, Option.bind_some, ← length_kept,
    ← Json.optional_kept hashed writeHashes_read]
  simp only [List.map_cons, List.map_nil, ← natural_kept number, List.cons.injEq, true_and,
    and_true]

end MetaFile

namespace TargetFile

def read (json : Json) : Option TargetFile := do
  let fields ← json.fields?
  let length ← required (Json.natural? 64) fields "length"
  let hashes ← required readHashes fields "hashes"
  return { length, hashes, extra := .of _ fields }

def write (file : TargetFile) : Json :=
  file.extra.write [some (.natural file.length), some (writeHashes file.hashes)]

theorem write_read (json : Json) (file : TargetFile) (found : read json = some file) :
    file.write = json := by
  simp only [read, Option.bind_eq_bind, Option.bind_eq_some_iff] at found
  obtain ⟨fields, taken, length, long, hashes, hashed, made⟩ := found
  cases made
  refine (Extra.write_of (by decide) taken rfl).mpr ?_
  simp only [List.map_cons, List.map_nil, ← natural_kept long,
    ← required_kept hashed writeHashes_read]

end TargetFile

namespace Targets

def read (json : Json) : Option Targets := do
  let fields ← json.fields?
  let type ← required Json.text? fields "_type"
  let specVersion ← required Json.text? fields "spec_version"
  let version ← required (Json.natural? 64) fields "version"
  let expires ← required Json.text? fields "expires"
  let targets ← required (Json.map? TargetFile.read) fields "targets"
  return { type, specVersion, version, expires, targets, extra := .of _ fields }

def write (targets : Targets) : Json :=
  targets.extra.write
    [some (.string targets.type), some (.string targets.specVersion),
      some (.natural targets.version), some (.string targets.expires),
      some (Json.ofMap TargetFile.write targets.targets)]

theorem write_read {json : Json} {targets : Targets} (found : read json = some targets) :
    targets.write = json := by
  simp only [read, Option.bind_eq_bind, Option.bind_eq_some_iff] at found
  obtain ⟨fields, taken, type, kind, specVersion, spec, version, number, expires, date, targets,
    listed, made⟩ := found
  cases made
  have kept := required_kept listed fun _ _ found =>
    (Json.map_kept found).mpr fun _ member value _ => TargetFile.write_read member value
  refine (Extra.write_of (by decide) taken rfl).mpr ?_
  simp only [List.map_cons, List.map_nil, ← text_kept kind, ← text_kept spec, ← natural_kept number,
    ← text_kept date, ← kept]

end Targets

/-- Every pin of a document says what it says of its length and its hashes with a value. -/
def PinsSaid (json : Json) : Prop :=
  ∀ pins name pin, json.field? "meta" = some pins → pins.field? name = some pin →
    pin.field? "length" ≠ some .null ∧ pin.field? "hashes" ≠ some .null

/-- Pins are written as they were read exactly if each of them is. -/
theorem pins_kept {json : Json} {fields : Json.Fields} (taken : json.fields? = some fields)
    {pins : Finmap fun _ : String => MetaFile}
    (found : required (Json.map? MetaFile.read) fields "meta" = some pins) :
    some (Json.ofMap MetaFile.write pins) = fields.lookup "meta" ↔ PinsSaid json := by
  obtain ⟨member, there, read⟩ := Option.bind_eq_some_iff.mp found
  have here : json.field? "meta" = some member := by
    rw [Json.field?, taken, Option.bind_some, there]
  rw [there, Option.some.injEq, Json.map_kept read]
  constructor
  · intro kept pins name pin listed named
    rw [here] at listed
    cases listed
    obtain ⟨value, taken⟩ := Json.read_of_map read named
    exact (MetaFile.write_read taken).mp (kept name pin value named taken)
  · intro said name pin value named taken
    exact (MetaFile.write_read taken).mpr (said member name pin here named)

/-- The members of a role that pins metadata files. -/
abbrev pinning : List String := ["_type", "spec_version", "version", "expires", "meta"]

/-- Snapshot and timestamp have the same members. -/
def readPinning {α : Type}
    (make : String → String → Nat → String → (Finmap fun _ : String => MetaFile) →
      Extra pinning → α) (json : Json) : Option α := do
  let fields ← json.fields?
  let type ← required Json.text? fields "_type"
  let specVersion ← required Json.text? fields "spec_version"
  let version ← required (Json.natural? 64) fields "version"
  let expires ← required Json.text? fields "expires"
  let pins ← required (Json.map? MetaFile.read) fields "meta"
  return make type specVersion version expires pins (.of _ fields)

def writePinning (type specVersion : String) (version : Nat) (expires : String)
    (pins : Finmap fun _ : String => MetaFile) (extra : Extra pinning) : Json :=
  extra.write
    [some (.string type), some (.string specVersion), some (.natural version),
      some (.string expires), some (Json.ofMap MetaFile.write pins)]

theorem pinning_kept {α : Type}
    {make : String → String → Nat → String → (Finmap fun _ : String => MetaFile) →
      Extra pinning → α} {json : Json} {value : α} (found : readPinning make json = some value) :
    ∃ type specVersion version expires pins extra,
      value = make type specVersion version expires pins extra ∧
        (writePinning type specVersion version expires pins extra = json ↔ PinsSaid json) := by
  simp only [readPinning, Option.bind_eq_bind, Option.bind_eq_some_iff] at found
  obtain ⟨fields, taken, type, kind, specVersion, spec, version, number, expires, date, pins,
    listed, made⟩ := found
  cases made
  refine ⟨type, specVersion, version, expires, pins, _, rfl, ?_⟩
  rw [writePinning, Extra.write_of (by decide) taken rfl, ← pins_kept taken listed]
  simp only [pinning, List.map_cons, List.map_nil, ← text_kept kind, ← text_kept spec,
    ← natural_kept number, ← text_kept date, List.cons.injEq, true_and, and_true]

namespace Snapshot

def read : Json → Option Snapshot := readPinning Snapshot.mk

def write (snapshot : Snapshot) : Json :=
  writePinning snapshot.type snapshot.specVersion snapshot.version snapshot.expires snapshot.pins
    snapshot.extra

theorem write_read {json : Json} {snapshot : Snapshot} (found : read json = some snapshot) :
    snapshot.write = json ↔ PinsSaid json := by
  obtain ⟨_, _, _, _, _, _, rfl, kept⟩ := pinning_kept found
  exact kept

end Snapshot

namespace Timestamp

def read : Json → Option Timestamp := readPinning Timestamp.mk

def write (timestamp : Timestamp) : Json :=
  writePinning timestamp.type timestamp.specVersion timestamp.version timestamp.expires
    timestamp.pins timestamp.extra

theorem write_read {json : Json} {timestamp : Timestamp} (found : read json = some timestamp) :
    timestamp.write = json ↔ PinsSaid json := by
  obtain ⟨_, _, _, _, _, _, rfl, kept⟩ := pinning_kept found
  exact kept

end Timestamp

/-! ## All four roles -/

/-- The payload of a role. -/
inductive Payload where
  | root (root : Root)
  | targets (targets : Targets)
  | snapshot (snapshot : Snapshot)
  | timestamp (timestamp : Timestamp)

def Payload.read (role : RoleName) (json : Json) : Option Payload :=
  match role with
  | .root => (Root.read json).map .root
  | .targets => (Targets.read json).map .targets
  | .snapshot => (Snapshot.read json).map .snapshot
  | .timestamp => (Timestamp.read json).map .timestamp

def Payload.write : Payload → Json
  | .root value => value.write
  | .targets value => value.write
  | .snapshot value => value.write
  | .timestamp value => value.write

/-- A document says what its reader would fill in, or take for missing. -/
def Said (role : RoleName) (json : Json) : Prop :=
  match role with
  | .root => json.field? "consistent_snapshot" ≠ none
  | .targets => True
  | .snapshot | .timestamp => PinsSaid json

theorem Payload.write_read {role : RoleName} {json : Json} {payload : Payload}
    (found : read role json = some payload) : payload.write = json ↔ Said role json := by
  cases role with
  | root =>
      obtain ⟨value, taken, rfl⟩ := Option.map_eq_some_iff.mp found
      exact Root.write_read taken
  | targets =>
      obtain ⟨value, taken, rfl⟩ := Option.map_eq_some_iff.mp found
      exact iff_of_true (Targets.write_read taken) trivial
  | snapshot =>
      obtain ⟨value, taken, rfl⟩ := Option.map_eq_some_iff.mp found
      exact Snapshot.write_read taken
  | timestamp =>
      obtain ⟨value, taken, rfl⟩ := Option.map_eq_some_iff.mp found
      exact Timestamp.write_read taken

/-- A document that is written again is the one that was read, and so is what is signed of
it. -/
def Lossless (canonical : Json → Option Bytes) (json written : Json) : Prop :=
  written = json ∧ canonical written = canonical json

theorem lossless_iff {canonical : Json → Option Bytes} {json written : Json} :
    Lossless canonical json written ↔ written = json :=
  ⟨And.left, fun same => ⟨same, congrArg canonical same⟩⟩

/-- **Metadata is read without loss exactly if it says what its reader would fill in**, by
itself and in its envelope. -/
theorem metadata_is_kept (canonical : Json → Option Bytes) (role : RoleName) (json : Json) :
    (∀ payload, Payload.read role json = some payload →
      (Lossless canonical json payload.write ↔ Said role json)) ∧
    ∀ envelope, Signed.read (Payload.read role) json = some envelope →
      (Lossless canonical json (envelope.write Payload.write) ↔
        ∀ signed, json.field? "signed" = some signed → Said role signed) := by
  refine ⟨fun payload found => lossless_iff.trans (Payload.write_read found),
    fun envelope found => lossless_iff.trans ?_⟩
  obtain ⟨payload, there, taken, kept⟩ := Signed.write_read found
  rw [kept, Payload.write_read taken, there]
  exact ⟨fun said signed same => by cases same; exact said, fun said => said payload rfl⟩

/-! ## Two documents that are not kept -/

/-- An object, its members listed. -/
def document (members : List (String × Json)) : Json :=
  .ofFields (members.map fun member => (⟨member.1, member.2⟩ : Sigma fun _ => Json)).toFinmap

/-- A root of no keys that may or may not say whether its snapshots are consistent. -/
def rootDocument (said : List (String × Json)) : Json :=
  document (said ++ [("_type", .string "root"), ("spec_version", .string specVersion),
    ("version", .natural 1), ("expires", .string "2036-08-15T12:00:00Z"),
    ("keys", document []), ("roles", document [])])

/-- A timestamp whose pin has the given members beside its version. -/
def timestampDocument (members : List (String × Json)) : Json :=
  document [("_type", .string "timestamp"), ("spec_version", .string specVersion),
    ("version", .natural 1), ("expires", .string "2026-11-13T12:00:00Z"),
    ("meta", document [("snapshot.json", document (("version", .natural 1) :: members))])]

theorem metadata_is_kept_said : ∃ json payload, Payload.read .root json = some payload ∧
    (Lossless (fun _ => none) json payload.write ↔ Said .root json) := by
  have readable : (Payload.read .root
      (rootDocument [("consistent_snapshot", .bool true)])).isSome = true := by decide +kernel
  obtain ⟨payload, read⟩ := Option.isSome_iff_exists.mp readable
  exact ⟨_, payload, read, (metadata_is_kept (fun _ => none) .root _).1 payload read⟩

/-- A root that does not say whether its snapshots are consistent is written as one that says
no, and a pin whose length is `null` is written without it. -/
theorem unsaid_members_are_lost :
    (∃ payload, Payload.read .root (rootDocument []) = some payload ∧
      payload.write = rootDocument [("consistent_snapshot", .bool false)] ∧
      payload.write ≠ rootDocument []) ∧
    ∃ payload, Payload.read .timestamp (timestampDocument [("length", .null)]) = some payload ∧
      payload.write = timestampDocument [] ∧
      payload.write ≠ timestampDocument [("length", .null)] := by
  have root : ((Payload.read .root (rootDocument [])).any fun payload =>
      payload.write = rootDocument [("consistent_snapshot", .bool false)]) = true := by
    decide +kernel
  have timestamp : ((Payload.read .timestamp (timestampDocument [("length", .null)])).any
      fun payload => payload.write = timestampDocument []) = true := by decide +kernel
  obtain ⟨payload, read, written⟩ := (Option.any_eq_true _ _).mp root
  obtain ⟨payload', read', written'⟩ := (Option.any_eq_true _ _).mp timestamp
  rw [decide_eq_true_eq] at written written'
  refine ⟨⟨payload, read, written, ?_⟩, payload', read', written', ?_⟩
  · rw [written]
    decide +kernel
  · rw [written']
    decide +kernel

end Retrovert.Tuf
