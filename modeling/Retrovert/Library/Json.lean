import Mathlib.Data.Finmap
import Mathlib.Data.Fintype.Sets

/-!
# JSON values, and reading records from them

An array is a family over its indices and an object one over the finite set of its keys.
So two objects are equal if they have the same members, whatever the order they were
written in.

A reader takes a document apart, and a writer makes one. A record that keeps the members
it does not know is read without loss exactly if each of its known members is written as
it was (`withKnown_rest`).
-/

set_option autoImplicit false

namespace Retrovert

/-- A JSON value. A number is a natural one, a negative integer (one less than the negation
of what is stored), or not an integer, and is then kept as it is spelled. -/
inductive Json where
  | null
  | bool (value : Bool)
  | natural (value : Nat)
  | negative (value : Nat)
  | float (text : String)
  | string (text : String)
  | array (length : Nat) (element : Fin length → Json)
  | object (keys : Finset String) (value : {key // key ∈ keys} → Json)

namespace Json

/-! ## Equality -/

/-- Whether two values are the same, as can be computed. -/
def same : Json → Json → Bool
  | null, null => true
  | bool first, bool second => first == second
  | natural first, natural second => first == second
  | negative first, negative second => first == second
  | float first, float second => first == second
  | string first, string second => first == second
  | array length element, array length' element' =>
      if equal : length = length' then
        decide (∀ index, (element index).same (element' (index.cast equal)) = true)
      else false
  | object keys value, object keys' value' =>
      if equal : keys = keys' then
        decide (∀ key, (value key).same (value' ⟨key.1, equal ▸ key.2⟩) = true)
      else false
  | _, _ => false

theorem same_iff {first second : Json} : first.same second = true ↔ first = second := by
  induction first generalizing second with
  | array length element ih =>
      cases second with
      | array length' element' =>
          by_cases equal : length = length'
          · subst equal
            simp only [same, dif_pos, decide_eq_true_eq, ih, array.injEq, heq_eq_eq, true_and,
              funext_iff]
            rfl
          · simp [same, equal]
      | _ => simp [same]
  | object keys value ih =>
      cases second with
      | object keys' value' =>
          by_cases equal : keys = keys'
          · subst equal
            simp only [same, dif_pos, decide_eq_true_eq, ih, object.injEq, heq_eq_eq, true_and,
              funext_iff]
          · simp [same, equal]
      | _ => simp [same]
  | _ => cases second <;> simp [same]

instance : DecidableEq Json := fun _ _ => decidable_of_iff _ same_iff

/-! ## Objects and arrays -/

/-- The members of an object. -/
abbrev Fields := Finmap fun _ : String => Json

/-- The finite map of a family over a set of keys. -/
def tabulate {α : Type*} (keys : Finset String) (value : {key // key ∈ keys} → α) :
    Finmap fun _ : String => α :=
  Finmap.keysLookupEquiv.symm
    ⟨(keys, fun key => if present : key ∈ keys then some (value ⟨key, present⟩) else none),
      fun key => by by_cases present : key ∈ keys <;> simp [present]⟩

theorem lookup_tabulate {α : Type*} (keys : Finset String) (value : {key // key ∈ keys} → α)
    (key : String) : (tabulate keys value).lookup key =
      if present : key ∈ keys then some (value ⟨key, present⟩) else none := by
  rw [tabulate, Finmap.keysLookupEquiv_symm_apply_lookup]

theorem keys_tabulate {α : Type*} (keys : Finset String) (value : {key // key ∈ keys} → α) :
    (tabulate keys value).keys = keys := by
  rw [tabulate, Finmap.keysLookupEquiv_symm_apply_keys]

/-- The value under a key that a map has. -/
def get {α : Type*} (map : Finmap fun _ : String => α) (key : {key // key ∈ map.keys}) : α :=
  (map.lookup key.1).get (Finmap.lookup_isSome.mpr (Finmap.mem_keys.mp key.2))

theorem lookup_eq_get {α : Type*} (map : Finmap fun _ : String => α)
    (key : {key // key ∈ map.keys}) : map.lookup key.1 = some (get map key) :=
  (Option.some_get _).symm

theorem tabulate_get {α : Type*} (map : Finmap fun _ : String => α) :
    tabulate map.keys (get map) = map := by
  refine Finmap.ext_lookup fun key => ?_
  rw [lookup_tabulate]
  split
  · rename_i present
    exact (lookup_eq_get map ⟨key, present⟩).symm
  · rename_i missing
    exact (Finmap.lookup_eq_none.mpr fun present => missing (Finmap.mem_keys.mpr present)).symm

theorem object_congr {keys keys' : Finset String} {value : {key // key ∈ keys} → Json}
    {value' : {key // key ∈ keys'} → Json}
    (alike : tabulate keys value = tabulate keys' value') :
    object keys value = object keys' value' := by
  have equal : keys = keys' := by
    rw [← keys_tabulate keys value, alike, keys_tabulate]
  subst equal
  congr 1
  funext key
  have looked := congrArg (Finmap.lookup key.1) alike
  rw [lookup_tabulate, lookup_tabulate, dif_pos key.2, dif_pos key.2] at looked
  exact Option.some.inj looked

/-- The members of a value, if it is an object. -/
def fields? : Json → Option Fields
  | object keys value => some (tabulate keys value)
  | _ => none

/-- The object with the given members. -/
def ofFields (fields : Fields) : Json := object fields.keys (get fields)

@[simp] theorem fields_ofFields (fields : Fields) : (ofFields fields).fields? = some fields := by
  rw [ofFields, fields?, tabulate_get]

theorem ofFields_of_fields {json : Json} {fields : Fields} (read : json.fields? = some fields) :
    ofFields fields = json := by
  cases json with
  | object keys value =>
      cases read
      refine object_congr ?_
      rw [tabulate_get]
  | _ => cases read

/-- An object is the one with the members that are given, or it is not. -/
theorem ofFields_eq_iff {json : Json} {fields fields' : Fields}
    (read : json.fields? = some fields) : ofFields fields' = json ↔ fields' = fields := by
  constructor
  · rintro rfl
    rw [fields_ofFields] at read
    exact Option.some.inj read
  · rintro rfl
    exact ofFields_of_fields read

/-- A member of a value that is an object. -/
def field? (json : Json) (key : String) : Option Json := json.fields?.bind (Finmap.lookup key)

/-- The elements of a value, if it is an array. -/
def elements? : Json → Option (List Json)
  | array _ element => some (List.ofFn element)
  | _ => none

/-- The array of the given elements. -/
def ofElements (elements : List Json) : Json := array elements.length elements.get

theorem ofElements_of_elements {json : Json} {elements : List Json}
    (read : json.elements? = some elements) : ofElements elements = json := by
  cases json with
  | array length element =>
      cases read
      have whole : ∀ {count : Nat} (equal : count = length) (element' : Fin count → Json),
          (∀ index, element' index = element (index.cast equal)) →
            array count element' = array length element := by
        rintro _ rfl element' alike
        exact congrArg _ (funext alike)
      exact whole List.length_ofFn _ fun index => List.getElem_ofFn index.2
  | _ => cases read

/-! ## Readers -/

def text? : Json → Option String
  | string text => some text
  | _ => none

def bool? : Json → Option Bool
  | bool value => some value
  | _ => none

/-- A natural number of so many bits. -/
def natural? (bits : Nat) : Json → Option Nat
  | natural value => if value < 2 ^ bits then some value else none
  | _ => none

/-- A member that may be missing, or `null`, which is read as if it were. -/
def optional {α : Type*} (read : Json → Option α) : Option Json → Option (Option α)
  | none => some none
  | some null => some none
  | some json => (read json).map some

/-- Every element of an array. -/
def list? {α : Type*} (read : Json → Option α) (json : Json) : Option (List α) :=
  json.elements?.bind (List.mapM read)

/-- Every value of an object, under its key. -/
def map? {α : Type*} (read : Json → Option α) : Json → Option (Finmap fun _ : String => α)
  | object keys value =>
      if whole : ∀ key, (read (value key)).isSome = true then
        some (tabulate keys fun key => (read (value key)).get (whole key))
      else none
  | _ => none

/-! ## Writers -/

/-- The object of a map, each value written. -/
def ofMap {α : Type*} (write : α → Json) (map : Finmap fun _ : String => α) : Json :=
  object map.keys fun key => write (get map key)

/-- The array of a list, each element written. -/
def ofList {α : Type*} (write : α → Json) (list : List α) : Json := ofElements (list.map write)

section Kept

variable {α : Type*} {read : Json → Option α} {write : α → Json} {json : Json}

theorem eq_of_text {text : String} (found : json.text? = some text) : string text = json := by
  cases json <;> cases found
  rfl

theorem eq_of_bool {value : Bool} (found : json.bool? = some value) : bool value = json := by
  cases json <;> cases found
  rfl

theorem eq_of_natural {bits value : Nat} (found : json.natural? bits = some value) :
    natural value = json := by
  cases json with
  | natural number =>
      rw [natural?, Option.ite_none_right_eq_some] at found
      exact congrArg natural (Option.some.inj found.2).symm
  | _ => cases found

/-- A member that may be missing is written as it was unless it was `null`. -/
theorem optional_kept {member : Option Json} {value : Option α}
    (found : optional read member = some value)
    (keeps : ∀ json value, read json = some value → write value = json) :
    value.map write = member ↔ member ≠ some null := by
  cases member with
  | none =>
      cases found
      exact iff_of_true rfl fun none => nomatch none
  | some json =>
      by_cases absent : json = null
      · subst absent
        cases found
        exact iff_of_false (fun none => nomatch none) fun differs => differs rfl
      · have taken : optional read (some json) = (read json).map some := by
          cases json with
          | null => exact absurd rfl absent
          | _ => rfl
        rw [taken, Option.map_eq_some_iff] at found
        obtain ⟨value, there, rfl⟩ := found
        refine iff_of_true ?_ fun same => absent (Option.some.inj same)
        rw [Option.map_some, keeps json value there]

theorem list_kept {values : List α} (found : json.list? read = some values)
    (keeps : ∀ json value, read json = some value → write value = json) :
    ofList write values = json := by
  obtain ⟨elements, taken, mapped⟩ := Option.bind_eq_some_iff.mp found
  have written : values.map write = elements := by
    clear found taken
    induction elements generalizing values with
    | nil =>
        cases mapped
        rfl
    | cons first rest ih =>
        simp only [List.mapM_cons, Option.bind_eq_bind, Option.bind_eq_some_iff] at mapped
        obtain ⟨value, there, others, behind, made⟩ := mapped
        cases made
        rw [List.map_cons, keeps first value there, ih behind]
  rw [ofList, written, ofElements_of_elements taken]

theorem map_lookup {map : Finmap fun _ : String => α} (found : json.map? read = some map)
    (key : String) : map.lookup key = (json.field? key).bind read := by
  cases json with
  | object keys value =>
      rw [map?] at found
      split at found
      · rename_i whole
        cases found
        rw [lookup_tabulate, field?, fields?, Option.bind_some, lookup_tabulate]
        split
        · rw [Option.bind_some, Option.some_get]
        · rfl
      · cases found
  | _ => cases found

/-- A map that is read has a value for every member. -/
theorem read_of_map {map : Finmap fun _ : String => α} (found : json.map? read = some map)
    {key : String} {member : Json} (there : json.field? key = some member) :
    ∃ value, read member = some value := by
  cases json with
  | object keys value =>
      rw [map?] at found
      split at found
      · rename_i whole
        rw [field?, fields?, Option.bind_some, lookup_tabulate] at there
        split at there
        · rename_i present
          cases there
          exact Option.isSome_iff_exists.mp (whole ⟨key, present⟩)
        · cases there
      · cases found
  | _ => cases found

theorem field_ofMap (map : Finmap fun _ : String => α) (key : String) :
    (ofMap write map).field? key = (map.lookup key).map write := by
  rw [ofMap, field?, fields?, Option.bind_some, lookup_tabulate]
  split
  · rename_i present
    rw [lookup_eq_get map ⟨key, present⟩, Option.map_some]
  · rename_i missing
    rw [Finmap.lookup_eq_none.mpr fun present => missing (Finmap.mem_keys.mpr present),
      Option.map_none]

/-- A map is written as it was read exactly if each of its values is. -/
theorem map_kept {map : Finmap fun _ : String => α} (found : json.map? read = some map) :
    ofMap write map = json ↔ ∀ key member value, json.field? key = some member →
      read member = some value → write value = member := by
  have looked := map_lookup found
  constructor
  · intro same key member value there taken
    have written : (ofMap write map).field? key = (map.lookup key).map write := field_ofMap map key
    rw [same, there, looked, there, Option.bind_some, taken, Option.map_some] at written
    exact (Option.some.inj written).symm
  · intro keeps
    cases json with
    | object keys value =>
        refine object_congr (Finmap.ext_lookup fun key => ?_)
        have written : (tabulate map.keys fun key => write (get map key)).lookup key =
            (map.lookup key).map write := field_ofMap map key
        rw [written, looked]
        cases there : (object keys value).field? key with
        | none => exact there.symm
        | some member =>
            obtain ⟨value, taken⟩ := read_of_map found there
            rw [Option.bind_some, taken, Option.map_some, keeps key member value there taken]
            exact there.symm
    | _ => cases found

end Kept

/-! ## Records that keep what they do not know -/

/-- The members of an object apart from the known ones. -/
def rest (known : List String) (fields : Fields) : Fields := known.foldr Finmap.erase fields

/-- Members under known names, of which some may be missing, put beside the rest. -/
def withKnown (rest : Fields) (known : List (String × Option Json)) : Fields :=
  known.foldr (fun field fields => field.2.elim fields fun value => fields.insert field.1 value) rest

theorem lookup_rest (known : List String) (fields : Fields) (key : String) :
    (rest known fields).lookup key = if key ∈ known then none else fields.lookup key := by
  induction known with
  | nil => rfl
  | cons first others ih =>
      rw [rest, List.foldr_cons]
      by_cases same : key = first
      · rw [same, Finmap.lookup_erase, if_pos List.mem_cons_self]
      · rw [Finmap.lookup_erase_ne same]
        refine ih.trans ?_
        simp only [List.mem_cons, same, false_or]

theorem lookup_withKnown_cons (others : Fields) (first : String × Option Json)
    (known : List (String × Option Json)) (key : String) :
    (withKnown others (first :: known)).lookup key =
      if key = first.1 then first.2.or ((withKnown others known).lookup key)
      else (withKnown others known).lookup key := by
  obtain ⟨name, member⟩ := first
  rw [withKnown, List.foldr_cons, ← withKnown]
  cases member with
  | none => simp
  | some member =>
      rw [Option.elim_some, Option.some_or]
      split
      · rename_i same
        rw [same, Finmap.lookup_insert]
      · rename_i differs
        rw [Finmap.lookup_insert_of_ne _ differs]

/-- Each known name has the member that is put under it, and the others are the rest. -/
theorem lookup_withKnown {known : List (String × Option Json)}
    (distinct : (known.map Prod.fst).Nodup) {others : Fields}
    (apart : ∀ key ∈ known.map Prod.fst, others.lookup key = none) :
    (∀ field ∈ known, (withKnown others known).lookup field.1 = field.2) ∧
      ∀ key ∉ known.map Prod.fst, (withKnown others known).lookup key = others.lookup key := by
  induction known with
  | nil => exact ⟨(fun _ member => nomatch member), fun _ _ => rfl⟩
  | cons first known ih =>
      rw [List.map_cons, List.nodup_cons] at distinct
      obtain ⟨named, left⟩ := ih distinct.2 fun key member =>
        apart key (List.mem_cons_of_mem _ member)
      refine ⟨fun field member => ?_, fun key missing => ?_⟩
      · rw [lookup_withKnown_cons]
        rcases List.mem_cons.mp member with rfl | later
        · rw [if_pos rfl, left _ distinct.1, apart _ List.mem_cons_self, Option.or_none]
        · have differs : field.1 ≠ first.1 := fun same =>
            distinct.1 (same ▸ List.mem_map_of_mem later)
          rw [if_neg differs, named field later]
      · rw [List.map_cons, List.mem_cons, not_or] at missing
        rw [lookup_withKnown_cons, if_neg missing.1, left key missing.2]

/-- **A record is written as it was read** exactly if its known members are. -/
theorem withKnown_rest {known : List (String × Option Json)}
    (distinct : (known.map Prod.fst).Nodup) (fields : Fields) :
    withKnown (rest (known.map Prod.fst) fields) known = fields ↔
      ∀ field ∈ known, field.2 = fields.lookup field.1 := by
  have apart : ∀ key ∈ known.map Prod.fst,
      (rest (known.map Prod.fst) fields).lookup key = none := fun key member => by
    rw [lookup_rest, if_pos member]
  obtain ⟨named, left⟩ := lookup_withKnown distinct apart
  constructor
  · intro same field member
    rw [← named field member, same]
  · intro kept
    refine Finmap.ext_lookup fun key => ?_
    by_cases listed : key ∈ known.map Prod.fst
    · obtain ⟨field, member, rfl⟩ := List.mem_map.mp listed
      rw [named field member, kept field member]
    · rw [left key listed, lookup_rest, if_neg listed]

/-! ## Values whose numbers are integers -/

/-- Whether every number in a value is an integer. -/
def integral : Json → Bool
  | float _ => false
  | array _ element => decide (∀ index, integral (element index) = true)
  | object _ value => decide (∀ key, integral (value key) = true)
  | _ => true

@[simp] theorem integral_string (text : String) : integral (string text) = true := rfl

@[simp] theorem integral_natural (value : Nat) : integral (natural value) = true := rfl

@[simp] theorem integral_bool (value : Bool) : integral (bool value) = true := rfl

theorem integral_ofMap {α : Type*} {write : α → Json} {map : Finmap fun _ : String => α} :
    integral (ofMap write map) = true ↔
      ∀ key value, map.lookup key = some value → integral (write value) = true := by
  rw [ofMap, integral, decide_eq_true_iff]
  constructor
  · intro whole key value there
    have present := Finmap.mem_keys.mpr (Finmap.mem_of_lookup_eq_some there)
    have found := (lookup_eq_get map ⟨key, present⟩).symm.trans there
    rw [← Option.some.inj found]
    exact whole ⟨key, present⟩
  · intro each key
    exact each key.1 _ (lookup_eq_get map key)

theorem integral_ofFields {fields : Fields} :
    integral (ofFields fields) = true ↔
      ∀ key member, fields.lookup key = some member → integral member = true :=
  @integral_ofMap _ id fields

theorem integral_ofList {α : Type*} {write : α → Json} {list : List α}
    (each : ∀ value ∈ list, integral (write value) = true) :
    integral (ofList write list) = true := by
  rw [ofList, ofElements, integral, decide_eq_true_iff]
  intro index
  obtain ⟨value, member, same⟩ := List.mem_map.mp (List.get_mem (list.map write) index)
  rw [← same]
  exact each value member

/-- Known members and others make an object of integers if they all are of integers. -/
theorem integral_withKnown {others : Fields} {known : List (String × Option Json)}
    (rest : ∀ key member, others.lookup key = some member → integral member = true)
    (named : ∀ field ∈ known, ∀ member, field.2 = some member → integral member = true) :
    integral (ofFields (withKnown others known)) = true := by
  rw [integral_ofFields]
  induction known with
  | nil => exact rest
  | cons first known ih =>
      have later := ih fun field member => named field (List.mem_cons_of_mem _ member)
      intro key member there
      rw [lookup_withKnown_cons] at there
      split at there
      · obtain here | ⟨-, here⟩ := Option.or_eq_some_iff.mp there
        · exact named first List.mem_cons_self member here
        · exact later key member here
      · exact later key member there

end Json

end Retrovert
