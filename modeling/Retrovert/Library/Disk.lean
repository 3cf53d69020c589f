import Mathlib.Logic.Function.Basic

/-!
# Files under names, and open handles on them

A disk maps names to files and files to their contents. A handle is the file
itself, so it outlives its name: removing a name leaves the bytes to whoever
still has the file open, and a later file of that name is a different file.

The two fields of well-formedness say that no name refers to a file yet to be
created and that no file has two names (there are no hard links).
-/

set_option autoImplicit false

namespace Retrovert

/-- File contents. -/
abbrev Bytes := List UInt8

/-- A directory of files. A file is a number, its handle. -/
structure Disk (κ : Type*) where
  names : κ → Option Nat
  contents : Nat → Bytes
  next : Nat
  created : ∀ name file, names name = some file → file < next
  apart : ∀ name other file, names name = some file → names other = some file → name = other

namespace Disk

variable {κ : Type*}

/-- A directory that holds nothing. -/
def empty : Disk κ where
  names _ := none
  contents _ := []
  next := 0
  created _ _ found := nomatch found
  apart _ _ _ found := nomatch found

/-- What a name reads as. -/
def read (disk : Disk κ) (name : κ) : Option Bytes :=
  (disk.names name).map disk.contents

/-- Give a file new contents, through a handle. -/
def store (disk : Disk κ) (file : Nat) (bytes : Bytes) : Disk κ :=
  { disk with contents := Function.update disk.contents file bytes }

/-- Write at the end of a file, through a handle opened for appending. -/
def append (disk : Disk κ) (file : Nat) (bytes : Bytes) : Disk κ :=
  disk.store file (disk.contents file ++ bytes)

/-- What a file holds once `bytes` are written at `offset`. -/
def overwritten (old : Bytes) (offset : Nat) (bytes : Bytes) : Bytes :=
  (old ++ List.replicate (offset - old.length) 0).take offset ++ bytes ++
    old.drop (offset + bytes.length)

/-- Write at an offset of a file, through a handle that keeps its position. -/
def writeAt (disk : Disk κ) (file offset : Nat) (bytes : Bytes) : Disk κ :=
  disk.store file (overwritten (disk.contents file) offset bytes)

/-! ## What reads see of a write through a handle -/

@[simp] theorem read_empty (name : κ) : (empty : Disk κ).read name = none := rfl

@[simp] theorem names_store (disk : Disk κ) (file : Nat) (bytes : Bytes) :
    (disk.store file bytes).names = disk.names := rfl

@[simp] theorem contents_store (disk : Disk κ) (file : Nat) (bytes : Bytes) :
    (disk.store file bytes).contents file = bytes := by
  simp [store]

theorem read_eq {disk : Disk κ} {name : κ} {file : Nat} (found : disk.names name = some file) :
    disk.read name = some (disk.contents file) := by
  simp [read, found]

/-- Writing to the file of a name is what the name then reads as. -/
theorem read_store {disk : Disk κ} {name : κ} {file : Nat} (found : disk.names name = some file)
    (bytes : Bytes) : (disk.store file bytes).read name = some bytes := by
  simp [read, found]

/-- Writing to a file is not seen under a name that is not its own. -/
theorem read_store_of_ne {disk : Disk κ} {name : κ} {file : Nat}
    (other : disk.names name ≠ some file) (bytes : Bytes) :
    (disk.store file bytes).read name = disk.read name := by
  unfold read
  cases found : disk.names name with
  | none => simp [found]
  | some own =>
      have different : own ≠ file := fun same => other (by rw [found, same])
      simp [found, store, Function.update_of_ne different]

/-- Another name never has the same file. -/
theorem names_ne {disk : Disk κ} {name other : κ} {file : Nat}
    (found : disk.names name = some file) (different : other ≠ name) :
    disk.names other ≠ some file :=
  fun again => different (disk.apart other name file again found)

/-- A name refers to the same file on both disks, and reads the same. -/
structure SameAt (name : κ) (before after : Disk κ) : Prop where
  names : after.names name = before.names name
  read : after.read name = before.read name

theorem SameAt.refl (name : κ) (disk : Disk κ) : SameAt name disk disk := ⟨rfl, rfl⟩

theorem SameAt.trans {name : κ} {first second third : Disk κ} (earlier : SameAt name first second)
    (later : SameAt name second third) : SameAt name first third :=
  ⟨later.names.trans earlier.names, later.read.trans earlier.read⟩

theorem SameAt.store {disk : Disk κ} {name other : κ} {file : Nat}
    (found : disk.names name = some file) (different : other ≠ name) (bytes : Bytes) :
    SameAt other disk (disk.store file bytes) :=
  ⟨rfl, read_store_of_ne (names_ne found different) bytes⟩

/-! ## Operations on names -/

variable [DecidableEq κ]

/-- Remove a name. The file stays for those who have it open. -/
def remove (disk : Disk κ) (name : κ) : Disk κ where
  names := Function.update disk.names name none
  contents := disk.contents
  next := disk.next
  created other file found := by
    by_cases same : other = name
    · simp [same] at found
    · exact disk.created other file (by simpa [same] using found)
  apart other third file found again := by
    by_cases same : other = name
    · simp [same] at found
    · by_cases same' : third = name
      · simp [same'] at again
      · exact disk.apart other third file (by simpa [same] using found)
          (by simpa [same'] using again)

/-- Give a name a file of its own, that was not there before. -/
def link (disk : Disk κ) (name : κ) (bytes : Bytes) : Disk κ where
  names := Function.update disk.names name (some disk.next)
  contents := Function.update disk.contents disk.next bytes
  next := disk.next + 1
  created other file found := by
    by_cases same : other = name
    · simp only [same, Function.update_self, Option.some.injEq] at found
      omega
    · have := disk.created other file (by simpa [same] using found)
      omega
  apart other third file found again := by
    by_cases same : other = name <;> by_cases same' : third = name
    · exact same.trans same'.symm
    · subst same
      simp only [Function.update_self, Option.some.injEq] at found
      have := disk.created third file (by simpa [same'] using again)
      omega
    · subst same'
      simp only [Function.update_self, Option.some.injEq] at again
      have := disk.created other file (by simpa [same] using found)
      omega
    · exact disk.apart other third file (by simpa [same] using found)
        (by simpa [same'] using again)

/-- Open a name for writing from scratch: an existing file is cut to nothing, a
missing one is created. Returns the handle. -/
def create (disk : Disk κ) (name : κ) : Disk κ × Nat :=
  match disk.names name with
  | some file => (disk.store file [], file)
  | none => (disk.link name [], disk.next)

/-- Write a whole file. -/
def write (disk : Disk κ) (name : κ) (bytes : Bytes) : Disk κ :=
  match disk.names name with
  | some file => disk.store file bytes
  | none => disk.link name bytes

/-! ## What reads see of an operation on a name -/

@[simp] theorem names_remove (disk : Disk κ) (name : κ) :
    (disk.remove name).names = Function.update disk.names name none := rfl

@[simp] theorem read_remove_self (disk : Disk κ) (name : κ) :
    (disk.remove name).read name = none := by
  simp [read]

theorem read_remove_of_ne (disk : Disk κ) {name other : κ} (different : other ≠ name) :
    (disk.remove name).read other = disk.read other := by
  simp [read, remove, Function.update_of_ne different]

theorem names_remove_of_ne (disk : Disk κ) {name other : κ} (different : other ≠ name) :
    (disk.remove name).names other = disk.names other := by
  simp [Function.update_of_ne different]

theorem read_link_self (disk : Disk κ) (name : κ) (bytes : Bytes) :
    (disk.link name bytes).read name = some bytes := by
  simp [read, link]

theorem read_link_of_ne (disk : Disk κ) {name other : κ} (different : other ≠ name)
    (bytes : Bytes) : (disk.link name bytes).read other = disk.read other := by
  unfold read
  cases found : disk.names other with
  | none => simp [link, Function.update_of_ne different, found]
  | some file =>
      have older : file ≠ disk.next := Nat.ne_of_lt (disk.created other file found)
      simp [link, Function.update_of_ne different, found, Function.update_of_ne older]

@[simp] theorem read_write_self (disk : Disk κ) (name : κ) (bytes : Bytes) :
    (disk.write name bytes).read name = some bytes := by
  unfold write
  split
  · rename_i file found
    exact read_store found bytes
  · exact read_link_self disk name bytes

theorem read_write_of_ne (disk : Disk κ) {name other : κ} (different : other ≠ name)
    (bytes : Bytes) : (disk.write name bytes).read other = disk.read other := by
  unfold write
  split
  · rename_i file found
    exact read_store_of_ne (names_ne found different) bytes
  · exact read_link_of_ne disk different bytes

theorem names_write_of_ne (disk : Disk κ) {name other : κ} (different : other ≠ name)
    (bytes : Bytes) : (disk.write name bytes).names other = disk.names other := by
  unfold write
  split
  · rfl
  · simp [link, Function.update_of_ne different]

/-- The handle `create` returns is the file of the name it opened. -/
theorem names_create_self (disk : Disk κ) (name : κ) :
    (disk.create name).1.names name = some (disk.create name).2 := by
  unfold create
  split
  · rename_i file found
    simpa using found
  · simp [link]

theorem read_create_self (disk : Disk κ) (name : κ) :
    (disk.create name).1.read name = some [] := by
  unfold create
  split
  · rename_i file found
    exact read_store found []
  · exact read_link_self disk name []

theorem read_create_of_ne (disk : Disk κ) {name other : κ} (different : other ≠ name) :
    (disk.create name).1.read other = disk.read other := by
  unfold create
  split
  · rename_i file found
    exact read_store_of_ne (names_ne found different) []
  · exact read_link_of_ne disk different []

theorem names_create_of_ne (disk : Disk κ) {name other : κ} (different : other ≠ name) :
    (disk.create name).1.names other = disk.names other := by
  unfold create
  split
  · rfl
  · simp [link, Function.update_of_ne different]

/-! ## Names that an operation leaves alone -/

theorem SameAt.remove (disk : Disk κ) {name other : κ} (different : other ≠ name) :
    SameAt other disk (disk.remove name) :=
  ⟨names_remove_of_ne disk different, read_remove_of_ne disk different⟩

theorem SameAt.write (disk : Disk κ) {name other : κ} (different : other ≠ name) (bytes : Bytes) :
    SameAt other disk (disk.write name bytes) :=
  ⟨names_write_of_ne disk different bytes, read_write_of_ne disk different bytes⟩

theorem SameAt.create (disk : Disk κ) {name other : κ} (different : other ≠ name) :
    SameAt other disk (disk.create name).1 :=
  ⟨names_create_of_ne disk different, read_create_of_ne disk different⟩

/-- Writing where a file ends appends to it. -/
theorem overwritten_end (old bytes : Bytes) :
    overwritten old old.length bytes = old ++ bytes := by
  simp [overwritten]

end Disk

end Retrovert
