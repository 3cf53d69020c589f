import Mathlib.Data.Finmap
import Retrovert.Library.Disk

/-!
# A directory tree

A tree says what stands at each place: a folder, or a file and its contents. A
place is the list of the names that lead to it, and the tree itself stands at
the empty one, when it stands at all. Well-formedness is that whatever stands
below a place stands in a folder.

Files arrive whole, by a rename. So a reader sees one file or the other and
never a half of one.

A sequence of operations goes on until one fails. Whether it comes to its end, and
what stands where then, depends only on what stood where (`perform_iff`). Files can be
placed one after another in an empty folder exactly if none of them is to stand above
another (`perform_placing`).
-/

set_option autoImplicit false

namespace Retrovert

/-- What stands at a place. -/
inductive Node where
  | folder
  | file (content : Bytes)
deriving DecidableEq

/-- The contents of a file; a folder has none. -/
def Node.content? : Node → Option Bytes
  | .folder => none
  | .file content => some content

structure Tree (κ : Type*) [DecidableEq κ] where
  nodes : Finmap fun _ : List κ => Node
  rooted : ∀ place ∈ nodes, place ≠ [] → nodes.lookup place.dropLast = some .folder

namespace Tree

variable {κ : Type*} [DecidableEq κ]

/-- The tree that does not stand. -/
def absent : Tree κ where
  nodes := ∅
  rooted _ present := absurd present Finmap.notMem_empty

def nodeAt (tree : Tree κ) (place : List κ) : Option Node :=
  tree.nodes.lookup place

/-- The contents of the file at a place, when a file stands there. -/
def fileAt (tree : Tree κ) (place : List κ) : Option Bytes :=
  (tree.nodeAt place).bind Node.content?

@[simp] theorem fileAt_absent (place : List κ) : (absent : Tree κ).fileAt place = none := by
  simp [fileAt, nodeAt, absent]

theorem fileAt_eq_some {tree : Tree κ} {place : List κ} {content : Bytes} :
    tree.fileAt place = some content ↔ tree.nodeAt place = some (.file content) := by
  rw [fileAt]
  cases tree.nodeAt place with
  | none => simp
  | some node => cases node <;> simp [Node.content?]

/-- Whether a node may be put at a place: no folder stands there, and the place
is in one that does. -/
def Open (tree : Tree κ) (place : List κ) : Prop :=
  tree.nodeAt place ≠ some .folder ∧
    (place ≠ [] → tree.nodeAt place.dropLast = some .folder)

instance (tree : Tree κ) (place : List κ) : Decidable (tree.Open place) :=
  inferInstanceAs (Decidable (_ ∧ _))

/-- Whether nothing stands below a place. -/
def Leaf (tree : Tree κ) (place : List κ) : Prop :=
  ∀ other ∈ tree.nodes.keys, other ≠ [] → other.dropLast ≠ place

instance (tree : Tree κ) (place : List κ) : Decidable (tree.Leaf place) :=
  inferInstanceAs (Decidable (∀ other ∈ tree.nodes.keys, _))

omit [DecidableEq κ] in
theorem dropLast_ne_self {place : List κ} (below : place ≠ []) : place.dropLast ≠ place :=
  fun same => by
    have whole := List.dropLast_append_getLast below
    rw [same] at whole
    exact List.cons_ne_nil _ _ (List.append_right_eq_self.mp whole)

/-- Put a node at a place that is open for it. -/
def insert (tree : Tree κ) (place : List κ) (node : Node) (ready : tree.Open place) : Tree κ where
  nodes := tree.nodes.insert place node
  rooted other present below := by
    rcases Finmap.mem_insert.mp present with rfl | older
    · rw [Finmap.lookup_insert_of_ne _ (dropLast_ne_self below)]
      exact ready.2 below
    · have stood := tree.rooted other older below
      by_cases same : other.dropLast = place
      · exact absurd (same ▸ stood) ready.1
      · rw [Finmap.lookup_insert_of_ne _ same, stood]

/-- Take away what stands at a place that has nothing below it. -/
def erase (tree : Tree κ) (place : List κ) (leaf : tree.Leaf place) : Tree κ where
  nodes := tree.nodes.erase place
  rooted other present below := by
    obtain ⟨-, older⟩ := Finmap.mem_erase.mp present
    have apart := leaf other (Finmap.mem_keys.mpr older) below
    rw [Finmap.lookup_erase_ne apart]
    exact tree.rooted other older below

/-! ## Operations -/

/-- Put a node at a place, replacing a file that stands there. -/
def put (tree : Tree κ) (place : List κ) (node : Node) : Option (Tree κ) :=
  if ready : tree.Open place then some (tree.insert place node ready) else none

/-- Make a folder at a place, unless one stands there. A file in its way is an
error. -/
def createDir (tree : Tree κ) (place : List κ) : Option (Tree κ) :=
  match tree.nodeAt place with
  | some .folder => some tree
  | some (.file _) => none
  | none => tree.put place .folder

/-- Remove a file, or a folder with nothing in it. -/
def remove (tree : Tree κ) (place : List κ) : Option (Tree κ) :=
  if leaf : tree.Leaf place then some (tree.erase place leaf) else none

/-- A tree without a place and all that is below it. -/
def without (tree : Tree κ) (place : List κ) : Tree κ where
  nodes := Finmap.keysLookupEquiv.symm
    ⟨(tree.nodes.keys.filter (¬ place <+: ·),
      fun other => if place <+: other then none else tree.nodes.lookup other),
      fun other => by
        by_cases below : place <+: other <;>
          simp [below, Finmap.lookup_isSome, Finmap.mem_keys]⟩
  rooted other present below := by
    rw [← Finmap.lookup_isSome, Finmap.keysLookupEquiv_symm_apply_lookup] at present
    rw [Finmap.keysLookupEquiv_symm_apply_lookup]
    change (if place <+: other then none else tree.nodes.lookup other).isSome = true at present
    change (if place <+: other.dropLast then none else tree.nodes.lookup other.dropLast) = _
    split at present
    · cases present
    · rename_i apart
      have apart' : ¬ place <+: other.dropLast := fun above =>
        apart (above.trans (List.dropLast_prefix other))
      rw [if_neg apart']
      exact tree.rooted other (Finmap.lookup_isSome.mp present) below

/-- Remove a folder and all that is below it, if one stands there. A file there, or in the way
to it, is an error. -/
def removeAll (tree : Tree κ) (place : List κ) : Option (Tree κ) :=
  if ∃ above ∈ place.inits, (tree.fileAt above).isSome = true then none
  else some (tree.without place)

/-! ## What an operation leaves -/

theorem nodeAt_insert (tree : Tree κ) (place : List κ) (node : Node) (ready : tree.Open place)
    (other : List κ) :
    (tree.insert place node ready).nodeAt other =
      if other = place then some node else tree.nodeAt other := by
  unfold nodeAt insert
  by_cases same : other = place
  · rw [if_pos same, same]
    exact Finmap.lookup_insert _
  · rw [if_neg same]
    exact Finmap.lookup_insert_of_ne _ same

/-- A file put at a place is the file there, and every other file stays. -/
theorem fileAt_put_file {tree after : Tree κ} {place : List κ} {content : Bytes}
    (placed : tree.put place (.file content) = some after) (other : List κ) :
    after.fileAt other = if other = place then some content else tree.fileAt other := by
  unfold put at placed
  split at placed
  · cases placed
    unfold fileAt
    rw [nodeAt_insert]
    split <;> rfl
  · cases placed

/-- A folder made where nothing stood hides no file. -/
theorem fileAt_createDir {tree after : Tree κ} {place : List κ}
    (made : tree.createDir place = some after) (other : List κ) :
    after.fileAt other = tree.fileAt other := by
  unfold createDir at made
  split at made
  · cases made
    rfl
  · cases made
  · rename_i vacant
    unfold put at made
    split at made
    · cases made
      unfold fileAt
      rw [nodeAt_insert]
      by_cases same : other = place
      · rw [if_pos same, same, vacant]
        rfl
      · rw [if_neg same]
    · cases made

theorem nodeAt_without (tree : Tree κ) (place other : List κ) :
    (tree.without place).nodeAt other = if place <+: other then none else tree.nodeAt other := by
  rw [nodeAt, without, Finmap.keysLookupEquiv_symm_apply_lookup]
  rfl

/-- Trees are the same if the same stands at each place. -/
theorem ext_nodeAt {first second : Tree κ} (same : first.nodeAt = second.nodeAt) :
    first = second := by
  obtain ⟨nodes, rooted⟩ := first
  obtain ⟨nodes', rooted'⟩ := second
  have equal : nodes = nodes' := Finmap.ext_lookup (congrFun same)
  subst equal
  rfl

/-! ## When an operation is done -/

/-- An operation is done exactly if it can be, and then leaves this at each place. -/
def Done (ready : Prop) (nodes : List κ → Option Node) : Option (Tree κ) → Prop
  | none => ¬ ready
  | some after => ready ∧ after.nodeAt = nodes

theorem done_put (tree : Tree κ) (place : List κ) (node : Node) :
    Done (tree.Open place) (Function.update tree.nodeAt place (some node))
      (tree.put place node) := by
  rw [put]
  split
  · rename_i ready
    refine ⟨ready, funext fun other => ?_⟩
    rw [nodeAt_insert, Function.update_apply]
  · assumption

theorem done_createDir (tree : Tree κ) (place : List κ) :
    Done ((∀ content, tree.nodeAt place ≠ some (.file content)) ∧
        (place ≠ [] → tree.nodeAt place.dropLast = some .folder))
      (Function.update tree.nodeAt place (some .folder)) (tree.createDir place) := by
  rw [createDir]
  split
  · rename_i stands
    refine ⟨⟨fun content => ?_, tree.rooted place (Finmap.mem_of_lookup_eq_some stands)⟩, ?_⟩
    · rw [stands]
      exact fun same => nomatch same
    · rw [← stands, Function.update_eq_self]
  · rename_i content file
    exact fun ready => ready.1 content file
  · rename_i vacant
    have placed := done_put tree place .folder
    rw [Open, vacant] at placed
    rw [vacant]
    simpa using placed

theorem done_removeAll (tree : Tree κ) (place : List κ) :
    Done (∀ above ∈ place.inits, ∀ content, tree.nodeAt above ≠ some (.file content))
      (fun other => if place <+: other then none else tree.nodeAt other)
      (tree.removeAll place) := by
  rw [removeAll]
  split
  · rename_i blocked
    obtain ⟨above, member, there⟩ := blocked
    obtain ⟨content, found⟩ := Option.isSome_iff_exists.mp there
    exact fun ready => ready above member content (fileAt_eq_some.mp found)
  · rename_i clear
    refine ⟨fun above member content file => clear ⟨above, member, ?_⟩,
      funext (nodeAt_without tree place)⟩
    rw [fileAt_eq_some.mpr file]
    rfl

/-! ## Sequences of operations -/

/-- One operation on a tree. -/
inductive Operation (κ : Type*) where
  | createDir (place : List κ)
  | write (place : List κ) (content : Bytes)
  | removeAll (place : List κ)

namespace Operation

def place : Operation κ → List κ
  | createDir place | write place _ | removeAll place => place

def apply (tree : Tree κ) : Operation κ → Option (Tree κ)
  | createDir place => tree.createDir place
  | write place content => tree.put place (.file content)
  | removeAll place => tree.removeAll place

/-- Whether an operation can be done where this is what stands at each place. -/
def Ready (nodes : List κ → Option Node) : Operation κ → Prop
  | createDir place => (∀ content, nodes place ≠ some (.file content)) ∧
      (place ≠ [] → nodes place.dropLast = some .folder)
  | write place _ => nodes place ≠ some .folder ∧
      (place ≠ [] → nodes place.dropLast = some .folder)
  | removeAll place => ∀ above ∈ place.inits, ∀ content, nodes above ≠ some (.file content)

/-- What stands at each place after an operation. -/
def effect (nodes : List κ → Option Node) : Operation κ → List κ → Option Node
  | createDir place => Function.update nodes place (some .folder)
  | write place content => Function.update nodes place (some (.file content))
  | removeAll place => fun other => if place <+: other then none else nodes other

theorem done_apply (operation : Operation κ) (tree : Tree κ) :
    Done (operation.Ready tree.nodeAt) (operation.effect tree.nodeAt) (operation.apply tree) := by
  cases operation with
  | createDir place => exact done_createDir tree place
  | write place content => exact done_put tree place (.file content)
  | removeAll place => exact done_removeAll tree place

end Operation

/-- Perform operations until one fails, and say at which place. -/
def perform (tree : Tree κ) : List (Operation κ) → Tree κ × Option (List κ)
  | [] => (tree, none)
  | operation :: rest =>
      match operation.apply tree with
      | none => (tree, some operation.place)
      | some after => after.perform rest

/-- Whether every operation of a sequence can be done after those before it. -/
def Admits (nodes : List κ → Option Node) : List (Operation κ) → Prop
  | [] => True
  | operation :: rest => operation.Ready nodes ∧ Admits (operation.effect nodes) rest

/-- What stands at each place after a sequence of operations. -/
def effects (nodes : List κ → Option Node) : List (Operation κ) → List κ → Option Node
  | [] => nodes
  | operation :: rest => effects (operation.effect nodes) rest

theorem admits_append {nodes : List κ → Option Node} {first second : List (Operation κ)} :
    Admits nodes (first ++ second) ↔ Admits nodes first ∧ Admits (effects nodes first) second := by
  induction first generalizing nodes with
  | nil => exact (and_iff_right trivial).symm
  | cons operation rest ih => rw [List.cons_append, Admits, Admits, effects, ih, and_assoc]

theorem effects_append (nodes : List κ → Option Node) (first second : List (Operation κ)) :
    effects nodes (first ++ second) = effects (effects nodes first) second := by
  induction first generalizing nodes with
  | nil => rfl
  | cons operation rest ih => rw [List.cons_append, effects, effects, ih]

/-- **A sequence of operations comes to its end exactly if each can be done, and then
has their effects.** -/
theorem perform_iff {tree : Tree κ} {operations : List (Operation κ)} :
    ((tree.perform operations).2 = none ↔ Admits tree.nodeAt operations) ∧
      ((tree.perform operations).2 = none →
        (tree.perform operations).1.nodeAt = effects tree.nodeAt operations) := by
  induction operations generalizing tree with
  | nil => exact ⟨iff_of_true rfl trivial, fun _ => rfl⟩
  | cons operation rest ih =>
      have done := operation.done_apply tree
      rw [perform, Admits, effects]
      cases made : operation.apply tree with
      | none =>
          rw [made] at done
          exact ⟨iff_of_false (fun ended => nomatch ended) fun admitted => done admitted.1,
            fun ended => nomatch ended⟩
      | some next =>
          rw [made] at done
          rw [← done.2, and_iff_right done.1]
          exact ih

/-! ## Making folders and writing files -/

/-- Make the folder at a place and those above it. -/
def createDirAll (place : List κ) : List (Operation κ) := place.inits.map .createDir

/-- Folders can be made where no file stands in their way. -/
theorem admits_createDirAll (nodes : List κ → Option Node) (place : List κ) :
    (Admits nodes (createDirAll place) ↔
      ∀ above ∈ place.inits, ∀ content, nodes above ≠ some (.file content)) ∧
    effects nodes (createDirAll place) =
      fun other => if other ∈ place.inits then some .folder else nodes other := by
  induction place using List.reverseRecOn with
  | nil =>
      refine ⟨?_, ?_⟩
      · simp [createDirAll, Admits, Operation.Ready]
      · funext other
        simp [createDirAll, effects, Operation.effect, Function.update_apply]
  | append_singleton above name ih =>
      have grown : (above ++ [name]).inits = above.inits ++ [above ++ [name]] := by
        rw [List.inits_append]
        simp
      have beyond : ¬ above ++ [name] <+: above := fun within => by
        have short := within.length_le
        rw [List.length_append, List.length_singleton] at short
        omega
      have last : Admits (effects nodes (createDirAll above)) [.createDir (above ++ [name])] ↔
          ∀ content, nodes (above ++ [name]) ≠ some (.file content) := by
        simp [Admits, Operation.Ready, ih.2, beyond]
      rw [createDirAll, grown, List.map_append, ← createDirAll, List.map_singleton]
      refine ⟨?_, ?_⟩
      · rw [admits_append, ih.1, last, List.forall_mem_append, List.forall_mem_singleton]
      · rw [effects_append, ih.2]
        funext other
        simp only [effects, Operation.effect, Function.update_apply, List.mem_append,
          List.mem_singleton]
        by_cases here : other = above ++ [name] <;> simp [here]

/-- Many folders can be made where no file stands in the way of any. -/
theorem admits_createDirs (nodes : List κ → Option Node) (places : List (List κ)) :
    (Admits nodes (places.flatMap createDirAll) ↔
      ∀ above ∈ places.flatMap List.inits, ∀ content, nodes above ≠ some (.file content)) ∧
    effects nodes (places.flatMap createDirAll) =
      fun other => if other ∈ places.flatMap List.inits then some .folder else nodes other := by
  induction places generalizing nodes with
  | nil => exact ⟨by simp [Admits], by simp [effects]⟩
  | cons place rest ih =>
      obtain ⟨admits, leaves⟩ := admits_createDirAll nodes place
      have later := ih (effects nodes (createDirAll place))
      rw [List.flatMap_cons, List.flatMap_cons, admits_append, effects_append, later.1, later.2,
        admits, leaves]
      refine ⟨?_, funext fun other => ?_⟩
      · rw [List.forall_mem_append]
        refine and_congr_right fun clear => forall₂_congr fun above _ =>
          forall_congr' fun content => ?_
        by_cases made : above ∈ place.inits
        · simp only [made, if_true]
          exact iff_of_true (fun same => nomatch same) (clear above made content)
        · simp only [made, if_false]
      · by_cases first : other ∈ place.inits <;>
          by_cases later : other ∈ rest.flatMap List.inits <;>
          simp only [List.mem_append, first, later, if_true, if_false, or_true, true_or, or_self]

/-- Files that stand in folders, none of them written, can be written where no folder
stands. -/
theorem admits_write (nodes : List κ → Option Node) {files : List (List κ × Bytes)}
    (distinct : (files.map Prod.fst).Nodup)
    (within : ∀ file ∈ files, file.1 ≠ [] ∧ nodes file.1.dropLast = some .folder ∧
      file.1.dropLast ∉ files.map Prod.fst) :
    (Admits nodes (files.map fun file => .write file.1 file.2) ↔
      ∀ file ∈ files, nodes file.1 ≠ some .folder) ∧
    effects nodes (files.map fun file => .write file.1 file.2) =
      fun other => ((files.lookup other).map .file).or (nodes other) := by
  induction files generalizing nodes with
  | nil => exact ⟨by simp [Admits], rfl⟩
  | cons first rest ih =>
      obtain ⟨place, content⟩ := first
      rw [List.map_cons, List.nodup_cons] at distinct
      have later : ∀ file ∈ rest, file.1 ≠ place := fun file member same =>
        distinct.1 (List.mem_map.mpr ⟨file, member, same⟩)
      obtain ⟨admits, leaves⟩ := ih (Function.update nodes place (some (.file content)))
        distinct.2 fun file member => by
          obtain ⟨below, stands, unwritten⟩ := within file (List.mem_cons_of_mem _ member)
          rw [List.map_cons, List.mem_cons, not_or] at unwritten
          exact ⟨below, by rw [Function.update_of_ne unwritten.1, stands], unwritten.2⟩
      obtain ⟨below, stands, -⟩ := within _ List.mem_cons_self
      rw [List.map_cons, Admits, effects, Operation.effect, admits, leaves]
      refine ⟨?_, funext fun other => ?_⟩
      · rw [List.forall_mem_cons, Operation.Ready, and_iff_left fun _ => stands]
        refine and_congr_right fun _ => forall₂_congr fun file member => ?_
        rw [Function.update_of_ne (later file member)]
      · rw [List.lookup_cons, Function.update_apply]
        by_cases here : other = place
        · subst here
          have missing : rest.lookup other = none := by
            rw [List.lookup_eq_none_iff]
            intro file member
            exact bne_iff_ne.mpr (later file member).symm
          simp [missing]
        · rw [if_neg here, beq_false_of_ne here]

/-! ## Placing files one after another -/

/-- Place a file: make the folders above it, then write it. -/
def placing (file : List κ × Bytes) : List (Operation κ) :=
  createDirAll file.1.dropLast ++ [.write file.1 file.2]

/-- Files of which none is to stand above another. -/
def Coexist (files : List (List κ × Bytes)) : Prop :=
  ∀ first ∈ files, ∀ second ∈ files, first.1 <+: second.1 → first.1 = second.1

/-- What stands at each place in a folder that has only these files and the folders above
them, where the last of several for one place stands. -/
def laid (files : List (List κ × Bytes)) (place : List κ) : Option Node :=
  match files.reverse.lookup place with
  | some content => some (.file content)
  | none => if place = [] ∨ ∃ file ∈ files, place <+: file.1 then some .folder else none

section Placing

variable {files : List (List κ × Bytes)} {file : List κ × Bytes} {place : List κ}

theorem lookup_reverse_eq_none :
    files.reverse.lookup place = none ↔ ∀ file ∈ files, file.1 ≠ place := by
  rw [List.lookup_eq_none_iff]
  refine ⟨fun apart file member same => ?_, fun apart file member => ?_⟩
  · exact bne_iff_ne.mp (apart file (List.mem_reverse.mpr member)) same.symm
  · exact bne_iff_ne.mpr (apart file (List.mem_reverse.mp member)).symm

/-- Among files of different places, a place has the contents of its file. -/
theorem lookup_of_mem (distinct : (files.map Prod.fst).Nodup) (member : file ∈ files) :
    files.lookup file.1 = some file.2 := by
  obtain ⟨before, after, rfl⟩ := List.append_of_mem member
  refine List.lookup_eq_some_iff.mpr ⟨before, after, rfl, fun other earlier => ?_⟩
  rw [List.map_append, List.map_cons] at distinct
  have apart := (List.nodup_append.mp distinct).2.2 other.1 (List.mem_map_of_mem earlier) file.1
    List.mem_cons_self
  exact bne_iff_ne.mpr apart.symm

theorem laid_of_mem (distinct : (files.map Prod.fst).Nodup) (member : file ∈ files) :
    laid files file.1 = some (.file file.2) := by
  have turned : (files.reverse.map Prod.fst).Nodup := by
    rw [List.map_reverse]
    exact List.nodup_reverse.mpr distinct
  rw [laid, lookup_of_mem turned (List.mem_reverse.mpr member)]

theorem laid_ne_file :
    (∀ content, laid files place ≠ some (.file content)) ↔ ∀ file ∈ files, file.1 ≠ place := by
  rw [← lookup_reverse_eq_none, laid]
  cases files.reverse.lookup place with
  | some content => exact iff_of_false (fun apart => apart content rfl) (fun none => nomatch none)
  | none =>
      refine iff_of_true (fun content => ?_) rfl
      dsimp only
      split <;> exact fun same => nomatch same

theorem laid_eq_folder : laid files place = some .folder ↔
    (∀ file ∈ files, file.1 ≠ place) ∧ (place = [] ∨ ∃ file ∈ files, place <+: file.1) := by
  rw [← lookup_reverse_eq_none, laid]
  cases files.reverse.lookup place with
  | some content => simp
  | none =>
      rw [and_iff_right rfl]
      dsimp only
      split
      · exact iff_of_true rfl ‹_›
      · exact iff_of_false (fun same => nomatch same) ‹_›

omit [DecidableEq κ] in
/-- What is above the folder of a place is above the place and not the place itself. -/
theorem prefix_dropLast_iff {other : List κ} (below : place ≠ []) :
    other <+: place.dropLast ↔ other <+: place ∧ other ≠ place := by
  have whole := List.dropLast_append_getLast below
  constructor
  · intro above
    refine ⟨above.trans (List.dropLast_prefix place), fun same => ?_⟩
    have short := above.length_le
    have positive := List.length_pos_of_ne_nil below
    rw [same, List.length_dropLast] at short
    omega
  · rintro ⟨above, different⟩
    rw [← whole, List.prefix_concat_iff, whole] at above
    exact above.resolve_left different

omit [DecidableEq κ] in
theorem coexist_concat : Coexist (files ++ [file]) ↔ Coexist files ∧
    ∀ other ∈ files, (other.1 <+: file.1 → other.1 = file.1) ∧
      (file.1 <+: other.1 → file.1 = other.1) := by
  simp only [Coexist, List.forall_mem_append, List.forall_mem_singleton]
  constructor
  · rintro ⟨older, newer, -⟩
    exact ⟨fun first member => (older first member).1,
      fun other member => ⟨(older other member).2, newer other member⟩⟩
  · rintro ⟨older, apart⟩
    exact ⟨fun first member => ⟨older first member, (apart first member).1⟩,
      fun other member => (apart other member).2, fun _ => trivial⟩

/-- One more file can be placed exactly if it is to stand neither above nor below another. -/
theorem admits_laid (coexist : Coexist files) (below : file.1 ≠ []) :
    Admits (laid files) (placing file) ↔ ∀ other ∈ files,
      (other.1 <+: file.1 → other.1 = file.1) ∧ (file.1 <+: other.1 → file.1 = other.1) := by
  obtain ⟨admits, leaves⟩ := admits_createDirAll (laid files) file.1.dropLast
  have outside : file.1 ∉ file.1.dropLast.inits := by
    rw [List.mem_inits, prefix_dropLast_iff below]
    exact fun within => within.2 rfl
  rw [placing, admits_append, admits, leaves, Admits, Admits, and_true, Operation.Ready,
    if_neg outside, if_pos ((List.mem_inits _ _).mpr List.prefix_rfl)]
  rw [and_iff_left fun _ => rfl, Ne, laid_eq_folder]
  constructor
  · rintro ⟨clear, free⟩ other member
    refine ⟨fun above => by_contra fun different => ?_, fun onto => by_contra fun different => ?_⟩
    · have under := (prefix_dropLast_iff below).mpr ⟨above, different⟩
      exact laid_ne_file.mp (clear other.1 ((List.mem_inits _ _).mpr under)) other member rfl
    · refine free ⟨fun third found same => ?_, .inr ⟨other, member, onto⟩⟩
      exact different (same ▸ coexist third found other member (same ▸ onto))
  · intro apart
    refine ⟨fun above member => laid_ne_file.mpr fun other found same => ?_, ?_⟩
    · obtain ⟨within, different⟩ := (prefix_dropLast_iff below).mp ((List.mem_inits _ _).mp member)
      exact different (same ▸ (apart other found).1 (same ▸ within))
    · rintro ⟨unwritten, empty | ⟨other, member, onto⟩⟩
      · exact below empty
      · exact unwritten other member ((apart other member).2 onto).symm

/-- What stands once one more file is placed. -/
theorem effects_laid (coexist : Coexist (files ++ [file])) (below : file.1 ≠ []) :
    effects (laid files) (placing file) = laid (files ++ [file]) := by
  obtain ⟨-, leaves⟩ := admits_createDirAll (laid files) file.1.dropLast
  have apart := (coexist_concat.mp coexist).2
  rw [placing, effects_append, leaves]
  funext place
  simp only [effects, Operation.effect, Function.update_apply]
  unfold laid
  rw [List.reverse_concat, List.lookup_cons]
  by_cases here : place = file.1
  · rw [if_pos here, here, beq_self_eq_true]
  · rw [if_neg here, beq_false_of_ne here]
    have onto : (∃ other ∈ files ++ [file], place <+: other.1) ↔
        (∃ other ∈ files, place <+: other.1) ∨ place <+: file.1 := by
      simp [or_and_right, exists_or]
    have within : place ∈ file.1.dropLast.inits ↔ place <+: file.1 := by
      rw [List.mem_inits, prefix_dropLast_iff below, and_iff_left here]
    cases found : files.reverse.lookup place with
    | some content =>
        -- A file stands here, so this is no folder above the new one.
        obtain ⟨other, member, same⟩ : ∃ other ∈ files, other.1 = place := by
          by_contra none
          rw [lookup_reverse_eq_none.mpr fun other member same => none ⟨other, member, same⟩] at found
          cases found
        have outside : ¬ place <+: file.1 := fun above =>
          here (same ▸ (apart other member).1 (same ▸ above))
        rw [if_neg (mt within.mp outside)]
    | none =>
        dsimp only
        by_cases above : place <+: file.1
        · rw [if_pos (within.mpr above), if_pos (.inr (onto.mpr (.inr above)))]
        · rw [if_neg (mt within.mp above)]
          simp only [onto, or_iff_left above]

/-- Files can be placed one after another, from an empty folder, exactly if none is to stand
above another. -/
theorem admits_placing (below : ∀ file ∈ files, file.1 ≠ []) :
    (Admits (laid []) (files.flatMap placing) ↔ Coexist files) ∧
      (Coexist files → effects (laid []) (files.flatMap placing) = laid files) := by
  induction files using List.reverseRecOn with
  | nil =>
      have nothing : Coexist ([] : List (List κ × Bytes)) := fun _ member => nomatch member
      exact ⟨iff_of_true trivial nothing, fun _ => rfl⟩
  | append_singleton files file ih =>
      obtain ⟨older, last⟩ := List.forall_mem_append.mp below
      obtain ⟨admits, leaves⟩ := ih older
      have bottom := last file List.mem_cons_self
      rw [List.flatMap_append, List.flatMap_singleton, admits_append, effects_append, admits]
      refine ⟨?_, fun coexist => ?_⟩
      · rw [coexist_concat]
        refine and_congr_right fun coexist => ?_
        rw [leaves coexist, admits_laid coexist bottom]
      · rw [leaves (coexist_concat.mp coexist).1, effects_laid coexist bottom]

theorem open_absent : (absent : Tree κ).Open [] :=
  ⟨by simp [nodeAt, absent], fun below => absurd rfl below⟩

/-- An empty folder. -/
def bare : Tree κ := absent.insert [] .folder open_absent

theorem nodeAt_bare : (bare : Tree κ).nodeAt = laid [] := by
  funext place
  rw [bare, nodeAt_insert]
  simp [laid, nodeAt, absent]

@[simp] theorem fileAt_bare (place : List κ) : (bare : Tree κ).fileAt place = none := by
  rw [fileAt, nodeAt_bare]
  by_cases top : place = [] <;> simp [laid, top, Node.content?]

/-- **Files are placed in an empty folder**, one after another, exactly if none is to stand
above another; and then they are what stands there. -/
theorem perform_placing (below : ∀ file ∈ files, file.1 ≠ []) :
    ((bare.perform (files.flatMap placing)).2 = none ↔ Coexist files) ∧
      (Coexist files → (bare.perform (files.flatMap placing)).1.nodeAt = laid files) := by
  obtain ⟨admits, leaves⟩ := admits_placing below
  obtain ⟨ends, stands⟩ := @perform_iff _ _ bare (files.flatMap placing)
  rw [nodeAt_bare] at ends stands
  refine ⟨ends.trans admits, fun coexist => ?_⟩
  rw [stands (ends.mpr (admits.mpr coexist)), leaves coexist]

/-- Where no file is placed, the files stay as they are. -/
theorem fileAt_perform_placing (tree : Tree κ) (apart : ∀ file ∈ files, file.1 ≠ place) :
    (tree.perform (files.flatMap placing)).1.fileAt place = tree.fileAt place := by
  have kept : ∀ operation ∈ files.flatMap placing,
      (∃ folder, operation = .createDir folder) ∨
        ∃ other content, operation = .write other content ∧ other ≠ place := by
    intro operation member
    obtain ⟨file, found, here⟩ := List.mem_flatMap.mp member
    rcases List.mem_append.mp here with making | writing
    · obtain ⟨folder, -, rfl⟩ := List.mem_map.mp making
      exact .inl ⟨folder, rfl⟩
    · exact .inr ⟨file.1, file.2, List.mem_singleton.mp writing, apart file found⟩
  generalize files.flatMap placing = operations at kept
  induction operations generalizing tree with
  | nil => rfl
  | cons operation rest ih =>
      rw [List.forall_mem_cons] at kept
      rw [perform]
      cases made : operation.apply tree with
      | none => rfl
      | some after =>
          refine (ih after kept.2).trans ?_
          rcases kept.1 with ⟨folder, rfl⟩ | ⟨other, content, rfl, different⟩
          · exact fileAt_createDir made place
          · rw [fileAt_put_file made, if_neg different.symm]

end Placing

end Tree

end Retrovert
