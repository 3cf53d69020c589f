import Mathlib.Data.List.Lex
import Mathlib.Data.List.Sort
import Retrovert.Bridge.Scanning

/-!
# The walk of a library

A walk visits the directories under a root, the entries of each in the order of their names, and
lists the regular files. Links are not followed.

In whatever order the directories give their entries, the walk lists exactly the files below the
root, each once and in the order of their paths (`walk_lists_files`). So the library's rows are
in the order of their paths, and where no decoder refuses a file, none is left out
(`rows_in_path_order`).
-/

set_option autoImplicit false

namespace Retrovert.Bridge

/-- What stands at a place: a regular file, a directory with the entries that can be read of it,
or anything else (a link, or what cannot be asked about). -/
inductive Node (Name : Type) where
  | file
  | dir (entries : List (Name × Node Name))
  | other

section Walk

variable {Name : Type} [LinearOrder Name]

/-- The entries of a directory in the order of their names. -/
def sortedEntries (entries : List (Name × Node Name)) : List (Name × Node Name) :=
  entries.mergeSort fun first second => decide (first.1 ≤ second.1)

/-- The regular files at a place and below it. -/
def visit (path : List Name) : Node Name → List (List Name)
  | .file => [path]
  | .other => []
  | .dir entries => (sortedEntries entries).attach.flatMap fun entry =>
      visit (path ++ [entry.1.1]) entry.1.2
termination_by node => sizeOf node
decreasing_by
  have smaller := List.sizeOf_lt_of_mem (List.mem_mergeSort.mp entry.2)
  have within : sizeOf entry.1.2 < sizeOf entry.1 := by
    cases entry.1
    simp
  simp only [Node.dir.sizeOf_spec]
  omega

/-- Every regular file under a root that has these entries. -/
def walk (root : List Name) (entries : List (Name × Node Name)) : List (List Name) :=
  visit root (.dir entries)

omit [LinearOrder Name] in
/-- No directory has two entries of one name. -/
inductive Node.Proper : Node Name → Prop
  | file : Node.Proper .file
  | other : Node.Proper .other
  | dir {entries : List (Name × Node Name)} (distinct : (entries.map Prod.fst).Nodup)
      (proper : ∀ entry ∈ entries, entry.2.Proper) : Node.Proper (.dir entries)

/-- A regular file stands at a place below a node. -/
inductive Lies : Node Name → List Name → Prop
  | here : Lies .file []
  | inside {entries : List (Name × Node Name)} {name : Name} {node : Node Name} {path : List Name}
      (member : (name, node) ∈ entries) (lies : Lies node path) :
      Lies (.dir entries) (name :: path)

theorem mem_sortedEntries {entries : List (Name × Node Name)} {entry : Name × Node Name} :
    entry ∈ sortedEntries entries ↔ entry ∈ entries := List.mem_mergeSort

theorem visit_dir (path : List Name) (entries : List (Name × Node Name)) :
    visit path (.dir entries) =
      (sortedEntries entries).flatMap fun entry => visit (path ++ [entry.1]) entry.2 := by
  rw [visit]
  simp only [List.flatMap_subtype, List.unattach_attach]

/-- The walk of a node finds the files below it. -/
theorem mem_visit {node : Node Name} {path found : List Name} :
    found ∈ visit path node ↔ ∃ rest, found = path ++ rest ∧ Lies node rest := by
  induction path, node using visit.induct with
  | case1 path =>
      rw [visit, List.mem_singleton]
      constructor
      · rintro rfl
        exact ⟨[], (List.append_nil _).symm, .here⟩
      · rintro ⟨rest, rfl, lies⟩
        cases lies
        exact List.append_nil _
  | case2 path =>
      rw [visit]
      refine iff_of_false List.not_mem_nil ?_
      rintro ⟨rest, -, lies⟩
      cases lies
  | case3 path entries ih =>
      rw [visit_dir, List.mem_flatMap]
      constructor
      · rintro ⟨entry, member, there⟩
        obtain ⟨rest, rfl, lies⟩ := (ih ⟨entry, member⟩).mp there
        exact ⟨entry.1 :: rest, List.append_assoc .., .inside (mem_sortedEntries.mp member) lies⟩
      · rintro ⟨rest, rfl, lies⟩
        cases lies with
        | @inside _ name node rest member lies =>
            have sorted := mem_sortedEntries.mpr member
            exact ⟨(name, node), sorted, (ih ⟨(name, node), sorted⟩).mpr
              ⟨rest, (List.append_assoc path [name] rest).symm, lies⟩⟩

/-- The entries of a directory are visited in the strict order of their names. -/
theorem sortedEntries_pairwise {entries : List (Name × Node Name)}
    (distinct : (entries.map Prod.fst).Nodup) :
    (sortedEntries entries).Pairwise fun first second => first.1 < second.1 := by
  have decided : (sortedEntries entries).Pairwise
      fun first second => decide (first.1 ≤ second.1) = true :=
    List.pairwise_mergeSort (fun first second third => by simpa using le_trans)
      (fun first second => by simpa using le_total first.1 second.1) entries
  have sorted : (sortedEntries entries).Pairwise fun first second => first.1 ≤ second.1 :=
    decided.imp fun ordered => of_decide_eq_true ordered
  have apart : (sortedEntries entries).Pairwise fun first second => first.1 ≠ second.1 := by
    have same := (List.mergeSort_perm entries fun first second : Name × Node Name =>
      decide (first.1 ≤ second.1)).map Prod.fst
    exact List.pairwise_map.mp (same.nodup_iff.mpr distinct)
  exact (sorted.and apart).imp fun both => lt_of_le_of_ne both.1 both.2

/-- The walk of a node is in the order of the paths. -/
theorem visit_pairwise {node : Node Name} {path : List Name} (proper : node.Proper) :
    (visit path node).Pairwise (· < ·) := by
  induction path, node using visit.induct with
  | case1 path =>
      rw [visit]
      exact List.pairwise_singleton ..
  | case2 path =>
      rw [visit]
      exact .nil
  | case3 path entries ih =>
      cases proper with
      | dir distinct proper =>
      rw [visit_dir, List.pairwise_flatMap]
      refine ⟨fun entry member =>
        ih ⟨entry, member⟩ (proper entry (mem_sortedEntries.mp member)),
        (sortedEntries_pairwise distinct).imp ?_⟩
      intro first second before found there later after
      obtain ⟨rest, rfl, -⟩ := mem_visit.mp there
      obtain ⟨rest', rfl, -⟩ := mem_visit.mp after
      rw [List.append_assoc, List.append_assoc]
      exact List.append_left_lt (List.cons_lt_cons_iff.mpr (.inl before))

/-- Two lists in strict order with the same members are the same. -/
theorem eq_of_pairwise_lt {first second : List (List Name)} (sorted : first.Pairwise (· < ·))
    (sorted' : second.Pairwise (· < ·)) (same : ∀ path, path ∈ first ↔ path ∈ second) :
    first = second := by
  have distinct : ∀ {list : List (List Name)}, list.Pairwise (· < ·) → list.Nodup :=
    fun sorted => sorted.imp fun before => ne_of_lt before
  refine List.Perm.eq_of_pairwise ?_ sorted sorted' ?_
  · intro path later _ _ before after
    exact absurd (lt_trans before after) (lt_irrefl _)
  · exact (List.perm_ext_iff_of_nodup (distinct sorted) (distinct sorted')).mpr same

/-- **The walk lists the files**, each once and in the order of the paths, in whatever order the
directories give their entries; and nothing else of the tree matters to it. -/
theorem walk_lists_files (root : List Name) {entries : List (Name × Node Name)}
    (proper : (Node.dir entries).Proper) :
    (walk root entries).Pairwise (· < ·) ∧
    (∀ path, path ∈ walk root entries ↔
      ∃ rest, path = root ++ rest ∧ Lies (.dir entries) rest) ∧
    ∀ others : List (Name × Node Name), (Node.dir others).Proper →
      (∀ rest, Lies (.dir others) rest ↔ Lies (.dir entries) rest) →
        walk root others = walk root entries := by
  refine ⟨visit_pairwise proper, fun path => mem_visit, fun others proper' same => ?_⟩
  refine eq_of_pairwise_lt (visit_pairwise proper') (visit_pairwise proper) fun path => ?_
  rw [walk, walk, mem_visit, mem_visit]
  exact exists_congr fun rest => and_congr_right fun _ => same rest

/-- A song in a folder, and another one beside it. -/
def music : List (Nat × Node Nat) := [(2, .dir [(1, .file), (0, .other)]), (1, .file)]

theorem proper_music : (Node.dir music).Proper := by
  refine .dir (by simp [music]) ?_
  simp only [music, List.forall_mem_cons]
  refine ⟨.dir (by decide) ?_, .file, by simp⟩
  simp only [List.forall_mem_cons]
  exact ⟨.file, .other, by simp⟩

/-- The song beside the folder comes first, and a link in the folder is no file. -/
theorem walk_lists_files_of_music :
    (walk [0] music).Pairwise (· < ·) ∧ [0, 2, 1] ∈ walk [0] music ∧
      [0, 2, 0] ∉ walk [0] music := by
  obtain ⟨sorted, lists, -⟩ := walk_lists_files [0] proper_music
  refine ⟨sorted, (lists _).mpr ⟨[2, 1], rfl, ?_⟩, fun listed => ?_⟩
  · exact .inside (List.mem_cons_self ..) (.inside (List.mem_cons_self ..) .here)
  · obtain ⟨rest, same, lies⟩ := (lists _).mp listed
    cases same
    cases lies with
    | inside member lies =>
      cases lies with
      | inside member' lies =>
        cases lies with
        | here =>
            simp [music] at member
            simp [member] at member'

end Walk

/-! ## The library's rows -/

namespace Loop

variable {Name : Type} [LinearOrder Name]

/-- The playable files of a tree, in the order that they are described. -/
def playable (host : Host (List Name)) (tree : List Name → List (Name × Node Name))
    (root : List Name) : List (List Name) :=
  (walk root (tree root)).filter fun path => host.claimed path ≠ ""

/-- A walk that comes back has walked the tree, and finds no file that has a row if it counts. -/
def WalksTree (host : Host (List Name)) (tree : List Name → List (Name × Node Name))
    (loop : Loop (List Name)) (action : Action (List Name)) : Prop :=
  loop.FindsNew host action ∧ ∀ walked files root, action = .delivery walked files →
    loop.walks[walked]? = some root → files = walk root (tree root)

/-- The decoders refuse no file that they are asked about. -/
def Describes (action : Action (List Name)) : Prop := ∀ roomy, action ≠ .scan roomy none

/-- The paths of the rows, and then the files that are to become rows. -/
def listed (library : Library (List Name)) : List (List Name) :=
  library.entries.map Entry.path ++ library.pending

/-- A walk of the tree that counts finds a library without rows. -/
theorem no_rows {host : Host (List Name)} {tree : List Name → List (Name × Node Name)}
    {loop : Loop (List Name)} {walked : Nat}
    (counts : loop.walks[walked]? = some loop.worker.library.root)
    (findsNew : loop.FindsNew host (.delivery walked
      (walk loop.worker.library.root (tree loop.worker.library.root))))
    (sublist : (listed loop.worker.library).Sublist
      (playable host tree loop.worker.library.root)) : loop.worker.library.entries = [] := by
  refine List.eq_nil_iff_forall_not_mem.mpr fun entry member => ?_
  have old : entry.path ∈ loop.worker.library.entries.map Entry.path := List.mem_map_of_mem member
  have found := List.mem_filter.mp (sublist.subset (List.mem_append_left _ old))
  exact findsNew counts entry.path found.1 (of_decide_eq_true found.2) old

/-- The rows and the files that are to become rows stay playable files of the tree, in its
order. -/
theorem sublist_step {host : Host (List Name)} {tree : List Name → List (Name × Node Name)}
    {loop after : Loop (List Name)} {action : Action (List Name)}
    (walks : loop.WalksTree host tree action) (stepped : loop.step host action = some after)
    (sublist : (listed loop.worker.library).Sublist
      (playable host tree loop.worker.library.root)) :
    (listed after.worker.library).Sublist (playable host tree after.worker.library.root) := by
  have rewrites := rewrites_step stepped
  generalize after.worker.library = library at rewrites ⊢
  cases rewrites with
  | kept => exact sublist
  | cleared => exact List.nil_sublist _
  | @filled walked files counts distinct =>
      obtain rfl := walks.2 walked files _ rfl counts
      rw [listed, no_rows counts walks.1 sublist]
      exact List.Sublist.refl _
  | @described _ described path rest next =>
      rw [listed, next] at sublist
      cases described with
      | none =>
          rw [listed, Option.toList_none, List.map_nil, List.append_nil]
          exact ((List.sublist_cons_self path rest).append_left _).trans sublist
      | some described => simpa [listed] using sublist

/-- Where no file is refused, none of them is left out. -/
theorem whole_step {host : Host (List Name)} {tree : List Name → List (Name × Node Name)}
    {loop after : Loop (List Name)} {action : Action (List Name)}
    (walks : loop.WalksTree host tree action) (describes : Describes action)
    (stepped : loop.step host action = some after)
    (sublist : (listed loop.worker.library).Sublist
      (playable host tree loop.worker.library.root))
    (whole : listed loop.worker.library = [] ∨
      listed loop.worker.library = playable host tree loop.worker.library.root) :
    listed after.worker.library = [] ∨
      listed after.worker.library = playable host tree after.worker.library.root := by
  have rewrites := rewrites_step stepped
  generalize after.worker.library = library at rewrites ⊢
  cases rewrites with
  | kept => exact whole
  | cleared => exact .inl rfl
  | @filled walked files counts distinct =>
      obtain rfl := walks.2 walked files _ rfl counts
      refine .inr ?_
      rw [listed, no_rows counts walks.1 sublist]
      rfl
  | @described roomy described path rest next =>
      cases described with
      | none => exact absurd rfl (describes roomy)
      | some described =>
          rw [listed, next] at whole
          simpa [listed] using whole

/-- **The rows are in the order of their paths.** In every run in which the walks that come back
have walked one tree, and one that counts finds no file that has a row: the rows, and then the
files that are to become rows, are playable files of the tree in the order of their paths, and the
rows are numbered by their places as long as their numbers last. Where the decoders refuse no file
either, the library lists nothing yet or every playable file. -/
theorem rows_in_path_order (host : Host (List Name))
    (tree : List Name → List (Name × Node Name)) (proper : ∀ root, (Node.dir (tree root)).Proper)
    (root : List Name) :
    (∀ loop, Reaches host (WalksTree host tree) root loop →
      (listed loop.worker.library).Sublist (playable host tree loop.worker.library.root) ∧
      (listed loop.worker.library).Pairwise (· < ·) ∧
      (loop.worker.library.entries.length < 2 ^ 32 →
        ∀ (index : Nat) (entry : Entry (List Name)),
          loop.worker.library.entries[index]? = some entry → entry.id.toNat = index)) ∧
    ∀ loop, Reaches host (fun loop action => WalksTree host tree loop action ∧ Describes action)
        root loop →
      listed loop.worker.library = [] ∨
        listed loop.worker.library = playable host tree loop.worker.library.root := by
  constructor
  · intro loop run
    have sublist := Runs.Moves.invariant (fun loop : Loop (List Name) =>
        (listed loop.worker.library).Sublist
        (playable host tree loop.worker.library.root))
      (fun _ _ _ walks stepped sublist => sublist_step walks stepped sublist) run
      (List.nil_sublist _)
    have numbered := Runs.Moves.invariant (fun loop => loop.worker.library.Numbered)
      (fun _ _ _ _ stepped numbered => numbered_step stepped numbered) run
      (fun _ _ there => by cases there)
    refine ⟨sublist, ?_, fun few index entry there => ?_⟩
    · have sorted : (walk loop.worker.library.root (tree loop.worker.library.root)).Pairwise
          (· < ·) := visit_pairwise (proper _)
      exact (sorted.filter _).sublist sublist
    · have inside := (List.getElem?_eq_some_iff.mp there).1
      rw [numbered index entry there]
      exact rowId_toNat (Nat.lt_trans inside few)
  · intro loop run
    have both := Runs.Moves.invariant (fun loop : Loop (List Name) =>
        (listed loop.worker.library).Sublist
        (playable host tree loop.worker.library.root) ∧
        (listed loop.worker.library = [] ∨
          listed loop.worker.library = playable host tree loop.worker.library.root))
      (fun _ _ _ meets stepped held => ⟨sublist_step meets.1 stepped held.1,
        whole_step meets.1 meets.2 stepped held.1 held.2⟩) run
      ⟨List.nil_sublist _, .inl rfl⟩
    exact both.2

def musicHost : Host (List Nat) where
  text _ := ""
  extension _ := "mod"
  prefixOf _ := ""
  handles extension := extension == "mod"

/-- The walk of the music comes back. -/
def bringsMusic (loop : Loop (List Nat)) : Action (List Nat) → Bool
  | .delivery walked files =>
      files == [[0, 1], [0, 2, 1]] && loop.walks[walked]? == some [0]
  | .scan _ none => false
  | _ => true

/-- The song beside the folder has its row, and the one in it is to become one. -/
theorem rows_in_path_order_found : ∃ loop : Loop (List Nat),
    loop.worker.library.pending = [[0, 2, 1]] ∧
      listed loop.worker.library = playable musicHost (fun _ => music) [0] := by
  have walked : walk [0] music = [[0, 1], [0, 2, 1]] := by
    simp [walk, visit_dir, visit, music, sortedEntries, List.mergeSort,
      List.MergeSort.Internal.splitInTwo]
  obtain ⟨loop, run, checked⟩ := Runs.Moves.of_check (step musicHost)
    (fun loop action => loop.FindsNew musicHost action ∧ bringsMusic loop action = true) (new [])
    ([.command (.scanLibrary [0]) { mounting := .ready 1, reached := some 0 }, .poll .bare,
      .ending none, .output .nothing, .scan true (some ⟨"", "", 0⟩),
      .delivery 0 [[0, 1], [0, 2, 1]], .poll .bare, .ending none, .output .nothing, .scan true (some ⟨"", "", 0⟩)])
    (fun loop => loop.worker.library.pending == [[0, 2, 1]] && loop.worker.library.root == [0])
    (by decide +kernel)
  obtain ⟨pending, root⟩ := (Bool.and_eq_true ..).mp checked
  have tree : Reaches musicHost (fun loop action =>
      WalksTree musicHost (fun _ => music) loop action ∧ Describes action) [] loop := by
    refine run.mono fun loop action meets => ⟨⟨meets.1, ?_⟩, ?_⟩
    · rintro walk files root rfl counts
      have both := (Bool.and_eq_true ..).mp meets.2
      have same := counts.symm.trans (eq_of_beq both.2)
      cases same
      rw [walked]
      exact eq_of_beq both.1
    · rintro roomy rfl
      cases meets.2
  have whole :=
    (rows_in_path_order musicHost (fun _ => music) (fun _ => proper_music) []).2 loop tree
  have pending := eq_of_beq pending
  rw [eq_of_beq root] at whole
  refine ⟨loop, pending, whole.resolve_left fun none => ?_⟩
  rw [listed, pending] at none
  simp at none

end Loop

end Retrovert.Bridge
