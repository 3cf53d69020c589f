import Mathlib.Algebra.Group.Nat.Defs
import Retrovert.Bridge.Documents
import Retrovert.Present.Grid

/-!
# Drawing the pattern

The worker keeps a grid of what the decoder's snapshots show, and copies it to the front, with the
position, whenever its cells have changed; every such copy, every mount and every unmount counts
the front's cells up. The window polls the front and asks to be painted when a field that it
compares differs from what it polled last. When it is painted, some time later, it takes the row
and the sizes from what it polled, and the cells from the front as it is by then.

What is drawn may so be of two moments. But once the window has nothing left to paint and has
polled what the front is at, it shows the rows of the pattern around the row that plays, each cell
as the last snapshot of its window gave it (`drawn_is_current`): a change that was made between
two polls, or between a poll and the painting, is not missed. The count of cells wraps around, so
that is so for fewer than `2 ^ 64` steps.

Sizes are taken to fit the machine's integers; how high a row is, and the text and the colours of
a row, are the painter's own. The other fields that the window compares are a part of the poll.
-/

set_option autoImplicit false

namespace Retrovert.Bridge.Drawing

open Present

/-- Pattern rows a decoder may publish per window. -/
def patternRowBudget : Nat := 256

/-- Where the decoder is, if it says. -/
structure TrackerPosition where
  has : Bool := false
  pattern : UInt32 := 0
  row : UInt32 := 0
deriving DecidableEq

def TrackerPosition.of : Option Position → TrackerPosition
  | none => {}
  | some position => { has := true, pattern := position.pattern, row := position.row }

/-- The fields of a poll that a painting reads, and the count of cells. -/
structure State where
  position : TrackerPosition := {}
  patternChannels : UInt32 := 0
  patternColumns : UInt32 := 0
  cellsRev : UInt64 := 0
deriving DecidableEq

/-- The worker's grid; the front's, with the position and the count of cells; and the window: what
it polled last, how many rows it has room for, whether it is to be painted, and what it shows. -/
structure Screen where
  grid : PatternGrid := .new 0 [] 0
  front : PatternGrid := .new 0 [] 0
  position : TrackerPosition := {}
  cellsRev : UInt64 := 0
  state : State := {}
  rows : Nat := 0
  dirty : Bool := true
  drawn : Option (List GridCell) := none

inductive Action where
  | mount (channels : Nat) (columns : List GridColumn)
  | unmount
  | capture (snapshot : VizSnapshot)
  | poll (others : Bool)
  | resize (rows : Nat)
  | paint

/-! ## Painting -/

/-- A size as the front tells it. -/
def told (size : Nat) : UInt32 := UInt32.ofNat (min size (2 ^ 32 - 1))

/-- Rows `lo` up to `hi` of the front's grid, written over the first of the cells. -/
def patternCells (front : PatternGrid) (lo hi : UInt32) (cells : List GridCell)
    (capacity : UInt32) : Option (List GridCell) :=
  if capacity = 0 then some cells
  else (front.copyRows lo hi (cells.take capacity.toNat)).map fun written =>
    written.2 ++ cells.drop capacity.toNat

/-- The cells of a painting, if a pattern is shown: the rows around the row that plays, blank
before the first one of the pattern. -/
def updatePaintNode (state : State) (rows : Nat) (front : PatternGrid) :
    Option (Option (List GridCell)) :=
  let channels := state.patternChannels.toNat
  let columns := state.patternColumns.toNat
  if channels = 0 ∨ columns = 0 ∨ state.position.has = false ∨ rows = 0 then some none
  else
    let first : Int := state.position.row.toNat - (rows / 2 : Nat)
    let stride := channels * columns
    let needed := rows * stride
    let lo := max first 0
    let skip := (lo - first).toNat * stride
    let cells : List GridCell := List.replicate needed {}
    if skip < needed then
      (patternCells front (UInt32.ofInt lo) (UInt32.ofInt (first + rows)) (cells.drop skip)
        (UInt32.ofNat (needed - skip))).map fun written => some (cells.take skip ++ written)
    else some (some cells)

namespace Screen

/-- What a poll reads. -/
def poll (screen : Screen) : State where
  position := screen.position
  patternChannels := told screen.front.channels
  patternColumns := told screen.front.columns.length
  cellsRev := screen.cellsRev

def step (screen : Screen) : Action → Option Screen
  | .mount channels columns =>
      some { screen with
        grid := .new channels columns patternRowBudget
        front := .new channels columns patternRowBudget
        cellsRev := screen.cellsRev + 1
        position := {} }
  | .unmount =>
      some { screen with
        grid := .new 0 [] 0, front := .new 0 [] 0, cellsRev := screen.cellsRev + 1, position := {} }
  | .capture snapshot =>
      (screen.grid.fillFrom snapshot).bind fun filled =>
        let captured := { screen with grid := filled.1, position := .of snapshot.position }
        if filled.2 then
          (screen.front.copyFrom filled.1).map fun front =>
            { captured with front, cellsRev := screen.cellsRev + 1 }
        else some captured
  | .poll others =>
      some { screen with
        state := screen.poll, dirty := screen.dirty || others || screen.poll != screen.state }
  | .resize rows => some { screen with rows, dirty := true }
  | .paint =>
      (updatePaintNode screen.state screen.rows screen.front).map fun drawn =>
        { screen with drawn, dirty := false }

end Screen

/-! ## What is to be seen -/

/-- The pattern that the snapshots since the last mount have shown: the layout, the window, and
the position. -/
structure Pattern where
  channels : Nat := 0
  columns : List GridColumn := []
  rowBudget : Nat := 0
  window : Window := ⟨0, [], none⟩
  position : TrackerPosition := {}

namespace Pattern

def stride (pattern : Pattern) : Nat := pattern.channels * pattern.columns.length

def observe (pattern : Pattern) : Action → Pattern
  | .mount channels columns => { channels, columns, rowBudget := patternRowBudget }
  | .unmount => {}
  | .capture snapshot =>
      { pattern with
        window := pattern.window.fill pattern.stride pattern.rowBudget pattern.columns snapshot
        position := .of snapshot.position }
  | _ => pattern

/-- A row that may lie before the pattern's first one. -/
def rowAt (pattern : Pattern) (row : Int) : List GridCell :=
  if row < 0 then List.replicate pattern.stride {} else pattern.window.rowAt pattern.stride row.toNat

/-- So many rows around the one that plays. -/
def around (pattern : Pattern) (rows : Nat) : Option (List GridCell) :=
  if pattern.channels = 0 ∨ pattern.columns = [] ∨ pattern.position.has = false ∨ rows = 0 then none
  else some ((List.range rows).flatMap fun (place : Nat) =>
    pattern.rowAt (pattern.position.row.toNat - (rows / 2 : Nat) + place))

end Pattern

/-- A step, and what there is to be seen after it. -/
def stepRecorded (run : Screen × Pattern) (action : Action) : Option (Screen × Pattern) :=
  (run.1.step action).map fun after => (after, run.2.observe action)

/-! ## A painting of what is to be seen -/

section Painting

variable {pattern : Pattern} {state : State} {rows : Nat} {front : PatternGrid} {key : Option Key}

theorem told_toNat {size : Nat} (small : size < 2 ^ 32) : (told size).toNat = size := by
  rw [told, UInt32.toNat_ofNat']
  omega

theorem told_eq_zero {size : Nat} : (told size).toNat = 0 ↔ size = 0 := by
  rw [told, UInt32.toNat_ofNat']
  omega

theorem toNat_ofInt {row : Int} (low : 0 ≤ row) (high : row < 2 ^ 32) :
    (UInt32.ofInt row).toNat = row.toNat := by
  rw [UInt32.ofInt, UInt32.toNat_ofNat']
  omega

/-- Blank rows one after another are blank cells. -/
theorem flatMap_blank (stride : Nat) (blank : GridCell) (rows : Nat) :
    (List.range rows).flatMap (fun _ => List.replicate stride blank) =
      List.replicate (rows * stride) blank := by
  induction rows with
  | zero => rw [Nat.zero_mul]; rfl
  | succ rows ih =>
      rw [List.range_succ, List.flatMap_append, ih, List.flatMap_singleton,
        List.replicate_append_replicate, Nat.succ_mul]

/-- Copying rows out of what shows the pattern's window fills the cells with them. -/
theorem patternCells_eq {lo hi capacity : UInt32} {cells : List GridCell} {count : Nat}
    (shows : Represents pattern.channels pattern.columns pattern.rowBudget front
      ⟨pattern.window.lo, pattern.window.cells, key⟩)
    (filled : pattern.stride ≠ 0) (size : cells.length = count * pattern.stride)
    (room : capacity.toNat = cells.length) (asked : hi.toNat = lo.toNat + count) :
    patternCells front lo hi cells capacity = some ((List.range count).flatMap fun place =>
      pattern.window.rowAt pattern.stride (lo.toNat + place)) := by
  have stride : front.stride = pattern.stride := shows.stride
  rw [patternCells]
  split
  · rename_i none
    rw [none] at room
    have bare : count * pattern.stride = 0 := size.symm.trans room.symm
    obtain rfl : count = 0 := (Nat.mul_eq_zero.mp bare).resolve_right filled
    rw [List.length_eq_zero_iff.mp room.symm]
    rfl
  · have copied := shows.copyRows_eq lo hi cells
    have whole : rowsOut front.stride lo hi cells.length = count := by
      rw [rowsOut, stride, if_neg filled, size, Nat.mul_div_cancel _ (Nat.pos_of_ne_zero filled),
        asked, Nat.add_sub_cancel_left, Nat.min_self]
    dsimp only at copied
    rw [whole, stride, ← size, List.drop_length, List.append_nil] at copied
    rw [room, List.take_length, copied, Option.map_some, List.drop_length, List.append_nil,
      List.flatMap_def]
    rfl

/-- The rows around one: blank ones before the first, and then those from a row on. -/
theorem around_split (pattern : Pattern) (row rows blank : Nat)
    (before : blank = rows / 2 - row) :
    ((List.range rows).flatMap fun (place : Nat) =>
        pattern.rowAt ((row : Int) - (rows / 2 : Nat) + place)) =
      List.replicate (blank * pattern.stride) ({} : GridCell) ++
        (List.range (rows - blank)).flatMap fun place =>
          pattern.window.rowAt pattern.stride (row - rows / 2 + place) := by
  have split : List.range rows = List.range blank ++ (List.range (rows - blank)).map (blank + ·) := by
    rw [← List.range_add]
    congr 1
    omega
  have early : ∀ place ∈ List.range blank,
      pattern.rowAt ((row : Int) - (rows / 2 : Nat) + place) = List.replicate pattern.stride {} := by
    intro place member
    have := List.mem_range.mp member
    exact if_pos (by omega)
  have late : ∀ place, pattern.rowAt ((row : Int) - (rows / 2 : Nat) + (blank + place : Nat)) =
      pattern.window.rowAt pattern.stride (row - rows / 2 + place) := by
    intro place
    rw [Pattern.rowAt, if_neg (by omega)]
    congr 1
    omega
  rw [split, List.flatMap_append, List.flatMap_congr early, flatMap_blank, List.flatMap_map]
  congr 1
  exact List.flatMap_congr fun place _ => late place

/-- **A painting** of what the front shows, by what was polled of it, is of the rows around the
one that plays. -/
theorem updatePaintNode_eq
    (shows : Represents pattern.channels pattern.columns pattern.rowBudget front
      ⟨pattern.window.lo, pattern.window.cells, key⟩)
    (position : state.position = pattern.position)
    (channels : state.patternChannels = told pattern.channels)
    (columns : state.patternColumns = told pattern.columns.length)
    (fits : rows * pattern.stride < 2 ^ 32) (last : pattern.position.row.toNat + rows < 2 ^ 32) :
    updatePaintNode state rows front = some (pattern.around rows) := by
  rw [updatePaintNode, Pattern.around]
  dsimp only
  rw [position, channels, columns]
  by_cases shown : pattern.channels = 0 ∨ pattern.columns = [] ∨ pattern.position.has = false ∨
      rows = 0
  · rw [if_pos shown, if_pos]
    rwa [told_eq_zero, told_eq_zero, List.length_eq_zero_iff]
  · rw [if_neg shown, if_neg (by rwa [told_eq_zero, told_eq_zero, List.length_eq_zero_iff])]
    obtain ⟨some, filled, -, positive⟩ : pattern.channels ≠ 0 ∧ pattern.columns.length ≠ 0 ∧
        pattern.position.has ≠ false ∧ rows ≠ 0 := by
      rwa [← List.length_eq_zero_iff, not_or, not_or, not_or] at shown
    have stride : pattern.stride ≠ 0 := Nat.mul_ne_zero some filled
    have within : pattern.stride < 2 ^ 32 :=
      Nat.lt_of_le_of_lt (Nat.le_mul_of_pos_left _ (Nat.pos_of_ne_zero positive)) fits
    rw [told_toNat (Nat.lt_of_le_of_lt (Nat.le_mul_of_pos_right _ (Nat.pos_of_ne_zero filled)) within),
      told_toNat (Nat.lt_of_le_of_lt (Nat.le_mul_of_pos_left _ (Nat.pos_of_ne_zero some)) within)]
    have sizes : pattern.channels * pattern.columns.length = pattern.stride := rfl
    rw [sizes]
    generalize pattern.position.row.toNat = row at last ⊢
    generalize blank_eq : rows / 2 - row = blank
    have skip : (max ((row : Int) - (rows / 2 : Nat)) 0 - (row - (rows / 2 : Nat))).toNat =
        blank := by omega
    have few : blank < rows := by omega
    have lo : (UInt32.ofInt (max ((row : Int) - (rows / 2 : Nat)) 0)).toNat = row - rows / 2 := by
      rw [toNat_ofInt (by omega) (by omega)]
      omega
    have hi : (UInt32.ofInt ((row : Int) - (rows / 2 : Nat) + rows)).toNat =
        row - rows / 2 + (rows - blank) := by
      rw [toNat_ofInt (by omega) (by omega)]
      omega
    rw [skip, if_pos (Nat.mul_lt_mul_of_pos_right few (Nat.pos_of_ne_zero stride)),
      List.drop_replicate, List.take_replicate, ← Nat.sub_mul]
    have size : (List.replicate ((rows - blank) * pattern.stride) ({} : GridCell)).length =
        (rows - blank) * pattern.stride := List.length_replicate
    have room : (UInt32.ofNat ((rows - blank) * pattern.stride)).toNat =
        (rows - blank) * pattern.stride := UInt32.toNat_ofNat_of_lt'
      (Nat.lt_of_le_of_lt (Nat.mul_le_mul_right _ (Nat.sub_le ..)) fits)
    rw [patternCells_eq shows stride size (room.trans size.symm) (hi.trans (by rw [lo])), lo,
      around_split pattern row rows blank blank_eq.symm,
      Nat.min_eq_left (Nat.mul_le_mul_right _ few.le)]
    rfl

end Painting

/-! ## The front shows the pattern -/

/-- The worker's grid and the front's show the pattern's window, and the front is at its
position. -/
structure Shows (run : Screen × Pattern) : Prop where
  grid : Represents run.2.channels run.2.columns run.2.rowBudget run.1.grid run.2.window
  front : ∃ key, Represents run.2.channels run.2.columns run.2.rowBudget run.1.front
    ⟨run.2.window.lo, run.2.window.cells, key⟩
  position : run.1.position = run.2.position

/-- A filling that changes no cell leaves what the window shows. -/
theorem fill_unchanged {channels rowBudget : Nat} {columns : List GridColumn}
    {grid after : PatternGrid} {window : Window} {snapshot : VizSnapshot}
    (represents : Represents channels columns rowBudget grid window)
    (filled : grid.fillFrom snapshot = some (after, false)) :
    (window.fill grid.stride rowBudget columns snapshot).lo = window.lo ∧
      (window.fill grid.stride rowBudget columns snapshot).cells = window.cells := by
  rw [PatternGrid.fillFrom] at filled
  rw [Window.fill]
  cases there : snapshot.position with
  | none =>
      rw [there] at filled
      simp only [Option.some.injEq, Prod.mk.injEq, decide_eq_false_iff_not, not_lt,
        Nat.le_zero] at filled
      have none : window.cells.length = 0 := by rw [represents.length_cells, filled.2, Nat.zero_mul]
      exact ⟨rfl, (List.length_eq_zero_iff.mp none).symm⟩
  | some position =>
      rw [there] at filled
      dsimp only at filled ⊢
      rw [represents.key] at filled
      by_cases same : window.key = some position.key
      · rw [if_pos same]
        exact ⟨rfl, rfl⟩
      · rw [if_neg same] at filled
        simp at filled

/-- **The step lemma.** -/
theorem Shows.step {run after : Screen × Pattern} {action : Action} (shows : Shows run)
    (stepped : stepRecorded run action = some after) : Shows after := by
  obtain ⟨screen, pattern⟩ := run
  rw [stepRecorded, Option.map_eq_some_iff] at stepped
  obtain ⟨after, stepped, rfl⟩ := stepped
  obtain ⟨grid, ⟨key, front⟩, position⟩ := shows
  dsimp only at grid front position
  cases action with
  | mount channels columns =>
      cases stepped
      exact ⟨represents_new channels columns patternRowBudget,
        ⟨none, represents_new channels columns patternRowBudget⟩, rfl⟩
  | unmount =>
      cases stepped
      exact ⟨represents_new 0 [] 0, ⟨none, represents_new 0 [] 0⟩, rfl⟩
  | capture snapshot =>
      obtain ⟨filled, changed, fills, grid'⟩ := grid.fill snapshot
      have stride : screen.grid.stride = pattern.stride := grid.stride
      simp only [Screen.step, fills, Option.bind_some] at stepped
      rw [stride] at grid'
      cases changed with
      | false =>
          cases stepped
          obtain ⟨lo, cells⟩ := fill_unchanged grid fills
          rw [stride] at lo cells
          refine ⟨grid', ⟨key, ?_⟩, rfl⟩
          dsimp only [Pattern.observe]
          rw [lo, cells]
          exact front
      | true =>
          rw [if_pos rfl, Option.map_eq_some_iff] at stepped
          obtain ⟨copy, copied, rfl⟩ := stepped
          obtain ⟨copy', copied', shows⟩ := front.copy grid'
          cases copied.symm.trans copied'
          have room : screen.front.cells.length = filled.cells.length := by
            rw [front.capacity, grid'.capacity, front.stride, grid'.stride]
          rw [cut_of_capacity front grid' room] at shows
          exact ⟨grid', ⟨_, shows⟩, rfl⟩
  | poll others | resize rows =>
      cases stepped
      exact ⟨grid, ⟨key, front⟩, position⟩
  | paint =>
      rw [Screen.step, Option.map_eq_some_iff] at stepped
      obtain ⟨drawn, -, rfl⟩ := stepped
      exact ⟨grid, ⟨key, front⟩, position⟩

/-- No step panics. -/
theorem Shows.enabled {screen : Screen} {pattern : Pattern} (shows : Shows (screen, pattern))
    (action : Action) : (screen.step action).isSome = true := by
  obtain ⟨grid, ⟨key, front⟩, -⟩ := shows
  cases action with
  | capture snapshot =>
      obtain ⟨filled, changed, fills, grid'⟩ := grid.fill snapshot
      obtain ⟨copy, copied, -⟩ := front.copy (grid.stride ▸ grid')
      rw [Screen.step, fills, Option.bind_some]
      dsimp only
      split
      · rw [copied]
        rfl
      · rfl
  | paint =>
      rw [Screen.step, Option.isSome_map, updatePaintNode]
      dsimp only
      split
      · rfl
      · split
        · rw [Option.isSome_map, patternCells]
          split
          · rfl
          · rw [front.copyRows_eq]
            rfl
        · rfl
  | mount _ _ | unmount | poll _ | resize _ => rfl

/-! ## The window keeps up -/

/-- The front's cells have been counted up so often, and the window has polled an earlier count;
and unless it is to be painted, it shows what it has polled and a front that is no earlier, and
that is this one unless the count has moved on. -/
def KeepsUp (actions : List Action) (run : Screen × Pattern) : Prop :=
  ∃ count seen, seen ≤ count ∧ count ≤ actions.length ∧
    run.1.cellsRev = UInt64.ofNat count ∧ run.1.state.cellsRev = UInt64.ofNat seen ∧
    (run.1.dirty = false → ∃ painted front, seen ≤ painted ∧ painted ≤ count ∧
      (painted = count → front = run.1.front) ∧
      updatePaintNode run.1.state run.1.rows front = some run.1.drawn)

/-- The front's cells are counted up. -/
theorem KeepsUp.counts {actions : List Action} {run : Screen × Pattern} (keeps : KeepsUp actions run)
    (action : Action) (grid front : PatternGrid) (position : TrackerPosition) (pattern : Pattern) :
    KeepsUp (actions ++ [action])
      ({ run.1 with grid, front, position, cellsRev := run.1.cellsRev + 1 }, pattern) := by
  obtain ⟨count, seen, earlier, few, counted, polled, shown⟩ := keeps
  refine ⟨count + 1, seen, Nat.le_succ_of_le earlier, ?_, ?_, polled, fun clean => ?_⟩
  · rw [List.length_append]
    exact Nat.succ_le_succ few
  · dsimp only
    rw [counted]
    exact (UInt64.ofNat_add _ 1).symm
  · obtain ⟨painted, front, after, before, -, drawn⟩ := shown clean
    exact ⟨painted, front, after, Nat.le_succ_of_le before,
      fun same => absurd same (Nat.ne_of_lt (Nat.lt_succ_of_le before)), drawn⟩

/-- **The step lemma.** -/
theorem KeepsUp.step {actions : List Action} {run after : Screen × Pattern} {action : Action}
    (keeps : KeepsUp actions run) (stepped : stepRecorded run action = some after) :
    KeepsUp (actions ++ [action]) after := by
  obtain ⟨screen, pattern⟩ := run
  rw [stepRecorded, Option.map_eq_some_iff] at stepped
  obtain ⟨after, stepped, rfl⟩ := stepped
  have longer : actions.length ≤ (actions ++ [action]).length := by
    rw [List.length_append]
    exact Nat.le_add_right ..
  cases action with
  | mount channels columns =>
      cases stepped
      exact keeps.counts _ (.new channels columns patternRowBudget)
        (.new channels columns patternRowBudget) {} _
  | unmount =>
      cases stepped
      exact keeps.counts _ (.new 0 [] 0) (.new 0 [] 0) {} _
  | capture snapshot =>
      simp only [Screen.step, Option.bind_eq_some_iff] at stepped
      obtain ⟨⟨grid, changed⟩, -, stepped⟩ := stepped
      cases changed with
      | true =>
          rw [if_pos rfl, Option.map_eq_some_iff] at stepped
          obtain ⟨front, -, rfl⟩ := stepped
          exact keeps.counts _ grid front (.of snapshot.position) _
      | false =>
          cases stepped
          obtain ⟨count, seen, earlier, few, counted, polled, shown⟩ := keeps
          exact ⟨count, seen, earlier, few.trans longer, counted, polled, shown⟩
  | poll others =>
      cases stepped
      obtain ⟨count, seen, earlier, few, counted, polled, shown⟩ := keeps
      by_cases moved : screen.poll = screen.state
      · -- The window has polled the same before.
        refine ⟨count, seen, earlier, few.trans longer, counted, moved ▸ polled, fun clean => ?_⟩
        dsimp only at clean ⊢
        rw [moved]
        refine shown ?_
        rw [Bool.or_eq_false_iff, Bool.or_eq_false_iff] at clean
        exact clean.1.1
      · refine ⟨count, count, Nat.le_refl _, few.trans longer, counted, counted, fun clean => ?_⟩
        dsimp only at clean
        rw [Bool.or_eq_false_iff, bne_eq_false_iff_eq] at clean
        exact absurd clean.2 moved
  | resize rows =>
      cases stepped
      obtain ⟨count, seen, earlier, few, counted, polled, -⟩ := keeps
      exact ⟨count, seen, earlier, few.trans longer, counted, polled, fun clean => by cases clean⟩
  | paint =>
      rw [Screen.step, Option.map_eq_some_iff] at stepped
      obtain ⟨drawn, painted, rfl⟩ := stepped
      obtain ⟨count, seen, earlier, few, counted, polled, -⟩ := keeps
      exact ⟨count, seen, earlier, few.trans longer, counted, polled,
        fun _ => ⟨count, screen.front, earlier, Nat.le_refl _, fun _ => rfl, painted⟩⟩

/-! ## What is drawn -/

/-- Runs of a screen that nothing has been drawn on, with their steps. -/
def Reaches (actions : List Action) (run : Screen × Pattern) : Prop :=
  Runs.Trace stepRecorded Runs.unguarded (({}, {}) : Screen × Pattern) actions run

theorem Reaches.shows {actions : List Action} {run : Screen × Pattern}
    (reaches : Reaches actions run) :
    Shows run ∧ KeepsUp actions run := by
  refine Runs.Trace.invariant (fun actions run => Shows run ∧ KeepsUp actions run)
    (fun _ _ _ _ _ stepped holds => ⟨holds.1.step stepped, holds.2.step stepped⟩) reaches ?_
  refine ⟨⟨represents_new 0 [] 0, ⟨none, represents_new 0 [] 0⟩, rfl⟩, 0, 0, Nat.le_refl _,
    Nat.le_refl _, rfl, rfl, fun clean => by cases clean⟩

/-- **What is drawn is current.** In every run of fewer steps than the count has numbers, no step
panics; and once the window has polled what the front is at and has nothing left to paint, it
shows the rows around the one that plays, of the pattern that the snapshots since the last mount
have shown. -/
theorem drawn_is_current {actions : List Action} {screen : Screen} {pattern : Pattern}
    (reaches : Reaches actions (screen, pattern)) (few : actions.length < 2 ^ 64) :
    (∀ action, (screen.step action).isSome = true) ∧
    (screen.state = screen.poll → screen.dirty = false →
      screen.rows * pattern.stride < 2 ^ 32 → pattern.position.row.toNat + screen.rows < 2 ^ 32 →
        screen.drawn = pattern.around screen.rows) := by
  obtain ⟨shows, count, seen, earlier, counts, counted, polled, shown⟩ := reaches.shows
  refine ⟨shows.enabled, fun current clean fits last => ?_⟩
  obtain ⟨painted, front, after, before, same, drawn⟩ := shown clean
  dsimp only at counted polled same drawn
  have uncounted : screen.state.cellsRev = screen.cellsRev := by rw [current]; rfl
  have once : seen = count := Shell.revision_injective (by omega) (by omega)
    (polled.symm.trans (uncounted.trans counted))
  obtain rfl := same (by omega)
  obtain ⟨-, ⟨key, front⟩, position⟩ := shows
  dsimp only at front position
  rw [current] at drawn
  have channels : screen.poll.patternChannels = told pattern.channels := by
    rw [← front.channels]
    rfl
  have columns : screen.poll.patternColumns = told pattern.columns.length := by
    rw [← front.columns]
    rfl
  have playing : screen.poll.position = pattern.position := position
  have paints := updatePaintNode_eq front playing channels columns fits last
  exact Option.some.inj (drawn.symm.trans paints)

/-- A snapshot of a pattern of one row, at its row. -/
def note : VizSnapshot where
  position := some { pattern := 0, row := 0, windowLo := 0, windowHi := 1 }
  cells := [⟨textOf [0x43, 0x2D, 0x34]⟩]

/-- A song is mounted and shown by a window of three rows; the snapshot comes between the poll and
the painting. -/
def between : List Action :=
  [.mount 1 [⟨3, .note⟩], .resize 3, .poll false, .capture note, .paint, .poll false, .paint,
    .poll false]

/-- The note is in the middle, between two rows outside the pattern. -/
theorem drawn_is_current_between : ∃ screen pattern, Reaches between (screen, pattern) ∧
    screen.drawn = some [{}, ⟨CellClass.note.code, textOf [0x43, 0x2D, 0x34]⟩, {}] := by
  obtain ⟨⟨screen, pattern⟩, reaches, found⟩ := Runs.Trace.of_check stepRecorded Runs.unguarded
    (({}, {}) : Screen × Pattern) between
    (fun run => run.1.state == run.1.poll && !run.1.dirty && run.1.rows == 3 &&
      run.2.stride == 1 && run.2.position.row == 0 &&
      run.2.around 3 == some [{}, ⟨CellClass.note.code, textOf [0x43, 0x2D, 0x34]⟩, {}])
    (by decide +kernel)
  simp only [Bool.and_eq_true, beq_iff_eq, Bool.not_eq_eq_eq_not, Bool.not_true] at found
  obtain ⟨⟨⟨⟨⟨polled, clean⟩, rows⟩, stride⟩, row⟩, shown⟩ := found
  obtain ⟨-, drawn⟩ := drawn_is_current reaches (by decide)
  refine ⟨screen, pattern, reaches, (drawn polled clean ?_ ?_).trans (rows ▸ shown)⟩
  · rw [rows, stride]
    decide
  · rw [rows, row]
    decide

end Retrovert.Bridge.Drawing
