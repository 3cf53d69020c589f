import Retrovert.Library.Slice

/-!
# The pattern grid

The grid a renderer draws holds a window of a pattern's rows as cells, row by row, then channel,
then column. It is refilled in place by windows of different sizes, and never grows.

What it is for is said by `Window`: the pattern row it starts at, and the whole rows of cells
that were last loaded or copied and fit. The grid is always such a window (`Represents`), each
of its operations is the window's, and copying rows out gives the window's rows and blanks
around them (`grid_window_exact`).

A slice that would be out of bounds is missing here, and an operation that takes one gives no
result. Sizes are exact numbers; rows of a pattern are 32 bits wide.
-/

set_option autoImplicit false

namespace Retrovert.Present

open Retrovert.Slice

/-! ## Cells -/

/-- What a column holds. -/
inductive ColumnKind where
  | note
  | instrument
  | volume
  | effect
  | param
  | custom
deriving DecidableEq

/-- What a pattern cell holds. -/
inductive CellClass where
  | empty
  | note
  | noteOff
  | instrument
  | volume
  | effect
  | param
  | custom
deriving DecidableEq

def CellClass.code : CellClass → UInt8
  | empty => 0
  | note => 1
  | noteOff => 2
  | instrument => 3
  | volume => 4
  | effect => 5
  | param => 6
  | custom => 7

/-- A byte that a blank text may hold: a NUL, a dot, a space or a dash. -/
def isBlank (byte : UInt8) : Bool := byte == 0 || byte == 0x2E || byte == 0x20 || byte == 0x2D

/-- The class a column of `kind` gives to the text `text`. -/
def CellClass.of (kind : ColumnKind) (text : List UInt8) : CellClass :=
  if text.all isBlank then .empty
  else match kind with
    | .note =>
        match text with
        | first :: _ => if first ∈ [0x3D, 0x5E, 0x7E, 0x23] then .noteOff else .note
        | [] => .empty  -- blank already
    | .instrument => .instrument
    | .volume => .volume
    | .effect => .effect
    | .param => .param
    | .custom => .custom

/-- The decoder's cell, as far as the grid reads it. -/
structure PatternCell where
  text : Vector UInt8 16
deriving DecidableEq

/-- One cell of the grid as a renderer reads it. -/
structure GridCell where
  cellClass : UInt8 := CellClass.empty.code
  text : Vector UInt8 16 := Vector.replicate 16 0
deriving DecidableEq

/-- One pattern column. -/
structure GridColumn where
  width : UInt8
  kind : ColumnKind
deriving DecidableEq

/-- Where a snapshot stands in the song. -/
structure Position where
  pattern : UInt32
  row : UInt32
  windowLo : UInt32
  windowHi : UInt32

structure VizSnapshot where
  position : Option Position
  cells : List PatternCell

/-- The pattern and the window that cells were copied from. -/
abbrev Key := UInt32 × UInt32 × UInt32

def Position.key (position : Position) : Key :=
  (position.pattern, position.windowLo, position.windowHi)

/-! ## The grid -/

structure PatternGrid where
  columns : List GridColumn
  channels : Nat
  cells : List GridCell
  rows : Nat
  windowLo : UInt32
  cursor : UInt32
  key : Option Key

namespace PatternGrid

/-- Reserves `rowBudget` rows of `channels` channels of `columns`. -/
def new (channels : Nat) (columns : List GridColumn) (rowBudget : Nat) : PatternGrid where
  columns := columns
  channels := channels
  cells := List.replicate (rowBudget * channels * columns.length) {}
  rows := 0
  windowLo := 0
  cursor := 0
  key := none

/-- The cells of one row. -/
def stride (grid : PatternGrid) : Nat := grid.channels * grid.columns.length

/-- One past the last row of the window, within the 32-bit range. -/
def windowHi (grid : PatternGrid) : UInt32 :=
  UInt32.ofNat (min (grid.windowLo.toNat + min grid.rows (2 ^ 32 - 1)) (2 ^ 32 - 1))

/-- Every populated cell. -/
def populated (grid : PatternGrid) : Option (List GridCell) :=
  slice? grid.cells 0 (grid.rows * grid.stride)

/-- The cells of pattern row `row`, or nothing outside the window. -/
def row (grid : PatternGrid) (row : UInt32) : Option (Option (List GridCell)) :=
  if row < grid.windowLo then some none
  else
    let index := row.toNat - grid.windowLo.toNat
    if grid.rows ≤ index then some none
    else (slice? grid.cells (index * grid.stride) ((index + 1) * grid.stride)).map some

/-- The cell that the decoder's cell at `index` becomes. -/
def cellAt (columns : List GridColumn) (index : Nat) (cell : PatternCell) : Option GridCell :=
  columns[index % columns.length]?.map fun column =>
    ⟨(CellClass.of column.kind cell.text.toList).code, cell.text⟩

/-- Overwrite cells in place with the decoder's, as far as both go. -/
def fillCells (columns : List GridColumn) :
    Nat → List GridCell → List PatternCell → Option (List GridCell)
  | index, _ :: dst, src :: cells =>
      (cellAt columns index src).bind fun cell =>
        (fillCells columns (index + 1) dst cells).map (cell :: ·)
  | _, dst, _ => some dst

/-- Loads a window by hand. -/
def load (grid : PatternGrid) (windowLo cursor : UInt32) (cells : List PatternCell) :
    Option PatternGrid :=
  let rows := if grid.stride = 0 then 0
    else min (cells.length / grid.stride) (grid.cells.length / grid.stride)
  (slice? grid.cells 0 (rows * grid.stride)).bind fun dst =>
    (fillCells grid.columns 0 dst cells).map fun filled =>
      { grid with
        cursor, windowLo, rows
        cells := filled ++ grid.cells.drop (rows * grid.stride) }

/-- Takes the cursor and, when the window moved, the cells from a snapshot; and says whether the
cells changed. -/
def fillFrom (grid : PatternGrid) (snapshot : VizSnapshot) : Option (PatternGrid × Bool) :=
  match snapshot.position with
  | none => some ({ grid with rows := 0, key := none }, decide (0 < grid.rows))
  | some position =>
      if grid.key = some position.key then some ({ grid with cursor := position.row }, false)
      else
        ({ grid with cursor := position.row, key := some position.key }.load position.windowLo
          position.row snapshot.cells).map (·, true)

/-- Copies another grid's window in, truncating to this capacity. -/
def copyFrom (grid other : PatternGrid) : Option PatternGrid :=
  other.populated.bind fun src =>
    let n := min src.length grid.cells.length
    (slice? grid.cells 0 n).bind fun _ =>
      (slice? src 0 n).map fun copied =>
        { grid with
          cells := copied ++ grid.cells.drop n
          rows := if grid.stride = 0 then 0 else n / grid.stride
          windowLo := other.windowLo
          cursor := other.cursor
          key := other.key }

/-- `count` rows past a row, which stay in the 32-bit range. -/
def rowsPast (row : UInt32) (count : Nat) : UInt32 :=
  UInt32.ofNat (min (row.toNat + min count (2 ^ 32 - 1)) (2 ^ 32 - 1))

/-- One row of what is copied out, blank outside the window. A source of another length would be
a panic. -/
def copyRow (grid : PatternGrid) (lo : UInt32) (i : Nat) : Option (List GridCell) :=
  (grid.row (rowsPast lo i)).bind fun
    | none => some (List.replicate grid.stride {})
    | some src => if src.length = grid.stride then some src else none

/-- Writes rows `lo` up to `hi` into `out`; how many cells are written, and what `out` then
holds. -/
def copyRows (grid : PatternGrid) (lo hi : UInt32) (out : List GridCell) :
    Option (Nat × List GridCell) :=
  if grid.stride = 0 ∨ hi ≤ lo then some (0, out)
  else
    let rows := min (hi.toNat - lo.toNat) (out.length / grid.stride)
    (slice? out 0 (rows * grid.stride)).bind fun _ =>
      ((List.range rows).mapM (grid.copyRow lo)).map fun chunks =>
        (rows * grid.stride, chunks.flatten ++ out.drop (rows * grid.stride))

end PatternGrid

/-! ## What it shows -/

/-- A decoder's cell with its text, and the class that its column gives to it. -/
def renderCell (columns : List GridColumn) (index : Nat) (cell : PatternCell) : GridCell :=
  ⟨(CellClass.of (columns[index % columns.length]?.elim .custom GridColumn.kind)
    cell.text.toList).code, cell.text⟩

/-- The cells that a decoder's cells become. -/
def rendered (columns : List GridColumn) (cells : List PatternCell) : List GridCell :=
  cells.mapIdx (renderCell columns)

/-- The cell at a place in a row shows the text it is given, and its class is by the column that
the place is of. -/
theorem getElem?_rendered (channels : Nat) (columns : List GridColumn) (cells : List PatternCell)
    (row place : Nat) :
    (rendered columns cells)[row * (channels * columns.length) + place]? =
      cells[row * (channels * columns.length) + place]?.map (renderCell columns place) := by
  have column : (row * (channels * columns.length) + place) % columns.length =
      place % columns.length := by
    rw [← Nat.mul_assoc, Nat.add_comm, Nat.add_mul_mod_self_right]
  rw [rendered, List.getElem?_mapIdx]
  refine congrFun (congrArg _ (funext fun cell => ?_)) _
  rw [renderCell, renderCell, column]

/-- A window of a pattern: the row it starts at, the cells of its rows, and where they are
from. -/
structure Window where
  lo : UInt32
  cells : List GridCell
  key : Option Key

namespace Window

variable (stride rowBudget : Nat) (columns : List GridColumn)

/-- The whole rows that are given, as many as fit. -/
def load (window : Window) (lo : UInt32) (cells : List PatternCell) : Window :=
  { window with
    lo
    cells := (rendered columns cells).take (min (cells.length / stride) rowBudget * stride) }

/-- A snapshot without a position clears the window, and one of the window that is held leaves
it. -/
def fill (window : Window) (snapshot : VizSnapshot) : Window :=
  match snapshot.position with
  | none => { window with cells := [], key := none }
  | some position =>
      if window.key = some position.key then window
      else { window with key := some position.key }.load stride rowBudget columns position.windowLo
        snapshot.cells

/-- The first rows of a window, as many as fit. -/
def cut (window : Window) : Window :=
  { window with cells := window.cells.take (rowBudget * stride) }

/-- Whether a pattern row is in the window. -/
def Holds (window : Window) (row : Nat) : Prop :=
  window.lo.toNat ≤ row ∧ (row - window.lo.toNat + 1) * stride ≤ window.cells.length

instance (window : Window) (row : Nat) : Decidable (window.Holds stride row) :=
  inferInstanceAs (Decidable (_ ∧ _))

/-- A pattern row as it is shown: its cells in the window, and blank outside. -/
def rowAt (window : Window) (row : Nat) : List GridCell :=
  if window.Holds stride row then block stride (row - window.lo.toNat) window.cells
  else List.replicate stride {}

end Window

/-- A grid of a layout and of room for `rowBudget` rows shows a window. -/
structure Represents (channels : Nat) (columns : List GridColumn) (rowBudget : Nat)
    (grid : PatternGrid) (window : Window) : Prop where
  channels : grid.channels = channels
  columns : grid.columns = columns
  capacity : grid.cells.length = rowBudget * grid.stride
  fits : grid.rows * grid.stride ≤ grid.cells.length
  shown : grid.cells.take (grid.rows * grid.stride) = window.cells
  lo : grid.windowLo = window.lo
  key : grid.key = window.key
  bare : grid.stride = 0 → grid.rows = 0

section Refinement

variable {channels rowBudget otherBudget : Nat} {columns : List GridColumn}
  {grid other after : PatternGrid} {window otherWindow : Window}

theorem Represents.stride (represents : Represents channels columns rowBudget grid window) :
    grid.stride = channels * columns.length := by
  rw [PatternGrid.stride, represents.channels, represents.columns]

theorem Represents.length_cells (represents : Represents channels columns rowBudget grid window) :
    window.cells.length = grid.rows * grid.stride := by
  rw [← represents.shown, List.length_take, Nat.min_eq_left represents.fits]

theorem represents_new (channels : Nat) (columns : List GridColumn) (rowBudget : Nat) :
    Represents channels columns rowBudget (.new channels columns rowBudget) ⟨0, [], none⟩ where
  channels := rfl
  columns := rfl
  capacity := by
    rw [PatternGrid.new, List.length_replicate, Nat.mul_assoc]
    rfl
  fits := by
    rw [PatternGrid.new, Nat.zero_mul]
    exact Nat.zero_le _
  shown := by rw [PatternGrid.new, Nat.zero_mul, List.take_zero]
  lo := rfl
  key := rfl
  bare _ := rfl

/-- Cells are overwritten one by one, each by the cell it is to show. -/
theorem fillCells_eq (filled : columns ≠ []) (dst : List GridCell) :
    ∀ (start : Nat) (cells : List PatternCell), dst.length ≤ cells.length →
      PatternGrid.fillCells columns start dst cells =
        some ((cells.mapIdx fun index => renderCell columns (start + index)).take dst.length) := by
  induction dst with
  | nil =>
      intro start cells _
      cases cells <;> rfl
  | cons old dst ih =>
      intro start cells enough
      cases cells with
      | nil => exact absurd enough (Nat.not_succ_le_zero _)
      | cons cell cells =>
          have inside : start % columns.length < columns.length :=
            Nat.mod_lt _ (List.length_pos_of_ne_nil filled)
          have here : PatternGrid.cellAt columns start cell =
              some (renderCell columns start cell) := by
            rw [PatternGrid.cellAt, renderCell, List.getElem?_eq_getElem inside]
            rfl
          rw [PatternGrid.fillCells, here, Option.bind_some,
            ih (start + 1) cells (Nat.le_of_succ_le_succ enough), List.mapIdx_cons,
            List.length_cons, List.take_succ_cons, Option.map_some]
          simp only [Nat.add_zero, Nat.add_assoc, Nat.add_comm 1]

/-- Rows that are written over the first cells are what the grid shows then. -/
theorem Represents.overwrite (represents : Represents channels columns rowBudget grid window)
    {written : List GridCell} {rows : Nat} (size : written.length = rows * grid.stride)
    (within : rows * grid.stride ≤ grid.cells.length) (bare : grid.stride = 0 → rows = 0)
    (lo cursor : UInt32) (key : Option Key) :
    Represents channels columns rowBudget
      { grid with
        cells := written ++ grid.cells.drop (rows * grid.stride), rows, windowLo := lo, cursor, key }
      ⟨lo, written, key⟩ := by
  have whole : (written ++ grid.cells.drop (rows * grid.stride)).length = grid.cells.length := by
    rw [List.length_append, size, List.length_drop]
    omega
  exact {
    channels := represents.channels
    columns := represents.columns
    capacity := whole.trans represents.capacity
    fits := within.trans_eq whole.symm
    shown := (List.take_append_of_le_length size.ge).trans (List.take_of_length_le size.le)
    lo := rfl
    key := rfl
    bare := bare }

/-- **Loading** shows the whole rows that are given, as many as fit. -/
theorem Represents.load (represents : Represents channels columns rowBudget grid window)
    (windowLo cursor : UInt32) (cells : List PatternCell) :
    ∃ after, grid.load windowLo cursor cells = some after ∧
      Represents channels columns rowBudget after
        (window.load grid.stride rowBudget columns windowLo cells) := by
  obtain rfl := represents.columns
  by_cases bare : grid.stride = 0
  · refine ⟨{ grid with cursor, windowLo, rows := 0, cells := grid.cells }, ?_, ?_⟩
    · simp [PatternGrid.load, bare, slice?, PatternGrid.fillCells]
    · refine ⟨represents.channels, represents.columns, represents.capacity, ?_, ?_, rfl,
        represents.key, fun _ => rfl⟩
      · rw [Nat.zero_mul]
        exact Nat.zero_le _
      · rw [Nat.zero_mul, List.take_zero, Window.load, bare, Nat.mul_zero, List.take_zero]
  · have positive : 0 < grid.stride := Nat.pos_of_ne_zero bare
    have filled : grid.columns ≠ [] := by
      rintro none
      rw [PatternGrid.stride, none] at bare
      exact bare rfl
    have room : grid.cells.length / grid.stride = rowBudget := by
      rw [represents.capacity, Nat.mul_div_cancel _ positive]
    generalize size : min (cells.length / grid.stride) rowBudget = rows
    have given : rows * grid.stride ≤ cells.length :=
      (Nat.mul_le_mul_right _ (size ▸ Nat.min_le_left ..)).trans (Nat.div_mul_le_self ..)
    have within : rows * grid.stride ≤ grid.cells.length :=
      represents.capacity ▸ Nat.mul_le_mul_right _ (size ▸ Nat.min_le_right ..)
    have length : (grid.cells.take (rows * grid.stride)).length = rows * grid.stride := by
      rw [List.length_take, Nat.min_eq_left within]
    have written := fillCells_eq filled (grid.cells.take (rows * grid.stride)) 0 cells
      (by rw [length]; exact given)
    simp only [Nat.zero_add, length] at written
    have taken : ((rendered grid.columns cells).take (rows * grid.stride)).length =
        rows * grid.stride := by
      rw [List.length_take, rendered, List.length_mapIdx, Nat.min_eq_left given]
    have loaded : grid.load windowLo cursor cells = some { grid with
        cells := (rendered grid.columns cells).take (rows * grid.stride) ++
          grid.cells.drop (rows * grid.stride)
        rows, windowLo, cursor } := by
      rw [PatternGrid.load, if_neg bare, room, size, slice?_zero within, Option.bind_some, written,
        Option.map_some]
      rfl
    refine ⟨_, loaded, ?_⟩
    rw [Window.load, size, ← represents.key]
    exact represents.overwrite taken within (fun none => absurd none bare) windowLo cursor grid.key

/-- **Filling** from a snapshot is the window's filling. -/
theorem Represents.fill (represents : Represents channels columns rowBudget grid window)
    (snapshot : VizSnapshot) :
    ∃ after changed, grid.fillFrom snapshot = some (after, changed) ∧
      Represents channels columns rowBudget after
        (window.fill grid.stride rowBudget columns snapshot) := by
  rw [PatternGrid.fillFrom, Window.fill]
  cases snapshot.position with
  | none =>
      refine ⟨_, _, rfl, represents.channels, represents.columns, represents.capacity, ?_, ?_,
        represents.lo, rfl, fun _ => rfl⟩
      · rw [Nat.zero_mul]
        exact Nat.zero_le _
      · rw [Nat.zero_mul, List.take_zero]
  | some position =>
      dsimp only
      rw [represents.key]
      by_cases same : window.key = some position.key
      · rw [if_pos same, if_pos same]
        exact ⟨_, _, rfl, represents.channels, represents.columns, represents.capacity,
          represents.fits, represents.shown, represents.lo, rfl, represents.bare⟩
      · rw [if_neg same, if_neg same]
        have keyed : Represents channels columns rowBudget
            { grid with cursor := position.row, key := some position.key }
            { window with key := some position.key } :=
          ⟨represents.channels, represents.columns, represents.capacity, represents.fits,
            represents.shown, represents.lo, rfl, represents.bare⟩
        obtain ⟨after, loaded, shows⟩ := keyed.load position.windowLo position.row snapshot.cells
        exact ⟨after, true, by rw [loaded]; rfl, shows⟩

theorem Represents.populated (represents : Represents channels columns rowBudget grid window) :
    grid.populated = some window.cells := by
  rw [PatternGrid.populated, slice?_zero represents.fits, represents.shown]

/-- **Copying** between grids of one layout shows the rows of the other that fit. -/
theorem Represents.copy (represents : Represents channels columns rowBudget grid window)
    (theirs : Represents channels columns otherBudget other otherWindow) :
    ∃ after, grid.copyFrom other = some after ∧
      Represents channels columns rowBudget after (otherWindow.cut grid.stride rowBudget) := by
  have stride : other.stride = grid.stride := theirs.stride.trans represents.stride.symm
  have size := theirs.length_cells
  rw [stride] at size
  have room := represents.capacity
  let n := min otherWindow.cells.length grid.cells.length
  have copies : n = min other.rows rowBudget * grid.stride := by
    rw [← Nat.mul_min_mul_right, ← size, ← room]
  have short : (otherWindow.cells.take n).length = n := by
    rw [List.length_take, Nat.min_eq_left (Nat.min_le_left ..)]
  generalize counted : (if grid.stride = 0 then 0 else n / grid.stride) = rows
  have whole : rows * grid.stride = n := by
    rw [← counted, copies]
    by_cases bare : grid.stride = 0
    · rw [bare, Nat.mul_zero, Nat.mul_zero]
    · rw [if_neg bare, Nat.mul_div_cancel _ (Nat.pos_of_ne_zero bare)]
  have copied : grid.copyFrom other = some { grid with
      cells := otherWindow.cells.take n ++ grid.cells.drop (rows * grid.stride)
      rows, windowLo := other.windowLo, cursor := other.cursor, key := other.key } := by
    rw [PatternGrid.copyFrom, theirs.populated, Option.bind_some]
    dsimp only
    rw [slice?_zero (Nat.min_le_right ..), Option.bind_some, slice?_zero (Nat.min_le_left ..),
      whole, ← counted]
    rfl
  have cut : otherWindow.cut grid.stride rowBudget =
      ⟨other.windowLo, otherWindow.cells.take n, other.key⟩ := by
    rw [Window.cut, theirs.lo, theirs.key, ← room]
    congr 1
    exact (List.take_eq_take_min ..).trans (by rw [Nat.min_comm])
  refine ⟨_, copied, cut ▸ represents.overwrite (short.trans whole.symm) ?_ ?_ ..⟩
  · exact whole.trans_le (Nat.min_le_right ..)
  · exact fun bare => counted ▸ if_pos bare

/-! ## Copying rows out -/

/-- A row is in the window as the grid says: from its first row on, up to one past its last. -/
theorem Represents.holds_iff (represents : Represents channels columns rowBudget grid window)
    (filled : grid.stride ≠ 0) {row : Nat} : window.Holds grid.stride row ↔
      grid.windowLo.toNat ≤ row ∧ row - grid.windowLo.toNat < grid.rows := by
  rw [Window.Holds, represents.length_cells, represents.lo]
  refine and_congr_right fun _ => ?_
  rw [Nat.mul_le_mul_right_iff (Nat.pos_of_ne_zero filled)]
  exact Nat.succ_le_iff

theorem holds_iff_windowHi (represents : Represents channels columns rowBudget grid window)
    (filled : grid.stride ≠ 0) {row : Nat} (below : row < 2 ^ 32 - 1) :
    window.Holds grid.stride row ↔
      grid.windowLo.toNat ≤ row ∧ row < grid.windowHi.toNat := by
  have lo := grid.windowLo.toNat_lt
  rw [represents.holds_iff filled, PatternGrid.windowHi, UInt32.toNat_ofNat']
  omega

theorem Represents.row (represents : Represents channels columns rowBudget grid window)
    (row : UInt32) (filled : grid.stride ≠ 0) : grid.row row = some (
      if window.Holds grid.stride row.toNat then
        some (block grid.stride (row.toNat - window.lo.toNat) window.cells)
      else none) := by
  have holds := @holds_iff _ _ _ _ _ represents filled row.toNat
  rw [PatternGrid.row]
  by_cases early : row < grid.windowLo
  · rw [if_pos early, if_neg fun inside => ?_]
    have := UInt32.lt_iff_toNat_lt.mp early
    have := (holds.mp inside).1
    omega
  · have late : grid.windowLo.toNat ≤ row.toNat :=
      Nat.not_lt.mp (mt UInt32.lt_iff_toNat_lt.mpr early)
    rw [if_neg early]
    dsimp only
    by_cases past : grid.rows ≤ row.toNat - grid.windowLo.toNat
    · rw [if_pos past, if_neg fun inside => absurd (holds.mp inside).2 (Nat.not_lt.mpr past)]
    · have inside := Nat.lt_of_not_le past
      rw [if_neg past, if_pos (holds.mpr ⟨late, inside⟩), slice?_block represents.fits inside,
        ← represents.shown, block_take (represents.lo ▸ inside), represents.lo, Option.map_some]

theorem Window.length_rowAt (stride : Nat) (window : Window) (row : Nat) :
    (window.rowAt stride row).length = stride := by
  rw [Window.rowAt]
  split
  · rename_i inside
    exact length_block inside.2 (Nat.lt_succ_self _)
  · exact List.length_replicate

/-- One row copied out is the window's. -/
theorem Represents.copyRow (represents : Represents channels columns rowBudget grid window)
    (filled : grid.stride ≠ 0) {lo : UInt32} {i : Nat} (inside : lo.toNat + i < 2 ^ 32) :
    grid.copyRow lo i = some (window.rowAt grid.stride (lo.toNat + i)) := by
  have past : (PatternGrid.rowsPast lo i).toNat = lo.toNat + i := by
    rw [PatternGrid.rowsPast, UInt32.toNat_ofNat']
    omega
  have length := window.length_rowAt grid.stride (lo.toNat + i)
  rw [PatternGrid.copyRow, represents.row _ filled, past, Option.bind_some]
  rw [Window.rowAt] at length ⊢
  by_cases holds : window.Holds grid.stride (lo.toNat + i)
  · rw [if_pos holds] at length
    rw [if_pos holds, if_pos holds]
    exact if_pos length
  · rw [if_neg holds, if_neg holds]

/-- Looking a row up takes no slice out of bounds. -/
theorem Represents.isSome_row (represents : Represents channels columns rowBudget grid window)
    (row : UInt32) : (grid.row row).isSome = true := by
  rw [PatternGrid.row]
  split
  · rfl
  · dsimp only
    split
    · rfl
    · rename_i inside
      rw [slice?_block represents.fits (Nat.lt_of_not_le inside)]
      rfl

/-- How many rows are copied into room for so many cells. -/
def rowsOut (stride : Nat) (lo hi : UInt32) (room : Nat) : Nat :=
  if stride = 0 then 0 else min (hi.toNat - lo.toNat) (room / stride)

/-- What copying rows out writes. -/
theorem Represents.copyRows_eq (represents : Represents channels columns rowBudget grid window)
    (lo hi : UInt32) (out : List GridCell) :
    let rows := rowsOut grid.stride lo hi out.length
    grid.copyRows lo hi out = some (rows * grid.stride,
      ((List.range rows).map fun i => window.rowAt grid.stride (lo.toNat + i)).flatten ++
        out.drop (rows * grid.stride)) := by
  intro rows
  rw [PatternGrid.copyRows]
  by_cases bare : grid.stride = 0
  · have none : rows = 0 := if_pos bare
    rw [if_pos (.inl bare), none]
    simp
  · have copied : rows = min (hi.toNat - lo.toNat) (out.length / grid.stride) := if_neg bare
    by_cases ends : hi ≤ lo
    · have none : rows = 0 := by
        have := UInt32.le_iff_toNat_le.mp ends
        omega
      rw [if_pos (.inr ends), none]
      simp
    · have room : rows * grid.stride ≤ out.length :=
        (Nat.mul_le_mul_right _ (copied ▸ Nat.min_le_right ..)).trans (Nat.div_mul_le_self ..)
      have each : ∀ i ∈ List.range rows,
          grid.copyRow lo i = some (window.rowAt grid.stride (lo.toNat + i)) := by
        intro i member
        refine represents.copyRow bare ?_
        have := List.mem_range.mp member
        have := hi.toNat_lt
        omega
      rw [if_neg (not_or.mpr ⟨bare, ends⟩)]
      dsimp only
      rw [← copied, slice?_zero room, Option.bind_some, mapM_eq_some each, Option.map_some]

/-- Copying rows out writes whole rows and stays within the output: the window's rows, and blanks
outside it. -/
theorem Represents.copyRows (represents : Represents channels columns rowBudget grid window)
    (lo hi : UInt32) (out : List GridCell) :
    ∃ after, grid.copyRows lo hi out =
        some (rowsOut grid.stride lo hi out.length * grid.stride, after) ∧
      rowsOut grid.stride lo hi out.length * grid.stride ≤ out.length ∧
      after.length = out.length ∧
      after.drop (rowsOut grid.stride lo hi out.length * grid.stride) =
        out.drop (rowsOut grid.stride lo hi out.length * grid.stride) ∧
      ∀ i < rowsOut grid.stride lo hi out.length,
        block grid.stride i after = window.rowAt grid.stride (lo.toNat + i) := by
  have copied := represents.copyRows_eq lo hi out
  generalize size : rowsOut grid.stride lo hi out.length = rows at copied
  have room : rows * grid.stride ≤ out.length := by
    rw [← size, rowsOut]
    split
    · simp
    · exact (Nat.mul_le_mul_right _ (Nat.min_le_right ..)).trans (Nat.div_mul_le_self ..)
  have each : ∀ part ∈ (List.range rows).map fun i => window.rowAt grid.stride (lo.toNat + i),
      part.length = grid.stride := by
    intro part member
    obtain ⟨i, -, rfl⟩ := List.mem_map.mp member
    exact window.length_rowAt grid.stride _
  have length := length_flatten each
  rw [List.length_map, List.length_range] at length
  refine ⟨_, copied, room, ?_, ?_, fun i inside => block_flatten each _ i _ ?_⟩
  · rw [List.length_append, length, List.length_drop]
    omega
  · rw [← length, List.drop_left]
  · rw [List.getElem?_map, List.getElem?_range inside, Option.map_some]

/-! ## Every run -/

/-- The grids of one layout that a run leads to, the room each has, and the window each shows. -/
inductive Reached (channels : Nat) (columns : List GridColumn) :
    Nat → PatternGrid → Window → Prop where
  | new (rowBudget : Nat) :
      Reached channels columns rowBudget (.new channels columns rowBudget) ⟨0, [], none⟩
  | loaded {rowBudget : Nat} {grid after : PatternGrid} {window : Window}
      (earlier : Reached channels columns rowBudget grid window) (windowLo cursor : UInt32)
      (cells : List PatternCell) (loaded : grid.load windowLo cursor cells = some after) :
      Reached channels columns rowBudget after
        (window.load (channels * columns.length) rowBudget columns windowLo cells)
  | filled {rowBudget : Nat} {grid after : PatternGrid} {window : Window}
      (earlier : Reached channels columns rowBudget grid window) (snapshot : VizSnapshot)
      (changed : Bool) (filled : grid.fillFrom snapshot = some (after, changed)) :
      Reached channels columns rowBudget after
        (window.fill (channels * columns.length) rowBudget columns snapshot)
  | copied {rowBudget otherBudget : Nat} {grid other after : PatternGrid}
      {window otherWindow : Window} (earlier : Reached channels columns rowBudget grid window)
      (theirs : Reached channels columns otherBudget other otherWindow)
      (copied : grid.copyFrom other = some after) :
      Reached channels columns rowBudget after
        (otherWindow.cut (channels * columns.length) rowBudget)

/-- A grid shows the window that its run has made of it. -/
theorem Reached.represents (reached : Reached channels columns rowBudget grid window) :
    Represents channels columns rowBudget grid window := by
  induction reached with
  | new rowBudget => exact represents_new channels columns rowBudget
  | loaded earlier windowLo cursor cells loaded ih =>
      obtain ⟨after, same, shows⟩ := ih.load windowLo cursor cells
      rw [loaded] at same
      cases same
      exact ih.stride ▸ shows
  | filled earlier snapshot changed filled ih =>
      obtain ⟨after, changed, same, shows⟩ := ih.fill snapshot
      rw [filled] at same
      cases same
      exact ih.stride ▸ shows
  | copied earlier theirs copied ih ih' =>
      obtain ⟨after, same, shows⟩ := ih.copy ih'
      rw [copied] at same
      cases same
      exact ih.stride ▸ shows

/-- A copy into a grid of the same room shows the same window. -/
theorem cut_of_capacity (represents : Represents channels columns rowBudget grid window)
    (theirs : Represents channels columns otherBudget other otherWindow)
    (room : grid.cells.length = other.cells.length) :
    otherWindow.cut grid.stride rowBudget = otherWindow := by
  have whole : otherWindow.cells.length ≤ rowBudget * grid.stride := by
    rw [theirs.length_cells, ← represents.capacity, room]
    exact theirs.fits
  rw [Window.cut, List.take_of_length_le whole]

/-- **The pattern grid is safe and exact.** In every grid that a run of new grids, loads, fills
and copies between grids of one layout leads to: the window's cells fit the storage, no operation
takes a slice out of bounds, and copying rows `lo` up to `hi` out writes whole rows and no more
than there is room for, row `lo + i` of the window in each or blanks outside it. A copy into a
grid of the same room has the same window, and answers every copying of rows alike. -/
theorem grid_window_exact (reached : Reached channels columns rowBudget grid window) :
    (grid.rows * grid.stride ≤ grid.cells.length ∧ grid.populated = some window.cells) ∧
    ((∀ windowLo cursor cells, (grid.load windowLo cursor cells).isSome = true) ∧
      (∀ snapshot, (grid.fillFrom snapshot).isSome = true) ∧
      ∀ row, (grid.row row).isSome = true) ∧
    (∀ lo hi out, ∃ after, grid.copyRows lo hi out =
        some (rowsOut grid.stride lo hi out.length * grid.stride, after) ∧
      rowsOut grid.stride lo hi out.length * grid.stride ≤ out.length ∧
      after.length = out.length ∧
      after.drop (rowsOut grid.stride lo hi out.length * grid.stride) =
        out.drop (rowsOut grid.stride lo hi out.length * grid.stride) ∧
      ∀ i < rowsOut grid.stride lo hi out.length, block grid.stride i after =
        if grid.windowLo.toNat ≤ lo.toNat + i ∧ lo.toNat + i < grid.windowHi.toNat then
          block grid.stride (lo.toNat + i - grid.windowLo.toNat) window.cells
        else List.replicate grid.stride {}) ∧
    ∀ otherBudget other otherWindow, Reached channels columns otherBudget other otherWindow →
      ∃ after, grid.copyFrom other = some after ∧
        (grid.cells.length = other.cells.length → after.windowLo = other.windowLo ∧
          after.rows = other.rows ∧
          ∀ lo hi out, after.copyRows lo hi out = other.copyRows lo hi out) := by
  have represents := reached.represents
  refine ⟨⟨represents.fits, represents.populated⟩, ⟨fun windowLo cursor cells => ?_,
    fun snapshot => ?_, fun row => ?_⟩, fun lo hi out => ?_,
    fun otherBudget other otherWindow theirs => ?_⟩
  · obtain ⟨after, loaded, -⟩ := represents.load windowLo cursor cells
    rw [loaded]
    rfl
  · obtain ⟨after, changed, filled, -⟩ := represents.fill snapshot
    rw [filled]
    rfl
  · exact represents.isSome_row row
  · obtain ⟨after, copied, room, length, rest, rows⟩ := represents.copyRows lo hi out
    refine ⟨after, copied, room, length, rest, fun i inside => ?_⟩
    obtain ⟨filled, below⟩ : grid.stride ≠ 0 ∧ lo.toNat + i < 2 ^ 32 - 1 := by
      have top := hi.toNat_lt
      unfold rowsOut at inside
      split at inside
      · omega
      · exact ⟨‹_›, by omega⟩
    rw [rows i inside, Window.rowAt, represents.lo]
    exact if_congr (represents.lo ▸ holds_iff_windowHi represents filled below) rfl rfl
  · have theirs := theirs.represents
    obtain ⟨after, copied, shows⟩ := represents.copy theirs
    refine ⟨after, copied, fun room => ?_⟩
    rw [cut_of_capacity represents theirs room] at shows
    have stride : after.stride = other.stride := shows.stride.trans theirs.stride.symm
    have size := shows.length_cells.symm.trans theirs.length_cells
    refine ⟨shows.lo.trans theirs.lo.symm, ?_, fun lo hi out => ?_⟩
    · by_cases bare : other.stride = 0
      · rw [shows.bare (stride.trans bare), theirs.bare bare]
      · rw [stride] at size
        exact Nat.eq_of_mul_eq_mul_right (Nat.pos_of_ne_zero bare) size
    · rw [shows.copyRows_eq, theirs.copyRows_eq, stride]

end Refinement

/-- The text of a cell. -/
def textOf (bytes : List UInt8) : Vector UInt8 16 :=
  ⟨((bytes ++ List.replicate 16 0).take 16).toArray, by simp⟩

/-- A grid that was given one row and half of another. -/
theorem grid_window_exact_loaded : ∃ (grid : PatternGrid) (window : Window),
    Reached 2 [⟨3, .note⟩] 4 grid window ∧ grid.rows = 1 ∧
      grid.populated = some [⟨CellClass.note.code, textOf [0x43, 0x2D, 0x34]⟩,
        ⟨CellClass.noteOff.code, textOf [0x3D, 0x3D, 0x3D]⟩] := by
  let cells : List PatternCell := [⟨textOf [0x43, 0x2D, 0x34]⟩, ⟨textOf [0x3D, 0x3D, 0x3D]⟩,
    ⟨textOf [0x2E, 0x2E, 0x2E]⟩]
  obtain ⟨grid, loaded, shows⟩ := (represents_new 2 [⟨3, .note⟩] 4).load 4 7 cells
  have reached : Reached 2 [⟨3, .note⟩] 4 grid _ := .loaded (.new 4) 4 7 cells loaded
  obtain ⟨⟨-, populated⟩, -⟩ := grid_window_exact reached
  refine ⟨grid, _, reached, ?_, populated.trans (by decide)⟩
  have size := shows.length_cells
  rw [shows.stride] at size
  have row : grid.rows * 2 = 2 := size.symm.trans (by decide)
  omega

end Retrovert.Present
