import Mathlib.Algebra.Group.Nat.Basic
import TLBlur.Attack.JpegState
import TLBlur.Profiler.Dump

namespace TLBlur
namespace Attack

/-!
# Reconstructing the image from the fault sequence

`JpegReconstruct` turns the transitions of the attack's state machine into
pixel data.  Leaving a `DataCount n` state for the next block or the next row
commits `n` as one block: it is appended to the current row of the current
colour channel, and the colour advances modulo the number of channels.  The
step from `NextRow` to `StartRow` opens a new row in every channel.

Both the trace replay of `attack_vcd` and the live fault handler drive the
reconstruction the same way: the new state is `next` of the old one on the
faulting page, and `reconstruct` is told of the pair.  Over every fault
sequence the replay indexes only inside the buffer, and the buffer is laid
out as the commit log of the sequence says: each committed value is the
number of data faults since `IdctSlow` was entered, it sits in the row of the
row steps made before it, and in the channel of its commit index.

The scale and offset fields of the source are read by nothing modelled here
and are left out, as is the progress bar that `reconstruct_block` ticks.
-/

/-- `usize::MAX`, the initial minimum. -/
def usizeMax : Nat := 2 ^ 64 - 1

/-- The reconstruction buffer `[color][row][column]` and its bookkeeping. -/
structure JpegReconstruct where
  currentColor : Nat
  numColors : Nat
  reconstructedBuffer : List (List (List Nat))
  maxData : Nat
  minData : Nat
  currentRow : Nat
  deriving DecidableEq, Repr

namespace JpegReconstruct

/-- One colour channel per colour, each with one empty row. -/
def new (numColors : Nat) : JpegReconstruct where
  currentColor := 0
  numColors := numColors
  reconstructedBuffer := List.replicate numColors [[]]
  maxData := 1
  minData := usizeMax
  currentRow := 0

/-- `next_row`: push an empty row onto channels `0 .. num_colors`; indexing a
channel past the end of the buffer panics. -/
def nextRow (r : JpegReconstruct) : Option JpegReconstruct :=
  if r.numColors ≤ r.reconstructedBuffer.length then
    some { r with
      reconstructedBuffer := r.reconstructedBuffer.mapIdx fun color channel =>
        if color < r.numColors then channel ++ [[]] else channel
      currentRow := r.currentRow + 1 }
  else none

/-- `reconstruct_block`: track the extremes, append the count to the current
row of the current channel and advance the colour.  Indexing past the buffer
and the remainder by zero colours panic. -/
def reconstructBlock (r : JpegReconstruct) (numData : Nat) : Option JpegReconstruct := do
  let channel ← r.reconstructedBuffer[r.currentColor]?
  let _ ← channel[r.currentRow]?
  if r.numColors = 0 then none
  pure { r with
    maxData := max r.maxData numData
    minData := min r.minData numData
    reconstructedBuffer :=
      r.reconstructedBuffer.modify (·.modify (· ++ [numData]) r.currentRow) r.currentColor
    currentColor := (r.currentColor + 1) % r.numColors }

/-- `reconstruct`: commit the count when a `DataCount` state is left, and
open a row on the step from `NextRow` to `StartRow`. -/
def reconstruct (r : JpegReconstruct) (prevState newState : JpegState) :
    Option JpegReconstruct := do
  let r ← match prevState with
    | .dataCount dataCount => if newState.isDataCount then pure r else r.reconstructBlock dataCount
    | _ => pure r
  if prevState = .nextRow ∧ newState = .startRow then r.nextRow else pure r

theorem reconstruct_dataCount (r : JpegReconstruct) (count : Nat) (newState : JpegState) :
    r.reconstruct (.dataCount count) newState =
      if newState.isDataCount then some r else r.reconstructBlock count := by
  unfold reconstruct
  cases newState.isDataCount <;> simp

theorem reconstruct_nextRow (r : JpegReconstruct) (newState : JpegState) :
    r.reconstruct .nextRow newState = if newState = .startRow then r.nextRow else some r := by
  simp [reconstruct]

/-- Any other state leaves the reconstruction as it is. -/
theorem reconstruct_of_idle (r : JpegReconstruct) {prevState : JpegState}
    (notData : prevState.isDataCount = false) (notRow : prevState ≠ .nextRow)
    (newState : JpegState) : r.reconstruct prevState newState = some r := by
  cases prevState <;> simp_all [reconstruct, JpegState.isDataCount]

end JpegReconstruct

/-- One fault of a replay: advance the state machine, then notify the
reconstruction of the transition. -/
def replayStep (hasAexnotify : Bool) (acc : JpegState × JpegReconstruct) (page : Nat) :
    Option (JpegState × JpegReconstruct) := do
  let newState := acc.1.next page hasAexnotify
  let r ← acc.2.reconstruct acc.1 newState
  pure (newState, r)

/-- The replay loop of `attack_vcd` (and of the live handler) over a fault sequence. -/
def replay (numColors : Nat) (hasAexnotify : Bool) (pages : List Nat) :
    Option (JpegState × JpegReconstruct) :=
  pages.foldlM (replayStep hasAexnotify) (.preStart, JpegReconstruct.new numColors)

/-- The faults `attack_vcd` reads from a trace: the rising edges of the wires
named `_0` to `_9998`. -/
def vcdPages (commands : List Profiler.Command) : List Nat :=
  commands.filterMap fun
    | .changeScalar wire true => if wire < 9999 then some wire else none
    | _ => none

/-- `attack_vcd` on a parsed trace. -/
def attackVcd (numColors : Nat) (hasAexnotify : Bool) (commands : List Profiler.Command) :
    Option (JpegState × JpegReconstruct) :=
  replay numColors hasAexnotify (vcdPages commands)

/-! ## What a replay should reconstruct -/

/-- One fault of a replay, with the states before and after it. -/
structure Step where
  before : JpegState
  after : JpegState
  page : Nat
  deriving DecidableEq, Repr

namespace Step

/-- The step leaves a `DataCount` state for the next block or the next row. -/
def commits (step : Step) : Bool :=
  step.before.isDataCount && (step.after == .preIdctSlow || step.after == .nextRow)

def advancesRow (step : Step) : Bool := step.before == .nextRow && step.after == .startRow

def entersIdctSlow (step : Step) : Bool := step.before != .idctSlow && step.after == .idctSlow

end Step

/-- The steps of a replay from `state` over `pages`. -/
def stepsFrom (hasAexnotify : Bool) : JpegState → List Nat → List Step
  | _, [] => []
  | state, page :: rest =>
    ⟨state, state.next page hasAexnotify, page⟩ :: stepsFrom hasAexnotify (state.next page hasAexnotify) rest

def steps (hasAexnotify : Bool) (pages : List Nat) : List Step := stepsFrom hasAexnotify .preStart pages

/-- The number of row steps in a history. -/
def rowSteps (history : List Step) : Nat := (history.filter Step.advancesRow).length

/-- The number of faults in the data range since the most recent step that
entered `IdctSlow`. -/
def dataSinceIdctSlow (hasAexnotify : Bool) (history : List Step) : Nat :=
  ((history.reverse.takeWhile fun step => !step.entersIdctSlow).filter fun step =>
    (JpegState.dataRange hasAexnotify).contains step.page).length

/-- The commits of the steps `history`, which follow the steps `before`: for
each committing step, the data faults since `IdctSlow` and the row steps
before it. -/
def commitLogFrom (hasAexnotify : Bool) : List Step → List Step → List (Nat × Nat)
  | _, [] => []
  | before, step :: rest =>
    (if step.commits then
      [(dataSinceIdctSlow hasAexnotify (before ++ [step]), rowSteps before)] else []) ++
    commitLogFrom hasAexnotify (before ++ [step]) rest

/-- The blocks a history commits, in order: value and row. -/
def commitLog (hasAexnotify : Bool) (history : List Step) : List (Nat × Nat) :=
  commitLogFrom hasAexnotify [] history

/-- The values committed to `row` whose commit index is `color` modulo the
number of colours, in commit order. -/
def channelRow (numColors : Nat) (log : List (Nat × Nat)) (color row : Nat) : List Nat :=
  (log.enum.filter fun entry => entry.2.2 = row ∧ entry.1 % numColors = color).map
    fun entry => entry.2.1

theorem rowSteps_append_single (history : List Step) (step : Step) :
    rowSteps (history ++ [step]) = rowSteps history + if step.advancesRow then 1 else 0 := by
  cases advances : step.advancesRow <;> simp [rowSteps, advances]

theorem dataSinceIdctSlow_append_single (hasAexnotify : Bool) (history : List Step) (step : Step) :
    dataSinceIdctSlow hasAexnotify (history ++ [step]) =
      if step.entersIdctSlow then 0
      else dataSinceIdctSlow hasAexnotify history +
        if (JpegState.dataRange hasAexnotify).contains step.page then 1 else 0 := by
  unfold dataSinceIdctSlow
  rw [List.reverse_append, List.reverse_singleton, List.singleton_append, List.takeWhile_cons]
  cases enters : step.entersIdctSlow <;>
    cases data : (JpegState.dataRange hasAexnotify).contains step.page <;>
    simp [enters, data, List.filter_cons]

theorem commitLogFrom_append_single (hasAexnotify : Bool) (before history : List Step)
    (step : Step) :
    commitLogFrom hasAexnotify before (history ++ [step]) =
      commitLogFrom hasAexnotify before history ++
        if step.commits then
          [(dataSinceIdctSlow hasAexnotify (before ++ history ++ [step]), rowSteps (before ++ history))]
        else [] := by
  induction history generalizing before with
  | nil => simp [commitLogFrom]
  | cons first rest ih => simp [commitLogFrom, ih, List.append_assoc]

theorem commitLog_append_single (hasAexnotify : Bool) (history : List Step) (step : Step) :
    commitLog hasAexnotify (history ++ [step]) =
      commitLog hasAexnotify history ++
        if step.commits then
          [(dataSinceIdctSlow hasAexnotify (history ++ [step]), rowSteps history)]
        else [] := by
  simpa using commitLogFrom_append_single hasAexnotify [] history step

theorem channelRow_append_single (numColors : Nat) (log : List (Nat × Nat))
    (value row color position : Nat) :
    channelRow numColors (log ++ [(value, row)]) color position =
      channelRow numColors log color position ++
        if row = position ∧ log.length % numColors = color then [value] else [] := by
  unfold channelRow
  rw [List.enum_append, List.enumFrom_singleton, List.filter_append, List.map_append]
  by_cases selected : row = position ∧ log.length % numColors = color <;>
    simp [selected, List.filter_cons]

theorem channelRow_eq_nil {numColors : Nat} {log : List (Nat × Nat)} {row : Nat}
    (below : ∀ entry ∈ log, entry.2 ≤ row) (color : Nat) :
    channelRow numColors log color (row + 1) = [] := by
  simp only [channelRow, List.map_eq_nil_iff, List.filter_eq_nil_iff, decide_eq_true_eq, not_and]
  intro entry member later
  have := below entry.2 (List.snd_mem_of_mem_enum member)
  omega

theorem getD_modify {α : Type} (l : List α) (f : α → α) (index position : Nat) (fallback : α)
    (inBounds : position < l.length) :
    (l.modify f index).getD position fallback =
      if index = position then f (l.getD position fallback) else l.getD position fallback := by
  simp only [List.getD_eq_getElem?_getD, List.getElem?_modify, List.getElem?_eq_getElem inBounds]
  split <;> rfl

/-! ## The layout invariant -/

/-- A reconstruction laid out as the commit log `log` says, after `rows` row
steps: every channel has `rows + 1` rows, each row lists the values its
commits put there, the colour is the commit count modulo the colours, and
the extremes are those of the committed values. -/
structure Layout (numColors rows : Nat) (log : List (Nat × Nat)) (r : JpegReconstruct) :
    Prop where
  numColors_eq : r.numColors = numColors
  currentRow_eq : r.currentRow = rows
  currentColor_eq : r.currentColor = log.length % numColors
  length_eq : r.reconstructedBuffer.length = numColors
  rows_eq : ∀ color < numColors, (r.reconstructedBuffer.getD color []).length = rows + 1
  row_eq : ∀ color < numColors, ∀ row ≤ rows,
    (r.reconstructedBuffer.getD color []).getD row [] = channelRow numColors log color row
  minData_eq : r.minData = (log.map Prod.fst).foldl min usizeMax
  maxData_eq : r.maxData = (log.map Prod.fst).foldl max 1
  rows_le : ∀ entry ∈ log, entry.2 ≤ rows

theorem layout_new (numColors : Nat) : Layout numColors 0 [] (JpegReconstruct.new numColors) where
  numColors_eq := rfl
  currentRow_eq := rfl
  currentColor_eq := by simp [JpegReconstruct.new]
  length_eq := by simp [JpegReconstruct.new]
  rows_eq color inBounds := by simp [JpegReconstruct.new, List.getElem?_replicate, inBounds]
  row_eq color inBounds row first := by
    simp [JpegReconstruct.new, List.getElem?_replicate, inBounds, Nat.le_zero.mp first, channelRow]
  minData_eq := rfl
  maxData_eq := rfl
  rows_le := by simp

/-- A commit of `value` keeps the layout: the value is logged in the current
row, and the colour moves on. -/
theorem Layout.reconstructBlock {numColors rows : Nat} {log : List (Nat × Nat)}
    {r : JpegReconstruct} (layout : Layout numColors rows log r) (colors : 1 ≤ numColors)
    (value : Nat) :
    ∃ r', r.reconstructBlock value = some r' ∧ Layout numColors rows (log ++ [(value, rows)]) r' := by
  have colorBound : r.currentColor < r.reconstructedBuffer.length := by
    rw [layout.currentColor_eq, layout.length_eq]; exact Nat.mod_lt _ colors
  have channelRows := layout.rows_eq _ (layout.length_eq ▸ colorBound)
  have rowBound : r.currentRow < r.reconstructedBuffer[r.currentColor].length := by
    rw [List.getD_eq_getElem?_getD, List.getElem?_eq_getElem colorBound, Option.getD_some]
      at channelRows
    rw [channelRows, layout.currentRow_eq]; omega
  simp only [JpegReconstruct.reconstructBlock, List.getElem?_eq_getElem colorBound,
    layout.numColors_eq, Nat.pos_iff_ne_zero.mp colors, if_false, Option.bind_eq_bind,
    Option.some_bind, List.getElem?_eq_getElem rowBound, Option.pure_def]
  refine ⟨_, rfl, {
    numColors_eq := rfl
    currentRow_eq := layout.currentRow_eq
    currentColor_eq := by simp [layout.currentColor_eq, Nat.mod_add_mod]
    length_eq := by simp [layout.length_eq]
    rows_eq := fun color inBounds => ?_
    row_eq := fun color inBounds row within => ?_
    minData_eq := by simp [layout.minData_eq, List.foldl_append]
    maxData_eq := by simp [layout.maxData_eq, List.foldl_append]
    rows_le := fun entry member => ?_ }⟩
  · rw [getD_modify _ _ _ _ _ (layout.length_eq ▸ inBounds)]
    split <;> simp only [List.length_modify, layout.rows_eq color inBounds]
  · rw [getD_modify _ _ _ _ _ (layout.length_eq ▸ inBounds), channelRow_append_single]
    have rowsBound := layout.rows_eq color inBounds
    by_cases sameColor : r.currentColor = color
    · rw [if_pos sameColor, getD_modify _ _ _ _ _ (by omega), ← layout.row_eq color inBounds row within]
      subst sameColor
      by_cases sameRow : r.currentRow = row
      · simp [← layout.currentRow_eq, sameRow, layout.currentColor_eq]
      · simp [← layout.currentRow_eq, sameRow]
    · rw [if_neg sameColor, layout.row_eq color inBounds row within]
      simp [← layout.currentColor_eq, sameColor]
  · rcases List.mem_append.mp member with old | new
    · exact layout.rows_le entry old
    · simp [List.mem_singleton.mp new]

/-- A row step keeps the layout: every channel gets an empty row, which no
commit has reached yet. -/
theorem Layout.nextRow {numColors rows : Nat} {log : List (Nat × Nat)} {r : JpegReconstruct}
    (layout : Layout numColors rows log r) :
    ∃ r', r.nextRow = some r' ∧ Layout numColors (rows + 1) log r' := by
  have channel : ∀ color < numColors,
      (r.reconstructedBuffer.mapIdx fun color channel =>
          if color < r.numColors then channel ++ [[]] else channel).getD color [] =
        r.reconstructedBuffer.getD color [] ++ [[]] := fun color inBounds => by
    simp [List.getElem?_eq_getElem (layout.length_eq ▸ inBounds), layout.numColors_eq, inBounds]
  rw [JpegReconstruct.nextRow, if_pos (by rw [layout.numColors_eq, layout.length_eq])]
  refine ⟨_, rfl, {
    numColors_eq := layout.numColors_eq
    currentRow_eq := by simp [layout.currentRow_eq]
    currentColor_eq := layout.currentColor_eq
    length_eq := by simp [layout.length_eq]
    rows_eq := fun color inBounds => by
      simp only [channel color inBounds, List.length_append, layout.rows_eq color inBounds,
        List.length_singleton]
    row_eq := fun color inBounds row within => ?_
    minData_eq := layout.minData_eq
    maxData_eq := layout.maxData_eq
    rows_le := fun entry member => Nat.le_succ_of_le (layout.rows_le entry member) }⟩
  rw [channel color inBounds]
  have rowsBound := layout.rows_eq color inBounds
  rcases Nat.lt_or_ge row (rows + 1) with old | new
  · have inside : row < (r.reconstructedBuffer.getD color []).length := by omega
    rw [List.getD_eq_getElem?_getD (r.reconstructedBuffer.getD color [] ++ [[]]),
      List.getElem?_append_left inside, ← List.getD_eq_getElem?_getD]
    exact layout.row_eq color inBounds row (by omega)
  · obtain rfl : row = rows + 1 := by omega
    rw [channelRow_eq_nil layout.rows_le,
      List.getD_eq_getElem?_getD (r.reconstructedBuffer.getD color [] ++ [[]]),
      List.getElem?_append_right rowsBound.le, rowsBound]
    simp

/-- One replayed fault keeps the layout: the reconstruction takes the step's
commit, if any, and its row step, if any. -/
theorem Layout.reconstruct {numColors : Nat} {hasAexnotify : Bool} {history : List Step}
    {state : JpegState} {r : JpegReconstruct}
    (layout : Layout numColors (rowSteps history) (commitLog hasAexnotify history) r)
    (colors : 1 ≤ numColors)
    (counting : ∀ count, state = .dataCount count → dataSinceIdctSlow hasAexnotify history = count)
    (page : Nat) :
    let step : Step := ⟨state, state.next page hasAexnotify, page⟩
    ∃ r', r.reconstruct state step.after = some r' ∧
      Layout numColors (rowSteps (history ++ [step])) (commitLog hasAexnotify (history ++ [step])) r' := by
  simp only [rowSteps_append_single, commitLog_append_single, dataSinceIdctSlow_append_single]
  cases state with
  | dataCount count =>
    rcases JpegState.next_dataCount_cases count page hasAexnotify with
      ⟨data, moved⟩ | ⟨data, moved | moved | moved⟩ <;>
    simp only [moved, JpegReconstruct.reconstruct_dataCount]
    · exact ⟨r, rfl, by simpa [Step.commits, Step.advancesRow] using layout⟩
    · simpa [Step.commits, Step.advancesRow, Step.entersIdctSlow, JpegState.isDataCount, data,
        counting count rfl] using layout.reconstructBlock colors count
    · simpa [Step.commits, Step.advancesRow, Step.entersIdctSlow, JpegState.isDataCount, data,
        counting count rfl] using layout.reconstructBlock colors count
    · exact ⟨r, rfl, by simpa [Step.commits, Step.advancesRow] using layout⟩
  | nextRow =>
    rw [JpegReconstruct.reconstruct_nextRow]
    by_cases opens : JpegState.nextRow.next page hasAexnotify = .startRow
    · rw [if_pos opens]
      simpa [Step.commits, Step.advancesRow, JpegState.isDataCount, opens] using layout.nextRow
    · rw [if_neg opens]
      exact ⟨r, rfl, by simpa [Step.commits, Step.advancesRow, JpegState.isDataCount, opens] using layout⟩
  | _ =>
    refine ⟨r, JpegReconstruct.reconstruct_of_idle r (by rfl) (by decide) _, ?_⟩
    simpa [Step.commits, Step.advancesRow, JpegState.isDataCount] using layout

/-- Any notification, of any pair of states, keeps some layout over the same
colours: it commits a block, opens a row, or changes nothing. -/
theorem Layout.reconstruct_any {numColors rows : Nat} {log : List (Nat × Nat)}
    {r : JpegReconstruct} (layout : Layout numColors rows log r) (colors : 1 ≤ numColors)
    (prevState newState : JpegState) :
    ∃ r' rows' log', r.reconstruct prevState newState = some r' ∧ Layout numColors rows' log' r' := by
  cases prevState with
  | dataCount count =>
    rw [JpegReconstruct.reconstruct_dataCount]
    split
    · exact ⟨r, rows, log, rfl, layout⟩
    · obtain ⟨r', committed, layout'⟩ := layout.reconstructBlock colors count
      exact ⟨r', _, _, committed, layout'⟩
  | nextRow =>
    rw [JpegReconstruct.reconstruct_nextRow]
    split
    · obtain ⟨r', opened, layout'⟩ := layout.nextRow
      exact ⟨r', _, _, opened, layout'⟩
    · exact ⟨r, rows, log, rfl, layout⟩
  | _ => exact ⟨r, rows, log, JpegReconstruct.reconstruct_of_idle r (by rfl) (by decide) _, layout⟩

/-- One replayed fault keeps the count of a `DataCount` state, and the zero
count of `IdctSlow`, equal to the data faults since `IdctSlow` was entered. -/
theorem counting_next {hasAexnotify : Bool} {history : List Step} {state : JpegState}
    (counting : ∀ count, state = .dataCount count → dataSinceIdctSlow hasAexnotify history = count)
    (idle : state = .idctSlow → dataSinceIdctSlow hasAexnotify history = 0) (page : Nat) :
    let step : Step := ⟨state, state.next page hasAexnotify, page⟩
    (∀ count, step.after = .dataCount count →
      dataSinceIdctSlow hasAexnotify (history ++ [step]) = count) ∧
    (step.after = .idctSlow → dataSinceIdctSlow hasAexnotify (history ++ [step]) = 0) := by
  simp only [dataSinceIdctSlow_append_single]
  cases state with
  | dataCount count =>
    rcases JpegState.next_dataCount_cases count page hasAexnotify with
      ⟨data, moved⟩ | ⟨data, moved | moved | moved⟩ <;>
    simp [moved, Step.entersIdctSlow, data, counting count rfl]
  | idctSlow =>
    by_cases data : (JpegState.dataRange hasAexnotify).contains page = true <;>
      simp [JpegState.next_idctSlow, Step.entersIdctSlow, data, idle rfl]
  | _ =>
    refine ⟨fun count reached => ?_, fun entered => by simp [Step.entersIdctSlow, entered]⟩
    have reachedData : (JpegState.dataCount count).isDataCount = true := rfl
    rw [← reached] at reachedData
    simpa [JpegState.isDataCount] using JpegState.isDataCount_next reachedData

/-- The replay invariant: the reconstruction is laid out as the history's
commit log says, and the count of the current state is that of the data
faults since `IdctSlow` was entered. -/
structure Consistent (numColors : Nat) (hasAexnotify : Bool) (history : List Step)
    (state : JpegState) (r : JpegReconstruct) : Prop where
  layout : Layout numColors (rowSteps history) (commitLog hasAexnotify history) r
  counting : ∀ count, state = .dataCount count → dataSinceIdctSlow hasAexnotify history = count
  idle : state = .idctSlow → dataSinceIdctSlow hasAexnotify history = 0

theorem consistent_new (numColors : Nat) (hasAexnotify : Bool) :
    Consistent numColors hasAexnotify [] .preStart (JpegReconstruct.new numColors) where
  layout := layout_new numColors
  counting _ start := nomatch start
  idle start := nomatch start

theorem Consistent.next {numColors : Nat} {hasAexnotify : Bool} {history : List Step}
    {state : JpegState} {r : JpegReconstruct}
    (consistent : Consistent numColors hasAexnotify history state r) (colors : 1 ≤ numColors)
    (page : Nat) :
    ∃ r', replayStep hasAexnotify (state, r) page = some (state.next page hasAexnotify, r') ∧
      Consistent numColors hasAexnotify (history ++ [⟨state, state.next page hasAexnotify, page⟩])
        (state.next page hasAexnotify) r' := by
  obtain ⟨r', reconstructs, layout⟩ := consistent.layout.reconstruct colors consistent.counting page
  obtain ⟨counting, idle⟩ := counting_next consistent.counting consistent.idle page
  exact ⟨r', by simp [replayStep, reconstructs], layout, counting, idle⟩

/-- The invariant holds after every fault sequence, and the replay of the
sequence never fails. -/
theorem Consistent.run {numColors : Nat} {hasAexnotify : Bool} (colors : 1 ≤ numColors)
    (pages : List Nat) {history : List Step} {state : JpegState} {r : JpegReconstruct}
    (consistent : Consistent numColors hasAexnotify history state r) :
    ∃ state' r', pages.foldlM (replayStep hasAexnotify) (state, r) = some (state', r') ∧
      Consistent numColors hasAexnotify (history ++ stepsFrom hasAexnotify state pages) state' r' := by
  induction pages generalizing history state r with
  | nil => exact ⟨state, r, rfl, by simpa [stepsFrom] using consistent⟩
  | cons page rest ih =>
    obtain ⟨r₁, stepped, consistent₁⟩ := consistent.next colors page
    obtain ⟨state', r', ran, consistent'⟩ := ih consistent₁
    exact ⟨state', r', by simp [List.foldlM_cons, stepped, ran],
      by simpa [stepsFrom] using consistent'⟩

theorem replay_reconstructs (numColors : Nat) (colors : 1 ≤ numColors) (hasAexnotify : Bool)
    (pages : List Nat) :
    ∃ state r, replay numColors hasAexnotify pages = some (state, r) ∧
      Layout numColors (rowSteps (steps hasAexnotify pages))
        (commitLog hasAexnotify (steps hasAexnotify pages)) r := by
  obtain ⟨state, r, ran, consistent⟩ :=
    (consistent_new numColors hasAexnotify).run colors pages
  exact ⟨state, r, ran, by simpa [steps] using consistent.layout⟩

theorem replay_reconstructs_one_block :
    ∃ state r, replay 1 false [54, 58, 63, 150, 151, 200, 59] = some (state, r) ∧
      Layout 1 (rowSteps (steps false [54, 58, 63, 150, 151, 200, 59]))
        (commitLog false (steps false [54, 58, 63, 150, 151, 200, 59])) r :=
  replay_reconstructs 1 (by decide) false [54, 58, 63, 150, 151, 200, 59]

end Attack
end TLBlur
