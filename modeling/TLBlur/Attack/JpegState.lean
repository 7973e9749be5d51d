import Mathlib.Data.List.Basic

namespace TLBlur
namespace Attack

/-!
# The page-fault state machine of the libjpeg attack

Each state of the attack owns a range of enclave pages.  A fault on a page
moves the machine to the first of the current state's successors whose range
contains the page, and leaves it where it is otherwise.  The inverse-DCT loop
is followed through `IdctSlow`, which a fault in the data range turns into
`DataCount 1`; every further data fault increments the count, and a fault in
the range of `PreIdctSlow` or `NextRow` ends the block.

The data range is the only range that depends on the build: it is shorter
when AEX-Notify is active.  The ranges of the successors of every state are
disjoint, so the order of the successor list never decides a transition.
-/

/-- `Range<usize>`: the pages `start ≤ page < stop` (`end` in the source). -/
structure PageRange where
  start : Nat
  stop : Nat
  deriving DecidableEq, Repr

namespace PageRange

def contains (range : PageRange) (page : Nat) : Bool := range.start ≤ page && page < range.stop

def len (range : PageRange) : Nat := range.stop - range.start

theorem contains_eq_true_iff {range : PageRange} {page : Nat} :
    range.contains page = true ↔ range.start ≤ page ∧ page < range.stop := by
  simp [contains]

end PageRange

/-- The states of the attack. -/
inductive JpegState
  | preStart
  | start
  | nextRow
  | startRow
  | preIdctSlow
  | startIdctSlow
  | idctSlow
  | dataCount (count : Nat)
  deriving DecidableEq, Repr

namespace JpegState

/-- The pages whose fault can enter each state. -/
def pages : JpegState → (hasAexnotify : Bool) → PageRange
  | preStart, _ => ⟨0, 0⟩
  | start, _ => ⟨54, 55⟩
  | nextRow, _ => ⟨44, 46⟩
  | startRow, _ => ⟨58, 59⟩
  | preIdctSlow, _ => ⟨59, 60⟩
  | idctSlow, _ => ⟨63, 65⟩
  | dataCount _, hasAexnotify => if hasAexnotify then ⟨150, 4335⟩ else ⟨150, 4340⟩
  | startIdctSlow, _ => ⟨0, 0⟩

/-- The allowed transitions, in the order in which they are tried. -/
def nextStates : JpegState → List JpegState
  | preStart => [start]
  | start => [startRow]
  | nextRow => [startRow]
  | startRow => [idctSlow]
  | preIdctSlow => [idctSlow, nextRow]
  | idctSlow => [dataCount 1]
  | dataCount x => [dataCount (x + 1), preIdctSlow, nextRow]
  | startIdctSlow => []

/-- Advance to the first successor whose pages contain the faulting page. -/
def next (state : JpegState) (page : Nat) (hasAexnotify : Bool) : JpegState :=
  ((state.nextStates).find? fun candidate => (candidate.pages hasAexnotify).contains page).getD
    state

/-- The page ranges whose faults may move the machine on: those to revoke. -/
def nextPages (state : JpegState) (hasAexnotify : Bool) : List PageRange :=
  state.nextStates.map fun candidate => candidate.pages hasAexnotify

def isDataCount : JpegState → Bool
  | dataCount _ => true
  | _ => false

/-- The range of every `DataCount` state. -/
def dataRange (hasAexnotify : Bool) : PageRange := (dataCount 0).pages hasAexnotify

@[simp] theorem pages_dataCount (count : Nat) (hasAexnotify : Bool) :
    (dataCount count).pages hasAexnotify = dataRange hasAexnotify := rfl

/-- A data fault increments the count, a fault at the start of the next block
or of the next row ends it, and any other fault leaves it. -/
theorem next_dataCount (count page : Nat) (hasAexnotify : Bool) :
    (dataCount count).next page hasAexnotify =
      if (dataRange hasAexnotify).contains page then dataCount (count + 1)
      else if page = 59 then preIdctSlow
      else if 44 ≤ page ∧ page < 46 then nextRow
      else dataCount count := by
  have pre : (preIdctSlow.pages hasAexnotify).contains page = decide (page = 59) := by
    simp only [pages, PageRange.contains, ← Bool.decide_and, decide_eq_decide]
    omega
  have row : (nextRow.pages hasAexnotify).contains page = decide (44 ≤ page ∧ page < 46) := by
    simp [pages, PageRange.contains]
  simp only [next, nextStates, List.find?_cons, pages_dataCount, pre, row, List.find?_nil]
  by_cases data : (dataRange hasAexnotify).contains page = true
  · simp [data]
  · by_cases early : page = 59
    · subst early
      simp [data]
    · by_cases inRow : 44 ≤ page ∧ page < 46 <;> simp [data, early, inRow]

/-- The moves of `DataCount count` as cases: a data fault increments the
count; any other fault ends the block or leaves the count as it is. -/
theorem next_dataCount_cases (count page : Nat) (hasAexnotify : Bool) :
    (dataRange hasAexnotify).contains page = true ∧
        (dataCount count).next page hasAexnotify = dataCount (count + 1) ∨
      (dataRange hasAexnotify).contains page = false ∧
        ((dataCount count).next page hasAexnotify = preIdctSlow ∨
          (dataCount count).next page hasAexnotify = nextRow ∨
          (dataCount count).next page hasAexnotify = dataCount count) := by
  rw [next_dataCount]
  split_ifs <;> simp_all

/-- From `IdctSlow` only a data fault moves, to `DataCount 1`. -/
theorem next_idctSlow (page : Nat) (hasAexnotify : Bool) :
    idctSlow.next page hasAexnotify =
      if (dataRange hasAexnotify).contains page then dataCount 1 else idctSlow := by
  by_cases data : (dataRange hasAexnotify).contains page = true <;>
    simp [next, nextStates, data]

/-- Only a `DataCount` state or `IdctSlow` reaches a `DataCount` state. -/
theorem isDataCount_next {state : JpegState} {page : Nat} {hasAexnotify : Bool}
    (reached : (state.next page hasAexnotify).isDataCount = true) :
    state.isDataCount = true ∨ state = idctSlow := by
  cases state with
  | dataCount count => exact .inl rfl
  | idctSlow => exact .inr rfl
  | _ =>
    revert reached
    simp only [next, nextStates, List.find?_cons, List.find?_nil]
    repeat' split
    all_goals simp [isDataCount]

end JpegState

end Attack
end TLBlur
