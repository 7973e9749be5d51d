import Mathlib.Algebra.Group.Nat.Basic
import Mathlib.Data.List.Basic
import TLBlur.Profiler.PageAccess

namespace TLBlur
namespace Profiler

/-!
# The waveform trace writer

Every step of the profiler may write a frame: a list of page accesses.  The
writer keeps one 1-bit wire per page and emits a change only where a wire's
value differs from the previous frame.  `VCDStatefulSet::update_state` does
this in two passes over its items: the first raises every wire of the new
frame that is still low, the second lowers every raised wire that the new
frame does not name.  Dropping the step's entry then advances the timestamp.

The `RSet` flavour traces the read pages only.  Wires are identified here by
their page index, where the source keeps the identifier that `add_wire`
returned for that page; the erip wire and the file header carry no page
state and are not modelled.
-/

/-- The VCD commands that carry page state: a scalar change of a page's wire,
and the timestamp that closes a step. -/
inductive Command
  | changeScalar (wire : Nat) (value : Bool)
  | timestamp (time : Nat)
  deriving DecidableEq, Repr

/-- The value of every wire after a stream of commands. -/
def replay (wires : Nat → Bool) (commands : List Command) : Nat → Bool :=
  commands.foldl (fun wires command =>
    match command with
    | .changeScalar wire value => Function.update wires wire value
    | .timestamp _ => wires) wires

theorem replay_append (wires : Nat → Bool) (xs ys : List Command) :
    replay wires (xs ++ ys) = replay (replay wires xs) ys := List.foldl_append _ _ _ _

@[simp] theorem replay_changeScalar (wires : Nat → Bool) (wire : Nat) (value : Bool) :
    replay wires [.changeScalar wire value] = Function.update wires wire value := rfl

@[simp] theorem replay_timestamp (wires : Nat → Bool) (time : Nat) :
    replay wires [.timestamp time] = wires := rfl

/-- The wires that a stream of commands raises, in order. -/
def risingWires (commands : List Command) : List Nat :=
  commands.filterMap fun
    | .changeScalar wire true => some wire
    | _ => none

@[simp] theorem risingWires_append (xs ys : List Command) :
    risingWires (xs ++ ys) = risingWires xs ++ risingWires ys := List.filterMap_append _ _ _

@[simp] theorem risingWires_map_rising (wires : List Nat) :
    risingWires (wires.map (.changeScalar · true)) = wires := by
  induction wires <;> simp_all [risingWires]

theorem risingWires_eq_nil {commands : List Command}
    (noRise : ∀ wire, commands.count (.changeScalar wire true) = 0) : risingWires commands = [] := by
  refine List.filterMap_eq_nil_iff.mpr fun command member => ?_
  rcases command with ⟨wire, _ | _⟩ | time
  · rfl
  · exact absurd (List.count_pos_iff.mpr member) (by rw [noRise]; omega)
  · rfl

/-- The items of a frame whose wire the first pass raises, in order: those
not in `before`, each at its first occurrence. -/
def raisedItems (before : List Nat) : List Nat → List Nat
  | [] => []
  | item :: rest =>
    if item ∈ before then raisedItems before rest else item :: raisedItems (item :: before) rest

/-- The per-page wires of one trace, `state[i]` the current value of wire `i`. -/
structure VCDStatefulSet where
  state : List Bool
  deriving DecidableEq, Repr

namespace VCDStatefulSet

def new (size : Nat) : VCDStatefulSet := ⟨List.replicate size false⟩

/-- `init_wires`: every wire starts low. -/
def initWires (size : Nat) : List Command :=
  (List.range size).map fun wire => .changeScalar wire false

/-- One item of the first pass: raise its wire if it is low.  Indexing the
state panics when the item is not a page of the trace. -/
def raiseItem (acc : List Bool × List Command) (item : Nat) :
    Option (List Bool × List Command) := do
  let accessed ← acc.1[item]?
  if accessed then pure acc
  else pure (acc.1.set item true, acc.2 ++ [.changeScalar item true])

/-- The value of a wire in a state; wires past the end read low. -/
def wireValue (state : List Bool) (wire : Nat) : Bool := state.getD wire false

/-- One index of the second pass: lower a raised wire the items do not name. -/
def lowerStale (items : List Nat) (acc : List Bool × List Command) (item : Nat) :
    List Bool × List Command :=
  if wireValue acc.1 item && !items.contains item then
    (acc.1.set item false, acc.2 ++ [.changeScalar item false])
  else acc

/-- `update_state`: the two passes, and the commands they emit in order. -/
def updateState (set : VCDStatefulSet) (items : List Nat) :
    Option (VCDStatefulSet × List Command) := do
  let raised ← items.foldlM raiseItem (set.state, [])
  let lowered := (List.range raised.1.length).foldl (lowerStale items) raised
  pure (⟨lowered.1⟩, lowered.2)

/-! ### The two passes of `update_state` -/

theorem wireValue_set {state : List Bool} {index : Nat} (inBounds : index < state.length)
    (value : Bool) (wire : Nat) :
    wireValue (state.set index value) wire = if index = wire then value else wireValue state wire := by
  simp only [wireValue, List.getD_eq_getElem?_getD, List.getElem?_set, inBounds, if_true]
  split <;> simp

theorem wireValue_of_le {state : List Bool} {wire : Nat} (outside : state.length ≤ wire) :
    wireValue state wire = false := by
  simp [wireValue, List.getElem?_eq_none outside]

theorem getElem?_eq_wireValue {state : List Bool} {wire : Nat} (inBounds : wire < state.length) :
    state[wire]? = some (wireValue state wire) := by
  simp [wireValue, List.getElem?_eq_getElem inBounds]

theorem replay_update_agrees {state : List Bool} {index : Nat} (inBounds : index < state.length)
    (value : Bool) {wires : Nat → Bool} (agree : ∀ wire, wires wire = wireValue state wire) (wire : Nat) :
    Function.update wires index value wire = wireValue (state.set index value) wire := by
  rw [wireValue_set inBounds]
  by_cases same : index = wire
  · subst same; simp
  · simp [Function.update_noteq (Ne.symm same), same, agree]

/-- One item of the first pass raises its wire when it is low, and emits the
rising change for it. -/
theorem raiseItem_spec (acc : List Bool × List Command) {item : Nat}
    (inBounds : item < acc.1.length) :
    ∃ state out, raiseItem acc item = some (state, acc.2 ++ out) ∧
      state.length = acc.1.length ∧
      (∀ wire, wireValue state wire = (wireValue acc.1 wire || decide (wire = item))) ∧
      (∀ wire value, out.count (.changeScalar wire value) =
        if value = true ∧ wire = item ∧ wireValue acc.1 wire = false then 1 else 0) ∧
      (∀ wires : Nat → Bool, (∀ wire, wires wire = wireValue acc.1 wire) →
        ∀ wire, replay wires out wire = wireValue state wire) := by
  have lookup := getElem?_eq_wireValue inBounds
  cases high : wireValue acc.1 item
  · refine ⟨acc.1.set item true, [.changeScalar item true], by simp [raiseItem, lookup, high],
      by simp, fun wire => ?_, fun wire value => ?_,
      fun wires agree wire => replay_update_agrees inBounds true agree wire⟩
    · rw [wireValue_set inBounds]
      by_cases same : item = wire
      · subst same; simp
      · simp [same, Ne.symm same]
    · by_cases same : item = wire
      · subst same; cases value <;> simp [high]
      · simp [same, Ne.symm same]
  · refine ⟨acc.1, [], by simp [raiseItem, lookup, high], rfl, fun wire => ?_,
      fun wire value => ?_, fun wires agree => agree⟩
    · by_cases same : wire = item
      · subst same; simp [high]
      · simp [same]
    · rw [List.count_nil, if_neg]
      rintro ⟨-, rfl, low⟩
      simp [high] at low

/-- The first pass raises the wires of the items that were low, emits one
rising change for each of them, and replaying its changes over wires that
show the old state shows the new one. -/
theorem foldlM_raiseItem (items : List Nat) :
    ∀ acc : List Bool × List Command, (∀ item ∈ items, item < acc.1.length) →
    ∃ state out, items.foldlM raiseItem acc = some (state, acc.2 ++ out) ∧
      state.length = acc.1.length ∧
      (∀ wire, wireValue state wire = (wireValue acc.1 wire || decide (wire ∈ items))) ∧
      (∀ wire value, out.count (.changeScalar wire value) =
        if value = true ∧ wire ∈ items ∧ wireValue acc.1 wire = false then 1 else 0) ∧
      (∀ wires : Nat → Bool, (∀ wire, wires wire = wireValue acc.1 wire) →
        ∀ wire, replay wires out wire = wireValue state wire) := by
  induction items with
  | nil =>
    intro acc _
    exact ⟨acc.1, [], by simp, rfl, by simp, by simp, fun wires agree => agree⟩
  | cons item rest ih =>
    intro acc bounded
    obtain ⟨state₁, out₁, raise₁, length₁, bits₁, count₁, shows₁⟩ :=
      raiseItem_spec acc (bounded item (List.mem_cons_self _ _))
    obtain ⟨state, out, run, length, bits, count, shows⟩ := ih (state₁, acc.2 ++ out₁)
      fun i member => length₁ ▸ bounded i (List.mem_cons_of_mem _ member)
    refine ⟨state, out₁ ++ out, by simp [List.foldlM_cons, raise₁, run], length.trans length₁,
      fun wire => ?_, fun wire value => ?_, fun wires agree wire => ?_⟩
    · rw [bits, bits₁]
      simp [Bool.or_assoc]
    · rw [List.count_append, count₁, count, bits₁]
      by_cases same : wire = item
      · subst same; simp
      · simp [same]
    · rw [replay_append]
      exact shows _ (shows₁ wires agree) wire

/-- One index of the second pass lowers its wire when it is raised and not
named by the items, and emits the falling change for it. -/
theorem lowerStale_spec (items : List Nat) (acc : List Bool × List Command) {item : Nat}
    (inBounds : item < acc.1.length) :
    ∃ out, (lowerStale items acc item).2 = acc.2 ++ out ∧
      (lowerStale items acc item).1.length = acc.1.length ∧
      (∀ wire, wireValue (lowerStale items acc item).1 wire =
        (wireValue acc.1 wire && !(decide (wire = item) && decide (wire ∉ items)))) ∧
      (∀ wire value, out.count (.changeScalar wire value) =
        if value = false ∧ wire = item ∧ wireValue acc.1 wire = true ∧ wire ∉ items
        then 1 else 0) ∧
      (∀ wires : Nat → Bool, (∀ wire, wires wire = wireValue acc.1 wire) →
        ∀ wire, replay wires out wire = wireValue (lowerStale items acc item).1 wire) := by
  unfold lowerStale
  by_cases stale : wireValue acc.1 item = true ∧ item ∉ items
  · rw [if_pos (by simp [stale.1, stale.2])]
    refine ⟨[.changeScalar item false], rfl, by simp, fun wire => ?_, fun wire value => ?_,
      fun wires agree wire => replay_update_agrees inBounds false agree wire⟩
    · rw [wireValue_set inBounds]
      by_cases same : item = wire
      · subst same; simp [stale.1, stale.2]
      · simp [same, Ne.symm same]
    · by_cases same : item = wire
      · subst same; cases value <;> simp [stale.1, stale.2]
      · simp [same, Ne.symm same]
  · rw [if_neg (by simpa using stale)]
    refine ⟨[], by simp, rfl, fun wire => ?_, fun wire value => ?_, fun wires agree => agree⟩
    · by_cases same : wire = item
      · subst same
        cases high : wireValue acc.1 wire
        · rfl
        · simpa [high] using stale
      · simp [same]
    · rw [List.count_nil, if_neg]
      rintro ⟨-, rfl, stale'⟩
      exact stale stale'

/-- The second pass, over the first `count` wires, lowers each raised wire
that the items do not name and emits one falling change for it. -/
theorem foldl_lowerStale (items : List Nat) (start : List Bool × List Command) (count : Nat)
    (within : count ≤ start.1.length) :
    ∃ out, ((List.range count).foldl (lowerStale items) start).2 = start.2 ++ out ∧
      ((List.range count).foldl (lowerStale items) start).1.length = start.1.length ∧
      (∀ wire, wireValue ((List.range count).foldl (lowerStale items) start).1 wire =
        (wireValue start.1 wire && !(decide (wire < count) && decide (wire ∉ items)))) ∧
      (∀ wire value, out.count (.changeScalar wire value) =
        if value = false ∧ wire < count ∧ wireValue start.1 wire = true ∧ wire ∉ items
        then 1 else 0) ∧
      (∀ wires : Nat → Bool, (∀ wire, wires wire = wireValue start.1 wire) →
        ∀ wire, replay wires out wire =
          wireValue ((List.range count).foldl (lowerStale items) start).1 wire) := by
  induction count with
  | zero => exact ⟨[], by simp, rfl, by simp, by simp, fun wires agree => agree⟩
  | succ count ih =>
    obtain ⟨out, outEq, length, bits, counts, shows⟩ := ih (by omega)
    rw [List.range_succ, List.foldl_append, List.foldl_cons, List.foldl_nil]
    generalize (List.range count).foldl (lowerStale items) start = middle
      at outEq length bits shows
    obtain ⟨last, lastEq, lastLength, lastBits, lastCounts, lastShows⟩ :=
      lowerStale_spec items middle (show count < middle.1.length by omega)
    refine ⟨out ++ last, by rw [lastEq, outEq, List.append_assoc], lastLength.trans length,
      fun wire => ?_, fun wire value => ?_, fun wires agree wire => ?_⟩
    · rw [lastBits, bits]
      by_cases same : wire = count
      · subst same; simp
      · simp [same, Nat.lt_succ_iff_lt_or_eq]
    · rw [List.count_append, counts, lastCounts, bits]
      by_cases same : wire = count
      · subst same; simp
      · simp [same, Nat.lt_succ_iff_lt_or_eq]
    · rw [replay_append]
      exact lastShows _ (shows wires agree) wire

/-- `update_state` leaves exactly the items raised, emits a rising change for
each item that was low and a falling change for each raised wire it does not
name, and nothing else; replaying its changes shows the new state. -/
theorem updateState_spec (set : VCDStatefulSet) (items : List Nat)
    (bounded : ∀ item ∈ items, item < set.state.length) :
    ∃ set' out, set.updateState items = some (set', out) ∧
      set'.state.length = set.state.length ∧
      (∀ wire, wireValue set'.state wire = decide (wire ∈ items)) ∧
      (∀ wire, out.count (.changeScalar wire true) =
        if wire ∈ items ∧ wireValue set.state wire = false then 1 else 0) ∧
      (∀ wire, out.count (.changeScalar wire false) =
        if wireValue set.state wire = true ∧ wire ∉ items then 1 else 0) ∧
      (∀ wires : Nat → Bool, (∀ wire, wires wire = wireValue set.state wire) →
        ∀ wire, replay wires out wire = decide (wire ∈ items)) := by
  obtain ⟨raised, rising, raise, raisedLength, raisedBits, risingCount, risingShows⟩ :=
    foldlM_raiseItem items (set.state, []) bounded
  obtain ⟨falling, fallingEq, loweredLength, loweredBits, fallingCount, fallingShows⟩ :=
    foldl_lowerStale items (raised, rising) raised.length le_rfl
  simp only [List.nil_append] at raise raisedLength raisedBits risingCount risingShows
  have outside : ∀ wire, ¬ wire < raised.length → wire ∉ items ∧ wireValue set.state wire = false :=
    fun wire beyond => ⟨fun member => beyond (raisedLength ▸ bounded wire member),
      wireValue_of_le (by omega)⟩
  have final : ∀ wire, wireValue ((List.range raised.length).foldl (lowerStale items)
      (raised, rising)).1 wire = decide (wire ∈ items) := fun wire => by
    rw [loweredBits]
    by_cases inside : wire < raised.length
    · simp only [raisedBits]; by_cases member : wire ∈ items <;> simp [member, inside]
    · simp [wireValue_of_le (Nat.le_of_not_lt inside), (outside wire inside).1]
  refine ⟨⟨((List.range raised.length).foldl (lowerStale items) (raised, rising)).1⟩,
    ((List.range raised.length).foldl (lowerStale items) (raised, rising)).2,
    by simp [updateState, raise], loweredLength.trans raisedLength, final,
    fun wire => ?_, fun wire => ?_, fun wires agree wire => ?_⟩
  · simp [fallingEq, risingCount, fallingCount]
  · simp only [fallingEq, List.count_append, risingCount, fallingCount, raisedBits]
    by_cases inside : wire < raised.length
    · by_cases member : wire ∈ items <;> simp [member, inside]
    · simp [inside, (outside wire inside).1, (outside wire inside).2]
  · simp only [fallingEq, replay_append]
    rw [fallingShows _ (risingShows wires agree), final]

/-! ### The order of the rising changes -/

/-- Over wires that show `before`, the first pass emits the rising changes of
the items not in `before`, each at its first occurrence, in item order. -/
theorem foldlM_raiseItem_eq (items : List Nat) :
    ∀ (acc : List Bool × List Command) (before : List Nat),
      (∀ wire, wireValue acc.1 wire = decide (wire ∈ before)) →
      (∀ item ∈ items, item < acc.1.length) →
      ∃ state, items.foldlM raiseItem acc =
        some (state, acc.2 ++ (raisedItems before items).map (.changeScalar · true)) := by
  induction items with
  | nil => exact fun acc _ _ _ => ⟨acc.1, by simp [raisedItems]⟩
  | cons item rest ih =>
    intro acc before shows bounded
    have inBounds := bounded item (List.mem_cons_self _ _)
    have restBounded := fun i member => bounded i (List.mem_cons_of_mem item member)
    by_cases high : item ∈ before
    · obtain ⟨state, ran⟩ := ih acc before shows restBounded
      refine ⟨state, ?_⟩
      simpa [List.foldlM_cons, raiseItem, getElem?_eq_wireValue inBounds, shows, high, raisedItems]
        using ran
    · obtain ⟨state, ran⟩ := ih (acc.1.set item true, acc.2 ++ [.changeScalar item true])
        (item :: before) (fun wire => by
          rw [wireValue_set inBounds, shows]
          by_cases same : item = wire <;> simp [same, eq_comm])
        (fun i member => by simpa using restBounded i member)
      refine ⟨state, ?_⟩
      simpa [List.foldlM_cons, raiseItem, getElem?_eq_wireValue inBounds, shows, high, raisedItems]
        using ran

/-- Over wires that show `before`, the changes of `update_state` raise the
items not in `before`, each at its first occurrence, in item order, and
nothing else. -/
theorem updateState_risingWires {set set' : VCDStatefulSet} {items : List Nat} {out : List Command}
    (updated : set.updateState items = some (set', out)) {before : List Nat}
    (shows : ∀ wire, wireValue set.state wire = decide (wire ∈ before))
    (bounded : ∀ item ∈ items, item < set.state.length) :
    risingWires out = raisedItems before items := by
  obtain ⟨raised, raise⟩ := foldlM_raiseItem_eq items (set.state, []) before shows bounded
  obtain ⟨falling, fallingEq, -, -, fallingCount, -⟩ := foldl_lowerStale items
    (raised, (raisedItems before items).map (.changeScalar · true)) raised.length le_rfl
  simp only [updateState, List.nil_append, raise, Option.bind_eq_bind, Option.some_bind,
    Option.pure_def, Option.some.injEq, Prod.mk.injEq] at updated
  rw [← updated.2, fallingEq, risingWires_append, risingWires_map_rising,
    risingWires_eq_nil fun wire => by simp [fallingCount], List.append_nil]

end VCDStatefulSet

/-- The pages an `RSet` traces for a frame: those accessed for reading. -/
def readPages (items : List PageAccess) : List Nat :=
  items.filterMap fun item => if item.read then some item.page else none

@[simp] theorem mem_readPages {items : List PageAccess} {page : Nat} :
    page ∈ readPages items ↔ ∃ item ∈ items, item.read = true ∧ item.page = page := by
  simp [readPages]

/-- Frames whose read accesses are all below `numPages` give read pages below it. -/
theorem readPages_lt {frames : List (List PageAccess)} {numPages : Nat}
    (bounded : ∀ frame ∈ frames, ∀ access ∈ frame, access.read = true → access.page < numPages) :
    ∀ frame ∈ frames, ∀ page ∈ readPages frame, page < numPages := by
  intro frame member page read
  obtain ⟨access, accessed, isRead, rfl⟩ := mem_readPages.mp read
  exact bounded frame member access accessed isRead

/-- The pages that a run of frames newly reads, step after step: at each
step the pages read then and not at the step before, once each, in the order
of the frame. -/
def newlyRead (before : List Nat) : List (List PageAccess) → List Nat
  | [] => []
  | frame :: rest => raisedItems before (readPages frame) ++ newlyRead (readPages frame) rest

/-- The read-access trace. -/
structure RSet where
  r : VCDStatefulSet
  deriving DecidableEq, Repr

def RSet.updateState (set : RSet) (items : List PageAccess) : Option (RSet × List Command) := do
  let (r, out) ← set.r.updateState (readPages items)
  pure (⟨r⟩, out)

/-- The writer of one trace file: the page wires and the current timestamp. -/
structure VCDDumper where
  pages : RSet
  ts : Nat
  deriving DecidableEq, Repr

namespace VCDDumper

/-- `VCDDumper::new`, with the commands that initialise the page wires. -/
def new (numPages : Nat) : VCDDumper × List Command :=
  (⟨⟨VCDStatefulSet.new numPages⟩, 0⟩, VCDStatefulSet.initWires numPages)

/-- `next_step` whose entry writes one list of page accesses, as every caller
does: the page changes, then the next timestamp when the entry is dropped. -/
def nextStep (dumper : VCDDumper) (items : List PageAccess) :
    Option (VCDDumper × List Command) := do
  let (pages, out) ← dumper.pages.updateState items
  pure (⟨pages, dumper.ts + 1⟩, out ++ [.timestamp (dumper.ts + 1)])

/-- The commands of each step of a run of `next_step` calls. -/
def runSteps : VCDDumper → List (List PageAccess) → Option (List (List Command))
  | _, [] => some []
  | dumper, items :: rest => do
    let (dumper', out) ← dumper.nextStep items
    let outs ← runSteps dumper' rest
    pure (out :: outs)

/-- The read pages of the frame before step `t` of a run, `before` for the first. -/
def previousReads (before : List Nat) (frames : List (List PageAccess)) : Nat → List Nat
  | 0 => before
  | t + 1 => readPages (frames.getD t [])

/-- From all-low wires, the previous reads of step `t` are those of frame
`t - 1`, and none before the first step. -/
theorem mem_previousReads_nil {frames : List (List PageAccess)} {t wire : Nat} :
    wire ∈ previousReads [] frames t ↔
      ∃ access ∈ ([] :: frames).getD t [], access.read = true ∧ access.page = wire := by
  cases t <;> simp [previousReads]

theorem previousReads_cons_succ (before : List Nat) (frame : List PageAccess)
    (rest : List (List PageAccess)) (t : Nat) :
    previousReads before (frame :: rest) (t + 1) = previousReads (readPages frame) rest t := by
  cases t <;> rfl

theorem nextStep_spec (dumper : VCDDumper) (items : List PageAccess)
    (bounded : ∀ page ∈ readPages items, page < dumper.pages.r.state.length) :
    ∃ dumper' out, dumper.nextStep items = some (dumper', out) ∧
      dumper'.ts = dumper.ts + 1 ∧
      dumper'.pages.r.state.length = dumper.pages.r.state.length ∧
      (∀ wire, VCDStatefulSet.wireValue dumper'.pages.r.state wire =
        decide (wire ∈ readPages items)) ∧
      (∀ wire, out.count (.changeScalar wire true) =
        if wire ∈ readPages items ∧ VCDStatefulSet.wireValue dumper.pages.r.state wire = false
        then 1 else 0) ∧
      (∀ wire, out.count (.changeScalar wire false) =
        if VCDStatefulSet.wireValue dumper.pages.r.state wire = true ∧ wire ∉ readPages items
        then 1 else 0) ∧
      out.getLast? = some (.timestamp (dumper.ts + 1)) ∧
      (∀ wires : Nat → Bool,
        (∀ wire, wires wire = VCDStatefulSet.wireValue dumper.pages.r.state wire) →
        ∀ wire, replay wires out wire = decide (wire ∈ readPages items)) := by
  obtain ⟨set', out, update, length, bits, rising, falling, shows⟩ :=
    dumper.pages.r.updateState_spec (readPages items) bounded
  refine ⟨⟨⟨set'⟩, dumper.ts + 1⟩, out ++ [.timestamp (dumper.ts + 1)], ?_, rfl, length, bits,
    fun wire => ?_, fun wire => ?_, by simp, fun wires agree wire => ?_⟩
  · simp [nextStep, RSet.updateState, update]
  · simp [rising]
  · simp [falling]
  · simp [replay_append, shows wires agree]

/-- Over a run of steps from wires showing `before`: each step emits a rising
change exactly for the pages newly read, a falling change exactly for the
pages no longer read, then its timestamp; replaying the run shows the last
frame. -/
theorem runSteps_spec (frames : List (List PageAccess)) :
    ∀ (dumper : VCDDumper) (before : List Nat),
    (∀ wire, VCDStatefulSet.wireValue dumper.pages.r.state wire = decide (wire ∈ before)) →
    (∀ frame ∈ frames, ∀ page ∈ readPages frame, page < dumper.pages.r.state.length) →
    ∃ logs, dumper.runSteps frames = some logs ∧ logs.length = frames.length ∧
      ∀ t < frames.length,
        (∀ wire, (logs.getD t []).count (.changeScalar wire true) =
          if wire ∈ readPages (frames.getD t []) ∧ wire ∉ previousReads before frames t
          then 1 else 0) ∧
        (∀ wire, (logs.getD t []).count (.changeScalar wire false) =
          if wire ∈ previousReads before frames t ∧ wire ∉ readPages (frames.getD t [])
          then 1 else 0) ∧
        (logs.getD t []).getLast? = some (.timestamp (dumper.ts + t + 1)) ∧
        ∀ wires : Nat → Bool, (∀ wire, wires wire = decide (wire ∈ before)) →
          ∀ wire, replay wires (logs.take (t + 1)).flatten wire =
            decide (wire ∈ readPages (frames.getD t [])) := by
  induction frames with
  | nil => exact fun dumper _ _ _ => ⟨[], rfl, rfl, fun t beyond => absurd beyond (by simp)⟩
  | cons frame rest ih =>
    intro dumper before shows bounded
    obtain ⟨dumper', out, step, time, length, bits, rising, falling, last, replayed⟩ :=
      nextStep_spec dumper frame (bounded frame (List.mem_cons_self _ _))
    obtain ⟨logs, run, count, later⟩ := ih dumper' (readPages frame) bits
      (fun frame' member => length ▸ bounded frame' (List.mem_cons_of_mem _ member))
    refine ⟨out :: logs, by simp [runSteps, step, run], by simp [count], fun t inRange => ?_⟩
    cases t with
    | zero =>
      refine ⟨fun wire => ?_, fun wire => ?_, last, fun wires agree wire => ?_⟩
      · simp [rising, shows, previousReads]
      · simp [falling, shows, previousReads]
      · simpa using replayed wires (fun wire => by rw [agree, shows]) wire
    | succ t =>
      obtain ⟨risingLater, fallingLater, lastLater, replayLater⟩ :=
        later t (by simpa using inRange)
      refine ⟨fun wire => ?_, fun wire => ?_, ?_, fun wires agree wire => ?_⟩
      · simpa [previousReads_cons_succ] using risingLater wire
      · simpa [previousReads_cons_succ] using fallingLater wire
      · simpa [time, Nat.add_right_comm, Nat.add_assoc] using lastLater
      · simp only [List.take_succ_cons, List.flatten_cons, replay_append, List.getD_cons_succ]
        exact replayLater _ (fun wire => by
          simpa using replayed wires (fun wire => by rw [agree, shows]) wire) wire

@[simp] theorem length_new (numPages : Nat) : (new numPages).1.pages.r.state.length = numPages := by
  simp [new, VCDStatefulSet.new]

/-- Every wire of a new trace is low. -/
@[simp] theorem wireValue_new (numPages wire : Nat) :
    VCDStatefulSet.wireValue (new numPages).1.pages.r.state wire = false := by
  simp only [new, VCDStatefulSet.new, VCDStatefulSet.wireValue, List.getD_eq_getElem?_getD,
    List.getElem?_replicate]
  split <;> rfl

/-- The rising changes of one step are those of its frame's newly read pages. -/
theorem nextStep_risingWires {dumper dumper' : VCDDumper} {items : List PageAccess}
    {out : List Command} (stepped : dumper.nextStep items = some (dumper', out)) {before : List Nat}
    (shows : ∀ wire, VCDStatefulSet.wireValue dumper.pages.r.state wire = decide (wire ∈ before))
    (bounded : ∀ page ∈ readPages items, page < dumper.pages.r.state.length) :
    risingWires out = raisedItems before (readPages items) := by
  cases updated : dumper.pages.r.updateState (readPages items) with
  | none => simp [nextStep, RSet.updateState, updated] at stepped
  | some result =>
    simp only [nextStep, RSet.updateState, updated, Option.bind_eq_bind, Option.some_bind,
      Option.pure_def, Option.some.injEq, Prod.mk.injEq] at stepped
    rw [← stepped.2, risingWires_append,
      VCDStatefulSet.updateState_risingWires updated shows bounded]
    exact List.append_nil _

/-- Over a run of steps from wires showing `before`, the rising changes of the
whole run are the pages each step newly reads, in order. -/
theorem runSteps_risingWires (frames : List (List PageAccess)) :
    ∀ (dumper : VCDDumper) (before : List Nat),
    (∀ wire, VCDStatefulSet.wireValue dumper.pages.r.state wire = decide (wire ∈ before)) →
    (∀ frame ∈ frames, ∀ page ∈ readPages frame, page < dumper.pages.r.state.length) →
    ∃ logs, dumper.runSteps frames = some logs ∧ risingWires logs.flatten = newlyRead before frames := by
  induction frames with
  | nil => exact fun _ _ _ _ => ⟨[], rfl, rfl⟩
  | cons frame rest ih =>
    intro dumper before shows bounded
    have framed := bounded frame (List.mem_cons_self _ _)
    obtain ⟨dumper', out, step, -, length, bits, -⟩ := nextStep_spec dumper frame framed
    obtain ⟨logs, run, rising⟩ := ih dumper' (readPages frame) bits
      (fun frame' member => length ▸ bounded frame' (List.mem_cons_of_mem _ member))
    refine ⟨out :: logs, by simp [runSteps, step, run], ?_⟩
    rw [List.flatten_cons, risingWires_append, rising, nextStep_risingWires step shows framed]
    rfl

end VCDDumper

theorem replay_initWires (size : Nat) :
    replay (fun _ => false) (VCDStatefulSet.initWires size) = fun _ => false := by
  suffices low : ∀ wires : List Nat,
      replay (fun _ => false) (wires.map fun wire => .changeScalar wire false) = fun _ => false from
    low _
  intro wires
  induction wires with
  | nil => rfl
  | cons wire rest ih =>
    have update : Function.update (fun _ : Nat => false) wire false = fun _ => false :=
      Function.update_eq_self wire _
    simpa [List.map_cons, replay, update] using ih

@[simp] theorem risingWires_initWires (size : Nat) :
    risingWires (VCDStatefulSet.initWires size) = [] := by
  simp [VCDStatefulSet.initWires, risingWires]

open VCDDumper in
/-- A trace of `numPages` wires, written one frame per step with every read
access below `numPages`.  Counting as read at a step the pages of the frame's
accesses with the read bit, and nothing before step `0`: step `t` emits
exactly one rising change for each page read at `t` but not at `t - 1`,
exactly one falling change for each page read at `t - 1` but not at `t`, no
other scalar change, and then timestamp `t + 1`; replaying the initialisation
and the steps up to `t` yields the pages read at `t`. -/
theorem vcdDumper_emits_exact_changes (numPages : Nat) (frames : List (List PageAccess))
    (bounded : ∀ frame ∈ frames, ∀ access ∈ frame, access.read = true → access.page < numPages) :
    ∃ logs, (VCDDumper.new numPages).1.runSteps frames = some logs ∧
      logs.length = frames.length ∧
      ∀ t < frames.length,
        (∀ wire : Nat, (logs.getD t []).count (.changeScalar wire true) =
          if (∃ access ∈ frames.getD t [], access.read = true ∧ access.page = wire) ∧
            ¬∃ access ∈ ([] :: frames).getD t [], access.read = true ∧ access.page = wire
          then 1 else 0) ∧
        (∀ wire : Nat, (logs.getD t []).count (.changeScalar wire false) =
          if (∃ access ∈ ([] :: frames).getD t [], access.read = true ∧ access.page = wire) ∧
            ¬∃ access ∈ frames.getD t [], access.read = true ∧ access.page = wire
          then 1 else 0) ∧
        (logs.getD t []).getLast? = some (.timestamp (t + 1)) ∧
        ∀ wire, replay (fun _ => false)
            ((VCDDumper.new numPages).2 ++ (logs.take (t + 1)).flatten) wire =
          decide (∃ access ∈ frames.getD t [], access.read = true ∧ access.page = wire) := by
  obtain ⟨logs, run, count, steps⟩ := runSteps_spec frames (VCDDumper.new numPages).1 []
    (fun wire => by simp) (by simpa using readPages_lt bounded)
  refine ⟨logs, run, count, fun t inRange => ?_⟩
  obtain ⟨rising, falling, last, replayed⟩ := steps t inRange
  refine ⟨fun wire => ?_, fun wire => ?_, by simpa [VCDDumper.new] using last, fun wire => ?_⟩
  · simpa only [mem_readPages, mem_previousReads_nil] using rising wire
  · simpa only [mem_readPages, mem_previousReads_nil] using falling wire
  · rw [replay_append, VCDDumper.new, replay_initWires]
    simpa only [mem_readPages] using replayed _ (fun _ => by simp) wire

/-- Page 1 read, then page 0 read: the second step raises wire 0 and lowers
wire 1. -/
theorem vcdDumper_emits_exact_changes_falling_edge :
    (∀ frame ∈ [[(⟨true, false, false, 1⟩ : PageAccess)], [⟨true, false, false, 0⟩]],
      ∀ access ∈ frame, access.read = true → access.page < 2) ∧
    ∃ logs, (VCDDumper.new 2).1.runSteps [[⟨true, false, false, 1⟩], [⟨true, false, false, 0⟩]] =
        some logs ∧
      logs.length = [[(⟨true, false, false, 1⟩ : PageAccess)], [⟨true, false, false, 0⟩]].length ∧
      ∀ t < [[(⟨true, false, false, 1⟩ : PageAccess)], [⟨true, false, false, 0⟩]].length,
        (∀ wire : Nat, (logs.getD t []).count (.changeScalar wire true) =
          if (∃ access ∈ [[(⟨true, false, false, 1⟩ : PageAccess)], [⟨true, false, false, 0⟩]].getD t [],
              access.read = true ∧ access.page = wire) ∧
            ¬∃ access ∈ ([] :: [[(⟨true, false, false, 1⟩ : PageAccess)], [⟨true, false, false, 0⟩]]).getD t [],
              access.read = true ∧ access.page = wire
          then 1 else 0) ∧
        (∀ wire : Nat, (logs.getD t []).count (.changeScalar wire false) =
          if (∃ access ∈ ([] :: [[(⟨true, false, false, 1⟩ : PageAccess)], [⟨true, false, false, 0⟩]]).getD t [],
              access.read = true ∧ access.page = wire) ∧
            ¬∃ access ∈ [[(⟨true, false, false, 1⟩ : PageAccess)], [⟨true, false, false, 0⟩]].getD t [],
              access.read = true ∧ access.page = wire
          then 1 else 0) ∧
        (logs.getD t []).getLast? = some (.timestamp (t + 1)) ∧
        ∀ wire, replay (fun _ => false) ((VCDDumper.new 2).2 ++ (logs.take (t + 1)).flatten) wire =
          decide (∃ access ∈ [[(⟨true, false, false, 1⟩ : PageAccess)], [⟨true, false, false, 0⟩]].getD t [],
            access.read = true ∧ access.page = wire) :=
  ⟨by decide, vcdDumper_emits_exact_changes 2 _ (by decide)⟩

example : (VCDDumper.new 2).1.runSteps [[⟨true, false, false, 1⟩], [⟨true, false, false, 0⟩]] =
    some [[.changeScalar 1 true, .timestamp 1],
      [.changeScalar 0 true, .changeScalar 1 false, .timestamp 2]] := by
  decide

/-! ## The read, write and execute traces -/

/-- The pages a frame accesses with a permission, in frame order. -/
def pagesWith (permission : PageAccess → Bool) (items : List PageAccess) : List Nat :=
  items.filterMap fun item => if permission item then some item.page else none

@[simp] theorem mem_pagesWith {permission : PageAccess → Bool} {items : List PageAccess} {page : Nat} :
    page ∈ pagesWith permission items ↔ ∃ access ∈ items, permission access = true ∧ access.page = page := by
  simp [pagesWith]

/-- A frame whose accesses with a permission are below `size` gives pages below it. -/
theorem pagesWith_lt {permission : PageAccess → Bool} {items : List PageAccess} {size : Nat}
    (bounded : ∀ access ∈ items, permission access = true → access.page < size) :
    ∀ page ∈ pagesWith permission items, page < size := by
  intro page member
  obtain ⟨access, accessed, granted, rfl⟩ := mem_pagesWith.mp member
  exact bounded access accessed granted

/-- A change of a trace whose wires are numbered from `base`. -/
def Command.shift (base : Nat) : Command → Command
  | .changeScalar wire value => .changeScalar (base + wire) value
  | .timestamp time => .timestamp time

/-- The trace of reads, writes and executes, one set of wires per permission.
The identifiers that `add_wire` returns are consecutive, so the wires of `w`
follow those of `r`, and those of `x` follow those of `w`. -/
structure RWXSet where
  r : VCDStatefulSet
  w : VCDStatefulSet
  x : VCDStatefulSet
  deriving DecidableEq, Repr

namespace RWXSet

def new (size : Nat) : RWXSet :=
  ⟨VCDStatefulSet.new size, VCDStatefulSet.new size, VCDStatefulSet.new size⟩

/-- `update_state`: split the frame by permission, then update the read, the
write and the execute trace in turn. -/
def updateState (set : RWXSet) (items : List PageAccess) : Option (RWXSet × List Command) := do
  let (r, outR) ← set.r.updateState (pagesWith PageAccess.read items)
  let (w, outW) ← set.w.updateState (pagesWith PageAccess.write items)
  let (x, outX) ← set.x.updateState (pagesWith PageAccess.execute items)
  pure (⟨r, w, x⟩, outR ++ outW.map (Command.shift set.r.state.length) ++
    outX.map (Command.shift (set.r.state.length + set.w.state.length)))

/-- The value of a wire of the trace: the wires of `r`, then those of `w`,
then those of `x`. -/
def wireValue (set : RWXSet) (wire : Nat) : Bool :=
  if wire < set.r.state.length then VCDStatefulSet.wireValue set.r.state wire
  else if wire < set.r.state.length + set.w.state.length then
    VCDStatefulSet.wireValue set.w.state (wire - set.r.state.length)
  else VCDStatefulSet.wireValue set.x.state (wire - set.r.state.length - set.w.state.length)

end RWXSet

/-! ### Replaying one wire -/

/-- The value a replay leaves on a wire depends on the wires only through that wire. -/
theorem replay_congr {wires wires' : Nat → Bool} {wire : Nat} (same : wires wire = wires' wire)
    (commands : List Command) : replay wires commands wire = replay wires' commands wire := by
  induction commands generalizing wires wires' with
  | nil => exact same
  | cons command rest ih =>
    rcases command with ⟨changed, value⟩ | time
    · show replay (Function.update wires changed value) rest wire =
        replay (Function.update wires' changed value) rest wire
      apply ih
      by_cases hit : wire = changed
      · subst hit; simp
      · simp [Function.update_noteq hit, same]
    · exact ih same

/-- A wire that no command changes keeps its value. -/
theorem replay_of_forall_not_mem {commands : List Command} {wire : Nat}
    (untouched : ∀ value, Command.changeScalar wire value ∉ commands) (wires : Nat → Bool) :
    replay wires commands wire = wires wire := by
  induction commands generalizing wires with
  | nil => rfl
  | cons command rest ih =>
    have restUntouched : ∀ value, Command.changeScalar wire value ∉ rest :=
      fun value member => untouched value (List.mem_cons_of_mem _ member)
    rcases command with ⟨changed, value⟩ | time
    · have other : wire ≠ changed := fun same => untouched value (same ▸ List.mem_cons_self _ _)
      exact (ih restUntouched _).trans (Function.update_noteq other _ _)
    · exact ih restUntouched wires

/-- Numbering the wires from `base` moves a replay by `base`. -/
theorem replay_map_shift (base : Nat) (commands : List Command) (wires : Nat → Bool) (wire : Nat) :
    replay wires (commands.map (Command.shift base)) (base + wire) =
      replay (fun other => wires (base + other)) commands wire := by
  induction commands generalizing wires with
  | nil => rfl
  | cons command rest ih =>
    rcases command with ⟨changed, value⟩ | time
    · have moved : (fun other => Function.update wires (base + changed) value (base + other)) =
          Function.update (fun other => wires (base + other)) changed value := by
        funext other
        by_cases same : other = changed
        · subst same; simp
        · rw [Function.update_noteq same, Function.update_noteq (by omega)]
      show replay (Function.update wires (base + changed) value) (rest.map (Command.shift base))
          (base + wire) = replay (Function.update (fun other => wires (base + other)) changed value) rest wire
      rw [ih, moved]
    · exact ih wires

/-- Wires below `base` are out of reach of the changes numbered from `base`. -/
theorem changeScalar_not_mem_map_shift {base wire : Nat} (below : wire < base)
    (commands : List Command) (value : Bool) :
    Command.changeScalar wire value ∉ commands.map (Command.shift base) := by
  simp only [List.mem_map, not_exists, not_and]
  rintro (⟨changed, value'⟩ | time) _ shifted
  · simp only [Command.shift, Command.changeScalar.injEq] at shifted
    omega
  · cases shifted

/-- The changes of `update_state` name only wires of the set. -/
theorem VCDStatefulSet.changeScalar_not_mem {set set' : VCDStatefulSet} {items : List Nat}
    {out : List Command} (updated : set.updateState items = some (set', out))
    (bounded : ∀ item ∈ items, item < set.state.length) {wire : Nat}
    (outside : set.state.length ≤ wire) (value : Bool) : Command.changeScalar wire value ∉ out := by
  obtain ⟨set'', out', updated', -, -, rising, falling, -⟩ := set.updateState_spec items bounded
  obtain ⟨-, rfl⟩ := Prod.mk.inj (Option.some.inj (updated.symm.trans updated'))
  have absent : wire ∉ items := fun member => by have := bounded wire member; omega
  apply List.count_eq_zero.mp
  cases value
  · simp [falling, wireValue_of_le outside]
  · simp [rising, absent]

/-- A trace followed by a trace whose wires are numbered from `n`, when the
first changes only wires below `n`: each wire replays within its own block. -/
theorem replay_append_map_shift {n : Nat} {front : List Command}
    (inFront : ∀ wire, n ≤ wire → ∀ value, Command.changeScalar wire value ∉ front)
    (back : List Command) (wires : Nat → Bool) (wire : Nat) :
    replay wires (front ++ back.map (Command.shift n)) wire =
      if wire < n then replay wires front wire
      else replay (fun other => wires (n + other)) back (wire - n) := by
  rw [replay_append]
  by_cases below : wire < n
  · rw [if_pos below, replay_of_forall_not_mem (changeScalar_not_mem_map_shift below _)]
  · have frontKeeps : (fun other => replay wires front (n + other)) = fun other => wires (n + other) :=
      funext fun other => replay_of_forall_not_mem (inFront _ (Nat.le_add_right n other)) wires
    obtain ⟨offset, rfl⟩ := Nat.exists_eq_add_of_le (Nat.not_lt.mp below)
    rw [if_neg below, replay_map_shift, frontKeeps, Nat.add_sub_cancel_left]

/-- The changes of `update_state` replayed over wires that show the old state
on one wire show on that wire whether it is one of the items. -/
theorem VCDStatefulSet.replay_of_updateState {set set' : VCDStatefulSet} {items : List Nat}
    {out : List Command} (updated : set.updateState items = some (set', out))
    (bounded : ∀ item ∈ items, item < set.state.length) {wires : Nat → Bool} {wire : Nat}
    (shown : wires wire = VCDStatefulSet.wireValue set.state wire) :
    replay wires out wire = decide (wire ∈ items) := by
  obtain ⟨set'', out', updated', -, -, -, -, shows⟩ := set.updateState_spec items bounded
  obtain ⟨-, rfl⟩ := Prod.mk.inj (Option.some.inj (updated.symm.trans updated'))
  rw [replay_congr shown]
  exact shows _ (fun _ => rfl) wire

/-- `update_state` of the three traces, over frames whose pages fit each trace:
the read pages show on the wires of `r`, the written pages on those of `w` and
the executed pages on those of `x`, and replaying the changes over wires that
show the old traces shows the new ones. -/
theorem RWXSet.updateState_traces_each_permission (set : RWXSet) (items : List PageAccess)
    (boundedR : ∀ access ∈ items, access.read = true → access.page < set.r.state.length)
    (boundedW : ∀ access ∈ items, access.write = true → access.page < set.w.state.length)
    (boundedX : ∀ access ∈ items, access.execute = true → access.page < set.x.state.length) :
    ∃ set' out, set.updateState items = some (set', out) ∧
      set'.r.state.length = set.r.state.length ∧ set'.w.state.length = set.w.state.length ∧
      set'.x.state.length = set.x.state.length ∧
      (∀ wire, set'.wireValue wire =
        if wire < set.r.state.length then
          decide (∃ access ∈ items, access.read = true ∧ access.page = wire)
        else if wire < set.r.state.length + set.w.state.length then
          decide (∃ access ∈ items, access.write = true ∧ access.page = wire - set.r.state.length)
        else decide (∃ access ∈ items, access.execute = true ∧
          access.page = wire - set.r.state.length - set.w.state.length)) ∧
      ∀ wires : Nat → Bool, (∀ wire, wires wire = set.wireValue wire) →
        ∀ wire, replay wires out wire = set'.wireValue wire := by
  have readsR := pagesWith_lt boundedR
  have readsW := pagesWith_lt boundedW
  have readsX := pagesWith_lt boundedX
  obtain ⟨r, outR, updatedR, lengthR, bitsR, -⟩ := set.r.updateState_spec _ readsR
  obtain ⟨w, outW, updatedW, lengthW, bitsW, -⟩ := set.w.updateState_spec _ readsW
  obtain ⟨x, outX, updatedX, lengthX, bitsX, -⟩ := set.x.updateState_spec _ readsX
  -- the changes of `x` are numbered after those of `w`, and both after those of `r`
  have regrouped : outR ++ outW.map (Command.shift set.r.state.length) ++
      outX.map (Command.shift (set.r.state.length + set.w.state.length)) =
      outR ++ (outW ++ outX.map (Command.shift set.w.state.length)).map
        (Command.shift set.r.state.length) := by
    rw [List.map_append, List.map_map, List.append_assoc]
    congr 3
    funext command
    cases command <;> simp [Command.shift, Nat.add_assoc]
  refine ⟨⟨r, w, x⟩, outR ++ outW.map (Command.shift set.r.state.length) ++
      outX.map (Command.shift (set.r.state.length + set.w.state.length)),
    by simp [RWXSet.updateState, updatedR, updatedW, updatedX], lengthR, lengthW, lengthX,
    fun wire => by simp only [RWXSet.wireValue, lengthR, lengthW, bitsR, bitsW, bitsX, mem_pagesWith],
    fun wires agree wire => ?_⟩
  rw [regrouped,
    replay_append_map_shift (fun _ => VCDStatefulSet.changeScalar_not_mem updatedR readsR),
    replay_append_map_shift (fun _ => VCDStatefulSet.changeScalar_not_mem updatedW readsW)]
  simp only [RWXSet.wireValue, lengthR, lengthW, bitsR, bitsW, bitsX]
  split_ifs with inR inW inRW inRW
  · -- a wire of `r`
    exact VCDStatefulSet.replay_of_updateState updatedR readsR
      (by rw [agree, RWXSet.wireValue, if_pos inR])
  · -- a wire of `w`
    exact VCDStatefulSet.replay_of_updateState updatedW readsW (by
      rw [agree, RWXSet.wireValue, if_neg (by omega), if_pos (by omega), Nat.add_sub_cancel' (by omega)])
  · omega
  · omega
  · -- a wire of `x`
    refine VCDStatefulSet.replay_of_updateState updatedX readsX ?_
    rw [agree, RWXSet.wireValue, if_neg (by omega), if_neg (by omega)]
    congr 1
    omega

/-- A frame that reads and writes page 1 and reads and executes page 0, in a
trace of two pages per permission: every group of wires changes. -/
theorem RWXSet.updateState_traces_each_permission_every_group :
    (∀ access ∈ [(⟨true, true, false, 1⟩ : PageAccess), ⟨true, false, true, 0⟩],
      access.read = true → access.page < (RWXSet.new 2).r.state.length) ∧
    (∀ access ∈ [(⟨true, true, false, 1⟩ : PageAccess), ⟨true, false, true, 0⟩],
      access.write = true → access.page < (RWXSet.new 2).w.state.length) ∧
    (∀ access ∈ [(⟨true, true, false, 1⟩ : PageAccess), ⟨true, false, true, 0⟩],
      access.execute = true → access.page < (RWXSet.new 2).x.state.length) ∧
    ∃ set' out, (RWXSet.new 2).updateState [⟨true, true, false, 1⟩, ⟨true, false, true, 0⟩] =
        some (set', out) ∧
      set'.r.state.length = (RWXSet.new 2).r.state.length ∧
      set'.w.state.length = (RWXSet.new 2).w.state.length ∧
      set'.x.state.length = (RWXSet.new 2).x.state.length ∧
      (∀ wire, set'.wireValue wire =
        if wire < (RWXSet.new 2).r.state.length then
          decide (∃ access ∈ [(⟨true, true, false, 1⟩ : PageAccess), ⟨true, false, true, 0⟩],
            access.read = true ∧ access.page = wire)
        else if wire < (RWXSet.new 2).r.state.length + (RWXSet.new 2).w.state.length then
          decide (∃ access ∈ [(⟨true, true, false, 1⟩ : PageAccess), ⟨true, false, true, 0⟩],
            access.write = true ∧ access.page = wire - (RWXSet.new 2).r.state.length)
        else decide (∃ access ∈ [(⟨true, true, false, 1⟩ : PageAccess), ⟨true, false, true, 0⟩],
          access.execute = true ∧
            access.page = wire - (RWXSet.new 2).r.state.length - (RWXSet.new 2).w.state.length)) ∧
      ∀ wires : Nat → Bool, (∀ wire, wires wire = (RWXSet.new 2).wireValue wire) →
        ∀ wire, replay wires out wire = set'.wireValue wire :=
  ⟨by decide, by decide, by decide,
    RWXSet.updateState_traces_each_permission _ _ (by decide) (by decide) (by decide)⟩

example : ((RWXSet.new 2).updateState [⟨true, true, false, 1⟩, ⟨true, false, true, 0⟩]).map (·.2) =
    some [.changeScalar 1 true, .changeScalar 0 true, .changeScalar 3 true, .changeScalar 4 true] := by
  decide

/-! ## The erip vector -/

/-- `write_erip`: the value of the 64-bit erip wire, bit 63 of `rip` first. -/
def VCDDumper.writeErip (rip : Nat) : List Bool :=
  (List.range 64).reverse.map fun n => (rip >>> n) &&& 1 != 0

/-- Modelled from the VCD format: the number that a vector value stands for,
its first bit the most significant. -/
def vectorValue (bits : List Bool) : Nat := bits.foldl (fun value bit => 2 * value + bit.toNat) 0

theorem foldl_vectorValue (value : Nat) (bits : List Bool) :
    bits.foldl (fun value bit => 2 * value + bit.toNat) value = value * 2 ^ bits.length + vectorValue bits := by
  induction bits generalizing value with
  | nil => simp [vectorValue]
  | cons bit rest ih =>
    rw [vectorValue, List.foldl_cons, List.foldl_cons, ih, ih, List.length_cons, Nat.pow_succ,
      Nat.mul_zero, Nat.zero_add, Nat.add_mul, Nat.add_assoc,
      Nat.mul_comm 2 value, Nat.mul_assoc, Nat.mul_comm 2]

theorem vectorValue_cons (bit : Bool) (rest : List Bool) :
    vectorValue (bit :: rest) = bit.toNat * 2 ^ rest.length + vectorValue rest := by
  rw [vectorValue, List.foldl_cons, foldl_vectorValue, Nat.mul_zero, Nat.zero_add]

/-- The `n` low bits of `rip`, the most significant first, read back as a
vector: `rip` modulo `2 ^ n`. -/
theorem vectorValue_lowBits (rip n : Nat) :
    vectorValue ((List.range n).reverse.map fun k => (rip >>> k) &&& 1 != 0) = rip % 2 ^ n := by
  induction n with
  | zero => simp [vectorValue, Nat.mod_one]
  | succ n ih =>
    have bit : ((rip >>> n) &&& 1 != 0).toNat = rip / 2 ^ n % 2 := by
      rw [Nat.and_one_is_mod, Nat.shiftRight_eq_div_pow]
      rcases Nat.mod_two_eq_zero_or_one (rip / 2 ^ n) with parity | parity <;> simp [parity]
    rw [List.range_succ, List.reverse_append, List.reverse_singleton, List.singleton_append,
      List.map_cons, vectorValue_cons, ih, bit, Nat.mod_pow_succ, List.length_map, List.length_reverse,
      List.length_range, Nat.mul_comm, Nat.add_comm]

/-- The erip vector of a step holds the 64 low bits of `rip`, the most
significant first: read back as a vector it is `rip` modulo `2 ^ 64`, which is
`rip` itself for every `usize`. -/
theorem writeErip_round_trip (rip : Nat) :
    (VCDDumper.writeErip rip).length = 64 ∧ vectorValue (VCDDumper.writeErip rip) = rip % 2 ^ 64 :=
  ⟨by simp [VCDDumper.writeErip], vectorValue_lowBits rip 64⟩

end Profiler
end TLBlur
