import Mathlib.Algebra.Group.Nat.Basic
import TLBlur.Attack.Bitmap

namespace TLBlur
namespace Attack

/-!
# The attack on the enclave

`attack_enclave` loads the image into the enclave and lets it decompress
under one of two drivers of the reconstruction.  With the fault handler, the
pages of the first states are revoked and every page fault runs
`fault_handler`; the enclave's ocalls still arrive, but with `use_ocalls`
unset they touch nothing but the ocall statics.  Without it, no page is
revoked, `use_ocalls` is set, and the reconstruction follows the enclave's
own ocalls: `ocall_next_row` opens a row, except on its first call,
`ocall_all_zero` counts, and `ocall_idct_islow` commits the count as one block
and resets it.  Either way the run ends in `reconstructed_bitmap`.

Under the fault handler, over every interleaving of faults and ocalls, the
live attack renders what the trace replay of `attack_vcd` renders from the
same faults.  Under the ocalls, the reconstruction is laid out as the call
history says: each `ocall_idct_islow` commits the number of `ocall_all_zero`
calls since the one before it, in the row that the `ocall_next_row` calls
before it have opened, the first call apart; the image renders exactly when
some `ocall_idct_islow` was made.

The prints of the ocalls and the raw JSON output are left out.
-/

/-- The statics `ZERO_COUNT` and `SKIP_FIRST` of the ocalls, and the
`use_ocalls` flag of the global state, which only the ocalls read. -/
structure OcallState where
  zeroCount : Nat
  skipFirst : Bool
  useOcalls : Bool
  deriving DecidableEq, Repr

/-- The statics as the program starts, and `use_ocalls` unset as
`GlobalState::new` leaves it. -/
def OcallState.new : OcallState := ⟨0, false, false⟩

/-- `ocall_next_row`: the first call only sets `SKIP_FIRST`; a later one
opens a row when the ocalls drive the reconstruction. -/
def ocallNextRow (o : OcallState) (g : GlobalState) : Option (OcallState × GlobalState) :=
  if !o.skipFirst then some ({ o with skipFirst := true }, g)
  else if o.useOcalls then g.reconstruct.nextRow.map fun r => (o, { g with reconstruct := r })
  else some (o, g)

/-- `ocall_idct_islow`: when the ocalls drive the reconstruction, commit
`ZERO_COUNT` as one block and reset it. -/
def ocallIdctIslow (o : OcallState) (g : GlobalState) : Option (OcallState × GlobalState) :=
  if o.useOcalls then
    (g.reconstruct.reconstructBlock o.zeroCount).map fun r =>
      ({ o with zeroCount := 0 }, { g with reconstruct := r })
  else some (o, g)

/-- `ocall_all_zero`: the `fetch_add` on `ZERO_COUNT`, which wraps around. -/
def ocallAllZero (o : OcallState) : OcallState :=
  { o with zeroCount := (o.zeroCount + 1) % 2 ^ 64 }

/-- The ocalls of the decompression that reach the attack. -/
inductive Ocall
  | nextRow
  | idctIslow
  | allZero
  deriving DecidableEq, Repr

/-- What the attack sees of the enclave: a page fault, or an ocall. -/
inductive EnclaveEvent
  | fault (page : Nat)
  | ocall (call : Ocall)
  deriving DecidableEq, Repr

/-- The pages of the faults among the events, in order. -/
def faultPages (events : List EnclaveEvent) : List Nat :=
  events.filterMap fun
    | .fault page => some page
    | .ocall _ => none

@[simp] theorem faultPages_fault (page : Nat) (rest : List EnclaveEvent) :
    faultPages (.fault page :: rest) = page :: faultPages rest := rfl

@[simp] theorem faultPages_ocall (call : Ocall) (rest : List EnclaveEvent) :
    faultPages (.ocall call :: rest) = faultPages rest := rfl

/-- What the handlers share: the global state behind its mutex, the page
permissions, and the statics of the ocalls. -/
structure AttackState where
  global : GlobalState
  revoked : Nat → Bool
  ocalls : OcallState

/-- One event: a fault runs `fault_handler`, an ocall its own handler. -/
def handleEvent (s : AttackState) : EnclaveEvent → Option AttackState
  | .fault page =>
    (faultHandler s.global s.revoked page).map fun result =>
      { s with global := result.1, revoked := result.2 }
  | .ocall .nextRow =>
    (ocallNextRow s.ocalls s.global).map fun result => { s with ocalls := result.1, global := result.2 }
  | .ocall .idctIslow =>
    (ocallIdctIslow s.ocalls s.global).map fun result =>
      { s with ocalls := result.1, global := result.2 }
  | .ocall .allZero => some { s with ocalls := ocallAllZero s.ocalls }

/-- The state in which the enclave starts to decompress: `GlobalState::new`
with every page accessible, then, with the fault handler, the pages of the
first states revoked before the AEX-Notify flag is set, and otherwise the
ocalls switched on. -/
def AttackState.start (color hasAexnotify useFaultHandler : Bool) : AttackState :=
  let data := GlobalState.new color
  if useFaultHandler then
    ⟨{ data with hasAexnotify := hasAexnotify }, data.protectNextPages fun _ => false, OcallState.new⟩
  else ⟨{ data with hasAexnotify := hasAexnotify }, fun _ => false, { OcallState.new with useOcalls := true }⟩

/-- `attack_enclave` from the loaded image to the rendered bitmap: the
enclave's events from the start state, then `reconstructed_bitmap`. -/
def attackEnclave (color hasAexnotify useFaultHandler : Bool) (events : List EnclaveEvent) :
    Option Bitmap := do
  let s ← events.foldlM handleEvent (AttackState.start color hasAexnotify useFaultHandler)
  s.global.reconstruct.reconstructedBitmap

/-! ## Under the fault handler -/

/-- `fault_handler` moves the state machine and the reconstruction exactly as
one step of the trace replay does, and fails exactly when that step fails. -/
theorem faultHandler_map_eq_replayStep (g : GlobalState) (revoked : Nat → Bool) (page : Nat) :
    (faultHandler g revoked page).map (fun result => (result.1.state, result.1.reconstruct)) =
      replayStep g.hasAexnotify (g.state, g.reconstruct) page := by
  simp only [faultHandler, replayStep, Option.bind_eq_bind]
  cases g.reconstruct.reconstruct g.state (g.state.next page g.hasAexnotify) with
  | none => rfl
  | some r => cases g.hasAexnotify <;> rfl

/-- With `use_ocalls` unset an ocall leaves the global state alone. -/
theorem handleEvent_ocall_of_useOcalls_false {s : AttackState} (off : s.ocalls.useOcalls = false)
    (call : Ocall) :
    ∃ s', handleEvent s (.ocall call) = some s' ∧ s'.global = s.global ∧ s'.ocalls.useOcalls = false := by
  cases call with
  | nextRow =>
    unfold handleEvent ocallNextRow
    cases s.ocalls.skipFirst <;> simp [off]
  | idctIslow => simp [handleEvent, ocallIdctIslow, off]
  | allZero => simp [handleEvent, ocallAllZero, off]

/-- Under the fault handler, a run of events moves the state machine and the
reconstruction exactly as the trace replay of its faults does: the ocalls in
between change neither. -/
theorem foldlM_handleEvent_of_useOcalls_false (events : List EnclaveEvent) :
    ∀ s : AttackState, s.ocalls.useOcalls = false →
      (events.foldlM handleEvent s).map (fun s => (s.global.state, s.global.reconstruct)) =
        (faultPages events).foldlM (replayStep s.global.hasAexnotify)
          (s.global.state, s.global.reconstruct) := by
  induction events with
  | nil => intro s _; rfl
  | cons event rest ih =>
    intro s off
    cases event with
    | fault page =>
      have agrees := faultHandler_map_eq_replayStep s.global s.revoked page
      simp only [faultPages_fault, List.foldlM_cons, Option.bind_eq_bind]
      cases handled : faultHandler s.global s.revoked page with
      | none => rw [handled] at agrees; simp [handleEvent, handled, ← agrees]
      | some result =>
        rw [handled, Option.map_some'] at agrees
        rw [← agrees, handleEvent, handled, Option.map_some', Option.some_bind, Option.some_bind,
          ih { s with global := result.1, revoked := result.2 } off, (faultHandler_spec handled).2.1]
    | ocall call =>
      obtain ⟨s', handled, same, off'⟩ := handleEvent_ocall_of_useOcalls_false off call
      simp only [List.foldlM_cons, handled, Option.bind_eq_bind, Option.some_bind, faultPages_ocall]
      rw [ih s' off', same]

/-- The number of colours `GlobalState::new` gives the reconstruction. -/
theorem start_numColors (color hasAexnotify useFaultHandler : Bool) :
    (AttackState.start color hasAexnotify useFaultHandler).global.reconstruct =
      JpegReconstruct.new (if color then 3 else 1) := by
  unfold AttackState.start; split <;> rfl

/-- Under the fault handler the live attack simulates the trace replay of
`attack_vcd`: over every interleaving of page faults and ocalls, no handler
panics, the run ends with the state machine and the reconstruction that the
replay of the same faults ends with, laid out as the commit log of those
faults says, and the attack renders that reconstruction. -/
theorem attackEnclave_with_fault_handler (color hasAexnotify : Bool) (events : List EnclaveEvent) :
    ∃ state r s, replay (if color then 3 else 1) hasAexnotify (faultPages events) = some (state, r) ∧
      events.foldlM handleEvent (AttackState.start color hasAexnotify true) = some s ∧
      s.global.state = state ∧ s.global.reconstruct = r ∧
      Layout (if color then 3 else 1) (rowSteps (steps hasAexnotify (faultPages events)))
        (commitLog hasAexnotify (steps hasAexnotify (faultPages events))) r ∧
      attackEnclave color hasAexnotify true events = r.reconstructedBitmap := by
  obtain ⟨state, r, ran, consistent⟩ := (consistent_new (if color then 3 else 1) hasAexnotify).run
    (by split <;> omega) (faultPages events)
  change replay (if color then 3 else 1) hasAexnotify (faultPages events) = some (state, r) at ran
  have agrees : (events.foldlM handleEvent (AttackState.start color hasAexnotify true)).map
      (fun s => (s.global.state, s.global.reconstruct)) =
        replay (if color then 3 else 1) hasAexnotify (faultPages events) :=
    foldlM_handleEvent_of_useOcalls_false events _ rfl
  rw [ran] at agrees
  obtain ⟨s, ended, same⟩ := Option.map_eq_some'.mp agrees
  obtain ⟨sameState, sameReconstruct⟩ := Prod.mk.inj same
  refine ⟨state, r, s, ran, ended, sameState, sameReconstruct,
    by simpa [steps] using consistent.layout, ?_⟩
  simp only [attackEnclave, ended, Option.bind_eq_bind, Option.some_bind, sameReconstruct]

/-! ## Under the ocalls -/

/-- The rows that the ocalls `history` have opened: one per `ocall_next_row`
but the first. -/
def rowsOpened (history : List Ocall) : Nat := history.count .nextRow - 1

/-- The `ocall_all_zero` calls since the last `ocall_idct_islow` of `history`. -/
def zerosSinceIdct (history : List Ocall) : Nat :=
  (history.reverse.takeWhile (· != .idctIslow)).count .allZero

/-- The blocks that the ocalls `history` commit after the ocalls `before`:
for each `ocall_idct_islow`, the count it finds and the row it writes. -/
def ocallLogFrom : List Ocall → List Ocall → List (Nat × Nat)
  | _, [] => []
  | before, call :: rest =>
    (if call = .idctIslow then [(zerosSinceIdct before % 2 ^ 64, rowsOpened before)] else []) ++
      ocallLogFrom (before ++ [call]) rest

/-- The blocks that an ocall history commits, in order: value and row. -/
def ocallLog (history : List Ocall) : List (Nat × Nat) := ocallLogFrom [] history

theorem rowsOpened_append_single (history : List Ocall) (call : Ocall) :
    rowsOpened (history ++ [call]) =
      rowsOpened history + if call = .nextRow ∧ Ocall.nextRow ∈ history then 1 else 0 := by
  unfold rowsOpened
  by_cases seen : Ocall.nextRow ∈ history
  · have := List.count_pos_iff.mpr seen
    cases call <;> simp [List.count_append, seen]
  · cases call <;> simp [List.count_append, seen, List.count_eq_zero.mpr seen]

theorem zerosSinceIdct_append_single (history : List Ocall) (call : Ocall) :
    zerosSinceIdct (history ++ [call]) =
      if call = .idctIslow then 0 else zerosSinceIdct history + if call = .allZero then 1 else 0 := by
  unfold zerosSinceIdct
  rw [List.reverse_append, List.reverse_singleton, List.singleton_append, List.takeWhile_cons]
  cases call <;> simp [List.count_cons]

theorem ocallLogFrom_append_single (before history : List Ocall) (call : Ocall) :
    ocallLogFrom before (history ++ [call]) =
      ocallLogFrom before history ++
        if call = .idctIslow then
          [(zerosSinceIdct (before ++ history) % 2 ^ 64, rowsOpened (before ++ history))]
        else [] := by
  induction history generalizing before with
  | nil => simp [ocallLogFrom]
  | cons first rest ih => simp [ocallLogFrom, ih, List.append_assoc]

theorem ocallLog_append_single (history : List Ocall) (call : Ocall) :
    ocallLog (history ++ [call]) =
      ocallLog history ++
        if call = .idctIslow then [(zerosSinceIdct history % 2 ^ 64, rowsOpened history)] else [] := by
  simpa using ocallLogFrom_append_single [] history call

theorem ocallLogFrom_eq_nil_iff (before history : List Ocall) :
    ocallLogFrom before history = [] ↔ Ocall.idctIslow ∉ history := by
  induction history generalizing before with
  | nil => simp [ocallLogFrom]
  | cons call rest ih => cases call <;> simp [ocallLogFrom, ih]

/-- The ocall invariant after the ocalls `history`: the ocalls drive the
reconstruction, `SKIP_FIRST` is set once a row call was made, `ZERO_COUNT`
holds the zero calls since the last commit, and the reconstruction is laid
out as the history's commit log says. -/
structure OcallsConsistent (numColors : Nat) (history : List Ocall) (s : AttackState) : Prop where
  useOcalls : s.ocalls.useOcalls = true
  skipFirst : s.ocalls.skipFirst = decide (Ocall.nextRow ∈ history)
  zeroCount : s.ocalls.zeroCount = zerosSinceIdct history % 2 ^ 64
  layout : Layout numColors (rowsOpened history) (ocallLog history) s.global.reconstruct

theorem ocallsConsistent_start (color hasAexnotify : Bool) :
    OcallsConsistent (if color then 3 else 1) [] (AttackState.start color hasAexnotify false) where
  useOcalls := rfl
  skipFirst := rfl
  zeroCount := rfl
  layout := by rw [start_numColors]; exact layout_new _

/-- One ocall keeps the invariant, and its handler does not panic. -/
theorem OcallsConsistent.next {numColors : Nat} {history : List Ocall} {s : AttackState}
    (consistent : OcallsConsistent numColors history s) (colors : 1 ≤ numColors) (call : Ocall) :
    ∃ s', handleEvent s (.ocall call) = some s' ∧ OcallsConsistent numColors (history ++ [call]) s' := by
  obtain ⟨driven, skip, zeros, layout⟩ := consistent
  cases call with
  | nextRow =>
    by_cases seen : Ocall.nextRow ∈ history
    · obtain ⟨r', opened, layout'⟩ := layout.nextRow
      refine ⟨{ s with global := { s.global with reconstruct := r' } },
        by simp [handleEvent, ocallNextRow, skip, seen, driven, opened], driven, by simp [skip, seen],
        by rw [zeros, zerosSinceIdct_append_single]; simp, ?_⟩
      simpa [rowsOpened_append_single, ocallLog_append_single, seen] using layout'
    · refine ⟨{ s with ocalls := { s.ocalls with skipFirst := true } },
        by simp [handleEvent, ocallNextRow, skip, seen], driven, by simp,
        by rw [zeros, zerosSinceIdct_append_single]; simp, ?_⟩
      simpa [rowsOpened_append_single, ocallLog_append_single, seen] using layout
  | idctIslow =>
    obtain ⟨r', committed, layout'⟩ := layout.reconstructBlock colors s.ocalls.zeroCount
    refine ⟨{ s with
        ocalls := { s.ocalls with zeroCount := 0 }
        global := { s.global with reconstruct := r' } },
      by simp [handleEvent, ocallIdctIslow, driven, committed], driven, by simp [skip],
      by simp [zerosSinceIdct_append_single], ?_⟩
    simpa [rowsOpened_append_single, ocallLog_append_single, zeros] using layout'
  | allZero =>
    refine ⟨_, rfl, driven, by simp [ocallAllZero, skip],
      by simp [ocallAllZero, zeros, zerosSinceIdct_append_single, Nat.mod_add_mod], ?_⟩
    simpa [rowsOpened_append_single, ocallLog_append_single] using layout

/-- The invariant holds after every ocall sequence, whose handlers never panic. -/
theorem OcallsConsistent.run {numColors : Nat} (colors : 1 ≤ numColors) (calls : List Ocall) :
    ∀ {history : List Ocall} {s : AttackState}, OcallsConsistent numColors history s →
      ∃ s', (calls.map .ocall).foldlM handleEvent s = some s' ∧
        OcallsConsistent numColors (history ++ calls) s' := by
  induction calls with
  | nil => exact fun consistent => ⟨_, rfl, by simpa using consistent⟩
  | cons call rest ih =>
    intro history s consistent
    obtain ⟨s₁, handled, consistent₁⟩ := consistent.next colors call
    obtain ⟨s', ran, consistent'⟩ := ih consistent₁
    exact ⟨s', by simp [List.foldlM_cons, handled, ran], by simpa using consistent'⟩

/-- Under the ocalls, for every sequence of them: no handler panics; the run
ends with `SKIP_FIRST` set once a row call was made, `ZERO_COUNT` holding the
`ocall_all_zero` calls since the last `ocall_idct_islow`, and the
reconstruction laid out as the call history says, one block for each
`ocall_idct_islow` holding the `ocall_all_zero` calls since the previous one
in the row opened by the `ocall_next_row` calls before it, the first apart;
and the attack renders that reconstruction, failing exactly when no
`ocall_idct_islow` was made. -/
theorem attackEnclave_with_ocalls (color hasAexnotify : Bool) (calls : List Ocall) :
    ∃ s, (calls.map .ocall).foldlM handleEvent (AttackState.start color hasAexnotify false) = some s ∧
      s.ocalls.skipFirst = decide (Ocall.nextRow ∈ calls) ∧
      s.ocalls.zeroCount = zerosSinceIdct calls % 2 ^ 64 ∧
      Layout (if color then 3 else 1) (rowsOpened calls) (ocallLog calls) s.global.reconstruct ∧
      attackEnclave color hasAexnotify false (calls.map .ocall) = s.global.reconstruct.reconstructedBitmap ∧
      (s.global.reconstruct.reconstructedBitmap = none ↔ Ocall.idctIslow ∉ calls) := by
  have colors : 1 ≤ if color then 3 else 1 := by split <;> omega
  obtain ⟨s, ran, consistent⟩ := (ocallsConsistent_start color hasAexnotify).run colors calls
  rw [List.nil_append] at consistent
  refine ⟨s, ran, consistent.skipFirst, consistent.zeroCount, consistent.layout,
    by simp [attackEnclave, ran], ?_⟩
  rw [(consistent.layout.reconstructedBitmap_eq_none_iff colors).trans
    (consistent.layout.reconstruction_eq_nil_iff colors)]
  exact ocallLogFrom_eq_nil_iff [] calls

end Attack
end TLBlur
