import Mathlib.Data.List.DropRight
import TLBlur.Attack.Reconstruct

namespace TLBlur
namespace Attack

/-!
# The live attack's page-fault handler

The live attack follows the enclave by page permissions.  When the machine
enters a state, the handler revokes the pages of every state it may move to
next; a fault on one of them runs the handler, which advances the machine,
notifies the reconstruction, revokes the pages of the new successors and then
gives access back: to the faulting page, or, with AEX-Notify, to the two
pages it faulted on last.

An instruction that touches a set of pages faults while one of them is
revoked and retries after each fault.  With AEX-Notify it completes after at
most one fault per page it touches, from any state and any permissions,
whenever it touches at most two pages.  Without AEX-Notify this holds for an
instruction on one page, but two pages can take turns: the fault on the
second page revokes the first again, and the instruction is retried for ever.
-/

/-- Modelled from the spec: the pages `start ≤ page < start + len` lose
their permissions (`revoke_pages` of libsgxstep). -/
def revokePages (revoked : Nat → Bool) (start len : Nat) : Nat → Bool :=
  fun page => revoked page || (decide (start ≤ page) && decide (page < start + len))

/-- Modelled from the spec: the pages `start ≤ page < start + len` get their
permissions back (`restore_pages` of libsgxstep). -/
def restorePages (revoked : Nat → Bool) (start len : Nat) : Nat → Bool :=
  fun page => revoked page && !(decide (start ≤ page) && decide (page < start + len))

@[simp] theorem restorePages_self (revoked : Nat → Bool) (page : Nat) :
    restorePages revoked page 1 page = false := by
  simp [restorePages]

theorem restorePages_of_eq_false {revoked : Nat → Bool} {page : Nat}
    (restored : revoked page = false) (start len : Nat) :
    restorePages revoked start len page = false := by
  simp [restorePages, restored]

/-- The attack state that the handler reads and updates.  The flag that
selects the ocall-driven reconstruction is read by no code modelled here and
is left out. -/
structure GlobalState where
  state : JpegState
  reconstruct : JpegReconstruct
  workingSet : List Nat
  prevPage : Nat
  hasAexnotify : Bool

namespace GlobalState

/-- `GlobalState::new`: three colours for a colour image, one otherwise; the
attack sets the AEX-Notify flag afterwards. -/
def new (color : Bool) : GlobalState where
  state := .preStart
  reconstruct := JpegReconstruct.new (if color then 3 else 1)
  workingSet := []
  prevPage := 0
  hasAexnotify := false

/-- `protect_next_pages`: revoke the pages of every possible next state. -/
def protectNextPages (g : GlobalState) (revoked : Nat → Bool) : Nat → Bool :=
  (g.state.nextPages g.hasAexnotify).foldl
    (fun revoked pages => revokePages revoked pages.start pages.len) revoked

end GlobalState

/-- `push_back` of the faulting page onto the working set, then one
`pop_front` when it holds more than two pages. -/
def pushWorkingSet (workingSet : List Nat) (page : Nat) : List Nat :=
  if (workingSet ++ [page]).length > 2 then (workingSet ++ [page]).tail else workingSet ++ [page]

/-- Restore every page of the working set, in order. -/
def restoreWorkingSet (revoked : Nat → Bool) (workingSet : List Nat) : Nat → Bool :=
  workingSet.foldl (fun revoked page => restorePages revoked page 1) revoked

/-- `fault_handler`: advance the state machine, notify the reconstruction
(whose indexing may panic), revoke the next states' pages, then restore the
working set with AEX-Notify or the faulting page without it. -/
def faultHandler (g : GlobalState) (revoked : Nat → Bool) (page : Nat) :
    Option (GlobalState × (Nat → Bool)) := do
  let prevState := g.state
  let newState := g.state.next page g.hasAexnotify
  let reconstruct ← g.reconstruct.reconstruct prevState newState
  let g := { g with reconstruct := reconstruct, state := newState }
  let revoked := g.protectNextPages revoked
  if g.hasAexnotify then
    let workingSet := pushWorkingSet g.workingSet page
    pure ({ g with workingSet := workingSet, prevPage := page },
      restoreWorkingSet revoked workingSet)
  else
    pure ({ g with prevPage := page }, restorePages revoked page 1)

/-! ## The working set -/

theorem getLast?_pushWorkingSet (workingSet : List Nat) (page : Nat) :
    (pushWorkingSet workingSet page).getLast? = some page := by
  unfold pushWorkingSet
  split
  next long =>
    have nonempty : workingSet ≠ [] := by rintro rfl; simp at long
    simp [List.getLast?_tail, nonempty]
  next => simp

/-- The page pushed before the faulting one stays in the working set. -/
theorem mem_pushWorkingSet_of_getLast? {workingSet : List Nat} {last : Nat}
    (previous : workingSet.getLast? = some last) (page : Nat) :
    last ∈ pushWorkingSet workingSet page := by
  obtain ⟨front, rfl⟩ := List.getLast?_eq_some_iff.mp previous
  unfold pushWorkingSet
  split
  · cases front with
    | nil => simp at *
    | cons first rest => simp
  · simp

theorem restoreWorkingSet_of_eq_false {revoked : Nat → Bool} {page : Nat}
    (restored : revoked page = false) (workingSet : List Nat) :
    restoreWorkingSet revoked workingSet page = false := by
  induction workingSet generalizing revoked with
  | nil => exact restored
  | cons first rest ih => exact ih (restorePages_of_eq_false restored first 1)

theorem restoreWorkingSet_of_mem (revoked : Nat → Bool) {workingSet : List Nat} {page : Nat}
    (member : page ∈ workingSet) : restoreWorkingSet revoked workingSet page = false := by
  induction workingSet generalizing revoked with
  | nil => cases member
  | cons first rest ih =>
    rcases List.mem_cons.mp member with same | later
    · subst same
      exact restoreWorkingSet_of_eq_false (restorePages_self revoked page) rest
    · exact ih _ later

/-- From at most two pages, pushing the faulting page leaves the last two
pages of the working set followed by it. -/
theorem pushWorkingSet_eq_rtake {workingSet : List Nat} (short : workingSet.length ≤ 2)
    (page : Nat) : pushWorkingSet workingSet page = (workingSet ++ [page]).rtake 2 :=
  match workingSet, short with
  | [], _ | [_], _ | [_, _], _ => rfl
  | _ :: _ :: _ :: _, short => by simp at short

/-- Keeping the last `k` pages before more are appended keeps the last `n ≤ k`
pages after. -/
theorem rtake_rtake_append {front back : List Nat} {n k : Nat} (le : n ≤ k) :
    (front.rtake k ++ back).rtake n = (front ++ back).rtake n := by
  simp only [List.rtake]
  rw [← List.drop_append_of_le_length (Nat.sub_le front.length k), List.drop_drop]
  congr 1
  simp only [List.length_drop, List.length_append]
  omega

/-! ## A reconstruction that cannot panic -/

/-- A reconstruction over at least one colour laid out as some commit log, as
`GlobalState::new` builds it: no call of `reconstruct` panics on it. -/
structure JpegReconstruct.WellFormed (r : JpegReconstruct) : Prop where
  colors : 1 ≤ r.numColors
  layout : ∃ rows log, Layout r.numColors rows log r

theorem JpegReconstruct.wellFormed_new {numColors : Nat} (colors : 1 ≤ numColors) :
    (JpegReconstruct.new numColors).WellFormed :=
  ⟨colors, 0, [], layout_new numColors⟩

theorem JpegReconstruct.WellFormed.reconstruct {r : JpegReconstruct} (wellFormed : r.WellFormed)
    (prevState newState : JpegState) :
    ∃ r', r.reconstruct prevState newState = some r' ∧ r'.WellFormed := by
  obtain ⟨colors, rows, log, layout⟩ := wellFormed
  obtain ⟨r', rows', log', notified, layout'⟩ := layout.reconstruct_any colors prevState newState
  exact ⟨r', notified, layout'.numColors_eq ▸ colors, rows', log', by rwa [layout'.numColors_eq]⟩

/-! ## One fault -/

/-- What one handled fault guarantees: the reconstruction stays well formed,
the mode is kept, the faulting page is accessible again, and with AEX-Notify
the new working set ends with the faulting page, keeps the page faulted on
before it, and is accessible as a whole. -/
theorem faultHandler_spec {g g' : GlobalState} {revoked revoked' : Nat → Bool} {page : Nat}
    (handled : faultHandler g revoked page = some (g', revoked')) :
    (g.reconstruct.WellFormed → g'.reconstruct.WellFormed) ∧
      g'.hasAexnotify = g.hasAexnotify ∧ revoked' page = false ∧
      (g.hasAexnotify = true →
        g'.workingSet = pushWorkingSet g.workingSet page ∧
        ∀ other ∈ g'.workingSet, revoked' other = false) := by
  simp only [faultHandler, Option.bind_eq_bind, Option.bind_eq_some] at handled
  obtain ⟨r', reconstructed, handled⟩ := handled
  have wellFormed : g.reconstruct.WellFormed → r'.WellFormed := fun wellFormed => by
    obtain ⟨r'', again, formed⟩ := wellFormed.reconstruct g.state (g.state.next page g.hasAexnotify)
    exact (Option.some.inj (again.symm.trans reconstructed)) ▸ formed
  cases aex : g.hasAexnotify <;> simp only [aex, if_true, if_false, Bool.false_eq_true] at handled <;>
    cases handled
  · exact ⟨wellFormed, rfl, restorePages_self _ page, nofun⟩
  · refine ⟨wellFormed, rfl, restoreWorkingSet_of_mem _ ?_, fun _ =>
      ⟨rfl, fun _ member => restoreWorkingSet_of_mem _ member⟩⟩
    exact List.mem_of_getLast?_eq_some (getLast?_pushWorkingSet _ _)

/-! ## Retrying an instruction -/

/-- Modelled from the spec: an instruction that touches the pages `touched`
has completed when none of them is revoked. -/
def completes (touched : List Nat) (revoked : Nat → Bool) : Bool :=
  touched.all fun page => !revoked page

/-- Modelled from the spec: one fault of the instruction, on a page it
touches that is revoked; any other choice is no fault. -/
def faultStep (touched : List Nat) (s : GlobalState × (Nat → Bool)) (page : Nat) :
    Option (GlobalState × (Nat → Bool)) :=
  if page ∈ touched ∧ s.2 page = true then faultHandler s.1 s.2 page else none

/-- Modelled from the spec: the faults `faults` taken one after the other;
`some` exactly when each of them is a fault the instruction can take. -/
def faultRun (touched : List Nat) (s : GlobalState × (Nat → Bool)) (faults : List Nat) :
    Option (GlobalState × (Nat → Bool)) :=
  faults.foldlM (faultStep touched) s

theorem faultStep_spec {touched : List Nat} {s s' : GlobalState × (Nat → Bool)} {page : Nat}
    (stepped : faultStep touched s page = some s') :
    page ∈ touched ∧ s.2 page = true ∧ faultHandler s.1 s.2 page = some s' := by
  unfold faultStep at stepped
  split at stepped
  next chosen => exact ⟨chosen.1, chosen.2, stepped⟩
  next => cases stepped

theorem faultRun_cons {touched : List Nat} {s s' : GlobalState × (Nat → Bool)} {page : Nat}
    {rest : List Nat} (ran : faultRun touched s (page :: rest) = some s') :
    ∃ s₁, faultStep touched s page = some s₁ ∧ faultRun touched s₁ rest = some s' := by
  simpa [faultRun, List.foldlM_cons, Option.bind_eq_bind, Option.bind_eq_some] using ran

/-- The reconstruction stays well formed and the mode is kept over any run of faults. -/
theorem faultRun_preserves {touched : List Nat} (faults : List Nat) {g g' : GlobalState}
    {revoked revoked' : Nat → Bool} (ran : faultRun touched (g, revoked) faults = some (g', revoked'))
    (wellFormed : g.reconstruct.WellFormed) :
    g'.reconstruct.WellFormed ∧ g'.hasAexnotify = g.hasAexnotify := by
  induction faults generalizing g revoked with
  | nil =>
    cases ran
    exact ⟨wellFormed, rfl⟩
  | cons page rest ih =>
    obtain ⟨⟨g₁, revoked₁⟩, stepped, ran⟩ := faultRun_cons ran
    obtain ⟨-, -, handled⟩ := faultStep_spec stepped
    obtain ⟨formed, kept, -⟩ := faultHandler_spec handled
    obtain ⟨formed', kept'⟩ := ih ran (formed wellFormed)
    exact ⟨formed', kept'.trans kept⟩

/-- An instruction that has not completed can always take one more fault,
as long as the reconstruction is well formed. -/
theorem faultStep_exists {touched : List Nat} {g : GlobalState} {revoked : Nat → Bool}
    (wellFormed : g.reconstruct.WellFormed) (pending : completes touched revoked = false) :
    ∃ page s', faultStep touched (g, revoked) page = some s' := by
  obtain ⟨page, touches, revokedPage⟩ : ∃ page ∈ touched, revoked page = true := by
    simpa [completes] using pending
  obtain ⟨r', reconstructed, -⟩ :=
    wellFormed.reconstruct g.state (g.state.next page g.hasAexnotify)
  refine ⟨page, ?_⟩
  simp only [faultStep, touches, revokedPage, and_self, if_true, faultHandler, reconstructed,
    Option.bind_eq_bind, Option.some_bind]
  split <;> exact ⟨_, rfl⟩

/-- With AEX-Notify, or for an instruction on one page, an instruction that
touches at most two pages completes after at most one fault per page:
no run of faults it can take is longer, and until it completes the next fault
can always be handled. -/
theorem instruction_completes (g : GlobalState) (revoked : Nat → Bool) (touched : List Nat)
    (small : touched.length ≤ 2)
    (retained : g.hasAexnotify = true ∨ touched.length ≤ 1)
    (wellFormed : g.reconstruct.WellFormed) (faults : List Nat) {g' : GlobalState}
    {revoked' : Nat → Bool} (ran : faultRun touched (g, revoked) faults = some (g', revoked')) :
    faults.length ≤ touched.length ∧
      (completes touched revoked' = false → ∃ page s', faultStep touched (g', revoked') page = some s') := by
  refine ⟨?_, faultStep_exists (faultRun_preserves faults ran wellFormed).1⟩
  rcases faults with _ | ⟨first, _ | ⟨second, rest⟩⟩
  · exact Nat.zero_le _
  · obtain ⟨_, stepped, -⟩ := faultRun_cons ran
    exact List.length_pos_of_mem (faultStep_spec stepped).1
  · obtain ⟨⟨g₁, revoked₁⟩, stepped₁, ran₁⟩ := faultRun_cons ran
    obtain ⟨⟨g₂, revoked₂⟩, stepped₂, ran₂⟩ := faultRun_cons ran₁
    obtain ⟨touches₁, -, handled₁⟩ := faultStep_spec stepped₁
    obtain ⟨touches₂, (pending₂ : revoked₁ second = true), handled₂⟩ := faultStep_spec stepped₂
    obtain ⟨-, kept₁, restored₁, window₁⟩ := faultHandler_spec handled₁
    obtain ⟨-, -, restored₂, window₂⟩ := faultHandler_spec handled₂
    -- each fault is on a page still revoked, unlike the pages handled before it
    have different : first ≠ second := ne_of_apply_ne revoked₁ (by simp [restored₁, pending₂])
    have two : [first, second].length ≤ touched.length :=
      (List.subperm_of_subset (by simp [different]) (by simp [touches₁, touches₂])).length_le
    rcases retained with aex | single
    · cases rest with
      | nil => exact two
      | cons third rest =>
        obtain ⟨_, stepped₃, -⟩ := faultRun_cons ran₂
        obtain ⟨touches₃, (pending₃ : revoked₂ third = true), -⟩ := faultStep_spec stepped₃
        obtain ⟨pushed₁, -⟩ := window₁ aex
        obtain ⟨pushed₂, restoresWindow⟩ := window₂ (kept₁.trans aex)
        -- the first page stays in the working set that the second fault restores
        have firstKept : first ∈ g₂.workingSet := by
          rw [pushed₂, pushed₁]; exact mem_pushWorkingSet_of_getLast? (getLast?_pushWorkingSet _ _) _
        have firstOpen : revoked₂ first = false := restoresWindow first firstKept
        have freshFirst : third ≠ first := ne_of_apply_ne revoked₂ (by simp [pending₃, firstOpen])
        have freshSecond : third ≠ second := ne_of_apply_ne revoked₂ (by simp [pending₃, restored₂])
        have three : [first, second, third].length ≤ touched.length :=
          (List.subperm_of_subset (by simp [different, freshFirst.symm, freshSecond.symm])
            (by simp [touches₁, touches₂, touches₃])).length_le
        simp only [List.length_cons, List.length_nil] at three
        omega
    · simp only [List.length_cons, List.length_nil] at two
      omega

theorem instruction_completes_two_data_pages :
    ∃ g' revoked', faultRun [150, 151]
        ({ GlobalState.new false with state := .idctSlow, hasAexnotify := true },
          revokePages (fun _ => false) 150 2) [150, 151] = some (g', revoked') ∧
      [150, 151].length ≤ [150, 151].length ∧
      (completes [150, 151] revoked' = false →
        ∃ page s', faultStep [150, 151] (g', revoked') page = some s') := by
  obtain ⟨⟨g', revoked'⟩, ran⟩ := Option.isSome_iff_exists.mp
    (by decide : (faultRun [150, 151]
      ({ GlobalState.new false with state := .idctSlow, hasAexnotify := true },
        revokePages (fun _ => false) 150 2) [150, 151]).isSome = true)
  exact ⟨g', revoked', ran, instruction_completes _ _ [150, 151] (by decide) (.inl rfl)
    (JpegReconstruct.wellFormed_new (by decide)) [150, 151] ran⟩

/-! ## The working set over a run -/

/-- With AEX-Notify, the working set after any run of faults holds the last
two pages of the working set before it followed by the faulting pages: from
`GlobalState::new`, the two pages faulted on most recently.  After at least
one fault, every page of it is accessible. -/
theorem workingSet_holds_last_two_faults (touched : List Nat) {g g' : GlobalState}
    {revoked revoked' : Nat → Bool} (aex : g.hasAexnotify = true)
    (short : g.workingSet.length ≤ 2) (faults : List Nat)
    (ran : faultRun touched (g, revoked) faults = some (g', revoked')) :
    g'.workingSet = (g.workingSet ++ faults).rtake 2 ∧
      (faults ≠ [] → ∀ page ∈ g'.workingSet, revoked' page = false) := by
  induction faults generalizing g revoked with
  | nil =>
    cases ran
    exact ⟨by simp [List.rtake, Nat.sub_eq_zero_of_le short], nofun⟩
  | cons page rest ih =>
    obtain ⟨⟨g₁, revoked₁⟩, stepped, ran⟩ := faultRun_cons ran
    obtain ⟨-, -, handled⟩ := faultStep_spec stepped
    obtain ⟨-, kept, -, window⟩ := faultHandler_spec handled
    obtain ⟨pushed, restored⟩ := window aex
    rw [pushWorkingSet_eq_rtake short] at pushed
    obtain ⟨workingSet, accessible⟩ := ih (kept.trans aex)
      (by simp only [pushed, List.rtake, List.length_drop]; omega) ran
    refine ⟨by rw [workingSet, pushed, rtake_rtake_append le_rfl, List.append_assoc,
      List.singleton_append], fun _ => ?_⟩
    cases rest with
    | nil =>
      simp only [faultRun, List.foldlM_nil, Option.pure_def, Option.some.injEq, Prod.mk.injEq] at ran
      obtain ⟨rfl, rfl⟩ := ran
      exact restored
    | cons _ _ => exact accessible nofun

/-- Two faults from a fresh attack state leave both pages in the working set. -/
theorem workingSet_holds_last_two_faults_two_pages :
    ∃ g' revoked', faultRun [150, 151]
        ({ GlobalState.new false with state := .idctSlow, hasAexnotify := true },
          revokePages (fun _ => false) 150 2) [150, 151] = some (g', revoked') ∧
      g'.workingSet = ([] ++ [150, 151]).rtake 2 ∧
      ([150, 151] ≠ [] → ∀ page ∈ g'.workingSet, revoked' page = false) := by
  obtain ⟨⟨g', revoked'⟩, ran⟩ := Option.isSome_iff_exists.mp
    (by decide : (faultRun [150, 151]
      ({ GlobalState.new false with state := .idctSlow, hasAexnotify := true },
        revokePages (fun _ => false) 150 2) [150, 151]).isSome = true)
  exact ⟨g', revoked', ran, workingSet_holds_last_two_faults [150, 151] rfl (by decide) [150, 151] ran⟩

/-! ## Without AEX-Notify -/

/-- A `DataCount` state revokes the whole data range again. -/
theorem protectNextPages_of_dataCount {g : GlobalState} (counting : g.state.isDataCount = true)
    (revoked : Nat → Bool) {page : Nat}
    (data : (JpegState.dataRange g.hasAexnotify).contains page = true) :
    g.protectNextPages revoked page = true := by
  obtain ⟨state, reconstruct, workingSet, prevPage, hasAexnotify⟩ := g
  cases state <;> simp only [JpegState.isDataCount, Bool.false_eq_true] at counting
  cases hasAexnotify <;>
    simp_all [GlobalState.protectNextPages, JpegState.nextPages, JpegState.nextStates, revokePages,
      JpegState.dataRange, JpegState.pages, PageRange.contains, PageRange.len]

/-- Without AEX-Notify, from `IdctSlow` or a `DataCount` state, a fault on one
of the pages 150 and 151 is handled and leaves the other one revoked. -/
theorem faultStep_without_aexnotify {g : GlobalState} {revoked : Nat → Bool} {page other : Nat}
    (counting : g.state = .idctSlow ∨ g.state.isDataCount = true) (off : g.hasAexnotify = false)
    (pair : page = 150 ∧ other = 151 ∨ page = 151 ∧ other = 150) (pending : revoked page = true) :
    ∃ g' revoked', faultStep [150, 151] (g, revoked) page = some (g', revoked') ∧
      g'.state.isDataCount = true ∧ g'.hasAexnotify = false ∧ revoked' other = true := by
  have data : ∀ page', page' = 150 ∨ page' = 151 →
      (JpegState.dataRange false).contains page' = true := by
    rintro _ (rfl | rfl) <;> rfl
  have touches : page ∈ [150, 151] := by rcases pair with ⟨rfl, -⟩ | ⟨rfl, -⟩ <;> simp
  obtain ⟨count, moved, reconstructs⟩ : ∃ count, g.state.next page false = .dataCount count ∧
      g.reconstruct.reconstruct g.state (.dataCount count) = some g.reconstruct := by
    rcases counting with idle | counting
    · rw [idle, JpegState.next_idctSlow, if_pos (data page (by omega))]
      exact ⟨1, rfl, JpegReconstruct.reconstruct_of_idle _ (by rfl) (by decide) _⟩
    · cases state : g.state <;> rw [state] at counting <;> try cases counting
      rw [JpegState.next_dataCount, if_pos (data page (by omega))]
      exact ⟨_, rfl, by rw [JpegReconstruct.reconstruct_dataCount]; rfl⟩
  refine ⟨{ g with state := .dataCount count, prevPage := page },
    restorePages ({ g with state := .dataCount count }.protectNextPages revoked) page 1, ?_, rfl,
    off, ?_⟩
  · simp only [faultStep, touches, pending, and_self, if_true, faultHandler, off, moved,
      reconstructs, Option.bind_eq_bind, Option.some_bind, if_false, Bool.false_eq_true]
    rfl
  · have revokesOther := protectNextPages_of_dataCount (g := { g with state := .dataCount count })
      rfl revoked (off ▸ data other (by omega))
    simp only [restorePages, revokesOther, Bool.true_and, Bool.not_eq_true', Bool.and_eq_false_iff,
      decide_eq_false_iff_not]
    omega

theorem faultRun_without_aexnotify (n : Nat) {g : GlobalState} {revoked : Nat → Bool}
    {page other : Nat} (counting : g.state = .idctSlow ∨ g.state.isDataCount = true)
    (off : g.hasAexnotify = false) (pair : page = 150 ∧ other = 151 ∨ page = 151 ∧ other = 150)
    (pending : revoked page = true) :
    ∃ faults : List Nat, faults.length = n ∧ ∃ s', faultRun [150, 151] (g, revoked) faults = some s' := by
  induction n generalizing g revoked page other with
  | zero => exact ⟨[], rfl, _, rfl⟩
  | succ n ih =>
    obtain ⟨g', revoked', stepped, counting', off', pending'⟩ :=
      faultStep_without_aexnotify counting off pair pending
    obtain ⟨faults, length, s', ran⟩ := @ih g' revoked' other page (.inr counting') off' (by omega) pending'
    exact ⟨page :: faults, by simp [length], s', by simpa [faultRun, stepped] using ran⟩

/-- Without AEX-Notify, an access that straddles the data pages 150 and 151
in `IdctSlow` is retried for ever: each fault revokes the other page again,
so the instruction takes runs of faults of every length. -/
theorem instruction_faults_forever_without_aexnotify (n : Nat) :
    let start : GlobalState := { GlobalState.new false with state := .idctSlow }
    ∃ faults : List Nat, faults.length = n ∧
      ∃ s', faultRun [150, 151] (start, start.protectNextPages fun _ => false) faults = some s' :=
  faultRun_without_aexnotify n (.inl rfl) rfl (.inl ⟨rfl, rfl⟩) (by decide)

/-- The straddling access of `IdctSlow` without AEX-Notify takes a third
fault, on the page it faulted on first. -/
theorem instruction_refaults_without_aexnotify :
    (faultRun [150, 151]
      ({ GlobalState.new false with state := .idctSlow },
        GlobalState.protectNextPages { GlobalState.new false with state := .idctSlow } fun _ => false)
      [150, 151, 150]).isSome = true := by
  decide

end Attack
end TLBlur
