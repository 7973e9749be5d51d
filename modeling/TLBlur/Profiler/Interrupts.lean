import TLBlur.Profiler.Trap

namespace TLBlur
namespace Profiler

/-!
# What each attacker sees over a run

A run of the trap step is read through its records.  Let `A` be the accesses
a step samples and `M` those of them that miss the TLB the step started with.
The attacker's definition then says everything that is visible: the
single-stepping attacker interrupts on any miss, the page-fault attacker on a
miss to a page that was not accessed at its previous interrupt, and the
stealthy attacker never; frames are written on interrupts, or at every step
by the stealthy attacker.  What a frame shows is what the attacker has seen
since its last interrupt: the accesses prefetched at that interrupt and the
misses of every step since, the present one included.  The stealthy attacker
forgets at every step, and the page-fault attacker that does not read page
tables sees only its present misses to pages that are not live.

The theorem of this module checks this description against the closure:
the observations are merged, cleared by two attacker hooks and refilled by
the prefetch in a fixed order inside a step, and the live pages carry state
from one interrupt to the next.
-/

namespace TrapRecord

/-- `A`: the accesses of the step's sample. -/
def accesses (record : TrapRecord) : List PageAccess := (sample record.input).getAllAccessedPages

/-- `M`: the accesses of the step that miss the TLB it started with. -/
def misses (record : TrapRecord) : List PageAccess :=
  record.accesses.filter fun a => !record.before.hwTlb.test a

end TrapRecord

/-- The pages accessed at the most recent interrupting step of `history`,
none before the first. -/
def livePagesOf (history : List TrapRecord) : List Nat :=
  history.foldl
    (fun live record => if record.output.interrupted then record.accesses.map (·.page) else live) []

/-- What an attacker has seen since its most recent interrupt: the accesses
prefetched then, and the misses of every later step. -/
def seenSince (history : List TrapRecord) : List PageAccess :=
  history.foldl
    (fun seen record => if record.output.interrupted then record.output.prefetched
      else seen ++ record.misses) []

@[simp] theorem livePagesOf_append_single (history : List TrapRecord) (record : TrapRecord) :
    livePagesOf (history ++ [record]) =
      if record.output.interrupted then record.accesses.map (·.page) else livePagesOf history := by
  simp [livePagesOf, List.foldl_append]

@[simp] theorem seenSince_append_single (history : List TrapRecord) (record : TrapRecord) :
    seenSince (history ++ [record]) =
      if record.output.interrupted then record.output.prefetched
      else seenSince history ++ record.misses := by
  simp [seenSince, List.foldl_append]

/-- Whether a step interrupts, by the attacker's definition. -/
def interrupts (pattern : InterruptPattern) (misses : List PageAccess) (livePages : List Nat) :
    Bool :=
  match pattern with
  | .debugSingleStep => true
  | .singleStep => misses ≠ []
  | .pageFault => misses.any fun a => a.page ∉ livePages
  | .stealthy => false

/-- The accesses whose read pages a frame shows, by the attacker's definition. -/
def shown (pattern : InterruptPattern) (observePtes : Bool) (history : List TrapRecord)
    (misses : List PageAccess) : List PageAccess :=
  match pattern, observePtes with
  | .stealthy, _ => misses
  | .pageFault, false => misses.filter fun a => a.page ∉ livePagesOf history
  | _, _ => seenSince history ++ misses

/-- A step behaves as its attacker's definition says, after the records
`history`: it interrupts when the definition says so, writes a frame when it
interrupts or the attacker is stealthy, and the frame shows the read pages
that the definition names. -/
structure StepAgrees (pattern : InterruptPattern) (observePtes : Bool) (history : List TrapRecord)
    (record : TrapRecord) : Prop where
  interrupted_eq : record.output.interrupted = interrupts pattern record.misses (livePagesOf history)
  frame_isSome : record.output.frame.isSome = (record.output.interrupted || pattern == .stealthy)
  frame_pages : ∀ frame, record.output.frame = some frame → ∀ page,
    page ∈ readPages frame ↔ page ∈ readPages (shown pattern observePtes history record.misses)

/-! ## The run invariant -/

/-- The attacker after the records `history`: only the page-fault attacker
changes, its live pages being those accessed at the most recent interrupt. -/
def attackerAfter (pattern : InterruptPattern) (observePtes : Bool) (history : List TrapRecord) :
    Attacker :=
  match pattern with
  | .pageFault => .pageFault (livePagesOf history) observePtes
  | other => Attacker.ofPattern other

/-- The state a run reaches after the records `history`: its attacker, and
observations that merge what the attacker has seen since its last
interrupt, or nothing for the stealthy attacker. -/
structure Tracks (pattern : InterruptPattern) (observePtes : Bool) (history : List TrapRecord)
    (s : TrapState) : Prop where
  attacker_eq : s.attacker = attackerAfter pattern observePtes history
  observations : s.pteObservations.Denotes (if pattern = .stealthy then [] else seenSince history)

theorem tracks_init (numPages pwsSize : Nat) (tlbConfig : HardwareTLBConfig)
    (pattern : InterruptPattern) (observePtes : Bool) :
    Tracks pattern observePtes [] (TrapState.init numPages pwsSize tlbConfig pattern observePtes) where
  attacker_eq := by cases pattern <;> rfl
  observations := by
    split <;> exact PageTableObservations.denotes_new

theorem Tracks.priming {pattern : InterruptPattern} {observePtes : Bool}
    {history : List TrapRecord} {cfg : TrapConfig} {s s' : TrapState} {input : TrapInput}
    {result : Option TrapOutput} (tracks : Tracks pattern observePtes history s)
    (priming : s.firstRun = true) (stepped : trapStep cfg s input = some (s', result)) :
    result = none ∧ s'.firstRun = false ∧ Tracks pattern observePtes history s' := by
  obtain ⟨none, later, -, attacker, observations⟩ := trapStep_of_firstRun priming stepped
  exact ⟨none, later, attacker ▸ tracks.attacker_eq, observations ▸ tracks.observations⟩

/-- The read pages of the observations are those of the accesses they merge. -/
theorem PageTableObservations.Denotes.readPages_iter {obs : PageTableObservations}
    {accesses : List PageAccess} (denotes : obs.Denotes accesses) (page : Nat) :
    page ∈ readPages obs.iter ↔ page ∈ readPages accesses := by
  simpa only [mem_readPages, and_comm] using denotes.read_iter_iff page

/-! ## The attacker hooks after a history -/

section Hooks

variable (pattern : InterruptPattern) (observePtes : Bool) (history : List TrapRecord)

theorem canTriggerInterrupt_attackerAfter (pageTable : PageTable) (hwTlb : HardwareTLB) :
    (attackerAfter pattern observePtes history).canTriggerInterrupt pageTable hwTlb =
      interrupts pattern (pageTable.getAccessedPages fun p => !hwTlb.test p) (livePagesOf history) := by
  cases pattern <;>
    simp [attackerAfter, Attacker.ofPattern, Attacker.canTriggerInterrupt, interrupts, List.length_pos]

theorem canObserve_attackerAfter :
    (attackerAfter pattern observePtes history).canObserve =
      if pattern = .stealthy then .always else .interrupt := by
  cases pattern <;> rfl

theorem observe_attackerAfter (pageTable : PageTable) (hwTlb : HardwareTLB)
    (observations : PageTableObservations) :
    (attackerAfter pattern observePtes history).observe pageTable hwTlb observations =
      if pattern = .pageFault ∧ observePtes = false then
        (pageTable.getAccessedPages fun p => !hwTlb.test p).filter fun p =>
          !(livePagesOf history).contains p.page
      else observations.iter := by
  cases pattern <;> cases observePtes <;> rfl

theorem handleStep_attackerAfter (observations : PageTableObservations) :
    (attackerAfter pattern observePtes history).handleStep observations =
      if pattern = .stealthy then observations.clear else observations := by
  cases pattern <;> rfl

/-- An interrupt makes the accessed pages live and clears the observations,
for every attacker that can interrupt. -/
theorem handleInterrupt_attackerAfter (notStealthy : pattern ≠ .stealthy) (record : TrapRecord)
    (interrupted : record.output.interrupted = true) (observations : PageTableObservations) :
    (attackerAfter pattern observePtes history).handleInterrupt (sample record.input) observations =
      (attackerAfter pattern observePtes (history ++ [record]), observations.clear) := by
  cases pattern <;> simp_all [attackerAfter, Attacker.ofPattern, Attacker.handleInterrupt,
    TrapRecord.accesses]

end Hooks

/-! ## One step and a run -/

/-- One step after the priming call agrees with the attacker's definition and
keeps the invariant. -/
theorem Tracks.step {pattern : InterruptPattern} {observePtes : Bool} {history : List TrapRecord}
    {cfg : TrapConfig} {s s' : TrapState} {input : TrapInput} {output : TrapOutput}
    (tracks : Tracks pattern observePtes history s) (later : s.firstRun = false)
    (stepped : trapStep cfg s input = some (s', some output)) :
    StepAgrees pattern observePtes history ⟨s, input, output⟩ ∧
      Tracks pattern observePtes (history ++ [⟨s, input, output⟩]) s' := by
  obtain ⟨output', same, interrupted, frame, -, after⟩ := trapStep_of_not_firstRun later stepped
  cases Option.some.inj same
  have missesEq : TrapRecord.misses ⟨s, input, output⟩ =
      (sample input).getAccessedPages fun p => !s.hwTlb.test p := rfl
  have seen := tracks.observations.update ((sample input).getAccessedPages fun p => !s.hwTlb.test p)
  rw [← missesEq] at seen frame after
  rw [tracks.attacker_eq, canTriggerInterrupt_attackerAfter, ← missesEq] at interrupted
  rw [tracks.attacker_eq, canObserve_attackerAfter, observe_attackerAfter, ← missesEq] at frame
  rw [tracks.attacker_eq, handleStep_attackerAfter] at after
  refine ⟨⟨interrupted, ?_, fun shownFrame written page => ?_⟩, ?_⟩
  · rw [frame]
    by_cases stealthy : pattern = .stealthy <;> cases output.interrupted <;> simp [stealthy]
  · rw [frame, Option.ite_none_right_eq_some] at written
    obtain ⟨-, written⟩ := written
    obtain rfl := Option.some.inj written
    split
    next quiet =>
      obtain ⟨rfl, rfl⟩ := quiet
      simp [shown]
    next loud =>
      rw [seen.readPages_iter]
      cases pattern <;> cases observePtes <;> simp_all [shown]
  · by_cases interrupt : output.interrupted = true
    · rw [if_pos interrupt] at after
      obtain ⟨attackerEq, observationsEq, -⟩ := after
      have notStealthy : pattern ≠ .stealthy := by
        rintro rfl
        simp [interrupts, interrupt] at interrupted
      rw [handleInterrupt_attackerAfter pattern observePtes history notStealthy ⟨s, input, output⟩
        interrupt] at attackerEq observationsEq
      refine ⟨attackerEq, ?_⟩
      rw [observationsEq, seenSince_append_single, if_pos interrupt]
      simpa [notStealthy, PageTableObservations.clear] using
        PageTableObservations.denotes_new.update output.prefetched
    · rw [if_neg interrupt] at after
      obtain ⟨-, attackerEq, observationsEq, -⟩ := after
      refine ⟨by simp [attackerEq, attackerAfter, interrupt], ?_⟩
      rw [observationsEq, seenSince_append_single, if_neg interrupt]
      split
      · exact PageTableObservations.denotes_new
      · simpa [*] using seen

/-- Every record of a run from a tracked state agrees with the attacker's
definition, given the records before it. -/
theorem Tracks.run {pattern : InterruptPattern} {observePtes : Bool} (cfg : TrapConfig)
    (inputs : List TrapInput) {history : List TrapRecord} {s : TrapState}
    (tracks : Tracks pattern observePtes history s) (t : Nat) (lt : t < (trapRun cfg s inputs).length) :
    StepAgrees pattern observePtes (history ++ (trapRun cfg s inputs).take t) (trapRun cfg s inputs)[t] := by
  induction inputs generalizing history s t with
  | nil => cases lt
  | cons input rest ih =>
    cases stepped : trapStep cfg s input with
    | none => simp [trapRun, stepped] at lt
    | some next =>
      obtain ⟨s', result⟩ := next
      cases first : s.firstRun
      · obtain ⟨output, rfl, -⟩ := trapStep_of_not_firstRun first stepped
        obtain ⟨agrees, tracks'⟩ := tracks.step first stepped
        simp only [trapRun, stepped] at lt ⊢
        cases t with
        | zero => simpa using agrees
        | succ t => simpa using ih tracks' t (by simpa using lt)
      · obtain ⟨rfl, -, tracks'⟩ := tracks.priming first stepped
        simp only [trapRun, stepped] at lt ⊢
        exact ih tracks' t lt

theorem trapRun_agrees_with_attacker (cfg : TrapConfig) (numPages pwsSize : Nat)
    (tlbConfig : HardwareTLBConfig) (pattern : InterruptPattern) (observePtes : Bool)
    (inputs : List TrapInput) :
    let records := trapRun cfg (TrapState.init numPages pwsSize tlbConfig pattern observePtes) inputs
    ∀ t (lt : t < records.length), StepAgrees pattern observePtes (records.take t) records[t] := by
  intro records t lt
  simpa using (tracks_init numPages pwsSize tlbConfig pattern observePtes).run cfg inputs t lt

/-- The page-fault attacker without PTE observation on an enclave of eight
pages: after the priming call, step 0 touches page 1, misses and interrupts,
which makes page 1 live; step 1 touches pages 1 and 2, both missing the
flushed TLB, and only page 2 interrupts and is shown. -/
theorem trapRun_agrees_with_attacker_after_interrupt :
    let records := trapRun ⟨3 * 4096, 4 * 4096, 5 * 4096, 0, 8 * 4096, false⟩
      (TrapState.init 8 1 .perfect .pageFault false)
      [⟨0, fun _ => 0, List.replicate 8 (some ⟨false, false, true⟩), 6 * 4096⟩,
        ⟨0, fun _ => 0, (List.replicate 8 (some ⟨false, false, true⟩)).set 1 (some ⟨true, false, true⟩),
          6 * 4096⟩,
        ⟨0, fun _ => 0, ((List.replicate 8 (some ⟨false, false, true⟩)).set 1
          (some ⟨true, false, true⟩)).set 2 (some ⟨true, false, true⟩), 6 * 4096⟩]
    ∃ lt : 1 < records.length, StepAgrees .pageFault false (records.take 1) records[1] :=
  ⟨by decide, trapRun_agrees_with_attacker _ 8 1 .perfect .pageFault false _ 1 _⟩

example : (trapRun ⟨3 * 4096, 4 * 4096, 5 * 4096, 0, 8 * 4096, false⟩
      (TrapState.init 8 1 .perfect .pageFault false)
      [⟨0, fun _ => 0, List.replicate 8 (some ⟨false, false, true⟩), 6 * 4096⟩,
        ⟨0, fun _ => 0, (List.replicate 8 (some ⟨false, false, true⟩)).set 1 (some ⟨true, false, true⟩),
          6 * 4096⟩,
        ⟨0, fun _ => 0, ((List.replicate 8 (some ⟨false, false, true⟩)).set 1
          (some ⟨true, false, true⟩)).set 2 (some ⟨true, false, true⟩), 6 * 4096⟩]).map
      (fun record => (record.output.interrupted, record.output.frame.map (·.map (·.page)))) =
    [(true, some [1]), (true, some [2])] := by
  decide

end Profiler
end TLBlur
