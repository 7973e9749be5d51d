import TLBlur.Profiler.PAM
import TLBlur.Profiler.HardwareTLB
import TLBlur.Profiler.Observations
import TLBlur.Profiler.Dump

namespace TLBlur
namespace Profiler

/-!
# The trap step of the profiler

The profiler single-steps the enclave and runs one closure at every trap.
After a priming call, the closure samples the page table, merges the
accesses that miss the simulated hardware TLB into the attacker's
observations, asks the attacker whether it could have interrupted here and
writes a frame of what it saw.  An interrupt flushes the TLB; TLBlur then
prefetches the pages of the PAM working set, the stack, the PAM update code,
the PAM counter and the PAM itself into the TLB and the observations.  A step
without an interrupt adds its accesses to the TLB instead.

The page table's Accessed and Dirty bits are set by the hardware while the
instruction runs and cleared by the closure at its end, so a step is given
the bits the instruction left.  Each step reads the PAM counter, the PAM and
the saved stack pointer from enclave memory; these are inputs as well.  The
debug dumpers of the PAM and of the TLB, and the instruction pointer that a
frame can carry, write no state that the step reads and are left out.

Over every run, for every attacker, TLB and prefetch setting, the step
interrupts and writes frames as the attacker's definition says, with the
observations of an attacker reset at each interrupt to the prefetched
accesses and then growing by the misses of each step.
-/

/-- The attacker chosen on the command line. -/
inductive InterruptPattern
  | debugSingleStep
  | singleStep
  | pageFault
  | stealthy
  deriving DecidableEq, Repr

/-- The attacker, with the state of the page-fault attacker: the pages it has
made accessible, and whether it reads the page tables. -/
inductive Attacker
  | debugSingleStep
  | singleStep
  | pageFault (livePages : List Nat) (observePtes : Bool)
  | stealthy
  deriving DecidableEq, Repr

inductive CanObserve
  | always
  | interrupt
  deriving DecidableEq, Repr

namespace Attacker

/-- `From<InterruptPattern>`: a page-fault attacker starts with no live pages
and reads the page tables. -/
def ofPattern : InterruptPattern → Attacker
  | .debugSingleStep => debugSingleStep
  | .singleStep => singleStep
  | .pageFault => pageFault [] true
  | .stealthy => stealthy

/-- `main` sets the page-table flag of a page-fault attacker from the command line. -/
def setObservePtes (attacker : Attacker) (observePtes : Bool) : Attacker :=
  match attacker with
  | pageFault livePages _ => pageFault livePages observePtes
  | other => other

/-- `can_trigger_interrupt`: always, on an access that misses the TLB, on such
an access to a page that is not live, or never. -/
def canTriggerInterrupt (attacker : Attacker) (pageTable : PageTable) (hwTlb : HardwareTLB) :
    Bool :=
  match attacker with
  | debugSingleStep => true
  | singleStep => (pageTable.getAccessedPages fun p => !hwTlb.test p).length > 0
  | pageFault livePages _ =>
    (pageTable.getAccessedPages fun p => !hwTlb.test p).any fun p => !livePages.contains p.page
  | stealthy => false

/-- `observe`: the accesses a frame shows. -/
def observe (attacker : Attacker) (pageTable : PageTable) (hwTlb : HardwareTLB)
    (observations : PageTableObservations) : List PageAccess :=
  match attacker with
  | pageFault livePages false =>
    (pageTable.getAccessedPages fun p => !hwTlb.test p).filter fun p => !livePages.contains p.page
  | _ => observations.iter

def canObserve : Attacker → CanObserve
  | stealthy => .always
  | _ => .interrupt

/-- `handle_step`: the stealthy attacker clears its observations at every step. -/
def handleStep (attacker : Attacker) (observations : PageTableObservations) :
    PageTableObservations :=
  match attacker with
  | stealthy => observations.clear
  | _ => observations

/-- `handle_interrupt`: the page-fault attacker makes the accessed pages live;
every attacker but the stealthy one clears its observations. -/
def handleInterrupt (attacker : Attacker) (pageTable : PageTable)
    (observations : PageTableObservations) : Attacker × PageTableObservations :=
  match attacker with
  | pageFault _ observePtes =>
    (pageFault (pageTable.getAllAccessedPages.map (·.page)) observePtes, observations.clear)
  | stealthy => (stealthy, observations)
  | other => (other, observations.clear)

end Attacker

/-- The addresses `main` resolves in the enclave, the enclave's range and the
prefetch switch. -/
structure TrapConfig where
  pamAddress : Nat
  pamCounterAddress : Nat
  pamUpdateCodeAddress : Nat
  base : Nat
  limit : Nat
  noPrefetch : Bool

/-- The state the trap closure captures. -/
structure TrapState where
  pam : PAM
  hwTlb : HardwareTLB
  attacker : Attacker
  pteObservations : PageTableObservations
  firstRun : Bool

/-- What one trap reads: the PAM counter and the PAM words in enclave memory,
the page-table bits the instruction left, and the saved stack pointer. -/
structure TrapInput where
  counter : Nat
  memory : Nat → Nat
  pageTableMap : List (Option PageTableEntry)
  rsp : Nat

/-- What one step after the priming call does visibly: the frame it writes,
if any, whether the attacker interrupts, and the accesses it prefetches. -/
structure TrapOutput where
  frame : Option (List PageAccess)
  interrupted : Bool
  prefetched : List PageAccess

/-- The state `main` hands to the closure, for an enclave of `numPages` pages. -/
def TrapState.init (numPages pwsSize : Nat) (tlbConfig : HardwareTLBConfig)
    (pattern : InterruptPattern) (observePtes : Bool) : TrapState where
  pam := PAM.new (numPages * 8) pwsSize
  hwTlb := HardwareTLB.ofConfig tlbConfig
  attacker := (Attacker.ofPattern pattern).setObservePtes observePtes
  pteObservations := PageTableObservations.new
  firstRun := true

/-! ## Prefetch -/

/-- The stack pages `stack_page - 1 ..= stack_page + 1`, readable and
executable, when the stack pointer lies in the enclave.  The first
subtraction panics on stack page 0. -/
def stackPages (cfg : TrapConfig) (rsp : Nat) : Option (List PageAccess) :=
  if cfg.base ≤ rsp ∧ rsp ≤ cfg.limit then do
    let stackPage := (rsp - cfg.base) / 4096
    let first ← checkedSub stackPage 1
    pure ((List.range' first (stackPage + 1 - first + 1)).map fun page => ⟨true, false, true, page⟩)
  else pure []

/-- The PAM pages `pam_page ..= pam_page + len * 8 / 4096`, readable and
writable, for a buffer of `len` counters. -/
def pamPages (cfg : TrapConfig) (pamBufferLength : Nat) : Option (List PageAccess) := do
  let pamPage := (← checkedSub cfg.pamAddress cfg.base) / 4096
  let last := pamPage + pamBufferLength * 8 / 4096
  pure ((List.range' pamPage (last - pamPage + 1)).map fun page => ⟨true, true, false, page⟩)

/-- Modelled from the spec: the pages that overlap the `len` bytes at byte
offset `offset` of the enclave. -/
def overlappingPages (offset len : Nat) : List Nat :=
  if len = 0 then [] else List.range' (offset / 4096) ((offset + len - 1) / 4096 - offset / 4096 + 1)

/-- An enclave of two pages whose PAM, two 64-bit counters, starts 8 bytes
before the end of page 0.  `update_pam` reads the first two words, bytes 4088
to 4103 of the enclave, on pages 0 and 1; the prefetch, which counts the
buffer's length in bytes as `len * 8` with a buffer of `8 * num_pages`
counters, covers page 0 only. -/
theorem pamPages_miss_second_pam_page :
    (PAM.readPam (PAM.new (2 * 8) 1).pamBuffer fun index => index + 1).take 3 = [1, 2, 0] ∧
      overlappingPages 4088 (2 * 8) = [0, 1] ∧
      (pamPages ⟨4088, 0, 0, 0, 8191, false⟩ (PAM.new (2 * 8) 1).pamBuffer.length).map
        (·.map (·.page)) = some [0] := by
  decide

/-- The groups TLBlur prefetches, in order: the PAM working set, the stack,
the PAM update code (readable and executable), the PAM counter and the PAM
(readable and writable).  Each address is made page-relative by a `u64`
subtraction from the enclave base. -/
def prefetchGroups (cfg : TrapConfig) (pam : PAM) (rsp : Nat) : Option (List (List PageAccess)) := do
  let stack ← stackPages cfg rsp
  let codePage := (← checkedSub cfg.pamUpdateCodeAddress cfg.base) / 4096
  let counterPage := (← checkedSub cfg.pamCounterAddress cfg.base) / 4096
  let pamRegion ← pamPages cfg pam.pamBuffer.length
  pure [pam.getPam, stack, [⟨true, false, true, codePage⟩], [⟨true, true, false, counterPage⟩],
    pamRegion]

/-- The prefetch after an interrupt: nothing when it is switched off. -/
def prefetchOnInterrupt (cfg : TrapConfig) (pam : PAM) (rsp : Nat) :
    Option (List (List PageAccess)) :=
  if cfg.noPrefetch then pure [] else prefetchGroups cfg pam rsp

/-- Each group goes to the TLB and to the observations, one after the other. -/
def prefetchInto (groups : List (List PageAccess)) (hwTlb : HardwareTLB)
    (observations : PageTableObservations) : HardwareTLB × PageTableObservations :=
  groups.foldl (fun acc group => (acc.1.update group, acc.2.update group)) (hwTlb, observations)

theorem prefetchInto_eq (groups : List (List PageAccess)) (hwTlb : HardwareTLB)
    (observations : PageTableObservations) :
    prefetchInto groups hwTlb observations =
      (hwTlb.update groups.flatten, observations.update groups.flatten) := by
  induction groups generalizing hwTlb observations with
  | nil => cases hwTlb <;> rfl
  | cons group rest ih =>
    simp only [prefetchInto, List.foldl_cons, List.flatten_cons] at ih ⊢
    rw [ih, HardwareTLB.update_append, PageTableObservations.update_append]

/-! ## The step -/

/-- The sample of one step: the page table with the bits the instruction left. -/
def sample (input : TrapInput) : PageTable := PageTable.updatePageAccesses ⟨input.pageTableMap, []⟩

/-- The trap closure.  The priming call only updates the PAM; every later
call returns what it did.  `none` is a panic. -/
def trapStep (cfg : TrapConfig) (s : TrapState) (input : TrapInput) :
    Option (TrapState × Option TrapOutput) := do
  let pam ← s.pam.updatePam input.counter input.memory
  if s.firstRun then
    pure ({ s with pam := pam, firstRun := false }, none)
  else
    let pageTable := sample input
    let observations :=
      s.pteObservations.update (pageTable.getAccessedPages fun p => !s.hwTlb.test p)
    let canObserve := s.attacker.canObserve
    let canTriggerInterrupt := s.attacker.canTriggerInterrupt pageTable s.hwTlb
    let frame :=
      if canObserve = .always ∨ canTriggerInterrupt = true ∧ canObserve = .interrupt then
        some (s.attacker.observe pageTable s.hwTlb observations)
      else none
    let observations := s.attacker.handleStep observations
    if canTriggerInterrupt then
      let (attacker, observations) := s.attacker.handleInterrupt pageTable observations
      let groups ← prefetchOnInterrupt cfg pam input.rsp
      let (hwTlb, observations) := prefetchInto groups s.hwTlb.flush observations
      pure ({ s with
          pam := pam, hwTlb := hwTlb, attacker := attacker, pteObservations := observations },
        some ⟨frame, true, groups.flatten⟩)
    else
      pure ({ s with
          pam := pam
          hwTlb := s.hwTlb.update pageTable.getAllAccessedPages
          pteObservations := observations },
        some ⟨frame, false, []⟩)

/-- One step after the priming call: the state it started from, its input and its output. -/
structure TrapRecord where
  before : TrapState
  input : TrapInput
  output : TrapOutput

/-- The records of a run.  The priming call records nothing, and a panic
ends the run. -/
def trapRun (cfg : TrapConfig) : TrapState → List TrapInput → List TrapRecord
  | _, [] => []
  | s, input :: rest =>
    match trapStep cfg s input with
    | none => []
    | some (s', none) => trapRun cfg s' rest
    | some (s', some output) => ⟨s, input, output⟩ :: trapRun cfg s' rest

/-! ## What one step does -/

theorem trapStep_of_firstRun {cfg : TrapConfig} {s s' : TrapState} {input : TrapInput}
    {result : Option TrapOutput} (priming : s.firstRun = true)
    (stepped : trapStep cfg s input = some (s', result)) :
    result = none ∧ s'.firstRun = false ∧ s'.hwTlb = s.hwTlb ∧ s'.attacker = s.attacker ∧
      s'.pteObservations = s.pteObservations := by
  simp only [trapStep, priming, if_true, Option.bind_eq_bind, Option.bind_eq_some] at stepped
  obtain ⟨pam, -, stepped⟩ := stepped
  cases stepped
  exact ⟨rfl, rfl, rfl, rfl, rfl⟩

/-- Everything a step after the priming call does: it interrupts when the
attacker can, writes a frame when the attacker may observe, and either
flushes the TLB, lets the attacker handle the interrupt and prefetches, or
adds the step's accesses to the TLB. -/
theorem trapStep_of_not_firstRun {cfg : TrapConfig} {s s' : TrapState} {input : TrapInput}
    {result : Option TrapOutput} (later : s.firstRun = false)
    (stepped : trapStep cfg s input = some (s', result)) :
    let seen := s.pteObservations.update ((sample input).getAccessedPages fun p => !s.hwTlb.test p)
    ∃ output, result = some output ∧
      output.interrupted = s.attacker.canTriggerInterrupt (sample input) s.hwTlb ∧
      output.frame =
        (if s.attacker.canObserve = .always ∨
            output.interrupted = true ∧ s.attacker.canObserve = .interrupt then
          some (s.attacker.observe (sample input) s.hwTlb seen)
        else none) ∧
      s'.firstRun = false ∧
      if output.interrupted then
        s'.attacker = (s.attacker.handleInterrupt (sample input) (s.attacker.handleStep seen)).1 ∧
        s'.pteObservations =
          (s.attacker.handleInterrupt (sample input) (s.attacker.handleStep seen)).2.update
            output.prefetched ∧
        s'.hwTlb = s.hwTlb.flush.update output.prefetched
      else
        output.prefetched = [] ∧ s'.attacker = s.attacker ∧
        s'.pteObservations = s.attacker.handleStep seen ∧
        s'.hwTlb = s.hwTlb.update (sample input).getAllAccessedPages := by
  simp only [trapStep, later, Bool.false_eq_true, if_false, Option.bind_eq_bind,
    Option.bind_eq_some] at stepped
  obtain ⟨pam, -, stepped⟩ := stepped
  split at stepped
  next interrupts =>
    cases prefetched : prefetchOnInterrupt cfg pam input.rsp with
    | none => simp [prefetched] at stepped
    | some groups =>
      simp only [prefetched, prefetchInto_eq, Option.pure_def, Option.some.injEq,
        Prod.mk.injEq] at stepped
      obtain ⟨rfl, rfl⟩ := stepped
      exact ⟨_, rfl, interrupts.symm, by simp [interrupts], rfl, by simp⟩
  next quiet =>
    simp only [Option.pure_def, Option.some.injEq, Prod.mk.injEq] at stepped
    obtain ⟨rfl, rfl⟩ := stepped
    exact ⟨_, rfl, by simpa using quiet, by simp [quiet], rfl, by simp⟩

/-! ## Runs of the step -/

/-- Single-stepping on a perfect TLB: the first step misses on page 1 and
interrupts, and the prefetch puts the stack pages 5 to 7 around the stack
pointer in the TLB, readable and executable only.  The next instruction
writes stack page 6: the write misses the TLB and interrupts again. -/
theorem stack_write_misses_after_prefetch :
    (trapRun ⟨3 * 4096, 4 * 4096, 5 * 4096, 0, 8 * 4096, false⟩
        (TrapState.init 8 1 .perfect .singleStep true)
        [⟨0, fun _ => 0, List.replicate 8 (some ⟨false, false, true⟩), 6 * 4096⟩,
          ⟨0, fun _ => 0, (List.replicate 8 (some ⟨false, false, true⟩)).set 1 (some ⟨true, false, true⟩),
            6 * 4096⟩,
          ⟨0, fun _ => 0, (List.replicate 8 (some ⟨false, false, true⟩)).set 6 (some ⟨true, true, true⟩),
            6 * 4096⟩]).map
      (fun record => (record.output.interrupted, record.output.prefetched.filter (·.page = 6),
        (sample record.input).getAccessedPages fun a => !record.before.hwTlb.test a)) =
      [(true, [⟨true, false, true, 6⟩], [⟨true, false, false, 1⟩]),
        (true, [⟨true, false, true, 6⟩], [⟨true, true, false, 6⟩])] := by
  decide

end Profiler
end TLBlur
