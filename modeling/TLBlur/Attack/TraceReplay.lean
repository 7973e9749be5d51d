import TLBlur.Attack.Reconstruct
import TLBlur.Profiler.Tracer

namespace TLBlur
namespace Attack

/-!
# Replaying a trace of the profiler

`attack_vcd` reads back a trace that the profiler wrote: it takes the rising
edges of the page wires `_0` to `_9998`, in the order of the trace, as the
page faults of the enclave, and replays them.  Over every run of the trace
writer these are, step after step, the pages read at that step and not at the
step before, once each and in the order of the frame, less the pages from
9999 on.  On the trace of the tracer binary they are the present pages that
the enclave newly touched at each step, in page order, and the replay lays
the reconstruction out as the commit log of those faults says.
-/

open Profiler

/-- The pages that the accesses of a frame read, each once, in the order of
its first read. -/
def firstReads : List PageAccess → List Nat
  | [] => []
  | access :: rest =>
    if access.read then access.page :: (firstReads rest).filter (· ≠ access.page)
    else firstReads rest

/-- The pages that a run of frames newly reads, from the access bits: at each
step the pages its frame reads, in the order of their first read, that no
read access of the frame before names. -/
def newReads (previous : List PageAccess) : List (List PageAccess) → List Nat
  | [] => []
  | frame :: rest =>
    (firstReads frame).filter (fun page => !previous.any fun access => access.read && access.page == page) ++
      newReads frame rest

/-- The first pass of the trace writer raises, over the frame's read pages,
the pages of `firstReads` not already high. -/
theorem raisedItems_readPages (before : List Nat) (frame : List PageAccess) :
    raisedItems before (readPages frame) = (firstReads frame).filter (· ∉ before) := by
  induction frame generalizing before with
  | nil => rfl
  | cons access rest ih =>
    by_cases read : access.read = true
    · have pages : readPages (access :: rest) = access.page :: readPages rest := by
        simp [readPages, read]
      rw [pages, raisedItems, firstReads, if_pos read]
      by_cases high : access.page ∈ before
      · rw [if_pos high, ih, List.filter_cons_of_neg (by simpa using high), List.filter_filter]
        exact List.filter_congr fun page _ => by
          by_cases same : page = access.page <;> simp [same, high]
      · rw [if_neg high, ih, List.filter_cons_of_pos (by simpa using high), List.filter_filter]
        exact congrArg _ (List.filter_congr fun page _ => by simp [Bool.and_comm])
    · have pages : readPages (access :: rest) = readPages rest := by simp [readPages, read]
      rw [pages, ih, firstReads, if_neg read]

/-- The trace writer's newly read pages are those of `newReads`. -/
theorem newlyRead_readPages (previous : List PageAccess) (frames : List (List PageAccess)) :
    newlyRead (readPages previous) frames = newReads previous frames := by
  induction frames generalizing previous with
  | nil => rfl
  | cons frame rest ih =>
    rw [newlyRead, newReads, raisedItems_readPages, ih]
    congr 1
    exact List.filter_congr fun page _ => by
      rw [Bool.eq_iff_iff]
      simp [List.any_eq_true]

/-- The faults `attack_vcd` reads are the rising wires below 9999, in order. -/
theorem vcdPages_eq_filter (commands : List Command) :
    vcdPages commands = (risingWires commands).filter (· < 9999) := by
  induction commands with
  | nil => rfl
  | cons command rest ih =>
    rcases command with ⟨wire, _ | _⟩ | time
    · simpa [vcdPages, risingWires] using ih
    · by_cases below : wire < 9999 <;> simp_all [vcdPages, risingWires, List.filter_cons]
    · simpa [vcdPages, risingWires] using ih

/-- `attack_vcd` on any trace of the trace writer whose frames read pages
below its size replays, in order, the pages that each step newly reads, once
each, those from page 9999 on dropped. -/
theorem attackVcd_replays_newly_read_pages (numColors numPages : Nat) (hasAexnotify : Bool)
    (frames : List (List PageAccess))
    (bounded : ∀ frame ∈ frames, ∀ access ∈ frame, access.read = true → access.page < numPages) :
    ∃ logs, (VCDDumper.new numPages).1.runSteps frames = some logs ∧
      attackVcd numColors hasAexnotify ((VCDDumper.new numPages).2 ++ logs.flatten) =
        replay numColors hasAexnotify ((newReads [] frames).filter (· < 9999)) := by
  obtain ⟨logs, run, rising⟩ := VCDDumper.runSteps_risingWires frames (VCDDumper.new numPages).1 []
    (by simp) (by simpa using readPages_lt bounded)
  refine ⟨logs, run, ?_⟩
  rw [attackVcd, vcdPages_eq_filter, risingWires_append, rising, VCDDumper.new,
    risingWires_initWires, List.nil_append, ← newlyRead_readPages]
  rfl

/-- Two steps of a three-page trace: the first reads page 1 twice and only
writes page 2, the second reads pages 2 and 0, so page 1 falls. -/
theorem attackVcd_replays_newly_read_pages_two_steps :
    (∀ frame ∈ ([[⟨true, false, false, 1⟩, ⟨false, true, false, 2⟩, ⟨true, false, false, 1⟩],
        [⟨true, false, false, 2⟩, ⟨true, false, false, 0⟩]] : List (List PageAccess)),
      ∀ access ∈ frame, access.read = true → access.page < 3) ∧
    ∃ logs, (VCDDumper.new 3).1.runSteps
        [[⟨true, false, false, 1⟩, ⟨false, true, false, 2⟩, ⟨true, false, false, 1⟩],
        [⟨true, false, false, 2⟩, ⟨true, false, false, 0⟩]] = some logs ∧
      attackVcd 1 false ((VCDDumper.new 3).2 ++ logs.flatten) =
        replay 1 false ((newReads []
          [[⟨true, false, false, 1⟩, ⟨false, true, false, 2⟩, ⟨true, false, false, 1⟩],
        [⟨true, false, false, 2⟩, ⟨true, false, false, 0⟩]]).filter (· < 9999)) :=
  ⟨by decide, attackVcd_replays_newly_read_pages 1 3 false _ (by decide)⟩

example : newReads [] [[⟨true, false, false, 1⟩, ⟨false, true, false, 2⟩, ⟨true, false, false, 1⟩],
        [⟨true, false, false, 2⟩, ⟨true, false, false, 0⟩]] = [1, 2, 0] := by
  decide

/-- The whole pipeline: the tracer binary traces an enclave of `size` bytes
whose page-table range spans at most `size` bytes, and `attack_vcd` replays
the trace.  For any touches of the enclave between its traps, no trap and no
replayed fault panics, the faults replayed are the present pages newly touched
at each step, in page order, below page 9999, and the reconstruction is laid
out as their commit log says. -/
theorem attackVcd_reconstructs_tracer_trace (numColors : Nat) (colors : 1 ≤ numColors)
    (hasAexnotify : Bool) (baseAdrs endAdrs size : Nat) (resolve : Nat → Option PageTableEntry)
    (within : endAdrs - baseAdrs ≤ size) (touches : List (List PageAccess)) :
    ∃ logs state r, (Tracer.new baseAdrs endAdrs size resolve).1.run touches = some logs ∧
      attackVcd numColors hasAexnotify ((Tracer.new baseAdrs endAdrs size resolve).2 ++ logs.flatten) =
        some (state, r) ∧
      Layout numColors
        (rowSteps (steps hasAexnotify
          ((newlyTouched (PageTable.new baseAdrs endAdrs resolve) [] touches).filter (· < 9999))))
        (commitLog hasAexnotify (steps hasAexnotify
          ((newlyTouched (PageTable.new baseAdrs endAdrs resolve) [] touches).filter (· < 9999)))) r := by
  obtain ⟨logs, run, rising⟩ := Tracer.risingWires_new_run resolve within touches
  obtain ⟨state, r, replayed, consistent⟩ := (consistent_new numColors hasAexnotify).run colors
    ((newlyTouched (PageTable.new baseAdrs endAdrs resolve) [] touches).filter (· < 9999))
  refine ⟨logs, state, r, run, ?_, by simpa [steps] using consistent.layout⟩
  rw [attackVcd, vcdPages_eq_filter, rising]
  exact replayed

/-- An enclave of 161 present pages touching, one page per step, the start
of the decoder (54), a row (58), the slow inverse DCT (63), one data page
(150) and the next block (59): the replay commits one block. -/
theorem attackVcd_reconstructs_tracer_trace_one_block :
    1 ≤ 1 ∧ 655360 - 0 ≤ 655360 ∧ ∃ logs state r,
      (Tracer.new 0 655360 655360 fun _ => some ⟨false, false, true⟩).1.run
        [[⟨true, false, false, 54⟩], [⟨true, false, false, 58⟩], [⟨true, false, false, 63⟩],
          [⟨true, false, false, 150⟩], [⟨true, false, false, 59⟩]] = some logs ∧
      attackVcd 1 false ((Tracer.new 0 655360 655360 fun _ => some ⟨false, false, true⟩).2 ++ logs.flatten) =
        some (state, r) ∧
      Layout 1
        (rowSteps (steps false ((newlyTouched (PageTable.new 0 655360 fun _ => some ⟨false, false, true⟩) []
          [[⟨true, false, false, 54⟩], [⟨true, false, false, 58⟩], [⟨true, false, false, 63⟩],
          [⟨true, false, false, 150⟩], [⟨true, false, false, 59⟩]]).filter (· < 9999))))
        (commitLog false (steps false ((newlyTouched (PageTable.new 0 655360 fun _ => some ⟨false, false, true⟩) []
          [[⟨true, false, false, 54⟩], [⟨true, false, false, 58⟩], [⟨true, false, false, 63⟩],
          [⟨true, false, false, 150⟩], [⟨true, false, false, 59⟩]]).filter (· < 9999)))) r :=
  ⟨by decide, by decide,
    attackVcd_reconstructs_tracer_trace 1 (by decide) false 0 655360 655360 _ (by decide) _⟩

example : commitLog false (steps false [54, 58, 63, 150, 59]) = [(1, 0)] := by
  decide

end Attack
end TLBlur
