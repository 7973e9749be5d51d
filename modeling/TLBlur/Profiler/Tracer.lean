import Mathlib.Data.List.GetD
import TLBlur.Profiler.Dump

namespace TLBlur
namespace Profiler

/-!
# The page-access tracer

The tracer binary single-steps the enclave.  On every trap its handler
samples the Accessed and Dirty bits of the enclave's page table, writes the
sampled accesses as the step's frame of the trace, and clears the bits.
Between two traps the processor sets the Accessed bit of every page the
enclave touches, and the Dirty bit of every page it writes.

The bits are clear when the page table is built and after every sample, so
each frame depends on the touches since the previous trap only: it lists the
present pages they reached, once each and in page order, as reads that are
writes where some touch wrote.  The run of the tracer is therefore the run of
the trace writer over these frames, and the trace shows at every step exactly
the pages touched during it.

The erip vector that `--erip` adds to a step carries no page state and is
left out here, as in the trace writer.
-/

namespace PageTable

/-- Modelled from the processor: an access to a page sets the Accessed bit of
its entry, and a write also sets the Dirty bit. -/
def touch (pt : PageTable) (access : PageAccess) : PageTable :=
  { pt with
    pageTableMap := pt.pageTableMap.modify
      (Option.map fun (pte : PageTableEntry) =>
        { pte with accessed := true, dirty := pte.dirty || access.write })
      access.page }

/-- Modelled from the processor: the accesses of the enclave between two traps. -/
def touchAll (pt : PageTable) (touches : List PageAccess) : PageTable := touches.foldl touch pt

@[simp] theorem touchAll_nil (pt : PageTable) : pt.touchAll [] = pt := rfl

@[simp] theorem touchAll_cons (pt : PageTable) (access : PageAccess) (rest : List PageAccess) :
    pt.touchAll (access :: rest) = (pt.touch access).touchAll rest := rfl

/-- Whether the entry of page `page` is mapped and present. -/
def presentAt (pt : PageTable) (page : Nat) : Bool :=
  match pt.pageTableMap[page]? with
  | some (some pte) => pte.present
  | _ => false

/-- No entry has its Accessed or Dirty bit set. -/
def Clean (pt : PageTable) : Prop :=
  ∀ (page : Nat) (pte : PageTableEntry), pt.pageTableMap[page]? = some (some pte) →
    pte.accessed = false ∧ pte.dirty = false

end PageTable

/-- The pages that a trap should report after the touches `touches`: the
mapped present pages that some touch reached, in page order. -/
def touchedPages (pt : PageTable) (touches : List PageAccess) : List Nat :=
  (List.range pt.pageTableMap.length).filter fun page =>
    pt.presentAt page && touches.any (·.page == page)

/-- The frame that a trap should write: every touched page as a read, a write
when some touch wrote it, and never an execute. -/
def touchedFrame (pt : PageTable) (touches : List PageAccess) : List PageAccess :=
  (touchedPages pt touches).map fun page =>
    ⟨true, touches.any (fun access => access.page == page && access.write), false, page⟩

/-- The pages that a run of the enclave newly touches, step after step: at
each step the pages touched then and not at the step before, in page order. -/
def newlyTouched (pt : PageTable) (before : List Nat) : List (List PageAccess) → List Nat
  | [] => []
  | touches :: rest =>
    (touchedPages pt touches).filter (· ∉ before) ++ newlyTouched pt (touchedPages pt touches) rest

/-- The tracer's trap handler state: the trace writer and the page table. -/
structure Tracer where
  dumper : VCDDumper
  pageTable : PageTable

namespace Tracer

/-- `main` up to the trap handler: the writer of `create_dumper`, over
`size / 4096 + 100` pages, and the page table of the enclave range. -/
def new (baseAdrs endAdrs size : Nat) (resolve : Nat → Option PageTableEntry) :
    Tracer × List Command :=
  (⟨(VCDDumper.new (size / 4096 + 100)).1, PageTable.new baseAdrs endAdrs resolve⟩,
    (VCDDumper.new (size / 4096 + 100)).2)

/-- The trap handler without `--erip`: sample the bits, write the sampled
accesses as one step, and clear the bits. -/
def trap (t : Tracer) : Option (Tracer × List Command) := do
  let pageTable := t.pageTable.updatePageAccesses
  let (dumper, out) ← t.dumper.nextStep pageTable.getAllAccessedPages
  pure (⟨dumper, pageTable.clearAllAdBits⟩, out)

/-- The commands of each trap of a run in which the enclave makes the touches
`touches[i]` before trap `i`. -/
def run : Tracer → List (List PageAccess) → Option (List (List Command))
  | _, [] => some []
  | t, touches :: rest => do
    let (t', out) ← { t with pageTable := t.pageTable.touchAll touches }.trap
    let outs ← run t' rest
    pure (out :: outs)

end Tracer

/-! ## Sampling the page table -/

namespace PageTable

/-- What a sample reports for the entry of page `page`. -/
def sampleEntry (page : Nat) : Option PageTableEntry → Option PageAccess
  | some pte => if pte.accessed && pte.present then some ⟨true, pte.dirty, false, page⟩ else none
  | none => none

theorem accessesFrom_cons (index : Nat) (entry : Option PageTableEntry)
    (rest : List (Option PageTableEntry)) :
    accessesFrom index (entry :: rest) = (sampleEntry index entry).toList ++ accessesFrom (index + 1) rest := by
  rcases entry with _ | pte
  · rfl
  · simp only [accessesFrom, sampleEntry]; split <;> rfl

/-- A sample lists, in page order, what every entry reports. -/
theorem accessesFrom_eq_filterMap (index : Nat) (ptes : List (Option PageTableEntry)) :
    accessesFrom index ptes =
      (List.range ptes.length).filterMap fun page => ptes[page]?.bind (sampleEntry (index + page)) := by
  induction ptes generalizing index with
  | nil => rfl
  | cons entry rest ih =>
    have shifted : (fun page => rest[page]?.bind (sampleEntry (index + (page + 1)))) =
        fun page => rest[page]?.bind (sampleEntry (index + 1 + page)) :=
      funext fun page => by rw [Nat.add_right_comm, Nat.add_assoc]
    rw [accessesFrom_cons, ih, List.length_cons, List.range_succ_eq_map, List.filterMap_cons,
      List.filterMap_map]
    simp only [Function.comp_def, Nat.succ_eq_add_one, List.getElem?_cons_succ,
      List.getElem?_cons_zero, Option.some_bind, Nat.add_zero, shifted]
    cases sampleEntry index entry <;> rfl

theorem getElem?_touchAll (pt : PageTable) (touches : List PageAccess) (page : Nat) :
    (pt.touchAll touches).pageTableMap[page]? = pt.pageTableMap[page]?.map (Option.map fun pte =>
      { pte with
        accessed := pte.accessed || touches.any (·.page == page)
        dirty := pte.dirty || touches.any fun access => access.page == page && access.write }) := by
  induction touches generalizing pt with
  | nil =>
    rw [touchAll_nil]
    rcases pt.pageTableMap[page]? with _ | _ | pte <;> simp
  | cons access rest ih =>
    rw [touchAll_cons, ih, touch, List.getElem?_modify]
    by_cases same : access.page = page
    · rcases pt.pageTableMap[page]? with _ | _ | pte <;> simp [same, Bool.or_assoc]
    · have other : (access.page == page) = false := by simpa using same
      rcases pt.pageTableMap[page]? with _ | _ | pte <;> simp [same, other]

@[simp] theorem length_touchAll (pt : PageTable) (touches : List PageAccess) :
    (pt.touchAll touches).pageTableMap.length = pt.pageTableMap.length := by
  induction touches generalizing pt with
  | nil => rfl
  | cons access rest ih => simp [ih, touch]

@[simp] theorem presentAt_touchAll (pt : PageTable) (touches : List PageAccess) :
    (pt.touchAll touches).presentAt = pt.presentAt := by
  funext page
  simp only [presentAt, getElem?_touchAll]
  rcases pt.pageTableMap[page]? with _ | _ | pte <;> rfl

@[simp] theorem presentAt_updatePageAccesses (pt : PageTable) :
    pt.updatePageAccesses.presentAt = pt.presentAt := rfl

@[simp] theorem presentAt_clearAllAdBits (pt : PageTable) : pt.clearAllAdBits.presentAt = pt.presentAt := by
  funext page
  simp only [presentAt, clearAllAdBits, List.getElem?_map]
  rcases pt.pageTableMap[page]? with _ | _ | pte <;> rfl

theorem clean_clearAllAdBits (pt : PageTable) : pt.clearAllAdBits.Clean := by
  intro page pte found
  simp only [clearAllAdBits, List.getElem?_map, Option.map_eq_some'] at found
  obtain ⟨_, -, _, -, rfl⟩ := found
  exact ⟨rfl, rfl⟩

/-- After the touches of a clean page table, a sample reports exactly the
frame of the touches. -/
theorem updatePageAccesses_touchAll {pt : PageTable} (clean : pt.Clean) (touches : List PageAccess) :
    (pt.touchAll touches).updatePageAccesses.pages = touchedFrame pt touches := by
  rw [updatePageAccesses, accessesFrom_eq_filterMap, touchedFrame, touchedPages, length_touchAll,
    ← List.filterMap_eq_filter, List.map_filterMap]
  refine List.filterMap_congr fun page _ => ?_
  simp only [getElem?_touchAll, presentAt]
  rcases found : pt.pageTableMap[page]? with _ | _ | pte
  · simp [found, Option.guard]
  · simp [found, Option.guard, sampleEntry]
  · obtain ⟨unaccessed, clean⟩ := clean page pte found
    by_cases hit : touches.any (·.page == page) = true <;> by_cases present : pte.present = true <;>
      simp [found, unaccessed, clean, hit, present, Option.guard, sampleEntry]

end PageTable

/-- The frame of the touches depends on the page table only through its
length and its present entries. -/
theorem touchedFrame_congr {pt pt' : PageTable}
    (length : pt'.pageTableMap.length = pt.pageTableMap.length)
    (present : pt'.presentAt = pt.presentAt) : touchedFrame pt' = touchedFrame pt := by
  funext touches
  simp only [touchedFrame, touchedPages, length, present]

@[simp] theorem touchedFrame_nil (pt : PageTable) : touchedFrame pt [] = [] := by
  simp [touchedFrame, touchedPages]

@[simp] theorem readPages_touchedFrame (pt : PageTable) (touches : List PageAccess) :
    readPages (touchedFrame pt touches) = touchedPages pt touches := by
  simp [readPages, touchedFrame, List.filterMap_map, Function.comp_def]

theorem lt_of_mem_touchedPages {pt : PageTable} {touches : List PageAccess} {page : Nat}
    (member : page ∈ touchedPages pt touches) : page < pt.pageTableMap.length :=
  List.mem_range.mp (List.mem_of_mem_filter member)

theorem nodup_touchedPages (pt : PageTable) (touches : List PageAccess) :
    (touchedPages pt touches).Nodup :=
  (List.nodup_range _).filter _

/-- On a frame that lists every page once, the first pass raises the pages
not in `before`, in frame order. -/
theorem raisedItems_of_nodup {items : List Nat} (nodup : items.Nodup) (before : List Nat) :
    raisedItems before items = items.filter (· ∉ before) := by
  induction items generalizing before with
  | nil => rfl
  | cons item rest ih =>
    obtain ⟨fresh, restNodup⟩ := List.nodup_cons.mp nodup
    by_cases high : item ∈ before
    · simp [raisedItems, high, ih restNodup]
    · rw [raisedItems, if_neg high, ih restNodup, List.filter_cons_of_pos (by simpa using high)]
      congr 1
      exact List.filter_congr fun page member => by
        simp [List.mem_cons, show page ≠ item from fun same => fresh (same ▸ member)]

theorem newlyRead_touchedFrame (pt : PageTable) (before : List Nat)
    (touches : List (List PageAccess)) :
    newlyRead before (touches.map (touchedFrame pt)) = newlyTouched pt before touches := by
  induction touches generalizing before with
  | nil => rfl
  | cons step rest ih =>
    simp [newlyRead, newlyTouched, ih, raisedItems_of_nodup (nodup_touchedPages pt step)]

/-! ## The tracer's run -/

namespace Tracer

/-- A trap after the touches of a clean page table writes the frame of the
touches, and leaves the page table clean with its present entries. -/
theorem trap_touchAll (t : Tracer) (clean : t.pageTable.Clean) (touches : List PageAccess) :
    { t with pageTable := t.pageTable.touchAll touches }.trap =
      (t.dumper.nextStep (touchedFrame t.pageTable touches)).map fun result =>
        (⟨result.1, (t.pageTable.touchAll touches).updatePageAccesses.clearAllAdBits⟩, result.2) := by
  simp only [trap, PageTable.getAllAccessedPages, PageTable.updatePageAccesses_touchAll clean,
    Option.bind_eq_bind]
  cases t.dumper.nextStep (touchedFrame t.pageTable touches) <;> rfl

/-- From a clean page table, the tracer's run is the trace writer's run over
the frames of the touches. -/
theorem run_eq_runSteps (touches : List (List PageAccess)) :
    ∀ t : Tracer, t.pageTable.Clean →
      t.run touches = t.dumper.runSteps (touches.map (touchedFrame t.pageTable)) := by
  induction touches with
  | nil => intro t _; rfl
  | cons step rest ih =>
    intro t clean
    have kept : touchedFrame (t.pageTable.touchAll step).updatePageAccesses.clearAllAdBits =
        touchedFrame t.pageTable :=
      touchedFrame_congr (by simp [PageTable.clearAllAdBits, PageTable.updatePageAccesses])
        (by simp)
    simp only [run, trap_touchAll t clean, List.map_cons, VCDDumper.runSteps, Option.bind_eq_bind]
    cases t.dumper.nextStep (touchedFrame t.pageTable step) with
    | none => rfl
    | some result =>
      simp only [Option.map_some', Option.some_bind]
      rw [ih _ (PageTable.clean_clearAllAdBits _), kept]

end Tracer

/-- The tracer's run from `main` is the trace writer's run over the frames of
the touches, from a page table that `PageTable::new` left clean. -/
theorem Tracer.new_run (baseAdrs endAdrs size : Nat) (resolve : Nat → Option PageTableEntry)
    (touches : List (List PageAccess)) :
    (Tracer.new baseAdrs endAdrs size resolve).1.run touches =
      (VCDDumper.new (size / 4096 + 100)).1.runSteps
        (touches.map (touchedFrame (PageTable.new baseAdrs endAdrs resolve))) :=
  Tracer.run_eq_runSteps touches _ (PageTable.clean_clearAllAdBits _)

/-- When the page-table range spans at most `size` bytes, every page of every
frame has a wire in the trace of `create_dumper`. -/
theorem touchedFrame_bounded {baseAdrs endAdrs size : Nat} {resolve : Nat → Option PageTableEntry}
    (within : endAdrs - baseAdrs ≤ size) (touches : List (List PageAccess)) :
    ∀ frame ∈ touches.map (touchedFrame (PageTable.new baseAdrs endAdrs resolve)),
      ∀ page ∈ readPages frame, page < (VCDDumper.new (size / 4096 + 100)).1.pages.r.state.length := by
  intro frame member page read
  obtain ⟨step, -, rfl⟩ := List.mem_map.mp member
  have below := lt_of_mem_touchedPages (readPages_touchedFrame _ step ▸ read)
  have shorter : (endAdrs - baseAdrs) / 4096 ≤ size / 4096 := Nat.div_le_div_right within
  rw [PageTable.length_new] at below
  rw [VCDDumper.length_new]
  omega

/-- The wires of the tracer's trace rise, in order, on the pages each step
newly touches. -/
theorem Tracer.risingWires_new_run {baseAdrs endAdrs size : Nat}
    (resolve : Nat → Option PageTableEntry) (within : endAdrs - baseAdrs ≤ size)
    (touches : List (List PageAccess)) :
    ∃ logs, (Tracer.new baseAdrs endAdrs size resolve).1.run touches = some logs ∧
      risingWires ((Tracer.new baseAdrs endAdrs size resolve).2 ++ logs.flatten) =
        newlyTouched (PageTable.new baseAdrs endAdrs resolve) [] touches := by
  obtain ⟨logs, run, rising⟩ :=
    VCDDumper.runSteps_risingWires _ _ [] (by simp) (touchedFrame_bounded within touches)
  refine ⟨logs, (Tracer.new_run _ _ _ _ _).trans run, ?_⟩
  rw [risingWires_append, rising, Tracer.new, VCDDumper.new, risingWires_initWires,
    List.nil_append, newlyRead_touchedFrame]

/-- The tracer over an enclave of `size` bytes whose page-table range spans at
most `size` bytes, for any touches of the enclave between its traps: no trap
panics, replaying the trace up to trap `i` shows exactly the mapped present
pages touched between trap `i - 1` and trap `i`, and over the whole trace the
wires rise, in order, on the pages each step newly touches. -/
theorem tracer_records_touched_pages (baseAdrs endAdrs size : Nat)
    (resolve : Nat → Option PageTableEntry) (within : endAdrs - baseAdrs ≤ size)
    (touches : List (List PageAccess)) :
    ∃ logs, (Tracer.new baseAdrs endAdrs size resolve).1.run touches = some logs ∧
      logs.length = touches.length ∧
      (∀ i < touches.length, ∀ wire,
        replay (fun _ => false)
            ((Tracer.new baseAdrs endAdrs size resolve).2 ++ (logs.take (i + 1)).flatten) wire =
          decide (wire ∈ touchedPages (PageTable.new baseAdrs endAdrs resolve) (touches.getD i []))) ∧
      risingWires ((Tracer.new baseAdrs endAdrs size resolve).2 ++ logs.flatten) =
        newlyTouched (PageTable.new baseAdrs endAdrs resolve) [] touches := by
  obtain ⟨logs, run, count, steps⟩ :=
    VCDDumper.runSteps_spec _ _ [] (by simp) (touchedFrame_bounded within touches)
  obtain ⟨logs', run', rising⟩ := Tracer.risingWires_new_run resolve within touches
  obtain rfl : logs' = logs := Option.some.inj (run'.symm.trans ((Tracer.new_run _ _ _ _ _).trans run))
  have frameAt : ∀ i, (touches.map (touchedFrame (PageTable.new baseAdrs endAdrs resolve))).getD i [] =
      touchedFrame (PageTable.new baseAdrs endAdrs resolve) (touches.getD i []) := fun i => by
    simpa using List.getD_map touches [] (touchedFrame (PageTable.new baseAdrs endAdrs resolve))
  refine ⟨logs', run', by simpa using count, fun i below wire => ?_, rising⟩
  obtain ⟨-, -, -, replayed⟩ := steps i (by simpa using below)
  rw [replay_append, Tracer.new, VCDDumper.new, replay_initWires, replayed _ (fun _ => by simp) wire,
    frameAt, readPages_touchedFrame]

/-- One touch of page 1 in a two-page enclave: the trace shows page 1. -/
theorem tracer_records_touched_pages_one_page :
    8192 - 0 ≤ 8192 ∧ ∃ logs, (Tracer.new 0 8192 8192 fun _ => some ⟨false, false, true⟩).1.run
        [[⟨true, false, false, 1⟩]] = some logs ∧
      logs.length = [[(⟨true, false, false, 1⟩ : PageAccess)]].length ∧
      (∀ i < [[(⟨true, false, false, 1⟩ : PageAccess)]].length, ∀ wire,
        replay (fun _ => false)
            ((Tracer.new 0 8192 8192 fun _ => some ⟨false, false, true⟩).2 ++ (logs.take (i + 1)).flatten)
            wire =
          decide (wire ∈ touchedPages (PageTable.new 0 8192 fun _ => some ⟨false, false, true⟩)
            ([[(⟨true, false, false, 1⟩ : PageAccess)]].getD i []))) ∧
      risingWires ((Tracer.new 0 8192 8192 fun _ => some ⟨false, false, true⟩).2 ++ logs.flatten) =
        newlyTouched (PageTable.new 0 8192 fun _ => some ⟨false, false, true⟩) []
          [[⟨true, false, false, 1⟩]] :=
  ⟨by decide, tracer_records_touched_pages 0 8192 8192 _ (by decide) _⟩

end Profiler
end TLBlur
