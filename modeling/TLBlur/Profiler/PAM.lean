import Mathlib.Algebra.Group.Nat.Basic
import Mathlib.Data.List.Basic
import Mathlib.Data.List.Chain
import TLBlur.Profiler.PageAccess

namespace TLBlur
namespace Profiler

/-!
# The profiler's mirror of the enclave PAM

The instrumented enclave keeps a page-access map: one 64-bit counter per
enclave page, and a global counter that it increments after every update of
the map.  The profiler mirrors the map in `pam_buffer` and keeps in
`pam_active` the pages it prefetches, one per slot of the prefetch working
set.  On each step `update_pam` reads the global counter; when it moved, the
profiler reads the map again and scans it in page order.  Every page whose
counter is at least the new counter minus one enters `pam_active`, evicting
the slot whose page has the smallest counter, with empty slots (page 0) first.

The enclave side of the protocol is not code of this repository: it is
modelled after the comment in `update_pam` that describes it.  Under that
protocol the scan of one step can meet two recent pages, the one just
touched and the one touched before it, and it lets whichever comes later in
page order win the slot.  With one slot the mirror then holds the older page.

`u64` arithmetic is modelled on natural numbers; the subtractions of the
source panic on underflow and are modelled with `checkedSub`.  The reads of
enclave memory are taken as inputs: the global counter, and the 64-bit word
at each offset of the map.
-/

/-- Subtraction of `u64`s, which panics on underflow. -/
def checkedSub (a b : Nat) : Option Nat := if b ≤ a then some (a - b) else none

theorem checkedSub_eq_some_iff {a b c : Nat} : checkedSub a b = some c ↔ b ≤ a ∧ c = a - b := by
  unfold checkedSub
  split <;> simp_all [eq_comm]

/-- The profiler's view of the PAM.  The handles on enclave memory are left
out: the reads they make are the inputs of `updatePam`. -/
structure PAM where
  pamBuffer : List Nat
  pamActive : List PageAccess
  pamCounter : Nat
  deriving DecidableEq, Repr

/-- `Iterator::min_by_key` over the keys of the slots: the index of the first
least key, with that key, and `none` when there is no slot. -/
def minByKey : List Nat → Option (Nat × Nat)
  | [] => none
  | key :: rest =>
    some (match minByKey rest with
      | some (index, least) => if least < key then (index + 1, least) else (0, key)
      | none => (0, key))

namespace PAM

/-- `PAM::new`: a zeroed buffer of `pam_size` counters and `pws_size` empty slots. -/
def new (pamSize pwsSize : Nat) : PAM where
  pamBuffer := List.replicate pamSize 0
  pamActive := List.replicate pwsSize default
  pamCounter := 0

/-- `get_pam`: the slots. -/
def getPam (pam : PAM) : List PageAccess := pam.pamActive

/-- The read of the enclave map into `pam_buffer` through the slice
transmuted to bytes.  The transmuted slice keeps the buffer's element count
as its byte count, so the read fills the first `len` bytes: the first
`len / 8` counters, and the low `len % 8` bytes of the next one.
`memory index` is the little-endian word at offset `8 * index` of the map. -/
def readPam (buffer : List Nat) (memory : Nat → Nat) : List Nat :=
  buffer.mapIdx fun index old =>
    if index < buffer.length / 8 then memory index
    else if index = buffer.length / 8 then
      old - old % 2 ^ (8 * (buffer.length % 8)) + memory index % 2 ^ (8 * (buffer.length % 8))
    else old

/-- The key of `min_by_key`: an empty slot (page 0) first, then the slot
whose page has the oldest counter.  Indexing past the buffer panics. -/
def evictionKey (buffer : List Nat) (p : PageAccess) : Option Nat :=
  if p.page = 0 then some 0 else buffer[p.page]?

/-- One entry of the scan of `update_pam`: a page whose counter is at least
`new_counter - 1` and non-zero is found, records the new counter, and, unless
a slot already holds it, replaces the slot `min_by_key` picks, with every
permission. -/
def scanEntry (buffer : List Nat) (newCounter : Nat) (acc : Bool × PAM) (entry : Nat × Nat) :
    Option (Bool × PAM) := do
  let threshold ← checkedSub newCounter 1
  if entry.2 ≥ threshold ∧ entry.2 > 0 then
    let pam := { acc.2 with pamCounter := newCounter }
    if (pam.pamActive.find? fun p => p.page = entry.1).isNone then
      let keys ← pam.pamActive.mapM (evictionKey buffer)
      match minByKey keys with
      | some (index, _) =>
        pure (true, { pam with
          pamActive := pam.pamActive.modify
            (fun p => { p with page := entry.1, read := true, write := true, execute := true }) index })
      | none => pure (true, pam)
    else pure (true, pam)
  else pure acc

/-- `update_pam`, given the global counter and the map as read from enclave
memory.  The warning for an increment with no recent page is commented out
in the source, but its subtraction is still evaluated. -/
def updatePam (pam : PAM) (newCounter : Nat) (memory : Nat → Nat) : Option PAM :=
  let oldCounter := pam.pamCounter
  if oldCounter ≠ newCounter then do
    let buffer := readPam pam.pamBuffer memory
    let (found, pam) ← buffer.enum.foldlM (scanEntry buffer newCounter)
      (false, { pam with pamBuffer := buffer })
    if !found then
      discard <| checkedSub newCounter oldCounter
    pure pam
  else pure pam

end PAM

/-! ## The enclave side of the protocol -/

/-- Modelled from the spec: the enclave's map and global counter, both zero
at the start. -/
structure EnclavePam where
  counter : Nat
  slots : Nat → Nat

namespace EnclavePam

/-- Modelled from the spec: the map and counter before the first update. -/
def initial : EnclavePam := ⟨0, fun _ => 0⟩

/-- Modelled from the spec: an update for `page` stores `counter + 1` in its
slot, then increments the counter. -/
def touch (e : EnclavePam) (page : Nat) : EnclavePam :=
  ⟨e.counter + 1, fun other => if other = page then e.counter + 1 else e.slots other⟩

/-- Modelled from the spec: the pages below `numPages`, other than page 0,
with a non-zero counter of which fewer than `count` pages have a larger one:
the `count` most recently updated pages. -/
def recentPages (e : EnclavePam) (numPages count : Nat) : List Nat :=
  (List.range numPages).filter fun page =>
    page ≠ 0 ∧ e.slots page ≠ 0 ∧
      ((List.range numPages).filter fun other => other ≠ 0 ∧ e.slots page < e.slots other).length <
        count

end EnclavePam

/-- Modelled from the spec: one single-stepped instruction, with at most one
update of the map by the enclave, then the profiler's `update_pam`. -/
def protocolStep (s : EnclavePam × PAM) (access : Option Nat) : Option (EnclavePam × PAM) :=
  let e := (access.map s.1.touch).getD s.1
  (s.2.updatePam e.counter e.slots).map fun pam => (e, pam)

/-- With one slot, the enclave updating page 2 and then page 1: the second
`update_pam` puts page 1 in the slot, then meets page 2, whose counter is
`new_counter - 1`, and puts it back, although page 1 is the most recent. -/
theorem updatePam_keeps_older_page :
    ([some 2, some 1].foldlM protocolStep (EnclavePam.initial, PAM.new 24 1)).map
      (fun s => ((s.2.getPam.map PageAccess.page).filter (· ≠ 0), s.1.recentPages 3 1)) =
      some ([2], [1]) := by
  decide

/-! ## The slots over a run of snapshots -/

/-- A `mapM` in `Option` returns when its function returns on every element. -/
theorem exists_mapM_eq_some {α β : Type} {f : α → Option β} {l : List α}
    (returns : ∀ a ∈ l, ∃ b, f a = some b) : ∃ bs, l.mapM f = some bs := by
  induction l with
  | nil => exact ⟨[], rfl⟩
  | cons a rest ih =>
    obtain ⟨b, found⟩ := returns a (List.mem_cons_self _ _)
    obtain ⟨bs, foundRest⟩ := ih fun a' member => returns a' (List.mem_cons_of_mem _ member)
    exact ⟨b :: bs, by rw [List.mapM_cons, found, foundRest]; rfl⟩

namespace PAM

/-- What every call of `update_pam` keeps of a mirror with `pwsSize` slots
over a map of `bufferLength` counters: the buffer keeps its length, the slots
their number, every slot's page indexes the buffer (so that its eviction key
is in bounds), no non-zero page sits in two slots, and a slot that holds a
page has every permission. -/
structure Valid (pwsSize bufferLength : Nat) (pam : PAM) : Prop where
  pamBuffer_length : pam.pamBuffer.length = bufferLength
  pamActive_length : pam.pamActive.length = pwsSize
  page_lt : ∀ slot ∈ pam.pamActive, slot.page < bufferLength
  nodup : ((pam.pamActive.map PageAccess.page).filter (· ≠ 0)).Nodup
  permissions : ∀ slot ∈ pam.pamActive, slot.page ≠ 0 →
    slot.read = true ∧ slot.write = true ∧ slot.execute = true

variable {pwsSize bufferLength : Nat}

theorem valid_new (pwsSize : Nat) (nonempty : 1 ≤ bufferLength) :
    (PAM.new bufferLength pwsSize).Valid pwsSize bufferLength where
  pamBuffer_length := by simp [PAM.new]
  pamActive_length := by simp [PAM.new]
  page_lt slot member := by
    obtain rfl := List.eq_of_mem_replicate member
    exact nonempty
  nodup := by simp [PAM.new, show (default : PageAccess).page = 0 from rfl]
  permissions slot member nonzero := by
    obtain rfl := List.eq_of_mem_replicate member
    exact absurd rfl nonzero

/-- The counter is not part of the invariant. -/
theorem Valid.setCounter {pam : PAM} (valid : pam.Valid pwsSize bufferLength) (counter : Nat) :
    ({ pam with pamCounter := counter } : PAM).Valid pwsSize bufferLength :=
  ⟨valid.pamBuffer_length, valid.pamActive_length, valid.page_lt, valid.nodup, valid.permissions⟩

theorem nodup_pages_iff {slots : List PageAccess} :
    ((slots.map PageAccess.page).filter (· ≠ 0)).Nodup ↔
      slots.Pairwise fun a b => a.page ≠ 0 → b.page ≠ 0 → a.page ≠ b.page := by
  rw [List.Nodup, List.pairwise_filter, List.pairwise_map]

/-- Writing into one slot, with every permission, a page of the buffer that
no slot holds keeps the invariant. -/
theorem Valid.fill {pam : PAM} (valid : pam.Valid pwsSize bufferLength) {page : Nat}
    (lt : page < bufferLength) (fresh : ∀ slot ∈ pam.pamActive, slot.page ≠ page) (index : Nat) :
    ({ pam with
        pamActive := pam.pamActive.modify
          (fun p => { p with page := page, read := true, write := true, execute := true }) index } :
      PAM).Valid pwsSize bufferLength := by
  by_cases inside : index < pam.pamActive.length
  · obtain ⟨front, slot, back, split, -, modified⟩ := List.exists_of_modify
      (fun p : PageAccess => { p with page := page, read := true, write := true, execute := true })
      inside
    obtain ⟨bufferLength_eq, activeLength, pageLt, nodup, permissions⟩ := valid
    rw [modified]
    rw [split] at activeLength pageLt nodup permissions fresh
    simp only [List.mem_append, List.mem_cons] at pageLt permissions fresh
    refine ⟨bufferLength_eq, by simpa using activeLength, fun s member => ?_, ?_,
      fun s member => ?_⟩
    · simp only [List.mem_append, List.mem_cons] at member
      rcases member with old | rfl | old
      · exact pageLt s (.inl old)
      · exact lt
      · exact pageLt s (.inr (.inr old))
    · rw [nodup_pages_iff] at nodup ⊢
      simp only [List.pairwise_append, List.pairwise_cons, List.mem_cons] at nodup ⊢
      refine ⟨nodup.1, ⟨fun b member _ _ => (fresh b (.inr (.inr member))).symm, nodup.2.1.2⟩, ?_⟩
      rintro x before y (rfl | after) nonzero nonzero'
      · exact fresh x (.inl before)
      · exact nodup.2.2 x before y (.inr after) nonzero nonzero'
    · simp only [List.mem_append, List.mem_cons] at member
      rcases member with old | rfl | old
      · exact permissions s (.inl old)
      · exact fun _ => ⟨rfl, rfl, rfl⟩
      · exact permissions s (.inr (.inr old))
  · rw [List.modify_eq_self (Nat.le_of_not_lt inside)]
    exact valid

/-- The eviction keys of slots whose pages index the buffer are all found. -/
theorem mapM_evictionKey {buffer : List Nat} {slots : List PageAccess}
    (bounded : ∀ slot ∈ slots, slot.page < buffer.length) :
    ∃ keys, slots.mapM (evictionKey buffer) = some keys :=
  exists_mapM_eq_some fun slot member => by
    unfold evictionKey
    split
    · exact ⟨0, rfl⟩
    · exact ⟨_, List.getElem?_eq_getElem (bounded slot member)⟩

/-- One entry of the scan, on a page of the buffer and with a positive new
counter, returns, keeps the invariant, and leaves the counter or sets it to
the new one. -/
theorem scanEntry_valid (buffer : List Nat) {newCounter : Nat} (positive : 1 ≤ newCounter)
    (acc : Bool × PAM) (valid : acc.2.Valid pwsSize buffer.length) {entry : Nat × Nat}
    (lt : entry.1 < buffer.length) :
    ∃ acc', scanEntry buffer newCounter acc entry = some acc' ∧
      acc'.2.Valid pwsSize buffer.length ∧
      (acc'.2.pamCounter = acc.2.pamCounter ∨ acc'.2.pamCounter = newCounter) := by
  have threshold : checkedSub newCounter 1 = some (newCounter - 1) :=
    checkedSub_eq_some_iff.mpr ⟨positive, rfl⟩
  unfold scanEntry
  simp only [threshold, Option.bind_eq_bind, Option.some_bind]
  split
  next =>
    split
    next absent =>
      obtain ⟨keys, found⟩ := mapM_evictionKey valid.page_lt
      have fresh : ∀ slot ∈ acc.2.pamActive, slot.page ≠ entry.1 := by simpa using absent
      simp only [found, Option.some_bind]
      split
      next => exact ⟨_, rfl, (valid.setCounter newCounter).fill lt fresh _, .inr rfl⟩
      next => exact ⟨_, rfl, valid.setCounter newCounter, .inr rfl⟩
    next => exact ⟨_, rfl, valid.setCounter newCounter, .inr rfl⟩
  next => exact ⟨acc, rfl, valid, .inl rfl⟩

/-- The scan over entries of the buffer returns and keeps the invariant. -/
theorem foldlM_scanEntry_valid (buffer : List Nat) {newCounter : Nat} (positive : 1 ≤ newCounter)
    (entries : List (Nat × Nat)) (bounded : ∀ entry ∈ entries, entry.1 < buffer.length)
    (acc : Bool × PAM) (valid : acc.2.Valid pwsSize buffer.length) :
    ∃ acc', entries.foldlM (scanEntry buffer newCounter) acc = some acc' ∧
      acc'.2.Valid pwsSize buffer.length ∧
      (acc'.2.pamCounter = acc.2.pamCounter ∨ acc'.2.pamCounter = newCounter) := by
  induction entries generalizing acc with
  | nil => exact ⟨acc, rfl, valid, .inl rfl⟩
  | cons entry rest ih =>
    obtain ⟨acc₁, scanned, valid₁, counter₁⟩ :=
      scanEntry_valid buffer positive acc valid (bounded entry (List.mem_cons_self _ _))
    obtain ⟨acc', run, valid', counter'⟩ :=
      ih (fun e member => bounded e (List.mem_cons_of_mem _ member)) acc₁ valid₁
    refine ⟨acc', by simp [List.foldlM_cons, scanned, run], valid', ?_⟩
    rcases counter' with same | set
    · exact same ▸ counter₁
    · exact .inr set

/-- One call of `update_pam`, with the mirror's counter not above the
enclave's: it returns, keeps the invariant, and the mirror's counter stays
at most the enclave's. -/
theorem updatePam_valid {pam : PAM} (valid : pam.Valid pwsSize bufferLength) {newCounter : Nat}
    (ordered : pam.pamCounter ≤ newCounter) (memory : Nat → Nat) :
    ∃ pam', pam.updatePam newCounter memory = some pam' ∧ pam'.Valid pwsSize bufferLength ∧
      pam'.pamCounter ≤ newCounter := by
  unfold updatePam
  dsimp only
  split
  next changed =>
    have length : (readPam pam.pamBuffer memory).length = bufferLength := by
      simp [readPam, valid.pamBuffer_length]
    have readValid : ({ pam with pamBuffer := readPam pam.pamBuffer memory } : PAM).Valid pwsSize
        (readPam pam.pamBuffer memory).length :=
      ⟨rfl, valid.pamActive_length, length ▸ valid.page_lt, valid.nodup, valid.permissions⟩
    have positive : 1 ≤ newCounter := by omega
    obtain ⟨⟨found, scanned⟩, run, valid', counter⟩ :=
      foldlM_scanEntry_valid (readPam pam.pamBuffer memory) positive _
        (fun _ member => List.fst_lt_of_mem_enum member)
        (false, { pam with pamBuffer := readPam pam.pamBuffer memory }) readValid
    have sub : checkedSub newCounter pam.pamCounter = some (newCounter - pam.pamCounter) :=
      checkedSub_eq_some_iff.mpr ⟨ordered, rfl⟩
    refine ⟨scanned, by cases found <;> simp [run, sub, Functor.discard, Functor.mapConst],
      length ▸ valid', ?_⟩
    rcases counter with same | set
    · exact same ▸ ordered
    · exact set.le
  next => exact ⟨pam, rfl, valid, ordered⟩

/-- Calls of `update_pam` over snapshots whose counters never decrease, the
first not below the mirror's counter: every call returns and keeps the
invariant. -/
theorem Valid.run {pam : PAM} (valid : pam.Valid pwsSize bufferLength)
    (snapshots : List (Nat × (Nat → Nat)))
    (ordered : (pam.pamCounter :: snapshots.map Prod.fst).Chain' (· ≤ ·)) :
    ∃ pam', snapshots.foldlM (fun pam snapshot => pam.updatePam snapshot.1 snapshot.2) pam =
      some pam' ∧ pam'.Valid pwsSize bufferLength := by
  induction snapshots generalizing pam with
  | nil => exact ⟨pam, rfl, valid⟩
  | cons snapshot rest ih =>
    rw [List.map_cons, List.chain'_cons] at ordered
    obtain ⟨pam₁, updated, valid₁, counter₁⟩ := updatePam_valid valid ordered.1 snapshot.2
    obtain ⟨pam', run, valid'⟩ := ih valid₁ (ordered.2.imp_head fun later => counter₁.trans later)
    exact ⟨pam', by simp [List.foldlM_cons, updated, run], valid'⟩

end PAM

/-- For any number of slots and any map of at least one counter, over any
sequence of enclave snapshots whose counters never decrease, each call of
`update_pam` returns, with no `u64` underflow and no eviction key read out of
the buffer, and leaves the mirror valid: as many slots as `pws_size`, every
slot's page an index of the buffer, no non-zero page in two slots, and every
permission on a slot that holds a page. -/
theorem updatePam_keeps_slots_valid (pwsSize bufferLength : Nat) (nonempty : 1 ≤ bufferLength)
    (snapshots : List (Nat × (Nat → Nat))) (monotone : (snapshots.map Prod.fst).Chain' (· ≤ ·))
    (calls : Nat) :
    ∃ pam, (snapshots.take calls).foldlM (fun pam snapshot => pam.updatePam snapshot.1 snapshot.2)
        (PAM.new bufferLength pwsSize) = some pam ∧ pam.Valid pwsSize bufferLength := by
  refine (PAM.valid_new pwsSize nonempty).run _ ?_
  rw [List.map_take]
  exact (monotone.take calls).cons' fun _ _ => Nat.zero_le _

/-- Three snapshots of the enclave updating pages 1, 2 and 3 in turn, mirrored
in two slots over a map of 32 counters, of which the read covers pages 0 to 3:
the first two calls fill the empty slots with pages 1 and 2, and the third
admits page 3, evicting page 1, whose counter is the oldest. -/
theorem updatePam_keeps_slots_valid_with_eviction :
    1 ≤ 32 ∧ ([(1, fun page => if page = 1 then 1 else 0),
        (2, fun page => if page = 1 then 1 else if page = 2 then 2 else 0),
        (3, fun page => if page = 1 then 1 else if page = 2 then 2 else if page = 3 then 3 else 0)].map
          Prod.fst).Chain' (· ≤ ·) ∧
      ∃ pam, ([(1, fun page => if page = 1 then 1 else 0),
          (2, fun page => if page = 1 then 1 else if page = 2 then 2 else 0),
          (3, fun page => if page = 1 then 1 else if page = 2 then 2 else if page = 3 then 3 else 0)].take
            3).foldlM
          (fun pam (snapshot : Nat × (Nat → Nat)) => pam.updatePam snapshot.1 snapshot.2)
          (PAM.new 32 2) = some pam ∧ pam.Valid 2 32 :=
  ⟨by decide, by simp, updatePam_keeps_slots_valid 2 32 (by decide) _ (by simp) 3⟩

example : ([(1, fun page => if page = 1 then 1 else 0),
      (2, fun page => if page = 1 then 1 else if page = 2 then 2 else 0),
      (3, fun page => if page = 1 then 1 else if page = 2 then 2 else if page = 3 then 3 else 0)].foldlM
      (fun (pam : PAM) (snapshot : Nat × (Nat → Nat)) => pam.updatePam snapshot.1 snapshot.2)
      (PAM.new 32 2)).map (fun pam => pam.pamActive.map PageAccess.page) = some [3, 2] := by
  decide

end Profiler
end TLBlur
