import Mathlib.Data.List.Perm.Basic
import TLBlur.Profiler.PageAccess

namespace TLBlur
namespace Profiler

/-!
# The simulated hardware TLB

Two models of the hardware TLB stand behind one interface of `flush`,
`update` and `test`.  The perfect TLB is a hash set of accesses with no
capacity bound.  The set-associative TLB sends an access to the set
`page mod num_sets`, where `Set::insert` promotes a hit to the most recently
used end and otherwise appends the access, evicting the least recently used
way of a full set.  A hit is an entry that covers the access, so an entry
held with more permissions also serves a weaker access.

The set-associative TLB never hits where the perfect one misses, and while no
set has been handed more accesses than it has ways since the last flush the
two agree on every query.  A hit test by permission subsumption is not a test
for the page, however: an access that asks for more than the entry already
held for its page is appended next to it.
-/

/-- One way of a set. -/
structure TLBEntry where
  page : PageAccess
  valid : Bool
  deriving DecidableEq, Repr

/-- One set of a set-associative TLB, its ways from least to most recently used. -/
structure Set where
  ways : List TLBEntry
  capacity : Nat
  deriving DecidableEq, Repr

namespace Set

def new (capacity : Nat) : Set := ⟨[], capacity⟩

/-- The hit condition of `lookup` and `insert`: a valid entry covering the access. -/
def hits (page : PageAccess) (entry : TLBEntry) : Bool := entry.page.covers page && entry.valid

def lookup (set : Set) (page : PageAccess) : Bool := set.ways.any (hits page)

/-- `position` of the first hit followed by `remove` at it: the hit, and the
other ways in their order. -/
def takeHit (page : PageAccess) : List TLBEntry → Option (TLBEntry × List TLBEntry)
  | [] => none
  | entry :: rest =>
    if hits page entry then some (entry, rest)
    else (takeHit page rest).map fun found => (found.1, entry :: found.2)

/-- A hit moves to the most recently used end unchanged; otherwise a full set
drops its least recently used way and the access is appended. -/
def insert (set : Set) (page : PageAccess) : Set :=
  match takeHit page set.ways with
  | some (entry, others) => { set with ways := others ++ [entry] }
  | none =>
    let ways := if set.ways.length = set.capacity then set.ways.tail else set.ways
    { set with ways := ways ++ [⟨page, true⟩] }

theorem takeHit_some {page : PageAccess} {ways others : List TLBEntry} {hit : TLBEntry}
    (found : takeHit page ways = some (hit, others)) :
    hits page hit = true ∧ (hit :: others).Perm ways := by
  induction ways generalizing others with
  | nil => cases found
  | cons entry rest ih =>
    simp only [takeHit] at found
    split at found
    · cases found
      exact ⟨‹_›, List.Perm.refl _⟩
    · obtain ⟨⟨hit', others'⟩, found', same⟩ := Option.map_eq_some'.mp found
      cases same
      obtain ⟨hitHits, perm⟩ := ih found'
      exact ⟨hitHits, (List.Perm.swap _ _ _).trans (perm.cons entry)⟩

@[simp] theorem capacity_insert (set : Set) (page : PageAccess) :
    (set.insert page).capacity = set.capacity := by
  unfold insert; split <;> rfl

/-- A way after an insert was a way before, or is the inserted access. -/
theorem mem_insert {set : Set} {page : PageAccess} {entry : TLBEntry}
    (member : entry ∈ (set.insert page).ways) : entry ∈ set.ways ∨ entry = ⟨page, true⟩ := by
  unfold insert at member
  split at member
  · rename_i found
    exact .inl ((takeHit_some found).2.subset (by simp_all [or_comm]))
  · simp only [List.mem_append, List.mem_singleton] at member
    refine member.imp (fun kept => ?_) id
    split at kept
    · exact List.mem_of_mem_tail kept
    · exact kept

/-- After an insert some way hits the inserted access. -/
theorem exists_hit_insert (set : Set) (page : PageAccess) :
    ∃ entry ∈ (set.insert page).ways, hits page entry = true := by
  unfold insert
  split
  · rename_i found
    exact ⟨_, by simp, (takeHit_some found).1⟩
  · exact ⟨⟨page, true⟩, by simp, by simp [hits]⟩

/-- A set below its capacity loses no way on an insert. -/
theorem mem_insert_of_lt {set : Set} (page : PageAccess) (roomy : set.ways.length < set.capacity)
    {entry : TLBEntry} (member : entry ∈ set.ways) : entry ∈ (set.insert page).ways := by
  unfold insert
  split
  · rename_i found
    have := (takeHit_some found).2.symm.subset member
    simp_all [or_comm]
  · simp [Nat.ne_of_lt roomy, member]

theorem length_insert_le (set : Set) (page : PageAccess) :
    (set.insert page).ways.length ≤ set.ways.length + 1 := by
  unfold insert
  split
  · rename_i found
    simp [← (takeHit_some found).2.length_eq]
  · simp only [List.length_append, List.length_singleton]
    split <;> simp

/-- `invalidate`: mark every way that covers the access invalid, in place.
Nothing in the profiler calls it. -/
def invalidate (set : Set) (page : PageAccess) : Set :=
  { set with
    ways := set.ways.map fun entry =>
      if entry.page.covers page then { entry with valid := false } else entry }

/-- After `invalidate`, a lookup hits exactly on the ways that hit before and
do not cover the invalidated access. -/
theorem lookup_invalidate (set : Set) (page other : PageAccess) :
    (set.invalidate page).lookup other =
      set.ways.any fun entry => hits other entry && !entry.page.covers page := by
  simp only [lookup, invalidate, List.any_map]
  congr 1
  funext entry
  by_cases covered : entry.page.covers page <;> simp [covered, hits]

end Set

/-- The hardware TLB configurations of the command line. -/
inductive HardwareTLBConfig
  | perfect
  | setAssociative (numSets waysPerSet : Nat)
  deriving DecidableEq, Repr

/-- The simulated hardware TLB.  The perfect TLB's hash set is kept as the
list of its distinct elements. -/
inductive HardwareTLB
  | perfect (pages : List PageAccess)
  | setAssociative (sets : List Set) (numSets waysPerSet : Nat)
  deriving DecidableEq, Repr

namespace HardwareTLB

/-- `From<HardwareTLBConfig>`: an empty TLB of the configured shape. -/
def ofConfig : HardwareTLBConfig → HardwareTLB
  | .perfect => .perfect []
  | .setAssociative numSets waysPerSet =>
    .setAssociative (List.replicate numSets (Set.new waysPerSet)) numSets waysPerSet

/-- `get_set_index`.  With no set the source's remainder panics; here it is
the page itself, which indexes no set, so `test` misses and `update` changes
nothing. -/
def getSetIndex (page : PageAccess) (numSets : Nat) : Nat := page.page % numSets

/-- `HashSet::insert`. -/
def insertUnique (pages : List PageAccess) (page : PageAccess) : List PageAccess :=
  if page ∈ pages then pages else pages ++ [page]

def flush : HardwareTLB → HardwareTLB
  | .perfect _ => .perfect []
  | .setAssociative sets numSets waysPerSet =>
    .setAssociative (sets.map fun set => { set with ways := [] }) numSets waysPerSet

/-- Insert one access into its set. -/
def insertIntoSet (numSets : Nat) (sets : List Set) (page : PageAccess) : List Set :=
  sets.modify (·.insert page) (getSetIndex page numSets)

def update (tlb : HardwareTLB) (pages : List PageAccess) : HardwareTLB :=
  match tlb with
  | .perfect held => .perfect (pages.foldl insertUnique held)
  | .setAssociative sets numSets waysPerSet =>
    .setAssociative (pages.foldl (insertIntoSet numSets) sets) numSets waysPerSet

def test (tlb : HardwareTLB) (page : PageAccess) : Bool :=
  match tlb with
  | .perfect held => held.any (·.covers page)
  | .setAssociative sets numSets _ =>
    match sets[getSetIndex page numSets]? with
    | some set => set.lookup page
    | none => false

theorem update_append (tlb : HardwareTLB) (xs ys : List PageAccess) :
    tlb.update (xs ++ ys) = (tlb.update xs).update ys := by
  cases tlb <;> simp [update, List.foldl_append]

theorem test_perfect (held : List PageAccess) (page : PageAccess) :
    (perfect held).test page = held.any (·.covers page) := rfl

theorem test_setAssociative {sets : List Set} {numSets waysPerSet : Nat} {page : PageAccess}
    (inBounds : getSetIndex page numSets < sets.length) :
    (setAssociative sets numSets waysPerSet).test page = sets[getSetIndex page numSets].lookup page := by
  simp [test, List.getElem?_eq_getElem inBounds]

end HardwareTLB

/-- `Set::insert` looks for a way that covers the access, not for one on the
same page: a set of two ways handed page 0 for reading and then for reading
and writing keeps two valid ways for page 0, since the first does not cover
the second. -/
theorem set_insert_stronger_access_duplicates_page :
    ((Set.new 2).insert ⟨true, false, false, 0⟩ |>.insert ⟨true, true, false, 0⟩).ways =
      [⟨⟨true, false, false, 0⟩, true⟩, ⟨⟨true, true, false, 0⟩, true⟩] := by
  decide

/-! ## The set-associative TLB against the perfect one -/

/-- The operations the trap handler issues on the hardware TLB. -/
inductive TLBOp
  | flush
  | update (pages : List PageAccess)

namespace TLBOp

def apply (tlb : HardwareTLB) : TLBOp → HardwareTLB
  | flush => tlb.flush
  | update pages => tlb.update pages

/-- The accesses handed to the TLB since its last flush, in order. -/
def collect (handed : List PageAccess) : TLBOp → List PageAccess
  | flush => []
  | update pages => handed ++ pages

def run (tlb : HardwareTLB) (ops : List TLBOp) : HardwareTLB := ops.foldl apply tlb

def sinceFlush (ops : List TLBOp) : List PageAccess := ops.foldl collect []

end TLBOp

namespace Set

/-- What a set holds given the accesses `handed` to it since the last flush:
valid ways for handed accesses only, and, while it has been handed no more
accesses than it has ways, a hit for each of them and no more ways than
accesses. -/
structure Holds (set : Set) (handed : List PageAccess) : Prop where
  sound : ∀ entry ∈ set.ways, entry.valid = true ∧ entry.page ∈ handed
  complete : handed.length ≤ set.capacity →
    (∀ a ∈ handed, ∃ entry ∈ set.ways, hits a entry = true) ∧ set.ways.length ≤ handed.length

theorem holds_empty (capacity : Nat) : Holds ⟨[], capacity⟩ [] := ⟨by simp, by simp⟩

theorem Holds.insert {set : Set} {handed : List PageAccess} (holds : Holds set handed)
    (page : PageAccess) : Holds (set.insert page) (handed ++ [page]) where
  sound entry member := by
    rcases mem_insert member with old | rfl
    · exact ⟨(holds.sound entry old).1, List.mem_append_left _ (holds.sound entry old).2⟩
    · simp
  complete fits := by
    rw [capacity_insert, List.length_append, List.length_singleton] at fits
    obtain ⟨hitsAll, short⟩ := holds.complete (by omega)
    refine ⟨fun a member => ?_, ?_⟩
    · rcases List.mem_append.mp member with old | new
      · obtain ⟨entry, kept, hit⟩ := hitsAll a old
        exact ⟨entry, mem_insert_of_lt page (by omega) kept, hit⟩
      · rw [List.mem_singleton.mp new]
        exact exists_hit_insert set page
    · have := length_insert_le set page
      simp only [List.length_append, List.length_singleton]
      omega

end Set

namespace HardwareTLB

/-- The perfect TLB holds exactly the accesses handed since the last flush. -/
def PerfectHolds (held handed : List PageAccess) : Prop := ∀ a, a ∈ held ↔ a ∈ handed

/-- Each of the `numSets` sets has `waysPerSet` ways and holds what it should
of the accesses handed to it since the last flush. -/
def SetsHold (sets : List Set) (numSets waysPerSet : Nat) (handed : List PageAccess) : Prop :=
  sets.length = numSets ∧ ∀ index (inBounds : index < sets.length),
    sets[index].capacity = waysPerSet ∧
      sets[index].Holds (handed.filter fun a => getSetIndex a numSets = index)

theorem perfectHolds_foldl {held handed : List PageAccess} (holds : PerfectHolds held handed)
    (pages : List PageAccess) :
    PerfectHolds (pages.foldl insertUnique held) (handed ++ pages) := by
  induction pages generalizing held handed with
  | nil => simpa using holds
  | cons page rest ih =>
    refine List.append_cons handed page rest ▸ ih fun a => ?_
    unfold insertUnique
    split
    · rename_i present
      simp only [List.mem_append, List.mem_singleton, holds a]
      exact ⟨.inl, fun old => old.elim id fun same => same ▸ (holds page).mp present⟩
    · simp only [List.mem_append, List.mem_singleton, holds a]

theorem setsHold_insertIntoSet {sets : List Set} {numSets waysPerSet : Nat}
    {handed : List PageAccess} (hold : SetsHold sets numSets waysPerSet handed)
    (page : PageAccess) :
    SetsHold (insertIntoSet numSets sets page) numSets waysPerSet (handed ++ [page]) := by
  refine ⟨by simp [insertIntoSet, hold.1], fun index inBounds => ?_⟩
  have inBounds' : index < sets.length := by simpa [insertIntoSet] using inBounds
  obtain ⟨capacity, holds⟩ := hold.2 index inBounds'
  simp only [insertIntoSet, List.getElem_modify, List.filter_append, List.filter_cons,
    List.filter_nil]
  by_cases target : getSetIndex page numSets = index
  · simpa [target, capacity] using holds.insert page
  · simpa [target, capacity] using holds

theorem setsHold_foldl {sets : List Set} {numSets waysPerSet : Nat} {handed : List PageAccess}
    (hold : SetsHold sets numSets waysPerSet handed) (pages : List PageAccess) :
    SetsHold (pages.foldl (insertIntoSet numSets) sets) numSets waysPerSet (handed ++ pages) := by
  induction pages generalizing sets handed with
  | nil => simpa using hold
  | cons page rest ih =>
    exact List.append_cons handed page rest ▸ ih (setsHold_insertIntoSet hold page)

theorem setsHold_flush {sets : List Set} {numSets waysPerSet : Nat} {handed : List PageAccess}
    (hold : SetsHold sets numSets waysPerSet handed) :
    SetsHold (sets.map fun set => { set with ways := [] }) numSets waysPerSet [] := by
  refine ⟨by simp [hold.1], fun index inBounds => ?_⟩
  have inBounds' : index < sets.length := by simpa using inBounds
  simpa [(hold.2 index inBounds').1] using Set.holds_empty waysPerSet

theorem setsHold_ofConfig (numSets waysPerSet : Nat) :
    SetsHold (List.replicate numSets (Set.new waysPerSet)) numSets waysPerSet [] :=
  ⟨by simp, fun index inBounds => by simpa [Set.new] using Set.holds_empty waysPerSet⟩

/-- A set-associative hit is a hit of some handed access. -/
theorem SetsHold.covered_of_test {sets : List Set} {numSets waysPerSet : Nat}
    {handed : List PageAccess} (hold : SetsHold sets numSets waysPerSet handed)
    (positive : 0 < numSets) {page : PageAccess}
    (hit : (setAssociative sets numSets waysPerSet).test page = true) :
    ∃ a ∈ handed, a.covers page = true := by
  have inBounds : getSetIndex page numSets < sets.length := by
    rw [hold.1]
    exact Nat.mod_lt _ positive
  rw [test_setAssociative inBounds, Set.lookup, List.any_eq_true] at hit
  obtain ⟨entry, member, hits⟩ := hit
  obtain ⟨valid, handedEntry⟩ := ((hold.2 _ inBounds).2.sound entry member)
  simp only [Set.hits, Bool.and_eq_true] at hits
  exact ⟨entry.page, (List.mem_filter.mp handedEntry).1, hits.1⟩

/-- A set that has had no more accesses than ways hits every access that some
handed access covers. -/
theorem SetsHold.test_of_covered {sets : List Set} {numSets waysPerSet : Nat}
    {handed : List PageAccess} (hold : SetsHold sets numSets waysPerSet handed)
    (positive : 0 < numSets) {page : PageAccess}
    (fits : (handed.filter fun a => getSetIndex a numSets = getSetIndex page numSets).length ≤
      waysPerSet)
    {a : PageAccess} (member : a ∈ handed) (covers : a.covers page = true) :
    (setAssociative sets numSets waysPerSet).test page = true := by
  have inBounds : getSetIndex page numSets < sets.length := by
    rw [hold.1]
    exact Nat.mod_lt _ positive
  obtain ⟨capacity, holds⟩ := hold.2 _ inBounds
  have sameSet : getSetIndex a numSets = getSetIndex page numSets := by
    simp [getSetIndex, PageAccess.page_eq_of_covers covers]
  obtain ⟨entry, kept, hits⟩ :=
    (holds.complete (capacity ▸ fits)).1 a (List.mem_filter.mpr ⟨member, by simp [sameSet]⟩)
  simp only [Set.hits, Bool.and_eq_true] at hits
  rw [test_setAssociative inBounds, Set.lookup, List.any_eq_true]
  exact ⟨entry, kept, by simp [Set.hits, hits.2, PageAccess.covers_trans hits.1 covers]⟩

/-- Both TLBs, run on the same operations, hold what they should of the
accesses handed since the last flush. -/
theorem holds_run (numSets waysPerSet : Nat) (ops : List TLBOp) :
    ∃ held sets,
      TLBOp.run (ofConfig .perfect) ops = perfect held ∧
      TLBOp.run (ofConfig (.setAssociative numSets waysPerSet)) ops =
        setAssociative sets numSets waysPerSet ∧
      PerfectHolds held (TLBOp.sinceFlush ops) ∧
      SetsHold sets numSets waysPerSet (TLBOp.sinceFlush ops) := by
  suffices general : ∀ (ops : List TLBOp) held sets handed, PerfectHolds held handed →
      SetsHold sets numSets waysPerSet handed →
      ∃ held' sets', ops.foldl TLBOp.apply (perfect held) = perfect held' ∧
        ops.foldl TLBOp.apply (setAssociative sets numSets waysPerSet) =
          setAssociative sets' numSets waysPerSet ∧
        PerfectHolds held' (ops.foldl TLBOp.collect handed) ∧
        SetsHold sets' numSets waysPerSet (ops.foldl TLBOp.collect handed) from
    general ops [] _ [] (fun _ => Iff.rfl) (setsHold_ofConfig numSets waysPerSet)
  intro ops
  induction ops with
  | nil => exact fun held sets handed perfectHolds setsHold =>
      ⟨held, sets, rfl, rfl, perfectHolds, setsHold⟩
  | cons op rest ih =>
    intro held sets handed perfectHolds setsHold
    cases op with
    | flush => exact ih [] _ [] (fun _ => Iff.rfl) (setsHold_flush setsHold)
    | update pages =>
      exact ih _ _ _ (perfectHolds_foldl perfectHolds pages) (setsHold_foldl setsHold pages)

end HardwareTLB

open HardwareTLB in
/-- The set-associative TLB never hits where the perfect TLB run on the same
flushes and updates misses, and while no set has been handed more accesses
than it has ways since the last flush the two answer every query alike. -/
theorem setAssociative_refines_perfect (numSets waysPerSet : Nat) (positive : 1 ≤ numSets)
    (ops : List TLBOp) (page : PageAccess) :
    ((TLBOp.run (ofConfig (.setAssociative numSets waysPerSet)) ops).test page = true →
      (TLBOp.run (ofConfig .perfect) ops).test page = true) ∧
    ((∀ index < numSets,
        ((TLBOp.sinceFlush ops).filter fun a => a.page % numSets = index).length ≤ waysPerSet) →
      (TLBOp.run (ofConfig (.setAssociative numSets waysPerSet)) ops).test page =
        (TLBOp.run (ofConfig .perfect) ops).test page) := by
  obtain ⟨held, sets, perfectRun, setsRun, perfectHolds, setsHold⟩ :=
    holds_run numSets waysPerSet ops
  rw [perfectRun, setsRun, test_perfect]
  have perfectHit : held.any (·.covers page) = true ↔
      ∃ a ∈ TLBOp.sinceFlush ops, a.covers page = true := by
    simp only [List.any_eq_true]
    exact exists_congr fun a => and_congr_left fun _ => perfectHolds a
  refine ⟨fun hit => perfectHit.mpr (setsHold.covered_of_test positive hit), fun fits => ?_⟩
  apply Bool.eq_iff_iff.mpr
  refine ⟨fun hit => perfectHit.mpr (setsHold.covered_of_test positive hit), fun hit => ?_⟩
  obtain ⟨a, member, covers⟩ := perfectHit.mp hit
  exact setsHold.test_of_covered positive
    (fits _ (Nat.mod_lt _ positive)) member covers

/-- Four sets of two ways: reads of page 1 and a write of page 5 go to set 1,
a flush empties both TLBs, then a write of page 2 and a read of page 6 fill
set 2, and a read of page 2, covered by the write, hits in both. -/
theorem setAssociative_refines_perfect_after_flush :
    1 ≤ 4 ∧
    ((TLBOp.run (HardwareTLB.ofConfig (.setAssociative 4 2))
        [.update [⟨true, false, false, 1⟩, ⟨true, true, false, 5⟩], .flush,
          .update [⟨true, true, false, 2⟩, ⟨true, false, false, 6⟩]]).test ⟨true, false, false, 2⟩ = true →
      (TLBOp.run (HardwareTLB.ofConfig .perfect)
        [.update [⟨true, false, false, 1⟩, ⟨true, true, false, 5⟩], .flush,
          .update [⟨true, true, false, 2⟩, ⟨true, false, false, 6⟩]]).test ⟨true, false, false, 2⟩ = true) ∧
    ((∀ index < 4,
        ((TLBOp.sinceFlush
          [.update [⟨true, false, false, 1⟩, ⟨true, true, false, 5⟩], .flush,
          .update [⟨true, true, false, 2⟩, ⟨true, false, false, 6⟩]]).filter fun a => a.page % 4 = index).length ≤ 2) →
      (TLBOp.run (HardwareTLB.ofConfig (.setAssociative 4 2))
        [.update [⟨true, false, false, 1⟩, ⟨true, true, false, 5⟩], .flush,
          .update [⟨true, true, false, 2⟩, ⟨true, false, false, 6⟩]]).test ⟨true, false, false, 2⟩ =
      (TLBOp.run (HardwareTLB.ofConfig .perfect)
        [.update [⟨true, false, false, 1⟩, ⟨true, true, false, 5⟩], .flush,
          .update [⟨true, true, false, 2⟩, ⟨true, false, false, 6⟩]]).test ⟨true, false, false, 2⟩) :=
  ⟨by decide, setAssociative_refines_perfect 4 2 (by decide) _ _⟩

example : (TLBOp.run (HardwareTLB.ofConfig (.setAssociative 4 2))
      [.update [⟨true, false, false, 1⟩, ⟨true, true, false, 5⟩], .flush,
          .update [⟨true, true, false, 2⟩, ⟨true, false, false, 6⟩]]).test ⟨true, false, false, 2⟩ = true ∧
    (TLBOp.run (HardwareTLB.ofConfig (.setAssociative 4 2))
      [.update [⟨true, false, false, 1⟩, ⟨true, true, false, 5⟩], .flush,
          .update [⟨true, true, false, 2⟩, ⟨true, false, false, 6⟩]]).test ⟨true, false, false, 1⟩ = false := by
  decide

end Profiler
end TLBlur
