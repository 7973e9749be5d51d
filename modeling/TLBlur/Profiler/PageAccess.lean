import Mathlib.Data.List.Basic

namespace TLBlur
namespace Profiler

/-!
# Page accesses and the enclave page table

An access is a page index with three permission bits.  `covers` is the
permission-subsumption order that the simulated hardware TLB uses for hits,
and `union` merges the bits of two accesses, keeping the page of the first.

The page table is read through the Accessed, Dirty and Present bits of each
entry.  A sample turns every accessed, present entry into a read access whose
write bit is the dirty bit; execute cannot be told apart from read at this
level and is always false.  The entries themselves belong to the hardware, so
the state kept here is the shadow of one entry per enclave page and the
accesses of the last sample.
-/

/-- An access to a page with certain permissions. -/
structure PageAccess where
  read : Bool
  write : Bool
  execute : Bool
  page : Nat
  deriving DecidableEq, Repr

namespace PageAccess

/-- `PageAccess::default()`: no permission on page 0.  Page 0 is also the
marker of an empty PAM slot. -/
instance : Inhabited PageAccess := ⟨⟨false, false, false, 0⟩⟩

/-- The same page, and no permission of `other` that `self` lacks.  The
source clears its result once for each missing permission. -/
def covers (self other : PageAccess) : Bool :=
  if self.page = other.page then
    !(other.read && !self.read) && !(other.write && !self.write) &&
      !(other.execute && !self.execute)
  else false

/-- Merge the permissions of two accesses; the page is that of `self`. -/
def union (self other : PageAccess) : PageAccess where
  read := self.read || other.read
  write := self.write || other.write
  execute := self.execute || other.execute
  page := self.page

@[simp] theorem union_read (a b : PageAccess) : (a.union b).read = (a.read || b.read) := rfl
@[simp] theorem union_write (a b : PageAccess) : (a.union b).write = (a.write || b.write) := rfl
@[simp] theorem union_execute (a b : PageAccess) :
    (a.union b).execute = (a.execute || b.execute) := rfl
@[simp] theorem union_page (a b : PageAccess) : (a.union b).page = a.page := rfl

theorem covers_eq_true_iff {a b : PageAccess} :
    a.covers b = true ↔ a.page = b.page ∧ (b.read = true → a.read = true) ∧
      (b.write = true → a.write = true) ∧ (b.execute = true → a.execute = true) := by
  unfold covers
  split
  · rename_i samePage
    cases a.read <;> cases a.write <;> cases a.execute <;> cases b.read <;> cases b.write <;>
      cases b.execute <;> simp [samePage]
  · simp_all

theorem page_eq_of_covers {a b : PageAccess} (covered : a.covers b = true) : a.page = b.page :=
  (covers_eq_true_iff.mp covered).1

@[simp] theorem covers_self (a : PageAccess) : a.covers a = true :=
  covers_eq_true_iff.mpr ⟨rfl, id, id, id⟩

theorem covers_trans {a b c : PageAccess} (first : a.covers b = true)
    (second : b.covers c = true) : a.covers c = true := by
  obtain ⟨page₁, read₁, write₁, execute₁⟩ := covers_eq_true_iff.mp first
  obtain ⟨page₂, read₂, write₂, execute₂⟩ := covers_eq_true_iff.mp second
  exact covers_eq_true_iff.mpr ⟨page₁.trans page₂, read₁ ∘ read₂, write₁ ∘ write₂,
    execute₁ ∘ execute₂⟩

end PageAccess

/-- The Accessed, Dirty and Present bits of a page-table entry. -/
structure PageTableEntry where
  accessed : Bool
  dirty : Bool
  present : Bool
  deriving DecidableEq, Repr

/-- The shadow of the enclave page table: one optional entry per 4 KiB page,
and the accesses of the last sample.  The source also pushes every sampled
access onto `accessed_ptes`, which nothing reads; it is left out. -/
structure PageTable where
  pageTableMap : List (Option PageTableEntry)
  pages : List PageAccess
  deriving Repr

namespace PageTable

/-- The accesses that a sample reports for the entries from page `index` on. -/
def accessesFrom : Nat → List (Option PageTableEntry) → List PageAccess
  | _, [] => []
  | index, none :: rest => accessesFrom (index + 1) rest
  | index, some pte :: rest =>
    if pte.accessed && pte.present then
      ⟨true, pte.dirty, false, index⟩ :: accessesFrom (index + 1) rest
    else accessesFrom (index + 1) rest

/-- `map_all_ptes`: one entry for every 4 KiB step of `[0, end - base]`,
resolved by the external page-table walk `resolve`. -/
def mapAllPtes (baseAdrs endAdrs : Nat) (resolve : Nat → Option PageTableEntry) :
    List (Option PageTableEntry) :=
  (List.range ((endAdrs - baseAdrs) / 4096 + 1)).map fun page => resolve (baseAdrs + page * 4096)

/-- `clear_all_ad_bits`: reset Accessed and Dirty in every live entry. -/
def clearAllAdBits (pt : PageTable) : PageTable :=
  { pt with pageTableMap :=
      pt.pageTableMap.map (Option.map fun pte => { pte with accessed := false, dirty := false }) }

/-- `PageTable::new`: walk the enclave range, then clear the stale bits. -/
def new (baseAdrs endAdrs : Nat) (resolve : Nat → Option PageTableEntry) : PageTable :=
  clearAllAdBits ⟨mapAllPtes baseAdrs endAdrs resolve, []⟩

/-- `update_page_accesses`: rebuild the accesses from the current bits. -/
def updatePageAccesses (pt : PageTable) : PageTable :=
  { pt with pages := accessesFrom 0 pt.pageTableMap }

def getAllAccessedPages (pt : PageTable) : List PageAccess := pt.pages

def getAccessedPages (pt : PageTable) (filter : PageAccess → Bool) : List PageAccess :=
  pt.pages.filter filter

@[simp] theorem length_new (baseAdrs endAdrs : Nat) (resolve : Nat → Option PageTableEntry) :
    (new baseAdrs endAdrs resolve).pageTableMap.length = (endAdrs - baseAdrs) / 4096 + 1 := by
  simp [new, clearAllAdBits, mapAllPtes]

end PageTable

end Profiler
end TLBlur
