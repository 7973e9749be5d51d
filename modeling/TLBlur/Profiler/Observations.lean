import Mathlib.Data.List.Nodup
import TLBlur.Profiler.PageAccess

namespace TLBlur
namespace Profiler

/-!
# What the attacker has observed since the last clear

`PageTableObservations` is a hash map from a page to the union of the
accesses seen on it.  It is modelled by its bindings, one per key, so that
`get` is the map's meaning and `iter` its values; the order of the bindings
is that of the hash map's iteration and nothing below depends on it.

The meaning of the map is `summary`: after any sequence of updates and
clears, a page is bound exactly when an access to it was passed in since the
last clear, and its bits are the OR of those accesses' bits.  The map is
therefore insensitive to the order and the repetition of its inputs.
-/

/-- `entry(access.page).and_modify(|e| *e = e.union(access)).or_insert(access)`. -/
def mergeEntry (access : PageAccess) : List (Nat × PageAccess) → List (Nat × PageAccess)
  | [] => [(access.page, access)]
  | (key, entry) :: rest =>
    if key = access.page then (key, entry.union access) :: rest
    else (key, entry) :: mergeEntry access rest

/-- The value bound to a page, if any. -/
def lookupEntry (page : Nat) : List (Nat × PageAccess) → Option PageAccess
  | [] => none
  | (key, entry) :: rest => if key = page then some entry else lookupEntry page rest

theorem keys_mergeEntry (access : PageAccess) (bindings : List (Nat × PageAccess)) :
    (mergeEntry access bindings).map Prod.fst =
      if access.page ∈ bindings.map Prod.fst then bindings.map Prod.fst
      else bindings.map Prod.fst ++ [access.page] := by
  induction bindings with
  | nil => rfl
  | cons binding rest ih =>
    obtain ⟨key, entry⟩ := binding
    by_cases same : key = access.page
    · simp [mergeEntry, same]
    · by_cases present : access.page ∈ rest.map Prod.fst <;>
        simp_all [mergeEntry, eq_comm]

theorem nodup_mergeEntry (access : PageAccess) {bindings : List (Nat × PageAccess)}
    (unique : (bindings.map Prod.fst).Nodup) : ((mergeEntry access bindings).map Prod.fst).Nodup := by
  rw [keys_mergeEntry]
  split
  · exact unique
  · rename_i absent
    exact List.nodup_append.mpr ⟨unique, List.nodup_singleton _, by simpa using absent⟩

theorem lookupEntry_mergeEntry (access : PageAccess) (bindings : List (Nat × PageAccess))
    (page : Nat) :
    lookupEntry page (mergeEntry access bindings) =
      if access.page = page then
        some ((lookupEntry page bindings).elim access (fun entry => entry.union access))
      else lookupEntry page bindings := by
  induction bindings with
  | nil => simp [mergeEntry, lookupEntry]
  | cons binding rest ih =>
    obtain ⟨key, entry⟩ := binding
    by_cases same : key = access.page
    · subst same
      by_cases hit : access.page = page <;> simp [mergeEntry, lookupEntry, hit]
    · by_cases hit : key = page
      · subst hit
        simp [mergeEntry, lookupEntry, same, Ne.symm same]
      · simp [mergeEntry, lookupEntry, same, hit, ih]

/-- With one binding per key, a key's lookup is exactly its binding. -/
theorem lookupEntry_eq_some_iff {bindings : List (Nat × PageAccess)}
    (unique : (bindings.map Prod.fst).Nodup) {page : Nat} {entry : PageAccess} :
    lookupEntry page bindings = some entry ↔ (page, entry) ∈ bindings := by
  induction bindings with
  | nil => simp [lookupEntry]
  | cons binding rest ih =>
    obtain ⟨key, value⟩ := binding
    simp only [List.map_cons, List.nodup_cons, List.mem_map, not_exists, not_and] at unique
    by_cases same : key = page
    · subst same
      have absent : ∀ e, (key, e) ∉ rest := fun e member => unique.1 _ member rfl
      simp [lookupEntry, absent, eq_comm]
    · simp [lookupEntry, same, ih unique.2, Ne.symm same]

/-- The attacker's record of accesses, one binding per page. -/
structure PageTableObservations where
  state : List (Nat × PageAccess)
  nodupKeys : (state.map Prod.fst).Nodup

namespace PageTableObservations

def new : PageTableObservations := ⟨[], List.nodup_nil⟩

def clear (_ : PageTableObservations) : PageTableObservations := new

/-- Merge one access into the map. -/
def mergeOne (obs : PageTableObservations) (access : PageAccess) : PageTableObservations :=
  ⟨mergeEntry access obs.state, nodup_mergeEntry access obs.nodupKeys⟩

/-- `update`: merge every access, in order. -/
def update (obs : PageTableObservations) (pages : List PageAccess) : PageTableObservations :=
  pages.foldl mergeOne obs

/-- `iter`: the values of the map. -/
def iter (obs : PageTableObservations) : List PageAccess := obs.state.map Prod.snd

/-- The value the map binds to `page`. -/
def get (obs : PageTableObservations) (page : Nat) : Option PageAccess :=
  lookupEntry page obs.state

@[simp] theorem update_nil (obs : PageTableObservations) : obs.update [] = obs := rfl

theorem update_append (obs : PageTableObservations) (xs ys : List PageAccess) :
    obs.update (xs ++ ys) = (obs.update xs).update ys := List.foldl_append _ _ _ _

theorem mem_iter_iff {obs : PageTableObservations} {entry : PageAccess} :
    entry ∈ obs.iter ↔ ∃ page, obs.get page = some entry := by
  simp only [iter, get, lookupEntry_eq_some_iff obs.nodupKeys, List.mem_map]
  exact ⟨fun ⟨⟨page, e⟩, member, same⟩ => ⟨page, same ▸ member⟩,
    fun ⟨page, member⟩ => ⟨_, member, rfl⟩⟩

end PageTableObservations

/-! ## The meaning of the map -/

/-- What the map should bind to `page` after the accesses `accesses`: nothing
when none of them is to `page`, and otherwise `page` with each permission the
OR of that permission over the accesses to `page`. -/
def summary (accesses : List PageAccess) (page : Nat) : Option PageAccess :=
  if accesses.any (·.page = page) then
    some ⟨accesses.any (fun a => a.page = page && a.read),
      accesses.any (fun a => a.page = page && a.write),
      accesses.any (fun a => a.page = page && a.execute), page⟩
  else none

theorem summary_append_single (accesses : List PageAccess) (access : PageAccess) (page : Nat) :
    summary (accesses ++ [access]) page =
      if access.page = page then
        some ((summary accesses page).elim access (fun entry => entry.union access))
      else summary accesses page := by
  by_cases same : access.page = page
  · subst same
    have hit : (accesses ++ [access]).any (·.page = access.page) = true := by simp
    rw [summary, if_pos hit, if_pos rfl, summary]
    cases seen : accesses.any (·.page = access.page)
    · have silent : ∀ f : PageAccess → Bool,
          accesses.any (fun a => a.page = access.page && f a) = false := fun f => by
        simp only [List.any_eq_false, decide_eq_true_eq] at seen ⊢
        intro a member found
        simp only [Bool.and_eq_true, decide_eq_true_eq] at found
        exact seen a member found.1
      simp [List.any_append, silent]
    · simp [List.any_append, PageAccess.union]
  · simp [summary, same]

/-- The summary reads its accesses as a set. -/
theorem summary_congr {xs ys : List PageAccess} (sameMembers : ∀ a, a ∈ xs ↔ a ∈ ys) :
    summary xs = summary ys := by
  have any_eq : ∀ f : PageAccess → Bool, xs.any f = ys.any f := fun f =>
    Bool.eq_iff_iff.mpr (by
      simp only [List.any_eq_true]
      exact ⟨fun ⟨a, member, found⟩ => ⟨a, (sameMembers a).mp member, found⟩,
        fun ⟨a, member, found⟩ => ⟨a, (sameMembers a).mpr member, found⟩⟩)
  funext page
  simp only [summary, any_eq]

namespace PageTableObservations

/-- The map binds every page as `summary accesses` says. -/
def Denotes (obs : PageTableObservations) (accesses : List PageAccess) : Prop :=
  ∀ page, obs.get page = summary accesses page

theorem denotes_new : new.Denotes [] := fun _ => rfl

theorem Denotes.mergeOne {obs : PageTableObservations} {accesses : List PageAccess}
    (denotes : obs.Denotes accesses) (access : PageAccess) :
    (obs.mergeOne access).Denotes (accesses ++ [access]) := fun page => by
  simp only [PageTableObservations.mergeOne, get, lookupEntry_mergeEntry, summary_append_single]
  rw [← get, denotes page]

theorem Denotes.update {obs : PageTableObservations} {accesses : List PageAccess}
    (denotes : obs.Denotes accesses) (pages : List PageAccess) :
    (obs.update pages).Denotes (accesses ++ pages) := by
  induction pages generalizing obs accesses with
  | nil => simpa using denotes
  | cons access rest ih =>
    simpa [PageTableObservations.update] using ih (denotes.mergeOne access)

/-- The pages the map holds with the read bit set are the pages read by its
accesses. -/
theorem Denotes.read_iter_iff {obs : PageTableObservations} {accesses : List PageAccess}
    (denotes : obs.Denotes accesses) (page : Nat) :
    (∃ entry ∈ obs.iter, entry.page = page ∧ entry.read = true) ↔
      ∃ a ∈ accesses, a.page = page ∧ a.read = true := by
  constructor
  · rintro ⟨entry, member, rfl, read⟩
    obtain ⟨key, bound⟩ := mem_iter_iff.mp member
    rw [denotes key, summary] at bound
    split at bound
    · cases bound
      obtain ⟨a, member, found⟩ := List.any_eq_true.mp read
      simp only [Bool.and_eq_true, decide_eq_true_eq] at found
      exact ⟨a, member, found⟩
    · cases bound
  · rintro ⟨a, member, rfl, read⟩
    have touched : accesses.any (·.page = a.page) = true :=
      List.any_eq_true.mpr ⟨a, member, by simp⟩
    refine ⟨⟨accesses.any (fun x => x.page = a.page && x.read),
      accesses.any (fun x => x.page = a.page && x.write),
      accesses.any (fun x => x.page = a.page && x.execute), a.page⟩,
      mem_iter_iff.mpr ⟨a.page, by rw [denotes, summary, if_pos touched]⟩, rfl, ?_⟩
    exact List.any_eq_true.mpr ⟨a, member, by simp [read]⟩

end PageTableObservations

/-! ## Runs of updates and clears -/

/-- The two operations the profiler issues on the map. -/
inductive ObservationOp
  | update (pages : List PageAccess)
  | clear

namespace ObservationOp

def apply (obs : PageTableObservations) : ObservationOp → PageTableObservations
  | update pages => obs.update pages
  | clear => obs.clear

/-- The accesses passed in since the last clear, in order. -/
def collect (accesses : List PageAccess) : ObservationOp → List PageAccess
  | update pages => accesses ++ pages
  | clear => []

/-- The map after a run of operations from an empty one. -/
def run (ops : List ObservationOp) : PageTableObservations :=
  ops.foldl apply PageTableObservations.new

/-- The accesses passed in by a run since its last clear. -/
def sinceClear (ops : List ObservationOp) : List PageAccess := ops.foldl collect []

theorem denotes_foldl (ops : List ObservationOp) {obs : PageTableObservations}
    {accesses : List PageAccess} (denotes : obs.Denotes accesses) :
    (ops.foldl apply obs).Denotes (ops.foldl collect accesses) := by
  induction ops generalizing obs accesses with
  | nil => exact denotes
  | cons op rest ih =>
    cases op with
    | update pages => exact ih (denotes.update pages)
    | clear => exact ih PageTableObservations.denotes_new

theorem denotes_run (ops : List ObservationOp) : (run ops).Denotes (sinceClear ops) :=
  denotes_foldl ops PageTableObservations.denotes_new

end ObservationOp

open ObservationOp in
/-- After any run of updates and clears a page is bound exactly when an access
to it was passed in since the last clear, the bound value is on that page and
carries the OR of those accesses' bits, and further updates are insensitive
to the order and repetition of their accesses and commute with each other. -/
theorem observations_get_run (ops : List ObservationOp) (page : Nat) :
    (((run ops).get page).isSome ↔ ∃ a ∈ sinceClear ops, a.page = page) ∧
    (∀ entry, (run ops).get page = some entry →
      entry.page = page ∧
      entry.read = (sinceClear ops).any (fun a => a.page = page && a.read) ∧
      entry.write = (sinceClear ops).any (fun a => a.page = page && a.write) ∧
      entry.execute = (sinceClear ops).any (fun a => a.page = page && a.execute)) ∧
    (∀ xs ys : List PageAccess, (∀ a, a ∈ xs ↔ a ∈ ys) →
      ((run ops).update xs).get = ((run ops).update ys).get) ∧
    (∀ xs ys : List PageAccess,
      (((run ops).update xs).update ys).get = (((run ops).update ys).update xs).get) := by
  have denotes := denotes_run ops
  refine ⟨?_, ?_, fun xs ys sameMembers => ?_, fun xs ys => ?_⟩
  · rw [denotes page, summary]
    split <;> simp_all
  · intro entry bound
    rw [denotes page, summary] at bound
    split at bound <;> simp only [Option.some.injEq, reduceCtorEq] at bound
    subst bound
    exact ⟨rfl, rfl, rfl, rfl⟩
  · funext p
    rw [denotes.update xs p, denotes.update ys p,
      @summary_congr (sinceClear ops ++ xs) (sinceClear ops ++ ys)
        (by simp [sameMembers])]
  · rw [← PageTableObservations.update_append, ← PageTableObservations.update_append]
    funext p
    rw [denotes.update _ p, denotes.update _ p,
      @summary_congr (sinceClear ops ++ (xs ++ ys)) (sinceClear ops ++ (ys ++ xs))
        (by simp [or_comm, or_left_comm])]

end Profiler
end TLBlur
