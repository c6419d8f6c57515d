import Mathlib.Data.List.Nodup
import Mathlib.Data.List.ReduceOption

/-!
# Slots and their owners

A table of slots that are handed out and given back, each with a flag that says whether it is
taken. What does not find a free slot does without one. The owners are given as a list in any
order; an owner without a slot stands for one that was served from elsewhere.
-/

namespace Slots

variable {busy : List Bool} {owners other : List (Option Nat)}

/-- The first free slot. -/
def free (busy : List Bool) : Option Nat := busy.findIdx? fun flag => !flag

/-- The table with the flag of a slot set, if there is a slot. -/
def mark (slot : Option Nat) (flag : Bool) (busy : List Bool) : List Bool :=
  match slot with
  | some slot => busy.set slot flag
  | none => busy

/-- No two owners share a slot, and exactly the slots of owners are taken. -/
structure Owned (busy : List Bool) (owners : List (Option Nat)) : Prop where
  distinct : owners.reduceOption.Nodup
  exact (slot : Nat) : busy[slot]? = some true ↔ some slot ∈ owners

namespace Owned

/-- At first nobody owns a slot. -/
theorem init (count : Nat) : Owned (List.replicate count false) [] where
  distinct := List.nodup_nil
  exact slot := by
    refine iff_of_false ?_ List.not_mem_nil
    rw [List.getElem?_replicate]
    split <;> simp

/-- The order of the owners does not matter. -/
theorem perm (owned : Owned busy owners) (same : owners.Perm other) : Owned busy other where
  distinct := (same.filterMap id).nodup_iff.mp owned.distinct
  exact slot := (owned.exact slot).trans same.mem_iff

/-- A slot that is free has no owner. -/
theorem free_notMem (owned : Owned busy owners) {slot : Nat} (found : free busy = some slot) :
    some slot ∉ owners := by
  intro member
  obtain ⟨inside, isFree, -⟩ := List.findIdx?_eq_some_iff_getElem.mp found
  have taken := (owned.exact slot).mpr member
  rw [List.getElem?_eq_getElem inside, Option.some.injEq] at taken
  simp [taken] at isFree

/-- A new owner gets the first free slot. -/
theorem take (owned : Owned busy owners) :
    Owned (mark (free busy) true busy) (free busy :: owners) := by
  cases found : free busy with
  | none =>
      refine ⟨?_, fun slot => ?_⟩
      · rw [List.reduceOption_cons_of_none]
        exact owned.distinct
      · rw [mark, owned.exact slot]
        simp
  | some first =>
      have unowned := owned.free_notMem found
      obtain ⟨inside, -, -⟩ := List.findIdx?_eq_some_iff_getElem.mp found
      refine ⟨?_, fun slot => ?_⟩
      · rw [List.reduceOption_cons_of_some, List.nodup_cons, List.reduceOption_mem_iff]
        exact ⟨unowned, owned.distinct⟩
      · rw [mark, List.getElem?_set, List.mem_cons, Option.some.injEq]
        by_cases same : first = slot
        · simp [same, same ▸ inside]
        · simp [same, Ne.symm same, owned.exact slot]

/-- An owner gives its slot back. -/
theorem give {slot : Option Nat} (owned : Owned busy (slot :: owners)) :
    Owned (mark slot false busy) owners := by
  cases slot with
  | none =>
      refine ⟨?_, fun slot => ?_⟩
      · have distinct := owned.distinct
        rwa [List.reduceOption_cons_of_none] at distinct
      · rw [mark, owned.exact slot]
        simp
  | some given =>
      have distinct := owned.distinct
      rw [List.reduceOption_cons_of_some, List.nodup_cons, List.reduceOption_mem_iff] at distinct
      refine ⟨distinct.2, fun slot => ?_⟩
      rw [mark, List.getElem?_set]
      by_cases same : given = slot
      · subst same
        refine iff_of_false ?_ distinct.1
        rw [if_pos rfl]
        split <;> simp
      · rw [if_neg same, owned.exact slot, List.mem_cons, Option.some.injEq]
        simp [Ne.symm same]

end Owned

end Slots
