import Mathlib.Logic.Function.Basic

/-!
# Mutexes

A recursive mutex, and what it says about the threads that are inside the sections it is
for: where each section is entered by a lock and left by an unlock, one thread is inside at
most.
-/

namespace Threads

/-- A recursive mutex: the thread that holds it, with how often it has locked it again. -/
abbrev Mutex (ι : Type) := Option (ι × Nat)

namespace Mutex

variable {ι : Type} [DecidableEq ι]

/-- The mutex when a thread has locked it, which has to wait while another thread holds it. -/
def lock (thread : ι) : Mutex ι → Option (Mutex ι)
  | none => some (some (thread, 0))
  | some (holder, again) => if holder = thread then some (some (holder, again + 1)) else none

def unlock (thread : ι) : Mutex ι → Mutex ι
  | none => none
  | some (holder, again) =>
      if holder = thread then
        match again with
        | 0 => none
        | again + 1 => some (holder, again)
      else some (holder, again)

omit [DecidableEq ι] in
/-- The holder of the mutex is inside, and nobody else. -/
def Guarded (inside : ι → Prop) : Mutex ι → Prop
  | none => ∀ thread, ¬ inside thread
  | some (holder, again) => again = 0 ∧ ∀ thread, inside thread ↔ thread = holder

variable {mutex after : Mutex ι} {inside later : ι → Prop} {thread other : ι}

omit [DecidableEq ι] in
/-- Two threads that are inside are one. -/
theorem Guarded.unique (guarded : mutex.Guarded inside) (first : inside thread)
    (second : inside other) : thread = other := by
  match mutex, guarded with
  | none, free => exact absurd first (free thread)
  | some (holder, again), ⟨_, only⟩ =>
      exact ((only thread).mp first).trans ((only other).mp second).symm

omit [DecidableEq ι] in

/-- A thread inside holds the mutex. -/
theorem Guarded.held (guarded : mutex.Guarded inside) (entered : inside thread) :
    mutex ≠ none := by
  rintro rfl
  exact guarded thread entered

omit [DecidableEq ι] in

/-- The same threads, said in other words. -/
theorem Guarded.same (guarded : mutex.Guarded inside)
    (same : ∀ thread, later thread ↔ inside thread) : mutex.Guarded later := by
  match mutex, guarded with
  | none, free => exact fun thread entered => free thread ((same thread).mp entered)
  | some (holder, again), ⟨once, only⟩ => exact ⟨once, fun thread => (same thread).trans (only thread)⟩

/-- A thread that is outside can lock the mutex only when it is free. -/
theorem Guarded.free_of_lock (guarded : mutex.Guarded inside) (outside : ¬ inside thread)
    (locked : mutex.lock thread = some after) : mutex = none ∧ after = some (thread, 0) := by
  match mutex, guarded, locked with
  | none, _, locked => exact ⟨rfl, (Option.some.inj locked).symm⟩
  | some (holder, again), ⟨_, only⟩, locked =>
      rw [Mutex.lock] at locked
      split at locked
      next own => exact absurd ((only thread).mpr own.symm) outside
      · exact absurd locked nofun

/-- A thread that gets the lock is the only one inside. -/
theorem Guarded.lock (guarded : mutex.Guarded inside) (outside : ¬ inside thread)
    (locked : mutex.lock thread = some after)
    (enters : ∀ other, later other ↔ inside other ∨ other = thread) : after.Guarded later := by
  obtain ⟨rfl, rfl⟩ := guarded.free_of_lock outside locked
  exact ⟨rfl, fun other => (enters other).trans (or_iff_right (guarded other))⟩

/-- The thread that unlocks has been the only one. -/
theorem Guarded.unlock (guarded : mutex.Guarded inside) (entered : inside thread)
    (leaves : ∀ other, later other ↔ inside other ∧ other ≠ thread) :
    (mutex.unlock thread).Guarded later := by
  match mutex, guarded with
  | none, free => exact absurd entered (free thread)
  | some (holder, again), ⟨once, only⟩ =>
      have own : holder = thread := ((only thread).mp entered).symm
      subst once own
      rw [Mutex.unlock, if_pos rfl]
      exact fun other still => ((leaves other).mp still).2 ((only other).mp ((leaves other).mp still).1)

end Mutex

end Threads
