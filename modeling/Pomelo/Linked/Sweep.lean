import Pomelo.Linked.Ring

/-!
# Sweeping a ring

A ring is emptied from its head, one item in each pass. An item either moves to the end of a
second ring, or it is dropped, and then other items can be linked to the end of the first. At
the end the second ring is spliced behind what is left of the first.
-/

namespace Linked

variable {α β : Type}

/-- The items of one ring are linked behind those of another. -/
def add (head other : α) : List (Assign α) :=
  [⟨.prevNext head, .next other⟩, ⟨.nextPrev other, .prev head⟩, ⟨.prev head, .prev other⟩,
    ⟨.prevNext head, .address head⟩]

/-- What becomes of the item of a pass. -/
inductive Pass (α : Type) where
  | keep (item : α)
  /-- The item is dropped, and others are linked meanwhile. -/
  | drop (item : α) (new : List α)
  deriving DecidableEq

namespace Pass

def map (act : α → β) : Pass α → Pass β
  | keep item => keep (act item)
  | drop item new => drop (act item) (new.map act)

def kept : Pass α → List α
  | keep item => [item]
  | drop .. => []

def dropped : Pass α → List α
  | keep _ => []
  | drop item _ => [item]

def new : Pass α → List α
  | keep _ => []
  | drop _ new => new

/-- Passes take the items of a ring in their order, and those that are linked meanwhile
behind them. -/
inductive Empties : List (Pass α) → List α → Prop where
  | nil : Empties [] []
  | keep {item : α} {rest : List α} {passes : List (Pass α)} (later : Empties passes rest) :
      Empties (.keep item :: passes) (item :: rest)
  | drop {item : α} {rest new : List α} {passes : List (Pass α)}
      (later : Empties passes (rest ++ new)) : Empties (.drop item new :: passes) (item :: rest)

/-- What is linked is not linked yet. -/
def Fresh (head other : α) : List (Pass α) → (items kept : List α) → Prop
  | [], _, _ => True
  | keep item :: passes, items, kept => Fresh head other passes items.tail (kept ++ [item])
  | drop _ new :: passes, items, kept =>
      (head :: items.tail ++ new ++ other :: kept).Nodup ∧
        Fresh head other passes (items.tail ++ new) kept

/-- What is done to every element leaves the shape of the sweep. -/
theorem Empties.map (act : α → β) {passes : List (Pass α)} {items : List α}
    (empties : Empties passes items) : Empties (passes.map (Pass.map act)) (items.map act) := by
  induction empties with
  | nil => exact .nil
  | keep later ih => exact .keep ih
  | drop later ih => exact .drop (List.map_append ▸ ih)

theorem flatMap_kept_map (act : α → β) (passes : List (Pass α)) :
    (passes.map (Pass.map act)).flatMap Pass.kept = (passes.flatMap Pass.kept).map act := by
  induction passes with
  | nil => rfl
  | cons pass passes ih =>
      rw [List.map_cons, List.flatMap_cons, List.flatMap_cons, List.map_append, ih]
      cases pass <;> rfl

/-- The assignments of a pass. -/
def assigns (head other : α) : Pass α → List (Assign α)
  | keep item => remove item ++ init item ++ insertTail other item
  | drop item new =>
      remove item ++ init item ++ new.flatMap fun item => init item ++ insertTail head item

end Pass

namespace Links

variable {links other : Links α} {first last head spare item target : α}
  {items rest kept : List α}

/-- The end of a path is led to another address. -/
theorem Path.redirect (path : links.Path first items last) (nodup : (first :: items).Nodup)
    (next : ∀ address ∈ first :: items, address ≠ links.prev last →
      other.next address = links.next address)
    (prev : ∀ address ∈ items, other.prev address = links.prev address)
    (ends : other.next (links.prev last) = target) (back : other.prev target = links.prev last) :
    other.Path first items target := by
  induction items generalizing first with
  | nil =>
      obtain ⟨-, before⟩ := path
      exact ⟨before ▸ ends, back.trans before⟩
  | cons item items ih =>
      obtain ⟨follows, precedes, later⟩ := path
      have apart : first ≠ links.prev last := fun same =>
        (List.nodup_cons.mp nodup).1 (same ▸ later.prev_mem)
      refine ⟨(next first List.mem_cons_self apart).trans follows,
        (prev item List.mem_cons_self).trans precedes, ?_⟩
      exact ih later (List.nodup_cons.mp nodup).2
        (fun address member => next address (List.mem_cons_of_mem _ member))
        fun address member => prev address (List.mem_cons_of_mem _ member)

/-- Behind the last item comes what the path leads to. -/
theorem Path.next_prev (path : links.Path first items last) :
    links.next (links.prev last) = last := by
  induction items generalizing first with
  | nil =>
      obtain ⟨follows, precedes⟩ := path
      rw [precedes, follows]
  | cons item items ih => exact ih path.2.2

variable [DecidableEq α]

/-- The links when one ring has been spliced behind another. -/
theorem run_add (apart : links.prev head ≠ spare) :
    links.run (add head spare) =
      { next := Function.update (Function.update links.next (links.prev head) (links.next spare))
          (Function.update links.prev (links.next spare) (links.prev head) spare) head
        prev := Function.update
          (Function.update links.prev (links.next spare) (links.prev head)) head
          (Function.update links.prev (links.next spare) (links.prev head) spare) } := by
  have kept : (Function.update links.next (links.prev head) (links.next spare)) spare =
      links.next spare := Function.update_of_ne apart.symm ..
  simp only [run, add, List.foldl_cons, List.foldl_nil, exec, value, setNext, setPrev, kept,
    Function.update_self]

/-- The items of another ring come behind those of the first, whether it has any or not. -/
theorem Ring.add (ring : links.Ring head items) (other : links.Ring spare kept)
    (apart : (head :: items ++ spare :: kept).Nodup) :
    (links.run (Linked.add head spare)).Ring head (items ++ kept) := by
  obtain ⟨-, -, disjoint⟩ := List.nodup_append.mp apart
  have ends : links.prev head ∈ head :: items := ring.path.prev_mem
  have outside : links.prev head ≠ spare := disjoint _ ends _ List.mem_cons_self
  rw [run_add outside]
  cases kept with
  | nil =>
      obtain ⟨next, prev⟩ := other.path
      rw [next, Function.update_self, List.append_nil]
      refine ring.congr (fun address member => ?_) fun address member => ?_
      · dsimp only
        by_cases last : address = links.prev head
        · rw [last, Function.update_self, ring.path.next_prev]
        · rw [Function.update_of_ne last, Function.update_of_ne last]
      · dsimp only
        have ne : address ≠ spare := disjoint _ member _ List.mem_cons_self
        by_cases first : address = head
        · rw [first, Function.update_self]
        · rw [Function.update_of_ne first, Function.update_of_ne ne]
  | cons item kept =>
      obtain ⟨next, -, path⟩ := other.path
      have distinct := other.nodup
      have ne : spare ≠ item := fun same =>
        (List.nodup_cons.mp distinct).1 (same ▸ List.mem_cons_self)
      have last : links.prev spare ∈ item :: kept := path.prev_mem
      have far {address : α} (left : address ∈ head :: items) {behind : α}
          (right : behind ∈ item :: kept) : address ≠ behind :=
        disjoint _ left _ (List.mem_cons_of_mem _ right)
      rw [next, Function.update_of_ne ne]
      refine ⟨path_append.mpr ⟨ring.path.redirect ring.nodup ?_ ?_ ?_ ?_,
        path.redirect (List.nodup_cons.mp distinct).2 ?_ ?_ ?_ ?_⟩, ?_⟩
      · intro address member apart
        exact (Function.update_of_ne (far member last) ..).trans (Function.update_of_ne apart ..)
      · intro address member
        have behind : address ≠ head := fun same =>
          (List.nodup_cons.mp ring.nodup).1 (same ▸ member)
        have before := far (List.mem_cons_of_mem _ member) (List.mem_cons_self (l := kept))
        exact (Function.update_of_ne behind ..).trans (Function.update_of_ne before ..)
      · exact (Function.update_of_ne (far ends last) ..).trans (Function.update_self ..)
      · have behind := far (List.mem_cons_self (a := head)) (List.mem_cons_self (l := kept))
        exact (Function.update_of_ne behind.symm ..).trans (Function.update_self ..)
      · intro address member apart
        exact (Function.update_of_ne apart ..).trans
          (Function.update_of_ne (far ends member).symm ..)
      · intro address member
        have behind := far (List.mem_cons_self (a := head)) (List.mem_cons_of_mem item member)
        have before : address ≠ item := fun same =>
          (List.nodup_cons.mp (List.nodup_cons.mp distinct).2).1 (same ▸ member)
        exact (Function.update_of_ne behind.symm ..).trans (Function.update_of_ne before ..)
      · exact Function.update_self ..
      · exact Function.update_self ..
      · rw [← List.cons_append]
        exact apart.sublist ((List.Sublist.refl _).append (List.sublist_cons_self ..))

/-- The two rings of a sweep. -/
structure Sweeping (links : Links α) (head spare : α) (items kept : List α) : Prop where
  ring : links.Ring head items
  other : links.Ring spare kept
  apart : (head :: items ++ spare :: kept).Nodup

namespace Sweeping

omit [DecidableEq α] in

/-- The two lists of a sweep may exchange their names. -/
theorem swap (sweeping : links.Sweeping head spare items kept) :
    links.Sweeping spare head kept items :=
  ⟨sweeping.other, sweeping.ring, List.perm_append_comm.nodup_iff.mp sweeping.apart⟩

/-- Both rings are left alone. -/
theorem init (sweeping : links.Sweeping head spare items kept)
    (absent : item ∉ head :: items ++ spare :: kept) :
    (links.run (Linked.init item)).Sweeping head spare items kept where
  ring := sweeping.ring.init fun member => absent (List.mem_append_left _ member)
  other := sweeping.other.init fun member => absent (List.mem_append_right _ member)
  apart := sweeping.apart

/-- An item is linked to the end of one ring, and the other is left alone. -/
theorem insertTail (sweeping : links.Sweeping head spare items kept)
    (absent : item ∉ head :: items ++ spare :: kept) :
    (links.run (Linked.insertTail head item)).Sweeping head spare (items ++ [item]) kept := by
  obtain ⟨ring, other, apart⟩ := sweeping
  obtain ⟨-, -, disjoint⟩ := List.nodup_append.mp apart
  have ends : links.prev head ∈ head :: items := ring.path.prev_mem
  have ne {address : α} (member : address ∈ spare :: kept) : address ≠ item := fun same =>
    absent (same ▸ List.mem_append_right _ member)
  refine ⟨ring.insertTail fun member => absent (List.mem_append_left _ member),
    other.congr (fun address member => ?_) (fun address member => ?_), ?_⟩
  · rw [next_insertTail, if_neg (disjoint _ ends _ member).symm, if_neg (ne member)]
  · rw [prev_insertTail, if_neg (disjoint _ List.mem_cons_self _ member).symm, if_neg (ne member)]
  · have added := List.nodup_cons.mpr ⟨absent, apart⟩
    have moved : (item :: (head :: items ++ spare :: kept)).Perm
        (head :: items ++ [item] ++ spare :: kept) := by
      rw [List.append_assoc]
      exact List.perm_middle.symm
    exact moved.nodup_iff.mp added

/-- The first item is taken out of one ring, and the other is left alone. -/
theorem take (sweeping : links.Sweeping head spare (item :: items) kept) :
    (links.run (remove item ++ Linked.init item)).Sweeping head spare items kept ∧
      item ∉ head :: items ++ spare :: kept := by
  obtain ⟨ring, other, apart⟩ := sweeping
  obtain ⟨-, -, disjoint⟩ := List.nodup_append.mp apart
  have before : links.prev item = head := ring.path.2.1
  have after : links.next item ∈ head :: items := by
    rw [ring.path.2.2.next_eq]
    cases items with
    | nil => exact List.mem_cons_self
    | cons second items => exact List.mem_cons_of_mem _ List.mem_cons_self
  have follows : links.next item ∈ head :: item :: items := by
    rcases List.mem_cons.mp after with same | member
    · exact same ▸ List.mem_cons_self
    · exact List.mem_cons_of_mem _ (List.mem_cons_of_mem _ member)
  have different : links.prev item ≠ item := fun same =>
    (List.nodup_cons.mp ring.nodup).1 (before.symm.trans same ▸ List.mem_cons_self)
  have removed : (links.run (remove item)).Sweeping head spare items kept := by
    have left : (links.run (remove item)).Ring head ([] ++ items) := Ring.remove ring
    refine ⟨left, other.congr (fun address member => ?_) (fun address member => ?_), ?_⟩
    · rw [next_remove, before, if_neg (disjoint _ List.mem_cons_self _ member).symm]
    · rw [prev_remove different, if_neg (disjoint _ follows _ member).symm]
    · exact apart.sublist ((List.Sublist.cons_cons _ (List.sublist_cons_self ..)).append
        (List.Sublist.refl _))
  have absent : item ∉ head :: items ++ spare :: kept := by
    have moved : (item :: (head :: items ++ spare :: kept)).Nodup :=
      (List.Perm.nodup_iff (List.Perm.swap ..)).mp apart
    exact (List.nodup_cons.mp moved).1
  rw [run_append]
  exact ⟨removed.init absent, absent⟩

/-- Items that are linked while a pass drops another one. -/
theorem link (sweeping : links.Sweeping head spare items kept) {new : List α}
    (fresh : ((head :: items ++ new) ++ spare :: kept).Nodup) :
    (links.run (new.flatMap fun item => Linked.init item ++ Linked.insertTail head item)).Sweeping
      head spare (items ++ new) kept := by
  induction new generalizing links items with
  | nil => rwa [List.append_nil]
  | cons item new ih =>
      have absent : item ∉ head :: items ++ spare :: kept := by
        intro member
        rw [List.append_assoc] at fresh
        obtain ⟨-, right, disjoint⟩ := List.nodup_append.mp fresh
        rcases List.mem_append.mp member with left | behind
        · exact disjoint _ left _ List.mem_cons_self rfl
        · exact (List.nodup_cons.mp right).1 (List.mem_append_right _ behind)
      rw [List.flatMap_cons, run_append, run_append, List.append_cons]
      rw [List.append_cons (head :: items)] at fresh
      exact ih ((sweeping.init absent).insertTail absent) fresh

/-- The passes of a sweep, from the items of the first ring until it has none, leave in the
second what has been kept. -/
theorem passes {trace : List (Pass α)} (empties : Pass.Empties trace items)
    (sweeping : links.Sweeping head spare items kept)
    (fresh : Pass.Fresh head spare trace items kept) :
    (links.run (trace.flatMap (Pass.assigns head spare))).Sweeping head spare []
      (kept ++ trace.flatMap Pass.kept) := by
  induction empties generalizing links kept with
  | nil => rwa [List.flatMap_nil, List.flatMap_nil, List.append_nil]
  | @keep item rest trace later ih =>
      obtain ⟨taken, absent⟩ := sweeping.take
      have apart : item ∉ spare :: kept ++ head :: rest := fun member =>
        absent (List.perm_append_comm.mem_iff.mp member)
      have moved := (taken.swap.insertTail apart).swap
      rw [List.flatMap_cons, List.flatMap_cons, Pass.kept, ← List.append_assoc, run_append,
        Pass.assigns, run_append]
      exact ih moved fresh
  | @drop item rest new trace later ih =>
      obtain ⟨distinct, fresh⟩ := fresh
      rw [List.flatMap_cons, List.flatMap_cons, Pass.kept, List.nil_append, run_append,
        Pass.assigns, run_append]
      exact ih (sweeping.take.1.link distinct) fresh

end Sweeping

/-- A ring is swept: its items are looked at one by one, and what has been kept is spliced
back. -/
theorem Ring.sweep {trace : List (Pass α)} (ring : links.Ring head items)
    (apart : spare ∉ head :: items) (empties : Pass.Empties trace items)
    (fresh : Pass.Fresh head spare trace items []) :
    (links.run (Linked.init spare ++ trace.flatMap (Pass.assigns head spare) ++
      Linked.add head spare ++ Linked.init spare)).Ring head (trace.flatMap Pass.kept) := by
  have start : (links.run (Linked.init spare)).Sweeping head spare items [] := by
    refine ⟨ring.init apart, links.ring_init spare, ?_⟩
    refine List.nodup_append.mpr ⟨ring.nodup, List.nodup_singleton spare, ?_⟩
    exact fun address member _ same alike =>
      apart (List.mem_singleton.mp same ▸ alike ▸ member)
  have swept := start.passes empties fresh
  rw [run_append, run_append, run_append]
  refine (swept.ring.add swept.other swept.apart).init fun member => ?_
  have distinct := (List.Perm.nodup_iff (List.Perm.swap ..)).mp swept.apart
  exact (List.nodup_cons.mp distinct).1 member

end Links

end Linked
