import Mathlib.Data.List.Nodup
import Mathlib.Logic.Function.Basic

/-!
# Rings of links

A circular doubly linked list that is threaded through its elements, with a head that is
no element. An operation is a list of assignments to links, so that other threads can be
let in between two of them; run one after another they act on the list of the elements.
-/

namespace Linked

variable {α : Type}

/-- The two links of each address. -/
structure Links (α : Type) where
  next : α → α
  prev : α → α

/-- A link that is assigned to. The last two follow another link to it. -/
inductive Place (α : Type) where
  | next (address : α)
  | prev (address : α)
  | prevNext (address : α)
  | nextPrev (address : α)
  deriving DecidableEq

/-- What is assigned. -/
inductive Value (α : Type) where
  | address (address : α)
  | next (address : α)
  | prev (address : α)
  deriving DecidableEq

/-- One assignment to a link. -/
structure Assign (α : Type) where
  place : Place α
  value : Value α
  deriving DecidableEq

/-- An address that links to itself. -/
def init (item : α) : List (Assign α) :=
  [⟨.next item, .address item⟩, ⟨.prev item, .address item⟩]

/-- An item is linked before the head. -/
def insertTail (head item : α) : List (Assign α) :=
  [⟨.next item, .address head⟩, ⟨.prev item, .prev head⟩, ⟨.prevNext item, .address item⟩,
    ⟨.prev head, .address item⟩]

/-- The neighbours of an item are linked to each other. -/
def remove (item : α) : List (Assign α) :=
  [⟨.prevNext item, .next item⟩, ⟨.nextPrev item, .prev item⟩]

namespace Links

def value (links : Links α) : Value α → α
  | .address address => address
  | .next address => links.next address
  | .prev address => links.prev address

/-- From one address through some others to a last one. -/
def Path (links : Links α) : α → List α → α → Prop
  | first, [], last => links.next first = last ∧ links.prev last = first
  | first, item :: items, last =>
      links.next first = item ∧ links.prev item = first ∧ links.Path item items last

/-- The links go round, from the head through the items and back. -/
structure Ring (links : Links α) (head : α) (items : List α) : Prop where
  path : links.Path head items head
  nodup : (head :: items).Nodup

variable {links other : Links α} {first last head item : α} {items before after : List α}

/-- A path ends at an element of it, or where it begins. -/
theorem Path.prev_mem (path : links.Path first items last) : links.prev last ∈ first :: items := by
  induction items generalizing first with
  | nil => exact List.mem_singleton.mpr path.2
  | cons item items ih => exact List.mem_cons_of_mem _ (ih path.2.2)

/-- A path goes on to its first element, or to its end. -/
theorem Path.next_eq (path : links.Path first items last) :
    links.next first = items.head?.getD last := by
  cases items with
  | nil => exact path.1
  | cons item items => exact path.1

/-- A path is not touched by what happens elsewhere. -/
theorem Path.congr (next : ∀ address ∈ first :: items, other.next address = links.next address)
    (prev : ∀ address ∈ items ++ [last], other.prev address = links.prev address)
    (path : links.Path first items last) : other.Path first items last := by
  induction items generalizing first with
  | nil =>
      exact ⟨(next first List.mem_cons_self).trans path.1,
        (prev last List.mem_cons_self).trans path.2⟩
  | cons item items ih =>
      refine ⟨(next first List.mem_cons_self).trans path.1,
        (prev item List.mem_cons_self).trans path.2.1, ih (fun address member => ?_)
          (fun address member => ?_) path.2.2⟩
      · exact next address (List.mem_cons_of_mem _ member)
      · exact prev address (List.mem_cons_of_mem _ member)

/-- A path through an element is a path to it and one from it. -/
theorem path_append : links.Path first (before ++ item :: after) last ↔
    links.Path first before item ∧ links.Path item after last := by
  induction before generalizing first with
  | nil => exact and_assoc.symm
  | cons head before ih =>
      rw [List.cons_append, Path, ih, Path, and_assoc, and_assoc]

namespace Ring

/-- The head of a ring is followed by its first element. -/
theorem next_head (ring : links.Ring head items) : links.next head = items.head?.getD head :=
  ring.path.next_eq

/-- Behind an item comes the next, and behind the last the head. -/
theorem next_item (ring : links.Ring head (before ++ item :: after)) :
    links.next item = after.head?.getD head :=
  (path_append.mp ring.path).2.next_eq

/-- A ring depends on the links of its own addresses only. -/
theorem congr (ring : links.Ring head items)
    (next : ∀ address ∈ head :: items, other.next address = links.next address)
    (prev : ∀ address ∈ head :: items, other.prev address = links.prev address) :
    other.Ring head items where
  path := ring.path.congr next fun address member => prev address (by
    rcases List.mem_append.mp member with member | member
    · exact List.mem_cons_of_mem _ member
    · exact List.mem_singleton.mp member ▸ List.mem_cons_self)
  nodup := ring.nodup

end Ring

section Operations

variable [DecidableEq α]

def setNext (links : Links α) (address value : α) : Links α :=
  { links with next := Function.update links.next address value }

def setPrev (links : Links α) (address value : α) : Links α :=
  { links with prev := Function.update links.prev address value }

def exec (links : Links α) (assign : Assign α) : Links α :=
  match assign.place with
  | .next address => links.setNext address (links.value assign.value)
  | .prev address => links.setPrev address (links.value assign.value)
  | .prevNext address => links.setNext (links.prev address) (links.value assign.value)
  | .nextPrev address => links.setPrev (links.next address) (links.value assign.value)

/-- Assignments one after another. -/
def run (links : Links α) (assigns : List (Assign α)) : Links α := assigns.foldl exec links

/-- Two operations are one longer operation. -/
theorem run_append (links : Links α) (first second : List (Assign α)) :
    links.run (first ++ second) = (links.run first).run second :=
  List.foldl_append

theorem next_init (item address : α) :
    (links.run (init item)).next address = if address = item then item else links.next address :=
  Function.update_apply ..

theorem prev_init (item address : α) :
    (links.run (init item)).prev address = if address = item then item else links.prev address :=
  Function.update_apply ..

/-- The head alone. -/
theorem ring_init (head : α) : (links.run (init head)).Ring head [] where
  path := ⟨(next_init head head).trans (if_pos rfl), (prev_init head head).trans (if_pos rfl)⟩
  nodup := List.nodup_singleton head

/-- Another address links to itself. -/
theorem Ring.init (ring : links.Ring head items) (absent : item ∉ head :: items) :
    (links.run (Linked.init item)).Ring head items :=
  ring.congr
    (fun address member => (next_init item address).trans
      (if_neg (ne_of_mem_of_not_mem member absent)))
    (fun address member => (prev_init item address).trans
      (if_neg (ne_of_mem_of_not_mem member absent)))

/-- Inserting at the tail changes two successors. -/
theorem next_insertTail (head item address : α) :
    (links.run (insertTail head item)).next address =
      if address = links.prev head then item else if address = item then head
        else links.next address := by
  have linked : (links.run (insertTail head item)).next =
      Function.update (Function.update links.next item head)
        (Function.update links.prev item (links.prev head) item) item := rfl
  rw [linked, Function.update_self, Function.update_apply, Function.update_apply]

theorem prev_insertTail (address : α) :
    (links.run (insertTail head item)).prev address =
      if address = head then item else if address = item then links.prev head
        else links.prev address := by
  have linked : (links.run (insertTail head item)).prev =
      Function.update (Function.update links.prev item (links.prev head)) head item := rfl
  rw [linked, Function.update_apply, Function.update_apply]

/-- A path to the head is led through the new item at its end. -/
theorem Path.insertTail (path : links.Path first items head) (distinct : (first :: items).Nodup)
    (ends : head ∉ items) (absent : item ∉ first :: items) (different : item ≠ head) :
    (links.run (Linked.insertTail head item)).Path first (items ++ [item]) head := by
  induction items generalizing first with
  | nil =>
      have fresh : item ≠ first := fun same => absent (same ▸ List.mem_cons_self)
      refine ⟨?_, ?_, ?_, ?_⟩
      · rw [next_insertTail, if_pos path.2.symm]
      · rw [prev_insertTail, if_neg different, if_pos rfl, path.2]
      · rw [next_insertTail, path.2, if_neg fresh, if_pos rfl]
      · rw [prev_insertTail, if_pos rfl]
  | cons second items ih =>
      obtain ⟨next, prev, rest⟩ := path
      have later := ih rest (List.nodup_cons.mp distinct).2
        (fun member => ends (List.mem_cons_of_mem _ member))
        (fun member => absent (List.mem_cons_of_mem _ member))
      refine ⟨?_, ?_, later⟩
      · rw [next_insertTail, if_neg, if_neg, next]
        · exact fun same => absent (same ▸ List.mem_cons_self)
        · exact fun same => (List.nodup_cons.mp distinct).1 (same ▸ rest.prev_mem)
      · rw [prev_insertTail, if_neg, if_neg, prev]
        · exact fun same => absent (same ▸ List.mem_cons_of_mem _ List.mem_cons_self)
        · exact fun same => ends (same ▸ List.mem_cons_self)

/-- A new element goes behind the others. -/
theorem Ring.insertTail (ring : links.Ring head items) (absent : item ∉ head :: items) :
    (links.run (Linked.insertTail head item)).Ring head (items ++ [item]) where
  path := ring.path.insertTail ring.nodup (List.nodup_cons.mp ring.nodup).1 absent
    fun same => absent (same ▸ List.mem_cons_self)
  nodup := by
    rw [← List.cons_append]
    exact ring.nodup.append (List.nodup_singleton item) fun address member same =>
      absent (List.mem_singleton.mp same ▸ member)

/-- Removing an element changes the successor of the one in front. -/
theorem next_remove (item address : α) :
    (links.run (remove item)).next address =
      if address = links.prev item then links.next item else links.next address :=
  Function.update_apply ..

/-- It changes the predecessor of the one behind. -/
theorem prev_remove (different : links.prev item ≠ item) (address : α) :
    (links.run (remove item)).prev address =
      if address = links.next item then links.prev item else links.prev address := by
  have linked : (links.run (remove item)).prev = Function.update links.prev
      (Function.update links.next (links.prev item) (links.next item) item) (links.prev item) := rfl
  rw [linked, Function.update_of_ne different.symm, Function.update_apply]

/-- A path through an item is led past it. -/
theorem Path.remove (left : links.Path first before item) (right : links.Path item after last)
    (distinct : (first :: before ++ item :: after).Nodup) (ends : last ∉ before ++ item :: after) :
    (links.run (Linked.remove item)).Path first (before ++ after) last := by
  have before_item := left.prev_mem
  have different : links.prev item ≠ item := fun same =>
    (List.nodup_append.mp distinct).2.2 _ (same ▸ before_item) _ List.mem_cons_self rfl
  induction before generalizing first with
  | nil =>
      obtain ⟨next, prev⟩ := left
      cases after with
      | nil =>
          refine ⟨?_, ?_⟩
          · rw [next_remove, if_pos prev.symm, right.1]
          · rw [prev_remove different, if_pos right.1.symm, prev]
      | cons second after =>
          obtain ⟨follows, precedes, rest⟩ := right
          refine ⟨?_, ?_, rest.congr (fun address member => ?_) (fun address member => ?_)⟩
          · rw [next_remove, if_pos prev.symm, follows]
          · rw [prev_remove different, if_pos follows.symm, prev]
          · rw [next_remove, if_neg]
            intro same
            refine (List.nodup_cons.mp distinct).1 (List.mem_cons_of_mem _ ?_)
            rw [← prev, ← same]
            exact member
          · rw [prev_remove different, if_neg]
            intro same
            rw [follows] at same
            subst same
            have fresh := (List.nodup_cons.mp distinct).2
            rcases List.mem_append.mp member with member | member
            · exact (List.nodup_cons.mp (List.nodup_cons.mp fresh).2).1 member
            · exact ends (List.mem_singleton.mp member ▸
                List.mem_cons_of_mem _ List.mem_cons_self)
  | cons second before ih =>
      obtain ⟨next, prev, rest⟩ := left
      have later := ih rest (List.nodup_cons.mp distinct).2
        (fun member => ends (List.mem_cons_of_mem _ member)) rest.prev_mem
      refine ⟨?_, ?_, later⟩
      · rw [next_remove, if_neg, next]
        intro same
        refine (List.nodup_cons.mp distinct).1 (List.mem_append_left _ ?_)
        exact same ▸ rest.prev_mem
      · rw [prev_remove different, if_neg, prev]
        intro same
        rw [right.next_eq] at same
        have fresh := (List.nodup_cons.mp distinct).2
        cases after with
        | nil => exact ends (same ▸ List.mem_cons_self)
        | cons third after =>
            refine (List.nodup_cons.mp fresh).1 (List.mem_append_right _ ?_)
            exact List.mem_cons_of_mem _ (same ▸ List.mem_cons_self)

/-- The other elements stay in their order. -/
theorem Ring.remove (ring : links.Ring head (before ++ item :: after)) :
    (links.run (Linked.remove item)).Ring head (before ++ after) where
  path := by
    obtain ⟨left, right⟩ := path_append.mp ring.path
    exact left.remove right ring.nodup (List.nodup_cons.mp ring.nodup).1
  nodup := by
    refine ring.nodup.sublist (List.Sublist.cons_cons _ ?_)
    exact (List.Sublist.refl before).append (List.sublist_cons_self item after)

end Operations

end Links

end Linked
