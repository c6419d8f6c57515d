import Pomelo.Linked.Ring
import Mathlib.Data.Finset.Lattice.Fold
import Mathlib.Data.List.TakeWhile
import Mathlib.Order.RelClasses
import Mathlib.Order.WellFounded
import Mathlib.Tactic.IntervalCases

/-!
# Handlers that edit their list

`pc__trans_fire_event` walks along `ev_handlers` and calls each handler, and a callback may
add and remove handlers while it does. `handler_mutex` is recursive and lets the callback
in, and keeps all other threads out, so what the one thread does is a sequence of steps.
-/

namespace Pomelo

open Linked

/-- A call of the user: `pc_client_add_ev_handler`, with a callback and a destructor or
without, or `pc_client_rm_ev_handler`. -/
inductive HandlerAct where
  | addEvHandler (cb destructor : Bool)
  | rmEvHandler (id : Int)
  deriving DecidableEq

/-- `ev_handlers` and the handlers that have been allocated, by their ids. The address
`none` is the head of the list. `registered` is a record of what has been linked and not
been taken out. -/
structure Handlers where
  links : Links (Option Nat)
  destructors : List Nat
  handlerId : Nat
  freed : List Nat
  registered : List Nat

namespace Handlers

/-- After `pc_client_init`. -/
def init : Handlers where
  links := (Links.mk id id).run (Linked.init none)
  destructors := []
  handlerId := 0
  freed := []
  registered := []

/-- `pc_client_add_ev_handler` -/
def add (cb destructor : Bool) (handlers : Handlers) : Handlers :=
  if cb then
    let id := handlers.handlerId
    { handlers with
      links := (handlers.links.run (Linked.init (some id))).run (insertTail none (some id))
      destructors := if destructor then id :: handlers.destructors else handlers.destructors
      handlerId := id + 1
      registered := handlers.registered ++ [id] }
  else handlers

/-- A handler is taken out of the list. -/
def unlink (id : Nat) (handlers : Handlers) : Handlers :=
  { handlers with
    links := (handlers.links.run (remove (some id))).run (Linked.init (some id))
    registered := handlers.registered.filter (· ≠ id) }

/-- `pc_lib_free` of a handler. -/
def free (id : Nat) (handlers : Handlers) : Handlers :=
  { handlers with freed := id :: handlers.freed }

/-- The links go round through the registered handlers, and none of them is freed. -/
structure Sound (handlers : Handlers) : Prop where
  ring : handlers.links.Ring none (handlers.registered.map some)
  live : ∀ id ∈ handlers.registered, id ∉ handlers.freed
  below : ∀ id ∈ handlers.registered ++ handlers.freed, id < handlers.handlerId

variable {handlers : Handlers} {id : Nat}

theorem sound_init : init.Sound where
  ring := Links.ring_init none
  live := fun _ member => absurd member List.not_mem_nil
  below := fun _ member => absurd member List.not_mem_nil

namespace Sound

/-- No handler is linked twice. -/
theorem nodup (sound : handlers.Sound) : handlers.registered.Nodup :=
  List.Nodup.of_map some (List.nodup_cons.mp sound.ring.nodup).2

/-- The next id belongs to no handler so far. -/
theorem fresh (sound : handlers.Sound) :
    handlers.handlerId ∉ handlers.registered ++ handlers.freed :=
  fun member => Nat.lt_irrefl _ (sound.below _ member)

/-- A new id has no link in the list. -/
theorem absent (absent : id ∉ handlers.registered) :
    some id ∉ none :: handlers.registered.map some := by
  simpa using absent

/-- A new handler goes behind the others. -/
theorem add (sound : handlers.Sound) (cb destructor : Bool) :
    (handlers.add cb destructor).Sound := by
  rw [Handlers.add]
  split
  · have fresh := sound.fresh
    have unlinked := absent fun member => fresh (List.mem_append_left _ member)
    have linked := (sound.ring.init unlinked).insertTail unlinked
    refine ⟨?_, fun other member => ?_, fun other member => ?_⟩
    · rw [List.map_append]
      exact linked
    · rcases List.mem_append.mp member with old | new
      · exact sound.live other old
      · rw [List.mem_singleton.mp new]
        exact fun freed => fresh (List.mem_append_right _ freed)
    · rw [List.append_assoc, List.mem_append, List.singleton_append, List.mem_cons] at member
      rcases member with old | rfl | freed
      · exact Nat.lt_succ_of_lt (sound.below other (List.mem_append_left _ old))
      · exact Nat.lt_succ_self _
      · exact Nat.lt_succ_of_lt (sound.below other (List.mem_append_right _ freed))
  · exact sound

/-- The walk begins with the first handler of the list. -/
theorem next_none (sound : handlers.Sound) :
    handlers.links.next none = handlers.registered.head? := by
  rw [sound.ring.next_head, List.head?_map]
  cases handlers.registered.head? <;> rfl

/-- Behind a handler comes the next one that is registered. -/
theorem next_some (sound : handlers.Sound) {before after : List Nat}
    (split : handlers.registered = before ++ id :: after) :
    handlers.links.next (some id) = after.head? := by
  have ring := sound.ring
  rw [split, List.map_append, List.map_cons] at ring
  rw [ring.next_item, List.head?_map]
  cases after.head? <;> rfl

/-- The list in front of a handler and behind it. -/
theorem split (sound : handlers.Sound) (member : id ∈ handlers.registered) :
    ∃ before after, handlers.registered = before ++ id :: after ∧
      handlers.registered.filter (· ≠ id) = before ++ after := by
  obtain ⟨before, after, split⟩ := List.append_of_mem member
  have nodup := sound.nodup
  rw [split] at nodup
  refine ⟨before, after, split, ?_⟩
  rw [split, List.filter_append, List.filter_cons_of_neg (by simp)]
  have fresh := List.nodup_middle.mp nodup
  have others : id ∉ before ++ after := (List.nodup_cons.mp fresh).1
  rw [List.filter_eq_self.mpr fun other member => ?_, List.filter_eq_self.mpr fun other member => ?_]
  · exact decide_eq_true fun same => others (List.mem_append_right _ (same ▸ member))
  · exact decide_eq_true fun same => others (List.mem_append_left _ (same ▸ member))

/-- Unlinking a handler leaves the order of the others. -/
theorem unlink (sound : handlers.Sound) (member : id ∈ handlers.registered) :
    (handlers.unlink id).Sound where
  ring := by
    obtain ⟨before, after, split, rest⟩ := sound.split member
    have ring := sound.ring
    rw [split, List.map_append, List.map_cons] at ring
    have absent : some id ∉ none :: (before.map some ++ after.map some) := by
      have fresh := (List.nodup_cons.mp (List.nodup_middle.mp
        (List.nodup_cons.mp ring.nodup).2)).1
      exact fun member => fresh ((List.mem_cons.mp member).resolve_left nofun)
    rw [Handlers.unlink, rest, List.map_append]
    exact ring.remove.init absent
  live := fun other member => sound.live other (List.mem_of_mem_filter member)
  below := fun other member => sound.below other (by
    rcases List.mem_append.mp member with linked | freed
    · exact List.mem_append_left _ (List.mem_of_mem_filter linked)
    · exact List.mem_append_right _ freed)

/-- What is freed has left the list before. -/
theorem free (sound : handlers.Sound) (unlinked : id ∉ handlers.registered)
    (known : id < handlers.handlerId) : (handlers.free id).Sound where
  ring := sound.ring
  live := fun other member freed => by
    rcases List.mem_cons.mp freed with rfl | freed
    · exact unlinked member
    · exact sound.live other member freed
  below := fun other member => by
    rcases List.mem_append.mp member with linked | freed
    · exact sound.below other (List.mem_append_left _ linked)
    · rcases List.mem_cons.mp freed with rfl | freed
      · exact known
      · exact sound.below other (List.mem_append_right _ freed)

end Sound

end Handlers

/-- Where the loop of `pc__trans_fire_event` is: before its test, or in a callback that has
some calls left to make. It has ended, or memory has been read that was freed. -/
inductive DispatchPhase where
  | testing
  | calling (rest : List HandlerAct)
  | ended
  | crashed
  deriving DecidableEq

/-- A thread in the loop of `pc__trans_fire_event`. In a callback or a destructor it may be
in `pc_client_rm_ev_handler`: `searching` for an id, or in the destructor of a handler that
has been taken out, innermost first. -/
structure Dispatch where
  handlers : Handlers
  q : Option Nat
  phase : DispatchPhase
  searching : Option (Int × Option Nat)
  destructing : List (Nat × List HandlerAct)
  calls : Nat
  visited : List Nat

namespace Dispatch

/-- `handler_mutex` is locked, and `q` is the first of the list. -/
def start (handlers : Handlers) : Dispatch where
  handlers
  q := handlers.links.next none
  phase := .testing
  searching := none
  destructing := []
  calls := 0
  visited := []

variable (scripts : Nat → List HandlerAct)

/-- One call of the user's code. -/
def act (act : HandlerAct) (dispatch : Dispatch) : Dispatch :=
  match act with
  | .addEvHandler cb destructor =>
      { dispatch with handlers := dispatch.handlers.add cb destructor }
  | .rmEvHandler id =>
      { dispatch with searching := some (id, dispatch.handlers.links.next none) }

/-- The handler with the id has been found. -/
def found (id : Nat) (dispatch : Dispatch) : Dispatch :=
  if id ∈ dispatch.handlers.destructors then
    { dispatch with
      handlers := dispatch.handlers.unlink id
      searching := none
      destructing := (id, scripts dispatch.calls) :: dispatch.destructing
      calls := dispatch.calls + 1 }
  else
    { dispatch with
      handlers := (dispatch.handlers.unlink id).free id
      searching := none }

/-- `pc_client_rm_ev_handler`, at one element of the list. -/
def search (id : Int) (q : Option Nat) (dispatch : Dispatch) : Dispatch :=
  match q with
  | none => { dispatch with searching := none }
  | some handler =>
      if handler ∈ dispatch.handlers.freed then { dispatch with phase := .crashed }
      else if handler ≠ id then
        { dispatch with searching := some (id, dispatch.handlers.links.next (some handler)) }
      else dispatch.found scripts handler

/-- The test of the loop, and the call of the callback. -/
def test (dispatch : Dispatch) : Dispatch :=
  match dispatch.q with
  | none => { dispatch with phase := .ended }
  | some handler =>
      if handler ∈ dispatch.handlers.freed then { dispatch with phase := .crashed }
      else
        { dispatch with
          phase := .calling (scripts dispatch.calls)
          calls := dispatch.calls + 1
          visited := dispatch.visited ++ [handler] }

/-- The callback has returned, and the link of its handler is followed. -/
def advance (dispatch : Dispatch) : Dispatch :=
  match dispatch.q with
  | none => { dispatch with q := dispatch.handlers.links.next none, phase := .testing }
  | some handler =>
      if handler ∈ dispatch.handlers.freed then { dispatch with phase := .crashed }
      else { dispatch with
        q := dispatch.handlers.links.next (some handler)
        phase := .testing }

/-- What the user's code does in a callback, when no call of it is under way. -/
def callback (dispatch : Dispatch) : Dispatch :=
  match dispatch.phase with
  | .testing => dispatch.test scripts
  | .calling [] => dispatch.advance
  | .calling (act :: rest) => { dispatch with phase := .calling rest }.act act
  | .ended | .crashed => dispatch

/-- One step of the thread. The `n`th callback or destructor that is called makes the calls
of `scripts n`. -/
def step (dispatch : Dispatch) : Dispatch :=
  if dispatch.phase = .ended ∨ dispatch.phase = .crashed then dispatch
  else
    match dispatch.searching, dispatch.destructing with
    | some (id, q), _ => dispatch.search scripts id q
    | none, (id, []) :: outer =>
        { dispatch with handlers := dispatch.handlers.free id, destructing := outer }
    | none, (id, act :: rest) :: outer =>
        { dispatch with destructing := (id, rest) :: outer }.act act
    | none, [] => dispatch.callback scripts

/-- The state after some steps. -/
def after (steps : Nat) (dispatch : Dispatch) : Dispatch := (step scripts)^[steps] dispatch

/-- The callback of a handler is about to be called. -/
def Visiting (id : Nat) (dispatch : Dispatch) : Prop :=
  dispatch.phase = .testing ∧ dispatch.q = some id

/-- The callback of a handler is about to return. -/
def Returning (id : Nat) (dispatch : Dispatch) : Prop :=
  dispatch.phase = .calling [] ∧ dispatch.searching = none ∧ dispatch.destructing = [] ∧
    dispatch.q = some id

/-- The loop does what is wanted of it, whatever the callbacks and destructors do. -/
structure Tolerant (handlers : Handlers) : Prop where
  ends : (∃ bound, ∀ steps, ((start handlers).after scripts steps).handlers.handlerId ≤ bound) →
    ∃ steps, ((start handlers).after scripts steps).phase = .ended
  visits : ∀ steps id, ((start handlers).after scripts steps).Visiting id →
    id ∈ ((start handlers).after scripts steps).handlers.registered
  once : ∀ steps, ((start handlers).after scripts steps).phase = .ended →
    let last := (start handlers).after scripts steps
    last.visited.filter (fun id => id ∈ handlers.registered ∧ id ∈ last.handlers.registered) =
      handlers.registered.filter (fun id => id ∈ last.handlers.registered)

/-- The walk is at a handler, with others behind it, or the handler has been taken out in the
meantime. What is registered and has been visited is what does not stand behind it. -/
def Calling (id : Nat) (handlers : Handlers) (unlinked visited : List Nat) : Prop :=
  (∃ before after, handlers.registered = before ++ id :: after ∧
      visited.filter (· ∈ handlers.registered) = before ++ [id]) ∨
    id ∉ handlers.registered ∧ (id ∈ handlers.freed ∨ id ∈ unlinked)

/-- Where the loop is in the list. -/
def Position (dispatch : Dispatch) : Prop :=
  let registered := dispatch.handlers.registered
  let seen := dispatch.visited.filter (· ∈ registered)
  match dispatch.phase with
  | .testing => ∃ behind, registered = seen ++ behind ∧ dispatch.q = behind.head? ∧
      dispatch.searching = none ∧ dispatch.destructing = []
  | .calling _ => ∃ id, dispatch.q = some id ∧
      Calling id dispatch.handlers (dispatch.destructing.map Prod.fst) dispatch.visited
  | .ended => seen = registered
  | .crashed => True

/-- What every step keeps. -/
structure Inv (initial : Handlers) (dispatch : Dispatch) : Prop where
  sound : dispatch.handlers.Sound
  position : dispatch.Position
  searching : ∀ id handler, dispatch.searching = some (id, some handler) →
    handler ∈ dispatch.handlers.registered
  unlinked : ∀ entry ∈ dispatch.destructing,
    entry.1 ∉ dispatch.handlers.registered ∧ entry.1 < dispatch.handlers.handlerId
  visited : ∀ id ∈ dispatch.visited, id < dispatch.handlers.handlerId
  known : ∀ id ∈ initial.registered, id < dispatch.handlers.handlerId
  stays : dispatch.handlers.registered.filter (· ∈ initial.registered) =
    initial.registered.filter (· ∈ dispatch.handlers.registered)

variable {handlers initial : Handlers} {dispatch : Dispatch} {id : Nat}
  {unlinked visited : List Nat}

namespace Calling

/-- A handler that is added in a callback is visited later, if at all. -/
theorem add (known : ∀ id ∈ visited, id < handlers.handlerId)
    (at_id : Calling id handlers unlinked visited) (below : id < handlers.handlerId)
    (cb destructor : Bool) :
    Calling id (handlers.add cb destructor) unlinked visited := by
  rw [Handlers.add]
  split
  · have same : visited.filter (· ∈ handlers.registered ++ [handlers.handlerId]) =
        visited.filter (· ∈ handlers.registered) := by
      refine List.filter_congr fun other member => ?_
      have different : other ≠ handlers.handlerId := Nat.ne_of_lt (known other member)
      simp [different]
    rcases at_id with ⟨before, after, split, seen⟩ | ⟨gone, held⟩
    · have grown : handlers.registered ++ [handlers.handlerId] =
          before ++ id :: (after ++ [handlers.handlerId]) := by
        rw [split, List.append_assoc, List.cons_append]
      exact .inl ⟨before, _, grown, same.trans seen⟩
    · refine .inr ⟨fun member => ?_, held⟩
      rcases List.mem_append.mp member with old | new
      · exact gone old
      · exact Nat.ne_of_lt below (List.mem_singleton.mp new)
  · exact at_id

/-- A handler that is unlinked is not visited any more; the one being called may unlink itself,
and is freed later. -/
theorem unlink {handler : Nat} (at_id : Calling id handlers unlinked visited) :
    Calling id (handlers.unlink handler) (handler :: unlinked) visited := by
  have others : visited.filter (· ∈ handlers.registered.filter (· ≠ handler)) =
      (visited.filter (· ∈ handlers.registered)).filter (· ≠ handler) := by
    rw [List.filter_filter]
    exact List.filter_congr fun other _ => by simp [Bool.and_comm]
  rcases at_id with ⟨before, after, split, seen⟩ | ⟨gone, held⟩
  · by_cases own : id = handler
    · refine .inr ⟨fun still => ?_, .inr (own ▸ List.mem_cons_self)⟩
      exact absurd own (of_decide_eq_true (List.mem_filter.mp still).2)
    · have kept (rest : List Nat) :
          (id :: rest).filter (· ≠ handler) = id :: rest.filter (· ≠ handler) :=
        List.filter_cons_of_pos (decide_eq_true own)
      refine .inl ⟨before.filter (· ≠ handler), after.filter (· ≠ handler), ?_, ?_⟩
      · change handlers.registered.filter (· ≠ handler) = _
        rw [split, List.filter_append, kept]
      · change visited.filter (· ∈ handlers.registered.filter (· ≠ handler)) = _
        rw [others, seen, List.filter_append, kept, List.filter_nil]
  · exact .inr ⟨fun still => gone (List.mem_of_mem_filter still),
      held.imp_right (List.mem_cons_of_mem _)⟩

/-- The freed handler may be the one being called. -/
theorem free {handler : Nat} (at_id : Calling id handlers (handler :: unlinked) visited) :
    Calling id (handlers.free handler) unlinked visited := by
  rcases at_id with present | ⟨gone, freed | held⟩
  · exact .inl present
  · exact .inr ⟨gone, .inl (List.mem_cons_of_mem _ freed)⟩
  · refine .inr ⟨gone, ?_⟩
    rcases List.mem_cons.mp held with rfl | held
    · exact .inl List.mem_cons_self
    · exact .inr held

end Calling

section Steps

variable {scripts : Nat → List HandlerAct}
  (running : ¬ (dispatch.phase = .ended ∨ dispatch.phase = .crashed))

include running

theorem step_search {wanted : Int} {q : Option Nat}
    (searching : dispatch.searching = some (wanted, q)) :
    dispatch.step scripts = dispatch.search scripts wanted q := by
  rw [step, if_neg running, searching]

variable (idle : dispatch.searching = none)

include idle

theorem step_free {outer : List (Nat × List HandlerAct)}
    (innermost : dispatch.destructing = (id, []) :: outer) :
    dispatch.step scripts =
      { dispatch with handlers := dispatch.handlers.free id, destructing := outer } := by
  rw [step, if_neg running, idle, innermost]

theorem step_destructor {act : HandlerAct} {rest : List HandlerAct}
    {outer : List (Nat × List HandlerAct)}
    (innermost : dispatch.destructing = (id, act :: rest) :: outer) :
    dispatch.step scripts = { dispatch with destructing := (id, rest) :: outer }.act act := by
  rw [step, if_neg running, idle, innermost]

variable (quiet : dispatch.destructing = [])

include quiet

theorem step_test (testing : dispatch.phase = .testing) :
    dispatch.step scripts = dispatch.test scripts := by
  rw [step, if_neg running, idle, quiet]
  dsimp only
  rw [callback, testing]

theorem step_advance (returns : dispatch.phase = .calling []) :
    dispatch.step scripts = dispatch.advance := by
  rw [step, if_neg running, idle, quiet]
  dsimp only
  rw [callback, returns]

theorem step_callback {act : HandlerAct} {rest : List HandlerAct}
    (calling : dispatch.phase = .calling (act :: rest)) :
    dispatch.step scripts = { dispatch with phase := .calling rest }.act act := by
  rw [step, if_neg running, idle, quiet]
  dsimp only
  rw [callback, calling, idle, quiet]

end Steps

/-- Nothing is called before the first test. -/
theorem inv_start (sound : handlers.Sound) : Inv handlers (start handlers) where
  sound := sound
  position := ⟨handlers.registered, rfl, sound.next_none, rfl, rfl⟩
  searching := nofun
  unlinked := fun _ member => absurd member List.not_mem_nil
  visited := fun _ member => absurd member List.not_mem_nil
  known := fun id member => sound.below id (List.mem_append_left _ member)
  stays := rfl

namespace Inv

/-- The first of the list is registered. -/
theorem next_none_mem (sound : handlers.Sound) {handler : Nat}
    (next : handlers.links.next none = some handler) : handler ∈ handlers.registered :=
  List.mem_of_head? (sound.next_none.symm.trans next)

/-- So is what comes behind a registered handler. -/
theorem next_some_mem (sound : handlers.Sound) (member : id ∈ handlers.registered) {handler : Nat}
    (next : handlers.links.next (some id) = some handler) : handler ∈ handlers.registered := by
  obtain ⟨before, after, split⟩ := List.append_of_mem member
  rw [split]
  exact List.mem_append_right _ (List.mem_cons_of_mem _
    (List.mem_of_head? ((sound.next_some split).symm.trans next)))

/-- The handler whose callback runs has been given an id. -/
theorem calling_below (inv : Inv initial dispatch) {rest : List HandlerAct}
    (calling : dispatch.phase = .calling rest) (current : dispatch.q = some id) :
    id < dispatch.handlers.handlerId := by
  have position := inv.position
  rw [Position, calling] at position
  obtain ⟨other, at_other, here⟩ := position
  cases Option.some.inj (at_other.symm.trans current)
  rcases here with ⟨before, after, split, -⟩ | ⟨-, freed | held⟩
  · refine inv.sound.below id (List.mem_append_left _ ?_)
    rw [split]
    exact List.mem_append_right _ List.mem_cons_self
  · exact inv.sound.below id (List.mem_append_right _ freed)
  · obtain ⟨entry, member, rfl⟩ := List.mem_map.mp held
    exact (inv.unlinked entry member).2

/-- The user's code makes a call, in a callback or in a destructor. -/
theorem act (inv : Inv initial dispatch) {rest : List HandlerAct}
    (calling : dispatch.phase = .calling rest) (idle : dispatch.searching = none)
    (act : HandlerAct) : Inv initial (dispatch.act act) := by
  have position := inv.position
  rw [Position, calling] at position
  obtain ⟨current, at_current, here⟩ := position
  cases act with
  | rmEvHandler id =>
      refine ⟨inv.sound, ?_, ?_, inv.unlinked, inv.visited, inv.known, inv.stays⟩
      · change Position { dispatch with searching := _ }
        rw [Position, calling]
        exact ⟨current, at_current, here⟩
      · intro _ handler same
        exact next_none_mem inv.sound (Prod.mk.inj (Option.some.inj same)).2
  | addEvHandler cb destructor =>
      cases cb with
      | false => exact inv
      | true =>
          have below := inv.calling_below calling at_current
          have fresh : dispatch.handlers.handlerId ∉ initial.registered := fun member =>
            Nat.lt_irrefl _ (inv.known _ member)
          refine ⟨inv.sound.add true destructor, ?_, ?_, ?_, ?_, ?_, ?_⟩
          · change Position { dispatch with handlers := _ }
            rw [Position, calling]
            exact ⟨current, at_current, here.add inv.visited below true destructor⟩
          · intro id handler same
            exact absurd (idle.symm.trans same) nofun
          · intro entry member
            obtain ⟨gone, small⟩ := inv.unlinked entry member
            refine ⟨fun linked => ?_, Nat.lt_succ_of_lt small⟩
            rcases List.mem_append.mp linked with old | new
            · exact gone old
            · exact Nat.ne_of_lt small (List.mem_singleton.mp new)
          · exact fun id member => Nat.lt_succ_of_lt (inv.visited id member)
          · exact fun id member => Nat.lt_succ_of_lt (inv.known id member)
          · change (dispatch.handlers.registered ++ [dispatch.handlers.handlerId]).filter _ =
              initial.registered.filter
                (· ∈ dispatch.handlers.registered ++ [dispatch.handlers.handlerId])
            rw [List.filter_append, inv.stays, List.filter_cons_of_neg (by simpa using fresh),
              List.filter_nil, List.append_nil]
            refine List.filter_congr fun other member => ?_
            have different : other ≠ dispatch.handlers.handlerId := Nat.ne_of_lt (inv.known _ member)
            simp [different]

/-- Taking a handler out keeps the order of those that were there at the start. -/
theorem stays_unlink (inv : Inv initial dispatch) (handler : Nat) :
    (dispatch.handlers.unlink handler).registered.filter (· ∈ initial.registered) =
      initial.registered.filter (· ∈ (dispatch.handlers.unlink handler).registered) := by
  change (dispatch.handlers.registered.filter (· ≠ handler)).filter _ =
    initial.registered.filter (· ∈ dispatch.handlers.registered.filter (· ≠ handler))
  rw [List.filter_comm, inv.stays, List.filter_filter]
  exact List.filter_congr fun other _ => by simp [Bool.and_comm]

/-- A registered handler is taken out. -/
theorem found {scripts : Nat → List HandlerAct} (inv : Inv initial dispatch)
    {rest : List HandlerAct} (calling : dispatch.phase = .calling rest) {handler : Nat}
    (member : handler ∈ dispatch.handlers.registered) :
    Inv initial (dispatch.found scripts handler) := by
  have position := inv.position
  rw [Position, calling] at position
  obtain ⟨current, at_current, here⟩ := position
  have gone : handler ∉ (dispatch.handlers.unlink handler).registered := fun still =>
    of_decide_eq_true (List.mem_filter.mp still).2 rfl
  have below : handler < dispatch.handlers.handlerId :=
    inv.sound.below handler (List.mem_append_left _ member)
  have sound := inv.sound.unlink member
  have others : ∀ entry ∈ dispatch.destructing,
      entry.1 ∉ (dispatch.handlers.unlink handler).registered ∧
        entry.1 < dispatch.handlers.handlerId := fun entry listed =>
    (inv.unlinked entry listed).imp_left fun absent still =>
      absent (List.mem_of_mem_filter still)
  rw [Dispatch.found]
  split
  · refine ⟨sound, ?_, nofun, ?_, inv.visited, inv.known, inv.stays_unlink handler⟩
    · rw [Position]
      dsimp only
      rw [calling]
      exact ⟨current, at_current, here.unlink⟩
    · intro entry listed
      rcases List.mem_cons.mp listed with rfl | listed
      · exact ⟨gone, below⟩
      · exact others entry listed
  · refine ⟨sound.free gone below, ?_, nofun, others, inv.visited, inv.known,
      inv.stays_unlink handler⟩
    rw [Position]
    dsimp only
    rw [calling]
    exact ⟨current, at_current, here.unlink.free⟩

/-- A destructor returns, and its handler is freed. -/
theorem freed (inv : Inv initial dispatch) {rest : List HandlerAct}
    (calling : dispatch.phase = .calling rest) {handler : Nat} {script : List HandlerAct}
    {outer : List (Nat × List HandlerAct)}
    (innermost : dispatch.destructing = (handler, script) :: outer) :
    Inv initial
      { dispatch with handlers := dispatch.handlers.free handler, destructing := outer } := by
  have position := inv.position
  rw [Position, calling, innermost] at position
  obtain ⟨current, at_current, here⟩ := position
  have unlinked := inv.unlinked
  rw [innermost] at unlinked
  obtain ⟨gone, below⟩ := unlinked _ List.mem_cons_self
  refine ⟨inv.sound.free gone below, ?_, inv.searching, ?_, inv.visited, inv.known, inv.stays⟩
  · rw [Position]
    dsimp only
    rw [calling]
    exact ⟨current, at_current, here.free⟩
  · exact fun entry member => unlinked entry (List.mem_cons_of_mem _ member)

/-- The loop is left when memory is read that was freed. -/
theorem crash (inv : Inv initial dispatch) : Inv initial { dispatch with phase := .crashed } :=
  ⟨inv.sound, trivial, inv.searching, inv.unlinked, inv.visited, inv.known, inv.stays⟩

/-- The search of `pc_client_rm_ev_handler` moves on by one element, or unlinks what it found.
-/
theorem search {scripts : Nat → List HandlerAct} (inv : Inv initial dispatch)
    {rest : List HandlerAct} (calling : dispatch.phase = .calling rest) {wanted : Int}
    {q : Option Nat} (searching : dispatch.searching = some (wanted, q)) :
    Inv initial (dispatch.search scripts wanted q) := by
  have position := inv.position
  rw [Position, calling] at position
  obtain ⟨current, at_current, here⟩ := position
  cases q with
  | none =>
      refine ⟨inv.sound, ?_, nofun, inv.unlinked, inv.visited, inv.known, inv.stays⟩
      rw [Position]
      dsimp only [Dispatch.search]
      rw [calling]
      exact ⟨current, at_current, here⟩
  | some handler =>
      have member := inv.searching wanted handler searching
      rw [Dispatch.search]
      split
      · exact inv.crash
      · split
        · refine ⟨inv.sound, ?_, ?_, inv.unlinked, inv.visited, inv.known, inv.stays⟩
          · rw [Position]
            dsimp only
            rw [calling]
            exact ⟨current, at_current, here⟩
          · intro _ other same
            exact next_some_mem inv.sound member (Prod.mk.inj (Option.some.inj same)).2
        · exact inv.found calling member

/-- The test at the head of the loop begins a callback or ends the dispatch. -/
theorem test {scripts : Nat → List HandlerAct} (inv : Inv initial dispatch)
    (testing : dispatch.phase = .testing) : Inv initial (dispatch.test scripts) := by
  have position := inv.position
  rw [Position, testing] at position
  obtain ⟨behind, split, current, -, -⟩ := position
  rw [Dispatch.test]
  split
  next last =>
    cases behind with
    | cons handler behind => exact absurd (last.symm.trans current) nofun
    | nil =>
        rw [List.append_nil] at split
        exact ⟨inv.sound, split.symm, inv.searching, inv.unlinked, inv.visited, inv.known,
          inv.stays⟩
  next handler here =>
    cases behind with
    | nil => exact absurd (here.symm.trans current) nofun
    | cons other behind =>
        cases Option.some.inj (here.symm.trans current)
        have member : handler ∈ dispatch.handlers.registered := by
          rw [split]
          exact List.mem_append_right _ List.mem_cons_self
        rw [if_neg (inv.sound.live handler member)]
        have seen : (dispatch.visited ++ [handler]).filter (· ∈ dispatch.handlers.registered) =
            dispatch.visited.filter (· ∈ dispatch.handlers.registered) ++ [handler] := by
          rw [List.filter_append]
          exact congrArg _ (List.filter_cons_of_pos (decide_eq_true member))
        refine ⟨inv.sound, ⟨handler, here, .inl ⟨_, behind, split, seen⟩⟩, inv.searching,
          inv.unlinked, ?_, inv.known, inv.stays⟩
        intro id visited
        rcases List.mem_append.mp visited with seen | now
        · exact inv.visited id seen
        · rw [List.mem_singleton.mp now]
          exact inv.sound.below handler (List.mem_append_left _ member)

/-- Behind a callback the walk moves on, or crashes where the handler has been freed. -/
theorem advance (inv : Inv initial dispatch) (calling : dispatch.phase = .calling [])
    (idle : dispatch.searching = none) (quiet : dispatch.destructing = []) :
    Inv initial dispatch.advance := by
  have position := inv.position
  rw [Position, calling, quiet] at position
  obtain ⟨current, at_current, here⟩ := position
  rw [Dispatch.advance]
  split
  next last => exact absurd (last.symm.trans at_current) nofun
  next handler same =>
    cases Option.some.inj (same.symm.trans at_current)
    split
    · exact inv.crash
    next live =>
      rcases here with ⟨before, after, split, seen⟩ | ⟨-, freed | held⟩
      · refine ⟨inv.sound, ⟨after, ?_, inv.sound.next_some split, idle, quiet⟩, inv.searching,
          inv.unlinked, inv.visited, inv.known, inv.stays⟩
        change dispatch.handlers.registered = dispatch.visited.filter _ ++ after
        rw [seen, split, List.append_assoc, List.singleton_append]
      · exact absurd freed live
      · exact absurd held List.not_mem_nil

/-- A script goes on. -/
theorem resume (inv : Inv initial dispatch) {rest : List HandlerAct}
    (calling : dispatch.phase = .calling rest) (left : List HandlerAct) :
    Inv initial { dispatch with phase := .calling left } := by
  have position := inv.position
  rw [Position, calling] at position
  exact ⟨inv.sound, position, inv.searching, inv.unlinked, inv.visited, inv.known, inv.stays⟩

/-- A call that a destructor makes leaves the handlers it still has to free. -/
theorem resumeDestructor (inv : Inv initial dispatch) {rest : List HandlerAct}
    (calling : dispatch.phase = .calling rest) {handler : Nat} {script : List HandlerAct}
    {outer : List (Nat × List HandlerAct)}
    (innermost : dispatch.destructing = (handler, script) :: outer) (left : List HandlerAct) :
    Inv initial { dispatch with destructing := (handler, left) :: outer } := by
  have position := inv.position
  rw [Position, calling, innermost] at position
  have unlinked := inv.unlinked
  rw [innermost] at unlinked
  refine ⟨inv.sound, ?_, inv.searching, ?_, inv.visited, inv.known, inv.stays⟩
  · rw [Position]
    dsimp only
    rw [calling]
    exact position
  · intro entry member
    rcases List.mem_cons.mp member with rfl | member
    · exact unlinked (handler, script) List.mem_cons_self
    · exact unlinked entry (List.mem_cons_of_mem _ member)

/-- Every step of the dispatch keeps the invariant. -/
theorem step (scripts : Nat → List HandlerAct) (inv : Inv initial dispatch) :
    Inv initial (dispatch.step scripts) := by
  rw [Dispatch.step]
  split
  · exact inv
  next running =>
    have phases : (dispatch.phase = .testing ∧ dispatch.searching = none ∧
        dispatch.destructing = []) ∨ ∃ rest, dispatch.phase = .calling rest := by
      have position := inv.position
      rw [Position] at position
      cases phase : dispatch.phase with
      | ended => exact absurd (.inl phase) running
      | crashed => exact absurd (.inr phase) running
      | calling rest => exact .inr ⟨rest, rfl⟩
      | testing =>
          rw [phase] at position
          obtain ⟨-, -, -, idle⟩ := position
          exact .inl ⟨rfl, idle⟩
    rcases phases with ⟨testing, idle, quiet⟩ | ⟨rest, calling⟩
    · split
      next searching => exact absurd (idle.symm.trans searching) nofun
      next innermost => exact absurd (quiet.symm.trans innermost) nofun
      next innermost => exact absurd (quiet.symm.trans innermost) nofun
      · rw [callback]
        split
        · exact inv.test testing
        next other => exact absurd (testing.symm.trans other) nofun
        next other => exact absurd (testing.symm.trans other) nofun
        · exact inv
        · exact inv
    · split
      next searching => exact inv.search calling searching
      next innermost => exact inv.freed calling innermost
      next idle innermost => exact (inv.resumeDestructor calling innermost _).act calling idle _
      next idle quiet =>
        rw [callback]
        split
        next other => exact absurd (calling.symm.trans other) nofun
        next returns => exact inv.advance returns idle quiet
        next => exact (inv.resume calling _).act rfl idle _
        · exact inv
        · exact inv

theorem after {scripts : Nat → List HandlerAct} (inv : Inv initial dispatch) (steps : Nat) :
    Inv initial (dispatch.after scripts steps) := by
  induction steps with
  | zero => exact inv
  | succ steps ih =>
      rw [Dispatch.after, Function.iterate_succ_apply']
      exact step scripts ih

end Inv

/-- How much of the list is left from an element on. -/
def ahead (q : Option Nat) (registered : List Nat) : Nat :=
  (registered.dropWhile fun id => some id ≠ q).length

/-- The steps that the calls of a script take at most, those of the destructors that they
cause apart. -/
def scriptWork (room : Nat) (script : List HandlerAct) : Nat := script.length * (room + 2)

/-- The steps up to the next visit at most, while nothing is added or taken out. -/
def work (dispatch : Dispatch) : Nat :=
  let room := dispatch.handlers.registered.length
  let searching := match dispatch.searching with
    | none => 0
    | some (_, q) => 1 + ahead q dispatch.handlers.registered
  let destructing := (dispatch.destructing.map fun entry => 1 + scriptWork room entry.2).sum
  let walking := match dispatch.phase with
    | .testing => 1
    | .calling rest => 2 + scriptWork room rest
    | .ended | .crashed => 0
  searching + destructing + walking

/-- How many handlers are left to visit. -/
def visits (dispatch : Dispatch) : Nat :=
  match dispatch.phase with
  | .testing => ahead dispatch.q dispatch.handlers.registered
  | .calling _ => ahead dispatch.q dispatch.handlers.registered - 1
  | .ended | .crashed => 0

/-- What gets less with every step: the handlers that may still be added, then those that
may be taken out, then the visits, then the steps in between. -/
def rank (bound : Nat) (dispatch : Dispatch) : Nat × Nat × Nat × Nat :=
  (bound - dispatch.handlers.handlerId, dispatch.handlers.registered.length, dispatch.visits,
    dispatch.work)

/-- The order of the ranks. -/
abbrev Falls : Nat × Nat × Nat × Nat → Nat × Nat × Nat × Nat → Prop :=
  Prod.Lex (· < ·) (Prod.Lex (· < ·) (Prod.Lex (· < ·) (· < ·)))

theorem ahead_none (registered : List Nat) : ahead none registered = 0 := by
  rw [ahead, List.dropWhile_eq_nil_iff.mpr fun id _ => decide_eq_true nofun]
  rfl

theorem ahead_some {before after : List Nat} (nodup : (before ++ id :: after).Nodup) :
    ahead (some id) (before ++ id :: after) = after.length + 1 := by
  rw [ahead, List.dropWhile_append_of_pos fun other member => ?_, List.dropWhile_cons_of_neg]
  · rfl
  · simp
  · refine decide_eq_true fun same => ?_
    exact (List.nodup_append.mp nodup).2.2 other member id List.mem_cons_self (Option.some.inj same)

theorem ahead_head {before after : List Nat} (nodup : (before ++ after).Nodup) :
    ahead after.head? (before ++ after) = after.length := by
  cases after with
  | nil => exact ahead_none _
  | cons id after => exact ahead_some nodup

/-- No more is left of the list than the list. -/
theorem ahead_le (q : Option Nat) (registered : List Nat) :
    ahead q registered ≤ registered.length :=
  (List.dropWhile_sublist _).length_le

theorem falls_iff {less more : Nat × Nat × Nat × Nat} : Falls less more ↔
    less.1 < more.1 ∨ less.1 = more.1 ∧ (less.2.1 < more.2.1 ∨ less.2.1 = more.2.1 ∧
      (less.2.2.1 < more.2.2.1 ∨ less.2.2.1 = more.2.2.1 ∧ less.2.2.2 < more.2.2.2)) := by
  rw [Falls, Prod.lex_def, Prod.lex_def, Prod.lex_def]

/-- One call less is the search through the list and two steps less. -/
theorem scriptWork_cons (room : Nat) (act : HandlerAct) (rest : List HandlerAct) :
    scriptWork room (act :: rest) = scriptWork room rest + room + 2 := by
  rw [scriptWork, List.length_cons, Nat.succ_mul, ← Nat.add_assoc]
  rfl

/-- A call of the user takes less work than it is counted for, or adds a handler. -/
theorem falls_act (dispatch : Dispatch) (idle : dispatch.searching = none) (act : HandlerAct) {bound more : Nat}
    (bounded : (dispatch.act act).handlers.handlerId ≤ bound)
    (counted : dispatch.work + dispatch.handlers.registered.length + 2 ≤ more) :
    Falls ((dispatch.act act).rank bound)
      (bound - dispatch.handlers.handlerId, dispatch.handlers.registered.length, dispatch.visits,
        more) := by
  rw [falls_iff]
  cases act with
  | rmEvHandler id =>
      refine .inr ⟨rfl, .inr ⟨rfl, .inr ⟨rfl, ?_⟩⟩⟩
      have short := ahead_le (dispatch.handlers.links.next none) dispatch.handlers.registered
      have grown : (dispatch.act (.rmEvHandler id)).work =
          dispatch.work + (1 + ahead (dispatch.handlers.links.next none)
            dispatch.handlers.registered) := by
        simp only [work, Dispatch.act, idle]
        omega
      change (dispatch.act (.rmEvHandler id)).work < more
      omega
  | addEvHandler cb destructor =>
      cases cb with
      | true =>
          refine .inl ?_
          have bounded : dispatch.handlers.handlerId + 1 ≤ bound := bounded
          change bound - (dispatch.handlers.handlerId + 1) < bound - dispatch.handlers.handlerId
          omega
      | false =>
          refine .inr ⟨rfl, .inr ⟨rfl, .inr ⟨rfl, ?_⟩⟩⟩
          change dispatch.work < more
          omega

/-- A handler is taken out, and the list gets shorter. -/
theorem falls_found (scripts : Nat → List HandlerAct) (bound : Nat) {handler : Nat}
    (member : handler ∈ dispatch.handlers.registered) :
    Falls ((dispatch.found scripts handler).rank bound) (dispatch.rank bound) := by
  have shorter : (dispatch.handlers.unlink handler).registered.length <
      dispatch.handlers.registered.length := by
    refine List.length_filter_lt_length_iff_exists.mpr ⟨handler, member, ?_⟩
    exact fun kept => of_decide_eq_true kept rfl
  rw [falls_iff, found]
  split <;> exact .inr ⟨rfl, .inl shorter⟩

theorem falls_search {scripts : Nat → List HandlerAct} (inv : Inv initial dispatch)
    {wanted : Int} {q : Option Nat} (searching : dispatch.searching = some (wanted, q))
    (bound : Nat) :
    Falls ((dispatch.search scripts wanted q).rank bound) (dispatch.rank bound) := by
  cases q with
  | none =>
      refine falls_iff.mpr (.inr ⟨rfl, .inr ⟨rfl, .inr ⟨rfl, ?_⟩⟩⟩)
      simp only [rank, work, Dispatch.search, searching]
      omega
  | some handler =>
      have member := inv.searching wanted handler searching
      rw [Dispatch.search, if_neg (inv.sound.live handler member)]
      split
      · refine falls_iff.mpr (.inr ⟨rfl, .inr ⟨rfl, .inr ⟨rfl, ?_⟩⟩⟩)
        obtain ⟨before, after, split⟩ := List.append_of_mem member
        have nodup := inv.sound.nodup
        have closer : ahead (dispatch.handlers.links.next (some handler))
            dispatch.handlers.registered < ahead (some handler) dispatch.handlers.registered := by
          rw [inv.sound.next_some split]
          rw [split] at nodup ⊢
          rw [ahead_some nodup]
          rw [← List.singleton_append, ← List.append_assoc] at nodup ⊢
          rw [ahead_head nodup]
          exact Nat.lt_succ_self _
        simp only [rank, work, searching]
        omega
      · exact falls_found scripts bound member

theorem falls_test {scripts : Nat → List HandlerAct} (inv : Inv initial dispatch)
    (testing : dispatch.phase = .testing) (bound : Nat) :
    Falls ((dispatch.test scripts).rank bound) (dispatch.rank bound) := by
  have position := inv.position
  rw [Position, testing] at position
  obtain ⟨behind, split, current, idle, quiet⟩ := position
  have nodup := inv.sound.nodup
  have left : ahead dispatch.q dispatch.handlers.registered = behind.length := by
    rw [current]
    rw [split] at nodup ⊢
    exact ahead_head nodup
  rw [Dispatch.test]
  split
  next last =>
    refine falls_iff.mpr (.inr ⟨rfl, .inr ⟨rfl, .inr ⟨?_, ?_⟩⟩⟩)
    · rw [last, ahead_none] at left
      simp only [rank, visits, testing, last, ahead_none]
    · simp only [rank, work, testing]
      omega
  next handler here =>
    cases behind with
    | nil => exact absurd (here.symm.trans current) nofun
    | cons other behind =>
        cases Option.some.inj (here.symm.trans current)
        have member : handler ∈ dispatch.handlers.registered := by
          rw [split]
          exact List.mem_append_right _ List.mem_cons_self
        rw [if_neg (inv.sound.live handler member)]
        refine falls_iff.mpr (.inr ⟨rfl, .inr ⟨rfl, .inl ?_⟩⟩)
        simp only [rank, visits, testing, left, List.length_cons]
        omega

/-- The walk gets on where no callback has freed the handler it stands on. -/
theorem falls_advance (inv : Inv initial dispatch) (calling : dispatch.phase = .calling [])
    (idle : dispatch.searching = none) (quiet : dispatch.destructing = [])
    (returns : ∀ id, dispatch.Returning id → id ∈ dispatch.handlers.registered) (bound : Nat) :
    Falls (dispatch.advance.rank bound) (dispatch.rank bound) := by
  have position := inv.position
  rw [Position, calling] at position
  obtain ⟨current, at_current, -⟩ := position
  have member := returns current ⟨calling, idle, quiet, at_current⟩
  obtain ⟨before, after, split⟩ := List.append_of_mem member
  have nodup := inv.sound.nodup
  have next := inv.sound.next_some split
  have left : ahead dispatch.q dispatch.handlers.registered = after.length + 1 := by
    rw [at_current]
    rw [split] at nodup ⊢
    exact ahead_some nodup
  have rest : ahead after.head? dispatch.handlers.registered = after.length := by
    rw [split, ← List.singleton_append, ← List.append_assoc] at nodup ⊢
    exact ahead_head nodup
  rw [Dispatch.advance]
  split
  next last => exact absurd (last.symm.trans at_current) nofun
  next handler same =>
    cases Option.some.inj (same.symm.trans at_current)
    rw [if_neg (inv.sound.live current member)]
    refine falls_iff.mpr (.inr ⟨rfl, .inr ⟨rfl, .inr ⟨?_, ?_⟩⟩⟩)
    · simp only [rank, visits, calling, left, next, rest]
      omega
    · simp only [rank, work, calling, idle, quiet]
      omega

/-- Every step gets the loop closer to its end, unless a callback has taken out its own
handler and returns. -/
theorem falls_step {scripts : Nat → List HandlerAct} (inv : Inv initial dispatch)
    (running : ¬ (dispatch.phase = .ended ∨ dispatch.phase = .crashed))
    (returns : ∀ id, dispatch.Returning id → id ∈ dispatch.handlers.registered) {bound : Nat}
    (bounded : (dispatch.step scripts).handlers.handlerId ≤ bound) :
    Falls ((dispatch.step scripts).rank bound) (dispatch.rank bound) := by
  cases searching : dispatch.searching with
  | some target =>
      rw [step_search running searching]
      exact falls_search inv searching bound
  | none =>
      cases destructing : dispatch.destructing with
      | cons entry outer =>
          obtain ⟨handler, script⟩ := entry
          cases script with
          | nil =>
              rw [step_free running searching destructing, falls_iff]
              refine .inr ⟨rfl, .inr ⟨rfl, .inr ⟨rfl, ?_⟩⟩⟩
              simp only [rank, work, searching, destructing, List.map_cons, List.sum_cons,
                Handlers.free]
              omega
          | cons act rest =>
              rw [step_destructor running searching destructing] at bounded ⊢
              refine falls_act { dispatch with destructing := (handler, rest) :: outer } searching
                act bounded ?_
              simp only [work, searching, destructing, List.map_cons, List.sum_cons,
                scriptWork_cons]
              omega
      | nil =>
          cases phase : dispatch.phase with
          | ended => exact absurd (.inl phase) running
          | crashed => exact absurd (.inr phase) running
          | testing =>
              rw [step_test running searching destructing phase]
              exact falls_test inv phase bound
          | calling script =>
              cases script with
              | nil =>
                  rw [step_advance running searching destructing phase]
                  exact falls_advance inv phase searching destructing returns bound
              | cons act rest =>
                  rw [step_callback running searching destructing phase] at bounded ⊢
                  have same : dispatch.visits =
                      { dispatch with phase := .calling rest }.visits := by
                    simp only [visits, phase]
                  have ranked : dispatch.rank bound =
                      (bound - dispatch.handlers.handlerId, dispatch.handlers.registered.length,
                        dispatch.visits, dispatch.work) := rfl
                  rw [ranked, same]
                  refine falls_act { dispatch with phase := .calling rest } searching act bounded ?_
                  simp only [work, phase, scriptWork_cons]
                  omega

/-- Freed memory is read only where a callback returns that has taken out its own handler. -/
theorem returning_of_crashed {scripts : Nat → List HandlerAct} (inv : Inv initial dispatch)
    (running : ¬ (dispatch.phase = .ended ∨ dispatch.phase = .crashed))
    (crashed : (dispatch.step scripts).phase = .crashed) :
    ∃ id, dispatch.Returning id ∧ id ∉ dispatch.handlers.registered := by
  have position := inv.position
  cases searching : dispatch.searching with
  | some target =>
      obtain ⟨wanted, q⟩ := target
      rw [step_search running searching] at crashed
      cases q with
      | none => exact absurd (.inr crashed) running
      | some handler =>
          have member := inv.searching wanted handler searching
          rw [Dispatch.search, if_neg (inv.sound.live handler member)] at crashed
          split at crashed
          · exact absurd (.inr crashed) running
          · rw [found] at crashed
            split at crashed <;> exact absurd (.inr crashed) running
  | none =>
      cases destructing : dispatch.destructing with
      | cons entry outer =>
          obtain ⟨handler, script⟩ := entry
          cases script with
          | nil =>
              rw [step_free running searching destructing] at crashed
              exact absurd (.inr crashed) running
          | cons act rest =>
              rw [step_destructor running searching destructing] at crashed
              cases act <;> exact absurd (.inr crashed) running
      | nil =>
          rw [Position] at position
          cases phase : dispatch.phase with
          | ended => exact absurd (.inl phase) running
          | crashed => exact absurd (.inr phase) running
          | testing =>
              rw [phase] at position
              obtain ⟨behind, split, current, -, -⟩ := position
              rw [step_test running searching destructing phase, Dispatch.test] at crashed
              split at crashed
              · exact absurd crashed nofun
              next handler here =>
                have member : handler ∈ dispatch.handlers.registered := by
                  rw [split]
                  exact List.mem_append_right _ (List.mem_of_head? (current.symm.trans here))
                rw [if_neg (inv.sound.live handler member)] at crashed
                exact absurd crashed nofun
          | calling script =>
              cases script with
              | cons act rest =>
                  rw [step_callback running searching destructing phase] at crashed
                  cases act <;> exact absurd crashed nofun
              | nil =>
                  rw [phase] at position
                  obtain ⟨current, at_current, -⟩ := position
                  refine ⟨current, ⟨phase, searching, destructing, at_current⟩, fun member => ?_⟩
                  rw [step_advance running searching destructing phase, Dispatch.advance] at crashed
                  split at crashed
                  · exact absurd crashed nofun
                  next handler same =>
                    cases Option.some.inj (same.symm.trans at_current)
                    rw [if_neg (inv.sound.live current member)] at crashed
                    exact absurd crashed nofun

/-- Where the thread has stopped, it stays. -/
theorem after_stopped {scripts : Nat → List HandlerAct} {steps : Nat}
    (stopped : (dispatch.after scripts steps).phase = .ended ∨
      (dispatch.after scripts steps).phase = .crashed) {later : Nat} (le : steps ≤ later) :
    dispatch.after scripts later = dispatch.after scripts steps := by
  obtain ⟨more, rfl⟩ := Nat.exists_eq_add_of_le' le
  have fixed : (dispatch.after scripts steps).step scripts = dispatch.after scripts steps :=
    if_pos stopped
  rw [after, Function.iterate_add_apply]
  exact Function.iterate_fixed fixed more

theorem after_succ (scripts : Nat → List HandlerAct) (steps : Nat) :
    dispatch.after scripts (steps + 1) = (dispatch.after scripts steps).step scripts :=
  Function.iterate_succ_apply' ..

/-- Once freed memory has been read, the loop neither goes on nor ends. -/
theorem not_tolerant_of_crashed {scripts : Nat → List HandlerAct} {steps : Nat}
    (crashed : ((start handlers).after scripts steps).phase = .crashed) :
    ¬ Tolerant scripts handlers := by
  intro tolerant
  have last (later : Nat) (le : steps ≤ later) := after_stopped (.inr crashed) le
  have bounded : ∃ bound, ∀ step,
      ((start handlers).after scripts step).handlers.handlerId ≤ bound := by
    let ids (step : Nat) := ((start handlers).after scripts step).handlers.handlerId
    have counted {step : Nat} (small : step < steps + 1) :
        ids step ≤ (Finset.range (steps + 1)).sup ids :=
      Finset.le_sup (f := ids) (Finset.mem_range.mpr small)
    refine ⟨(Finset.range (steps + 1)).sup ids, fun step => ?_⟩
    rcases Nat.lt_or_ge step (steps + 1) with early | late
    · exact counted early
    · rw [last step (Nat.le_of_succ_le late)]
      exact counted (Nat.lt_succ_self _)
  obtain ⟨final, ended⟩ := tolerant.ends bounded
  rcases Nat.le_total final steps with early | late
  · rw [after_stopped (.inl ended) early, ended] at crashed
    exact absurd crashed nofun
  · rw [last final late, crashed] at ended
    exact absurd ended nofun

/-- The loop tolerates what the callbacks and destructors do if and only if no callback
returns when its own handler has been taken out. -/
theorem tolerant_iff {scripts : Nat → List HandlerAct} (sound : handlers.Sound) :
    Tolerant scripts handlers ↔ ∀ steps id, ((start handlers).after scripts steps).Returning id →
      id ∈ ((start handlers).after scripts steps).handlers.registered := by
  have inv (steps : Nat) : Inv handlers ((start handlers).after scripts steps) :=
    (inv_start sound).after steps
  constructor
  · intro tolerant steps id returning
    by_contra gone
    obtain ⟨calling, idle, quiet, current⟩ := returning
    have position := (inv steps).position
    rw [Position, calling, quiet] at position
    obtain ⟨other, at_other, here⟩ := position
    cases Option.some.inj (at_other.symm.trans current)
    have freed : id ∈ ((start handlers).after scripts steps).handlers.freed := by
      rcases here with ⟨before, after, split, -⟩ | ⟨-, freed | held⟩
      · rw [split] at gone
        exact absurd (List.mem_append_right _ List.mem_cons_self) gone
      · exact freed
      · exact absurd held List.not_mem_nil
    have running : ¬ (((start handlers).after scripts steps).phase = .ended ∨
        ((start handlers).after scripts steps).phase = .crashed) := by
      rw [calling]
      exact fun stopped => stopped.elim nofun nofun
    -- the link of a freed handler is followed, and no step is made behind that
    have crashed : ((start handlers).after scripts (steps + 1)).phase = .crashed := by
      rw [after_succ, step_advance running idle quiet calling, Dispatch.advance, current]
      dsimp only
      rw [if_pos freed]
    exact not_tolerant_of_crashed crashed tolerant
  · intro returns
    have alive (steps : Nat) : ((start handlers).after scripts steps).phase ≠ .crashed := by
      induction steps with
      | zero => exact nofun
      | succ steps ih =>
          intro crashed
          by_cases ended : ((start handlers).after scripts steps).phase = .ended
          · rw [after_stopped (.inl ended) (Nat.le_succ steps), ended] at crashed
            exact absurd crashed nofun
          · rw [after_succ] at crashed
            obtain ⟨id, returning, gone⟩ :=
              returning_of_crashed (inv steps) (fun stopped => stopped.elim ended ih) crashed
            exact gone (returns steps id returning)
    refine ⟨fun ⟨bound, bounded⟩ => ?_, fun steps id visiting => ?_, fun steps ended => ?_⟩
    · by_contra! runs
      obtain ⟨steps, stays⟩ := WellFounded.not_rel_apply_succ (r := Falls)
        fun steps => ((start handlers).after scripts steps).rank bound
      refine stays ?_
      have bounded := bounded (steps + 1)
      rw [after_succ] at bounded
      rw [after_succ]
      exact falls_step (inv steps) (fun stopped => stopped.elim (runs steps) (alive steps))
        (returns steps) bounded
    · have position := (inv steps).position
      rw [Position, visiting.1] at position
      obtain ⟨behind, split, current, -⟩ := position
      rw [split]
      exact List.mem_append_right _ (List.mem_of_head? (current.symm.trans visiting.2))
    · have position := (inv steps).position
      rw [Position, ended] at position
      have both := congrArg (List.filter (· ∈ handlers.registered)) position
      rw [(inv steps).stays, List.filter_filter] at both
      refine Eq.trans ?_ both
      exact List.filter_congr fun id _ => Bool.decide_and ..

/-- One handler is registered. -/
def oneHandler : Handlers := Handlers.init.add true false

/-- The list that `pc_client_add_ev_handler` makes of one handler is sound. -/
theorem sound_oneHandler : oneHandler.Sound := Handlers.sound_init.add true false

/-- Three handlers are registered, the second one with a destructor. -/
def threeHandlers : Handlers := ((Handlers.init.add true false).add true true).add true false

theorem sound_threeHandlers : threeHandlers.Sound :=
  ((Handlers.sound_init.add true false).add true true).add true false

/-- The first handler takes the second one out and adds one, and so does the destructor of the
second one. The third handler takes the first one out. -/
def removeOthers : Nat → List HandlerAct
  | 0 => [.rmEvHandler 1, .addEvHandler true false]
  | 1 => [.addEvHandler true false]
  | 2 => [.rmEvHandler 0]
  | _ => []

/-- The handlers that are left are called, and so are the two that have been added. -/
theorem tolerant_removeOthers :
    ((start threeHandlers).after removeOthers 20).visited = [0, 2, 3, 4] ∧
      Tolerant removeOthers threeHandlers := by
  have visited : ((start threeHandlers).after removeOthers 20).visited = [0, 2, 3, 4] := by decide
  refine ⟨visited, (tolerant_iff sound_threeHandlers).mpr fun steps id returning => ?_⟩
  have ended : ((start threeHandlers).after removeOthers 20).phase = .ended := by decide
  rcases Nat.lt_or_ge steps 20 with early | late
  · have registered : ∀ steps < 20,
        let dispatch := (start threeHandlers).after removeOthers steps
        dispatch.phase = .calling [] → dispatch.searching = none → dispatch.destructing = [] →
          dispatch.q.all (· ∈ dispatch.handlers.registered) := by decide +kernel
    obtain ⟨calling, idle, quiet, current⟩ := returning
    have member := registered steps early calling idle quiet
    rw [current] at member
    exact of_decide_eq_true member
  · rw [after_stopped (.inl ended) late, Returning, ended] at returning
    exact absurd returning.1 nofun

/-- A handler that takes itself out is followed when it has been freed. -/
theorem not_tolerant_oneHandler :
    ¬ ∀ scripts (handlers : Handlers), handlers.Sound → Tolerant scripts handlers := by
  intro claim
  have crashed : ((start oneHandler).after (fun _ => [.rmEvHandler 0]) 4).phase = .crashed := by
    decide
  exact not_tolerant_of_crashed crashed (claim _ oneHandler sound_oneHandler)

end Dispatch

end Pomelo
