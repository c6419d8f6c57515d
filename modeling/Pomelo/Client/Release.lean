import Pomelo.Client.Delivery
import Pomelo.Client.Pool

/-!
# The client without its transport

The rest of `pc_client_cleanup`, from where it has set `client->trans` to null. A
polling client handles the events that are left, and then the event handlers are
destroyed; both run code of the user, which may call the API. A call that gets past
its own checks uses the missing transport. The polls that `pc_client_connect` and
`pc_client_disconnect` make first do nothing here: `is_in_poll` is set while events
are handled, and no event is left when handlers are destroyed.

No call that is refused changes the client, so what code of the user runs, and which
state it finds, follows from the client as the release leaves it (`Remainder.hooks`).
-/

namespace Pomelo

/-- Code of the user that runs after the release: a callback, or the destructor of an event
handler. -/
inductive Hook where
  | callback (sight : Sight)
  | destructor (handler : Nat)
  deriving DecidableEq

/-- The calls that code of the user makes when it runs, which may depend on what has run
before. -/
structure ReleaseUser where
  calls : (earlier : List Hook) → Hook → List ApiCall

/-- A client without transport, with the code of the user that has run, and the API calls that
it has made, each with the client that it found. -/
structure Released where
  client : Client
  ran : List Hook
  made : List (ApiCall × Client)

namespace Released

def change (act : Client → Client) (released : Released) : Released :=
  { released with client := act released.client }

/-- Code of the user runs and makes its calls. -/
def run (user : ReleaseUser) (hook : Hook) (released : Released) : Released :=
  { released with
    ran := released.ran ++ [hook]
    made := released.made ++ (user.calls released.ran hook).map fun call =>
      (call, released.client) }

/-- A callback runs; a failed assertion runs nothing. -/
def see (user : ReleaseUser) (sight : Sight) (released : Released) : Released :=
  match sight with
  | .event .. | .completed .. => released.run user (.callback sight)
  | _ => released

/-- The client in the hands of its user. -/
def receiver (user : ReleaseUser) : Receiver Released where
  client := Released.client
  change := change
  see := see user

end Released

/-- `pc_client_cleanup` from `client->trans = NULL` on. -/
def pcClientCleanupReleased (user : ReleaseUser) (enablePolling : Bool) (passes : Nat)
    (released : Released) : Released :=
  let released := released.change fun client => { client with hasTrans := false }
  let released :=
    if enablePolling then pcClientPoll (Released.receiver user) passes released else released
  let released := released.client.evHandlers.foldl (fun released handler =>
    (released.change fun client => { client with evHandlers := client.evHandlers.drop 1 }).run
      user (.destructor handler)) released
  released.change fun client => { client with
    reqIdSeq := 1
    seqNum := 0
    inited := false
    state := .notInited }

/-- A call returns an error code, without a use of `client->trans`. -/
def ApiCall.Fails (call : ApiCall) (client : Client) : Prop :=
  ∃ rc, client.returnsBefore call = some rc ∧ rc ≠ pcRcOk

/-- A call is refused for its arguments, or in a state of the client. -/
def ApiCall.refused (call : ApiCall) (state : ClientState) : Bool :=
  match call with
  | .send _ args timeout =>
      args.isNone || Client.invalidTimeout timeout || (state ≠ .connected && state ≠ .connecting)
  | .connect host port _ =>
      host.isNone || port < 0 || port > 2 ^ 16 - 1 || state = .notInited || state = .disconnecting
  | .disconnect => state = .notInited || state = .inited
  | .connQuality | .transData => false

/-- The calls that fail without a transport are the ones that are refused. -/
theorem ApiCall.fails_iff (call : ApiCall) (client : Client) :
    call.Fails client ↔ call.refused client.pcClientState = true := by
  cases call with
  | send kind args timeout =>
      have passed : client.sendCheck kind args timeout = none ↔
          ApiCall.refused (.send kind args timeout) client.pcClientState = false := by
        rw [Client.sendCheck_eq_none, Client.maySend]
        cases args <;> cases client.pcClientState <;>
          cases wrong : Client.invalidTimeout timeout <;> simp [refused, wrong]
      constructor
      · rintro ⟨rc, returned, -⟩
        refine Bool.eq_true_of_not_eq_false fun accepted => ?_
        exact absurd (passed.mpr accepted ▸ returned : none = some rc) (by simp)
      · intro rejected
        cases returned : client.sendCheck kind args timeout with
        | none => exact absurd (passed.mp returned) (by simp [rejected])
        | some rc => exact ⟨rc, returned, Client.sendCheck_ne_ok returned⟩
  | connect host port handshakeOpts =>
      simp only [Fails, Client.returnsBefore, Client.pcConnectCheck, refused]
      generalize (host.isNone || decide (port < 0) || decide (port > 2 ^ 16 - 1)) = wrong
      cases wrong with
      | true => exact iff_of_true ⟨pcRcInvalidArg, rfl, by decide⟩ rfl
      | false => cases client.pcClientState <;> simp [pcRcInvalidState, pcRcOk]
  | disconnect =>
      simp only [Fails, Client.returnsBefore, Client.pcDisconnectCheck, refused]
      cases client.pcClientState <;> simp [pcRcInvalidState, pcRcOk]
  | connQuality => simp [Fails, Client.returnsBefore, refused]
  | transData => simp [Fails, Client.returnsBefore, refused]

/-- What is left of a client when it has lost its transport, as far as code of the user runs for
it: the client state, the event handlers, and the entries that have not been completed. -/
@[ext] structure Remainder where
  state : ClientState
  evHandlers : List Nat
  queue : ReqKind → List PendingReq

def Client.remainder (client : Client) : Remainder where
  state := client.pcClientState
  evHandlers := client.evHandlers
  queue kind := (client.pool kind).queue

/-- The client state behind an event. -/
def EvType.next (type : EvType) (state : ClientState) : ClientState :=
  match type with
  | .connected => .connected
  | .connectFailed | .disconnect | .kickedByServer => .inited
  | .unexpectedDisconnect | .protoError => .connecting
  | .connectError | .userDefinedPush => state

/-- The event that is fired, if its arguments are there. -/
def EvType.fired? (evType : Int) (arg1 arg2 : Option CStr) : Option EvType :=
  (EvType.ofCode? evType).filter fun type => type.hasArgs arg1 arg2

namespace Remainder

/-- The callback of the first entry under a key. -/
def completion (kind : ReqKind) (key : Nat) (rc : Int) (resp : Option CStr) (left : Remainder) :
    List (Hook × ClientState) :=
  match (left.queue kind).find? fun req => req.key kind = key with
  | none => []
  | some target => [(.callback (.completed kind target rc resp), left.state)]

/-- The first entry under a key is gone. -/
def complete (kind : ReqKind) (key : Nat) (left : Remainder) : Remainder :=
  { left with
    queue := fun other =>
      if other = kind then (left.queue kind).eraseP fun req => req.key kind = key
      else left.queue other }

/-- The callbacks that a pending event runs, with the state that they find. -/
def callbacks (left : Remainder) : EventData → List (Hook × ClientState)
  | .ev evType arg1 arg2 =>
      match EvType.fired? evType arg1 arg2 with
      | none => []
      | some type => left.evHandlers.map fun handler =>
          (.callback (.event handler type arg1 arg2), type.next left.state)
  | .notify seqNum rc => left.completion .notify seqNum rc none
  | .req reqId rc resp => left.completion .request reqId rc resp

/-- What is left behind a pending event. -/
def after (left : Remainder) : EventData → Remainder
  | .ev evType arg1 arg2 =>
      match EvType.fired? evType arg1 arg2 with
      | none => left
      | some type => { left with state := type.next left.state }
  | .notify seqNum _ => left.complete .notify seqNum
  | .req reqId _ _ => left.complete .request reqId

/-- All code of the user that runs for some pending events and the event handlers, with the
state that it finds. -/
def hooks (left : Remainder) : (events : List EventData) → List (Hook × ClientState)
  | [] => left.evHandlers.map fun handler => (.destructor handler, left.state)
  | event :: events => left.callbacks event ++ (left.after event).hooks events

end Remainder

/-- Code of the user that runs in some states makes no calls but such as are refused there. -/
def ReleaseUser.Harmless (user : ReleaseUser) (earlier : List Hook) :
    (hooks : List (Hook × ClientState)) → Prop
  | [] => True
  | (hook, found) :: hooks =>
      (∀ call ∈ user.calls earlier hook, call.refused found = true) ∧
        user.Harmless (earlier ++ [hook]) hooks

instance ReleaseUser.decidableHarmless (user : ReleaseUser) :
    (earlier : List Hook) → (hooks : List (Hook × ClientState)) →
      Decidable (user.Harmless earlier hooks)
  | _, [] => instDecidableTrue
  | earlier, (hook, _) :: hooks =>
      have : Decidable (user.Harmless (earlier ++ [hook]) hooks) :=
        decidableHarmless user (earlier ++ [hook]) hooks
      instDecidableAnd

/-- The events that a client handles after the release. -/
def Client.releaseEvents (enablePolling : Bool) (client : Client) : List EventData :=
  if enablePolling && !client.isInPoll then client.pendingEvQueue.map PendingEvent.data else []

variable {user : ReleaseUser} {earlier : List Hook} {early late : List (Hook × ClientState)}
  {first second third : Released}

/-- A list of calls is harmless if its first part is and the rest is behind it. -/
theorem ReleaseUser.harmless_append :
    user.Harmless earlier (early ++ late) ↔
      user.Harmless earlier early ∧ user.Harmless (earlier ++ early.map Prod.fst) late := by
  induction early generalizing earlier with
  | nil => simp [Harmless]
  | cons entry early ih =>
      obtain ⟨hook, found⟩ := entry
      simp only [List.cons_append, Harmless, ih, List.map_cons, List.append_assoc,
        List.nil_append, and_assoc]

/-- Code of the user has run, and the calls that it has made fail if they are refused. -/
structure Runs (user : ReleaseUser) (hooks : List (Hook × ClientState)) (first second : Released) :
    Prop where
  ran : second.ran = first.ran ++ hooks.map Prod.fst
  made : ∃ new, second.made = first.made ++ new ∧
    ((∀ made ∈ new, made.1.Fails made.2) ↔ user.Harmless first.ran hooks)
  inited : second.client.inited = first.client.inited

namespace Runs

/-- No code of the user runs. -/
theorem silent (ran : second.ran = first.ran) (made : second.made = first.made)
    (inited : second.client.inited = first.client.inited) : Runs user [] first second where
  ran := ran.trans (List.append_nil _).symm
  made := ⟨[], made.trans (List.append_nil _).symm,
    iff_of_true (fun _ member => absurd member List.not_mem_nil) trivial⟩
  inited := inited

/-- A change that leaves `inited` calls nothing. -/
theorem change {act : Client → Client} (inited : (act first.client).inited = first.client.inited) :
    Runs user [] first (first.change act) := silent rfl rfl inited

/-- What is called by two pieces of code, in their order. -/
theorem trans (left : Runs user early first second) (right : Runs user late second third) :
    Runs user (early ++ late) first third where
  ran := by rw [right.ran, left.ran, List.map_append, List.append_assoc]
  made := by
    obtain ⟨before, made, harmless⟩ := left.made
    obtain ⟨behind, more, fails⟩ := right.made
    refine ⟨before ++ behind, by rw [more, made, List.append_assoc], ?_⟩
    rw [ReleaseUser.harmless_append, ← left.ran, ← harmless, ← fails]
    simp only [List.mem_append, or_imp, forall_and]
  inited := right.inited.trans left.inited

/-- What is done afterwards runs no code of the user. -/
theorem trans_silent (left : Runs user early first second) (ran : third.ran = second.ran)
    (made : third.made = second.made) (inited : third.client.inited = second.client.inited) :
    Runs user early first third := by
  have both := left.trans (silent ran made inited)
  rwa [List.append_nil] at both

/-- One piece of code runs, in the state that the client is in. -/
theorem one (hook : Hook) (released : Released) :
    Runs user [(hook, released.client.pcClientState)] released (released.run user hook) where
  ran := rfl
  made := by
    refine ⟨_, rfl, ?_⟩
    simp only [List.forall_mem_map, ApiCall.fails_iff, ReleaseUser.Harmless, and_true]
  inited := rfl

/-- Several pieces of code run one after the other, and what is done between them leaves the
client state alone. -/
theorem foldl (hook : Nat → Hook) {act : Client → Client}
    (state : ∀ client, (act client).pcClientState = client.pcClientState)
    (inited : ∀ client, (act client).inited = client.inited) (handlers : List Nat)
    (released : Released) :
    Runs user (handlers.map fun handler => (hook handler, released.client.pcClientState)) released
      (handlers.foldl (fun released handler => (released.change act).run user (hook handler))
        released) := by
  induction handlers generalizing released with
  | nil => exact silent rfl rfl rfl
  | cons handler handlers ih =>
      have head : Runs user [(hook handler, released.client.pcClientState)] released
          ((released.change act).run user (hook handler)) := by
        have changed : Runs user [] released (released.change act) := change (inited _)
        have ran := changed.trans (one (hook handler) (released.change act))
        rwa [List.nil_append, show (released.change act).client.pcClientState =
          released.client.pcClientState from state _] at ran
      have tail := ih ((released.change act).run user (hook handler))
      rw [show ((released.change act).run user (hook handler)).client.pcClientState =
        released.client.pcClientState from state _] at tail
      exact head.trans tail

end Runs

/-- Firing an event moves the remainder on by that event. -/
theorem Client.remainder_fire {client : Client} (inited : client.inited = true) (type : EvType) :
    (client.fire type).remainder =
      { client.remainder with state := type.next client.remainder.state } := by
  cases type <;> simp [fire, setState, remainder, pcClientState, EvType.next, inited] <;> rfl

theorem Client.inited_fire (client : Client) (type : EvType) :
    (client.fire type).inited = client.inited := by
  cases type <;> rfl

/-- What is seen leaves the client as it is. -/
theorem Released.client_see (sight : Sight) (released : Released) :
    (Released.see user sight released).client = released.client := by
  cases sight <;> rfl

/-- So do all the handlers together. -/
theorem Released.client_foldl_see (sight : Nat → Sight) (handlers : List Nat)
    (released : Released) :
    (handlers.foldl (fun released handler => Released.see user (sight handler) released)
      released).client = released.client := by
  induction handlers generalizing released with
  | nil => rfl
  | cons handler handlers ih => exact (ih _).trans (client_see (sight handler) released)

/-- A failed assertion runs no code of the user. -/
theorem Released.assert_eq (holds : Bool) {sight : Sight}
    (assertion : Released.see user sight first = first) :
    (Released.receiver user).assert holds sight first = first := by
  rw [Receiver.assert]
  split
  · rfl
  · exact assertion

/-- An event has been handled: some code of the user has run, and something is left. The events
behind it still wait. -/
structure Handled (user : ReleaseUser) (hooks : List (Hook × ClientState)) (left : Remainder)
    (first second : Released) : Prop extends Runs user hooks first second where
  left : second.client.remainder = left
  pending : second.client.pendingEvQueue = first.client.pendingEvQueue

/-- Firing an event runs its handlers, in the state that it sets. -/
theorem handled_pcTransFire (inited : first.client.inited = true) (type : EvType)
    (arg1 arg2 : Option CStr) :
    Handled user (first.client.evHandlers.map fun handler =>
        (.callback (.event handler type arg1 arg2), type.next first.client.pcClientState))
      { first.client.remainder with state := type.next first.client.remainder.state } first
      (pcTransFire (Released.receiver user) type arg1 arg2 first) := by
  have fired := Client.remainder_fire inited type
  have state : (first.client.fire type).pcClientState = type.next first.client.pcClientState :=
    congrArg Remainder.state fired
  have handlers : (first.client.fire type).evHandlers = first.client.evHandlers :=
    congrArg Remainder.evHandlers fired
  have result : pcTransFire (Released.receiver user) type arg1 arg2 first =
      first.client.evHandlers.foldl (fun released handler =>
        Released.see user (.event handler type arg1 arg2) released)
          (first.change (Client.fire type)) := by
    rw [← handlers]
    exact congrArg (fun released : Released => (released.client.fire type).evHandlers.foldl
      (fun released handler => Released.see user (.event handler type arg1 arg2) released)
        (released.change (Client.fire type))) (Released.assert_eq _ rfl)
  have kept := @Released.client_foldl_see user
    (fun handler => .event handler type arg1 arg2) first.client.evHandlers
    (first.change (Client.fire type))
  rw [result]
  refine ⟨?_, (congrArg Client.remainder kept).trans fired, ?_⟩
  · have changed : Runs user [] first (first.change (Client.fire type)) :=
      .change (Client.inited_fire _ type)
    have ran := changed.trans (Runs.foldl (fun handler =>
      .callback (.event handler type arg1 arg2)) (fun _ => rfl) (fun _ => rfl) first.client.evHandlers
        (first.change (Client.fire type)))
    rw [List.nil_append, show (first.change (Client.fire type)).client.pcClientState =
      type.next first.client.pcClientState from state] at ran
    exact ran
  · refine (congrArg Client.pendingEvQueue kept).trans ?_
    cases type <;> rfl

/-- Only the queue of its kind tells that a pool has been changed. -/
theorem Client.remainder_modifyPool (kind : ReqKind) (act : ReqPool → ReqPool) (client : Client) :
    (client.modifyPool kind act).remainder = { client.remainder with
      queue := fun other =>
        if other = kind then (act (client.pool kind)).queue else (client.pool other).queue } := by
  refine Remainder.ext ?_ ?_ (funext fun other => ?_)
  · cases kind <;> rfl
  · cases kind <;> rfl
  · cases kind <;> cases other <;> rfl

/-- The entry that is completed is the first one under its key. -/
theorem Client.take_eq (kind : ReqKind) (key : Nat) (client : Client) :
    client.take kind key = (((client.pool kind).queue.find? fun req => req.key kind = key).map
      fun target => (target, client.modifyPool kind fun pool => { pool with
        queue := pool.queue.eraseP fun req => req.key kind = key })) := by
  rw [take, ReqPool.take]
  cases (client.pool kind).queue.find? fun req => req.key kind = key with
  | none => rfl
  | some target => cases kind <;> rfl

/-- Completing an entry runs its callback, if it is there. -/
theorem handled_pcTransCompleteNow (kind : ReqKind) (key : Nat) (rc : Int) (resp : Option CStr)
    (first : Released) :
    Handled user (first.client.remainder.completion kind key rc resp)
      (first.client.remainder.complete kind key) first
      (pcTransCompleteNow (Released.receiver user) kind key rc resp first) := by
  have queue : first.client.remainder.queue kind = (first.client.pool kind).queue := rfl
  rw [pcTransCompleteNow, show (Released.receiver user).client first = first.client from rfl,
    Client.take_eq, Remainder.completion, queue]
  cases found : (first.client.pool kind).queue.find? fun req => req.key kind = key with
  | none =>
      have kept : (first.client.pool kind).queue.eraseP (fun req => req.key kind = key) =
          (first.client.pool kind).queue :=
        List.eraseP_of_forall_not (by simpa using List.find?_eq_none.mp found)
      refine ⟨.silent rfl rfl rfl, Remainder.ext rfl rfl (funext fun other => ?_), rfl⟩
      by_cases same : other = kind
      · subst same
        exact ((if_pos rfl).trans kept).symm
      · exact (if_neg same).symm
  | some target =>
      dsimp only [Option.map_some]
      rw [pcClientRcStr, Released.assert_eq _ rfl]
      generalize taken : (first.client.modifyPool kind fun pool => { pool with
        queue := pool.queue.eraseP fun req => req.key kind = key }) = client
      have left : client.remainder = first.client.remainder.complete kind key := by
        rw [← taken, Client.remainder_modifyPool]
        rfl
      have inited : client.inited = first.client.inited := by
        rw [← taken]
        cases kind <;> rfl
      have pending : client.pendingEvQueue = first.client.pendingEvQueue := by
        rw [← taken]
        cases kind <;> rfl
      have state : client.pcClientState = first.client.pcClientState :=
        congrArg Remainder.state left
      let called := (first.change fun _ => client).run user
        (.callback (.completed kind target rc resp))
      have start : Runs user [] first (first.change fun _ => client) := .change inited
      have ran : Runs user [(.callback (.completed kind target rc resp), client.pcClientState)]
          first called := start.trans (Runs.one _ (first.change fun _ => client))
      have released : Runs user [] called (called.change fun client =>
          client.modifyPool kind (ReqPool.release target)) := .change (by cases kind <;> rfl)
      rw [state] at ran
      refine ⟨ran.trans released, ?_, ?_⟩
      · refine (Client.remainder_modifyPool kind (ReqPool.release target) client).trans ?_
        rw [← left]
        refine Remainder.ext rfl rfl (funext fun other => ?_)
        by_cases same : other = kind
        · subst same
          exact (if_pos rfl).trans (ReqPool.queue_release)
        · exact if_neg same
      · refine Eq.trans ?_ pending
        cases kind <;> rfl

/-- What the handling of a pending event runs, and what it leaves. -/
theorem handled_handle (inited : first.client.inited = true) (event : EventData) :
    Handled user (first.client.remainder.callbacks event) (first.client.remainder.after event)
      first (event.handle (Released.receiver user) first) := by
  cases event with
  | ev evType arg1 arg2 =>
      rw [EventData.handle, pcTransFireEventNow, Remainder.callbacks, Remainder.after,
        EvType.fired?]
      cases EvType.ofCode? evType with
      | none => exact ⟨.silent rfl rfl rfl, rfl, rfl⟩
      | some type =>
          dsimp only
          cases complete : type.hasArgs arg1 arg2 with
          | true =>
              rw [show Option.filter (fun type => type.hasArgs arg1 arg2) (some type) = some type from
                Option.filter_some_pos complete, if_pos rfl]
              exact handled_pcTransFire inited type arg1 arg2
          | false =>
              rw [show Option.filter (fun type => type.hasArgs arg1 arg2) (some type) = none from
                Option.filter_some_neg complete, if_neg Bool.false_ne_true]
              exact ⟨.silent rfl rfl rfl, rfl, rfl⟩
  | notify seqNum rc =>
      rw [EventData.handle, pcClientRcStr, Released.assert_eq _ rfl]
      exact handled_pcTransCompleteNow .notify seqNum rc none first
  | req reqId rc resp =>
      rw [EventData.handle, pcClientRcStr, Released.assert_eq _ rfl]
      exact handled_pcTransCompleteNow .request reqId rc resp first

/-- The loop of a poll runs the callbacks of the events in their order. Those of the destructors
are still to come. -/
theorem runs_pcClientPollLoop (passes : Nat) (inited : first.client.inited = true)
    (enough : first.client.pendingEvQueue.length ≤ passes) :
    ∃ hooks, Runs user hooks first (pcClientPollLoop (Released.receiver user) passes first) ∧
      first.client.remainder.hooks (first.client.pendingEvQueue.map PendingEvent.data) = hooks ++
        (pcClientPollLoop (Released.receiver user) passes first).client.remainder.hooks [] := by
  induction passes generalizing first with
  | zero =>
      rw [List.eq_nil_of_length_eq_zero (Nat.le_zero.mp enough)]
      exact ⟨[], .silent rfl rfl rfl, rfl⟩
  | succ passes ih =>
      rw [pcClientPollLoop, show (Released.receiver user).client first = first.client from rfl]
      cases queue : first.client.pendingEvQueue with
      | nil => exact ⟨[], .silent rfl rfl rfl, rfl⟩
      | cons event rest =>
          rw [queue, List.length_cons] at enough
          dsimp only
          rw [Released.assert_eq _ rfl, pcHandleEvent]
          let popped := first.change fun client => { client with pendingEvQueue := rest }
          have handled : Handled user (first.client.remainder.callbacks event.data)
              (first.client.remainder.after event.data) popped
              (event.data.handle (Released.receiver user) popped) :=
            @handled_handle user popped inited event.data
          let freed := (event.data.handle (Released.receiver user) popped).change
            (Client.releaseEvent event)
          have same (client : Client) : (client.releaseEvent event).inited = client.inited ∧
              (client.releaseEvent event).remainder = client.remainder ∧
                (client.releaseEvent event).pendingEvQueue = client.pendingEvQueue := by
            rw [Client.releaseEvent]
            split <;> exact ⟨rfl, rfl, rfl⟩
          obtain ⟨sameInited, sameLeft, samePending⟩ :=
            same (event.data.handle (Released.receiver user) popped).client
          have ran : Runs user (first.client.remainder.callbacks event.data) first freed := by
            have start : Runs user [] first popped := .change rfl
            exact (start.trans handled.toRuns).trans_silent rfl rfl sameInited
          have left : freed.client.remainder = first.client.remainder.after event.data :=
            sameLeft.trans handled.left
          have pending : freed.client.pendingEvQueue = rest := samePending.trans handled.pending
          obtain ⟨hooks, runs, all⟩ := @ih freed (ran.inited.trans inited)
            (by rw [pending]; omega)
          refine ⟨first.client.remainder.callbacks event.data ++ hooks, ran.trans runs, ?_⟩
          rw [List.append_assoc]
          refine congrArg (first.client.remainder.callbacks event.data ++ ·) ?_
          rw [pending, left] at all
          exact all

/-- The poll of the release runs the callbacks of its events, and the destructors of the handlers
are still to come. -/
theorem runs_releasePoll (enablePolling : Bool) {passes : Nat} (inited : first.client.inited = true)
    (enough : first.client.pendingEvQueue.length ≤ passes) :
    let polled :=
      if enablePolling then pcClientPoll (Released.receiver user) passes first else first
    ∃ hooks, Runs user hooks first polled ∧
      first.client.remainder.hooks (first.client.releaseEvents enablePolling) =
        hooks ++ polled.client.remainder.hooks [] := by
  rw [Client.releaseEvents]
  cases enablePolling with
  | false => exact ⟨[], .silent rfl rfl rfl, rfl⟩
  | true =>
      rw [if_pos rfl, pcClientPoll,
        show (Released.receiver user).client first = first.client from rfl]
      cases outside : first.client.isInPoll with
      | true => exact ⟨[], .silent rfl rfl rfl, rfl⟩
      | false =>
          let entered := first.change fun client => { client with isInPoll := true }
          have start : Runs user [] first entered := .change rfl
          obtain ⟨hooks, ran, all⟩ := @runs_pcClientPollLoop user entered passes inited enough
          exact ⟨hooks, (start.trans ran).trans_silent rfl rfl rfl, all⟩

/-- A polling client whose connection has gone, with an event of its own and the answer to a
request still pending. -/
def releasedWithTwo : Client :=
  let client := (pcClientInit []).setState .connected
  let client := { client with evHandlers := [0] }
  let client := client.enqueue .request 0 (CStr.ofString "route") (CStr.ofString "\x7b\x7d") 5
  let client := client.queueEvent (.req 1 pcRcReset none)
  client.queueEvent (.ev EvType.disconnect.code none none)

/-- The answer is looked at, and behind the last event, which leaves the client INITED, a request
is tried and the client is disconnected. -/
def triesLate : ReleaseUser where
  calls _ hook := match hook with
    | .callback (.event ..) =>
        [.send .request (some (CStr.ofString "route", CStr.ofString "\x7b\x7d")) 5, .disconnect]
    | .callback _ => [.send .notify none 5]
    | .destructor _ => [.disconnect, .connect none 80 none]

/-- A polling client with the answer to a request still pending. -/
def connectedWithAnswer : Client :=
  let client := (pcClientInit []).setState .connected
  let client := client.enqueue .request 0 (CStr.ofString "route") (CStr.ofString "\x7b\x7d") 5
  client.queueEvent (.req 1 pcRcReset none)

/-- A callback that sends the request again. -/
def sendAgain : ReleaseUser where
  calls _ hook := match hook with
    | .callback _ => [.send .request (some (CStr.ofString "route", CStr.ofString "\x7b\x7d")) 5]
    | .destructor _ => []

end Pomelo
