import Oomph.Libfabric.Flags
import Oomph.Libfabric.CancelRecv

namespace Oomph.Libfabric

open Machine State

/-! The context polls the completion queues and drains nothing.  A shared receive whose completion
it reads is called back, unless the recursion limit is reached just then; one that was put into
the queue of the context stays there.
-/

namespace Frame

def holds (op : Nat) : Frame → Bool
  | .dispatch _ _ entries => op ∈ entries
  | .invoke other _ => other = op
  | .callback other _ => other = op
  | _ => false

def parks (op : Nat) : Frame → Bool
  | .park other _ => other = op
  | _ => false

def handles (op : Nat) : Frame → Bool
  | .dispatch _ _ (next :: _) => next = op
  | _ => false

def drainsShared : Frame → Bool
  | .call _ (.clear .shared _) => true
  | _ => false

end Frame

def CqRead.ops : CqRead → List Nat
  | .entries ops => ops
  | _ => []

def Act.answer : Act → Option CqRead
  | .read answer => some answer
  | _ => none

namespace State

def top (s : State) (thread : Nat) : Option Frame :=
  s.threads[thread]?.bind List.head?

/-- The thread has the completion in hand, or runs the callback. -/
def Holds (s : State) (thread op : Nat) : Prop :=
  ∃ stack, s.threads[thread]? = some stack ∧ ∃ frame ∈ stack, frame.holds op = true

/-- The receive waits in the queue of the context, or is about to be put there. -/
def Parking (s : State) (op : Nat) : Prop :=
  op ∈ s.recvCbQueue ∨ ∃ stack ∈ s.threads, ∃ frame ∈ stack, frame.parks op = true

end State

/-- What is assumed while the call of `context_impl::progress` that the thread made over `base`
runs.  The receive is complete: the last poll of the call reports it if it is still unread, and
nobody reads that it was cancelled.  No other thread ends its callback, and none drains the queue
of the context. -/
structure Attends (config : Config) (thread : Nat) (base : List Frame) (op : Nat) (s : State)
    (action : Action) : Prop where
  inside : base.length < (s.threads[thread]?.getD []).length
  completes : ∀ answer ∈ action.act.answer, action.thread = thread → ∀ retry,
    s.threads[thread]? = some (.work none .recvs retry :: .call none .leave :: base) →
    op ∈ s.rx → (Frame.work none .recvs retry).afterPoll config answer.ops.length = [] →
    op ∈ answer.ops
  uncanceled : action.act ≠ .read (.canceled op)
  others : action.thread ≠ thread → action.act = .callbackReturns →
    ∀ frame ∈ s.top action.thread, op ∉ frame.running
  undrained : ∀ frame ∈ s.top action.thread, frame.drainsShared = false

instance (config : Config) (thread : Nat) (base : List Frame) (op : Nat) (s : State)
    (action : Action) : Decidable (Attends config thread base op s action) :=
  decidable_of_iff (_ ∧ _ ∧ _ ∧ _ ∧ _)
    ⟨fun ⟨inside, completes, uncanceled, others, undrained⟩ =>
        ⟨inside, completes, uncanceled, others, undrained⟩,
      fun ⟨inside, completes, uncanceled, others, undrained⟩ =>
        ⟨inside, completes, uncanceled, others, undrained⟩⟩

/-- The completion is handled below the recursion limit of the context, and no other thread
reads it. -/
structure Undisturbed (config : Config) (thread op : Nat) (s : State) (action : Action) :
    Prop where
  below : ∀ frame ∈ s.top action.thread, frame.handles op = true →
    s.recursionDepth ≤ config.recursionDepth
  own : action.thread ≠ thread → ∀ answer ∈ action.act.answer, op ∉ answer.ops

instance (config : Config) (thread op : Nat) (s : State) (action : Action) :
    Decidable (Undisturbed config thread op s action) :=
  decidable_of_iff (_ ∧ _) ⟨fun ⟨below, own⟩ => ⟨below, own⟩, fun ⟨below, own⟩ => ⟨below, own⟩⟩

variable {config : Config} {s t : State} {thread active op : Nat} {act : Act} {frame : Frame}
  {stack base rest : List Frame} {post : Post}

theorem top_eq_some : s.top thread = some frame ↔
    ∃ rest, s.threads[thread]? = some (frame :: rest) := by
  unfold State.top
  cases s.threads[thread]? with
  | none => simp
  | some stack => cases stack <;> simp

def Frame.isHandler : Frame → Bool
  | .dispatch _ _ _ => true
  | .invoke _ _ => true
  | .park _ _ => true
  | _ => false

theorem advance_of_step (found : s.threads[thread]? = some (frame :: rest))
    (handler : frame.isHandler = true) (taken : step config s ⟨thread, act⟩ = some t) :
    s.advance config thread (frame :: rest) = some t := by
  unfold step at taken
  split at taken
  · cases taken
  · simp only [found] at taken
    cases frame with
    | dispatch => cases act <;> simp_all [State.executeFi, State.readCq, Frame.poll, inUserCode]
    | invoke => cases act <;> simp_all [State.executeFi, State.readCq, Frame.poll, inUserCode]
    | park => cases act <;> simp_all [State.executeFi, State.readCq, Frame.poll, inUserCode]
    | _ => cases handler

theorem userCall_threads (found : s.threads[thread]? = some stack)
    (taken : s.userCall config thread stack act = some t) :
    ∃ pushed, t.threads[thread]? = some (pushed ++ stack) := by
  have inside := (List.getElem?_eq_some_iff.mp found).1
  have push {after : State} (pushed : List Frame)
      (threads : after.threads = s.threads.set thread (pushed ++ stack)) :
      ∃ pushed, after.threads[thread]? = some (pushed ++ stack) :=
    ⟨pushed, by rw [threads, List.getElem?_set_self inside]⟩
  have keep {after : State} (threads : after.threads = s.threads) :
      ∃ pushed, after.threads[thread]? = some (pushed ++ stack) := ⟨[], by rw [threads, found]; rfl⟩
  cases act with
  | getCommunicator =>
    cases taken
    exact keep rfl
  | send comm dst tag size =>
    simp only [State.userCall, Option.ite_none_right_eq_some] at taken
    obtain ⟨_, taken⟩ := taken
    split at taken
    · cases taken
      exact push [_] rfl
    · cases taken
      exact push [_] rfl
  | recv comm src tag =>
    simp only [State.userCall, Option.ite_none_right_eq_some] at taken
    obtain ⟨_, taken⟩ := taken
    cases taken
    exact push [_] rfl
  | sharedRecv comm src tag =>
    simp only [State.userCall, Option.ite_none_right_eq_some] at taken
    obtain ⟨_, taken⟩ := taken
    cases taken
    exact push [_] rfl
  | progress comm =>
    simp only [State.userCall, Option.ite_none_right_eq_some] at taken
    obtain ⟨_, taken⟩ := taken
    cases taken
    exact push [_, _] rfl
  | contextProgress =>
    cases taken
    exact push [_, _] rfl
  | cancel other accepted =>
    simp only [State.userCall] at taken
    cases posted : s.posts[other]? with
    | none => simp [posted] at taken
    | some post =>
      simp only [posted] at taken
      split at taken
      · cases taken
      · split at taken
        · cases taken
          exact keep rfl
        · cases taken
          exact push [_] rfl
  | destroy comm =>
    simp only [State.userCall, Option.ite_none_right_eq_some] at taken
    obtain ⟨_, taken⟩ := taken
    split at taken
    · cases taken
      exact keep rfl
    · cases taken
      exact push [_] rfl
  | _ => cases taken

theorem callback_step {via : Via} (found : s.threads[thread]? = some (.callback op via :: rest))
    (taken : step config s ⟨thread, act⟩ = some t) :
    (∃ pushed, t.threads[thread]? = some (pushed ++ .callback op via :: rest)) ∨
      act = .callbackReturns ∧ t = s.returnCallback thread op via rest := by
  unfold step at taken
  split at taken
  · cases taken
  · simp only [found] at taken
    cases act with
    | fi => cases taken
    | read => cases taken
    | advance => cases taken
    | callbackReturns =>
      cases taken
      exact .inr ⟨rfl, rfl⟩
    | _ =>
      simp only [inUserCode, if_true] at taken
      exact .inl (userCall_threads found taken)

theorem effect_recvCbQueue (effect : Effect config s active act t)
    (undrained : ∀ frame ∈ s.top active, frame.drainsShared = false)
    (member : op ∈ s.recvCbQueue) : op ∈ t.recvCbQueue := by
  cases effect with
  | give user other post => cases kind : post.kind <;> simpa [State.give, Side.ofKind, kind] using member
  | take frame user side ops => cases side <;> exact member
  | canceled =>
    unfold handleCancelled pushCancel
    split <;> exact member
  | park other side post =>
    unfold pushCb
    split
    · exact List.mem_append_left _ member
    · exact member
    · exact member
  | start other via => cases via <;> exact member
  | returnCallback other via => cases via <;> exact member
  | pop comm stage destroying other queue rest found =>
    cases stage with
    | shared => cases undrained _ (top_eq_some.mpr ⟨rest, found⟩)
    | sends => exact member
    | recvs => exact member
  | withdraw user => cases user <;> exact member
  | rescan user => cases user <;> exact member
  | _ => exact member

theorem State.Parking.step (parking : s.Parking op) (posted : s.posts[op]? = some post)
    (shared : post.kind = .sharedRecv)
    (undrained : ∀ frame ∈ s.top active, frame.drainsShared = false)
    (taken : step config s ⟨active, act⟩ = some t) : t.Parking op := by
  have effect := step_effect taken
  rcases parking with queued | ⟨stack, member, frame, inside, parks⟩
  · exact .inl (effect_recvCbQueue effect undrained queued)
  · obtain ⟨index, here⟩ := List.getElem?_of_mem member
    rcases (effect_moves effect).stays (fun _ _ => Restack.tops) here inside with
      ⟨later, still, kept⟩ | ⟨rfl, rest, moved, rfl, now, restack⟩
    · exact .inr ⟨later, List.mem_of_getElem? still, frame, kept, parks⟩
    · cases frame with
      | park next side =>
        obtain rfl : next = op := by simpa [Frame.parks] using parks
        have pushed := advance_of_step here rfl taken
        simp only [State.advance, State.park, posted] at pushed
        split at pushed
        · cases pushed
          left
          simp [pushCb, shared]
        · cases pushed
          exact .inr ⟨_, member, _, inside, parks⟩
      | _ => cases parks

/-- The handler of a completion calls the receive back, or puts it into the queue of the context
if the recursion limit is reached. -/
theorem dispatch_step {user : Option Nat} {side : Side} {entries : List Nat}
    (found : s.threads[active]? = some (.dispatch user side entries :: rest))
    (member : op ∈ entries) (posted : s.posts[op]? = some post) (shared : post.kind = .sharedRecv)
    (taken : step config s ⟨active, act⟩ = some t) :
    t.fault ≠ none ∧ t.threads = s.threads ∨
      t.Holds active op ∧ ((Frame.dispatch user side entries).handles op = true →
        s.recursionDepth ≤ config.recursionDepth) ∨
      t.Parking op ∧ (Frame.dispatch user side entries).handles op = true ∧
        config.recursionDepth < s.recursionDepth := by
  have inside := (List.getElem?_eq_some_iff.mp found).1
  have handled := advance_of_step found rfl taken
  cases entries with
  | nil => cases member
  | cons next entries =>
    simp only [State.advance, State.handle] at handled
    cases known : s.posts[next]? with
    | none => simp [known] at handled
    | some other =>
      cases owner : s.comms[other.comm]? with
      | none => simp [known, owner] at handled
      | some c =>
        simp only [known, owner] at handled
        split at handled
        · right
          by_cases same : next = op
          · subst same
            obtain rfl : other = post := by simpa [known] using posted
            cases path : s.inplaceVia config user other c with
            | some via =>
              simp only [path] at handled
              cases handled
              refine .inl ⟨⟨_, List.getElem?_set_self inside, _, List.mem_cons_self, ?_⟩, ?_⟩
              · simp [Frame.holds]
              · intro _
                simp only [inplaceVia, hasReachedRecursionDepth, shared] at path
                by_contra reached
                simp [Nat.lt_of_not_le reached] at path
            | none =>
              simp only [path] at handled
              cases handled
              refine .inr ⟨.inr ⟨_, List.mem_set inside _, _, List.mem_cons_self, ?_⟩, ?_, ?_⟩
              · simp [Frame.parks]
              · simp [Frame.handles]
              · simpa [inplaceVia, hasReachedRecursionDepth, shared] using path
          · have later : op ∈ entries := by simpa [Ne.symm same] using member
            have unhandled : ¬ (Frame.dispatch user side (next :: entries)).handles op = true := by
              simp [Frame.handles, same]
            have still (frame : Frame) :
                (s.setStack active (frame :: .dispatch user side entries :: rest)).Holds active op :=
              ⟨_, List.getElem?_set_self inside, _, List.mem_cons_of_mem _ List.mem_cons_self,
                by simpa [Frame.holds] using later⟩
            cases path : s.inplaceVia config user other c with
            | some via =>
              simp only [path] at handled
              cases handled
              exact .inl ⟨still _, fun handles => absurd handles unhandled⟩
            | none =>
              simp only [path] at handled
              cases handled
              exact .inl ⟨still _, fun handles => absurd handles unhandled⟩
        · cases handled
          exact .inl ⟨Option.some_ne_none _, rfl⟩

/-- A completion in hand stays in hand until the callback returns, unless it is parked. -/
theorem State.Holds.step (holds : s.Holds active op) (settled : s.Settled)
    (posted : s.posts[op]? = some post) (shared : post.kind = .sharedRecv)
    (taken : step config s ⟨active, act⟩ = some t) :
    t.Holds active op ∨
      (t.Parking op ∧ ∃ frame ∈ s.top active, frame.handles op = true ∧
        config.recursionDepth < s.recursionDepth) ∨
      act = .callbackReturns ∧ (∃ frame ∈ s.top active, op ∈ frame.running) ∧
        op ∈ Event.returnedOps t.history := by
  obtain ⟨stack, found, frame, member, holding⟩ := holds
  have inside := (List.getElem?_eq_some_iff.mp found).1
  rcases (effect_moves (step_effect taken)).stays (fun _ _ => Restack.tops) found member with
    ⟨later, still, kept⟩ | ⟨-, rest, moved, rfl, now, restack⟩
  · exact .inl ⟨later, still, frame, kept, holding⟩
  · cases frame with
    | dispatch user side entries =>
      have waits : op ∈ entries := by simpa [Frame.holds] using holding
      rcases dispatch_step found waits posted shared taken with
        ⟨_, same⟩ | ⟨held, _⟩ | ⟨parked, handles, limit⟩
      · exact .inl ⟨_, by rw [same, found], _, member, holding⟩
      · exact .inl held
      · exact .inr (.inl ⟨parked, _, top_eq_some.mpr ⟨rest, found⟩, handles, limit⟩)
    | invoke next via =>
      obtain rfl : next = op := by simpa [Frame.holds] using holding
      have started := advance_of_step found rfl taken
      cases started
      refine .inl ⟨.callback next via :: rest, ?_, _, List.mem_cons_self, ?_⟩
      · simp [State.start, inside]
      · simp [Frame.holds]
    | callback next via =>
      obtain rfl : next = op := by simpa [Frame.holds] using holding
      rcases callback_step found taken with ⟨pushed, stays⟩ | ⟨returns, rfl⟩
      · exact .inl ⟨_, stays, _, List.mem_append_right _ List.mem_cons_self, holding⟩
      · refine .inr (.inr ⟨returns, ⟨_, top_eq_some.mpr ⟨rest, found⟩, by simp⟩, ?_⟩)
        obtain ⟨known, first, made, belongs⟩ := settled.head found
        rw [posted] at first
        cases first
        cases via with
        | inject comm => simp [userOf, shared, Via.user] at belongs
        | _ =>
          have cb := (settled.request ⟨post, posted, made⟩).1
          simp [State.returnCallback, cb]
    | _ => cases holding

theorem threads_of_effect (effect : Effect config s active act t) (other : active ≠ thread) :
    t.threads[thread]? = s.threads[thread]? :=
  (effect_moves effect).getElem?_of_ne other

theorem effect_rx (effect : Effect config s active act t) (unread : op ∈ s.rx) :
    op ∈ t.rx ∨ (∃ answer ∈ act.answer, op ∈ answer.ops) ∨ act = .read (.canceled op) := by
  cases effect with
  | give user other post =>
    left
    cases post.kind <;> simp [State.give, Side.ofKind, unread]
  | take frame user side ops =>
    by_cases read : op ∈ ops
    · exact .inr (.inl ⟨.entries ops, rfl, read⟩)
    · left
      cases side with
      | sends => exact unread
      | recvs => exact List.mem_diff_of_mem unread read
  | canceled frame user other post =>
    by_cases same : other = op
    · exact .inr (.inr (by rw [same]))
    · left
      have stays := (List.mem_erase_of_ne (Ne.symm same)).mpr unread
      unfold handleCancelled pushCancel
      split <;> exact stays
  | park other side post =>
    left
    unfold pushCb
    split <;> exact unread
  | start other via => left; cases via <;> exact unread
  | returnCallback other via => left; cases via <;> exact unread
  | pop comm stage => left; cases stage <;> exact unread
  | withdraw user => left; cases user <;> exact unread
  | rescan user => left; cases user <;> exact unread
  | _ => exact .inl unread

theorem read_step {answer : CqRead} (taken : step config s ⟨active, .read answer⟩ = some t) :
    t.fault ≠ none ∧ t.threads = s.threads ∧ t.rx = s.rx ∨
      ∃ frame rest dispatched, s.threads[active]? = some (frame :: rest) ∧
        t.threads[active]? =
          some (dispatched ++ (frame.afterPoll config answer.ops.length ++ rest)) ∧
        ∀ op ∈ answer.ops, ∃ frame ∈ dispatched, frame.holds op = true := by
  unfold step at taken
  split at taken
  · cases taken
  · cases found : s.threads[active]? with
    | none => simp [found] at taken
    | some stack =>
      have inside := (List.getElem?_eq_some_iff.mp found).1
      simp only [found] at taken
      cases stack with
      | nil => cases taken
      | cons frame rest =>
        unfold State.readCq at taken
        cases polls : frame.poll with
        | none => simp [polls] at taken
        | some poll =>
          simp only [polls] at taken
          cases answer with
          | nothing =>
            cases taken
            exact .inr ⟨frame, rest, [], rfl, List.getElem?_set_self inside, nofun⟩
          | entries ops =>
            simp only [Option.ite_none_right_eq_some] at taken
            obtain ⟨_, taken⟩ := taken
            cases taken
            refine .inr ⟨frame, rest, [.dispatch poll.1 poll.2 ops], rfl,
              List.getElem?_set_self ?_, fun op read => ?_⟩
            · rwa [(s.sameRecords_take poll.2 ops).threads]
            · exact ⟨_, List.mem_cons_self, by simpa [Frame.holds, CqRead.ops] using read⟩
          | canceled op =>
            simp only [Option.ite_none_right_eq_some] at taken
            obtain ⟨_, taken⟩ := taken
            cases posted : s.posts[op]? with
            | none => simp [posted] at taken
            | some post =>
              simp only [posted] at taken
              split at taken
              · cases taken
                exact .inl ⟨nofun, rfl, rfl⟩
              · cases taken
                refine .inr ⟨frame, rest, [], rfl, List.getElem?_set_self ?_, nofun⟩
                rwa [(s.sameRecords_handleCancelled op post).threads]
          | failed =>
            cases taken
            exact .inl ⟨nofun, rfl, rfl⟩

theorem holds_of_read {answer : CqRead} (taken : step config s ⟨active, .read answer⟩ = some t)
    (read : op ∈ answer.ops) :
    t.fault ≠ none ∧ t.threads = s.threads ∧ t.rx = s.rx ∨ t.Holds active op := by
  rcases read_step taken with failed | ⟨frame, rest, dispatched, _, moved, holding⟩
  · exact .inl failed
  · obtain ⟨frame, member, holds⟩ := holding op read
    exact .inr ⟨_, moved, frame, List.mem_append_left _ member, holds⟩

theorem read_of_work {user : Option Nat} {side : Side} {retry : Bool}
    (found : s.threads[thread]? = some (.work user side retry :: rest))
    (taken : step config s ⟨thread, act⟩ = some t) : ∃ answer, act = .read answer := by
  unfold step at taken
  split at taken
  · cases taken
  · simp only [found] at taken
    cases act with
    | read answer => exact ⟨answer, rfl⟩
    | fi answer => simp [State.executeFi] at taken
    | callbackReturns => cases taken
    | advance => cases taken
    | _ => simp [inUserCode] at taken

/-- Where the receive is on its way from the completion queue to the end of its callback, while
the call made over `base` runs. -/
inductive Serving (thread : Nat) (base : List Frame) (op : Nat) (s : State) : Prop
  | unread (above : List Frame) (side : Side) (retry : Bool) : op ∈ s.rx →
      s.threads[thread]? = some (above ++ .work none side retry :: .call none .leave :: base) →
      Serving thread base op s
  | held : s.Holds thread op → Serving thread base op s
  | done : op ∈ Event.returnedOps s.history → Serving thread base op s

/-- After its last poll the call has read the completion. -/
theorem unread_of_poll {side : Side} {retry : Bool} (unread : op ∈ s.rx)
    (found : s.threads[thread]? = some (.work none side retry :: .call none .leave :: base))
    (attends : Attends config thread base op s ⟨thread, act⟩) (still : op ∈ t.rx)
    (taken : step config s ⟨thread, act⟩ = some t) : Serving thread base op t := by
  obtain ⟨answer, rfl⟩ := read_of_work found taken
  by_cases read : op ∈ answer.ops
  · rcases holds_of_read taken read with ⟨_, threads, _⟩ | held
    · exact .unread [] side retry still (by rw [threads, found]; rfl)
    · exact .held held
  · rcases read_step taken with ⟨_, threads, _⟩ | ⟨frame, rest, dispatched, here, moved, _⟩
    · exact .unread [] side retry still (by rw [threads, found]; rfl)
    · rw [found] at here
      cases here
      cases side with
      | sends => exact .unread dispatched .recvs _ still moved
      | recvs =>
        have more := fun last => read (attends.completes answer rfl rfl retry found unread last)
        simp only [Frame.afterPoll] at more moved
        split at moved
        · exact .unread dispatched .sends false still moved
        · rename_i last
          exact absurd (if_neg last) more

theorem Serving.step (serving : Serving thread base op s) (settled : s.Settled)
    (posted : s.posts[op]? = some post) (shared : post.kind = .sharedRecv) {action : Action}
    (attends : Attends config thread base op s action)
    (undisturbed : Undisturbed config thread op s action) (taken : step config s action = some t) :
    Serving thread base op t := by
  obtain ⟨active, act⟩ := action
  have effect := step_effect taken
  cases serving with
  | unread above side retry unread found =>
    rcases effect_rx effect unread with still | ⟨answer, reads, read⟩ | canceled
    · rcases (effect_moves effect).under (fun _ _ => Restack.tops) found with
        ⟨kept, later⟩ | ⟨rfl, rfl, -⟩
      · exact .unread kept side retry still later
      · exact unread_of_poll unread found attends still taken
    · have own : active = thread := by
        by_contra other
        exact undisturbed.own other answer reads read
      subst own
      cases act with
      | read given =>
        cases reads
        rcases holds_of_read taken read with ⟨_, threads, rx⟩ | held
        · exact .unread above side retry (rx ▸ unread) (by rw [threads, found])
        · exact .held held
      | _ => cases reads
    · exact absurd canceled attends.uncanceled
  | held holds =>
    by_cases own : active = thread
    · subst own
      rcases holds.step settled posted shared taken with
        held | ⟨_, frame, top, handles, limit⟩ | ⟨_, _, returned⟩
      · exact .held held
      · exact absurd limit (Nat.not_lt.mpr (undisturbed.below frame top handles))
      · exact .done returned
    · obtain ⟨stack, found, holding⟩ := holds
      exact .held ⟨stack, by rw [threads_of_effect effect own, found], holding⟩
  | done returned => exact .done (Books.returned_of_entries (effect_entry settled effect) returned)

def State.Stuck (s : State) (thread op : Nat) : Prop :=
  s.Parking op ∨ ∃ other, other ≠ thread ∧ s.Holds other op

theorem State.Stuck.step (stuck : s.Stuck thread op) (settled : s.Settled)
    (posted : s.posts[op]? = some post) (shared : post.kind = .sharedRecv) {action : Action}
    (attends : Attends config thread base op s action) (taken : step config s action = some t) :
    t.Stuck thread op := by
  obtain ⟨active, act⟩ := action
  rcases stuck with parking | ⟨other, different, holds⟩
  · exact .inl (parking.step posted shared attends.undrained taken)
  · by_cases own : active = other
    · subst own
      rcases holds.step settled posted shared taken with
        held | ⟨parked, _⟩ | ⟨returns, ⟨frame, top, running⟩, _⟩
      · exact .inr ⟨active, different, held⟩
      · exact .inl parked
      · exact absurd running (attends.others different returns frame top)
    · obtain ⟨stack, found, holding⟩ := holds
      refine .inr ⟨other, different, stack, ?_, holding⟩
      rw [threads_of_effect (step_effect taken) own, found]

/-- A step that disturbs the call leaves the receive to others, or ends the program. -/
theorem stuck_of_disturbed (posted : s.posts[op]? = some post) (shared : post.kind = .sharedRecv)
    {action : Action} (disturbed : ¬ Undisturbed config thread op s action)
    (taken : step config s action = some t) :
    t.fault ≠ none ∧ t.threads = s.threads ∨ t.Stuck thread op := by
  obtain ⟨active, act⟩ := action
  by_cases own : active ≠ thread → ∀ answer ∈ act.answer, op ∉ answer.ops
  · have limit : ¬ ∀ frame ∈ s.top active, frame.handles op = true →
        s.recursionDepth ≤ config.recursionDepth := fun below => disturbed ⟨below, own⟩
    push Not at limit
    obtain ⟨frame, top, handles, limit⟩ := limit
    obtain ⟨rest, found⟩ := top_eq_some.mp top
    cases frame with
    | dispatch user side entries =>
      cases entries with
      | nil => cases handles
      | cons next entries =>
        have same : next = op := by simpa [Frame.handles] using handles
        rcases dispatch_step found (by simp [same]) posted shared taken with
          failed | ⟨_, below⟩ | ⟨parking, _⟩
        · exact .inl failed
        · exact absurd (below handles) (Nat.not_le.mpr limit)
        · exact .inr (.inl parking)
    | _ => cases handles
  · push Not at own
    obtain ⟨other, answer, reads, read⟩ := own
    cases act with
    | read given =>
      cases reads
      rcases holds_of_read taken read with ⟨failed, threads, _⟩ | held
      · exact .inl ⟨failed, threads⟩
      · exact .inr (.inr ⟨active, other, held⟩)
    | _ => cases reads

theorem step_of_fault {action : Action} (failed : s.fault ≠ none) : step config s action = none := by
  unfold step
  rw [if_pos (Option.isSome_iff_ne_none.mpr failed)]

theorem State.Holds.outstanding (holds : s.Holds thread op) : op ∈ s.waiting + s.running := by
  obtain ⟨stack, found, frame, member, holding⟩ := holds
  have inside := List.mem_of_getElem? found
  have waits (has : op ∈ frame.waiting) : op ∈ s.waiting + s.running := by
    refine Multiset.mem_add.mpr (.inl (Multiset.mem_add.mpr (.inr ?_)))
    exact mem_total.mpr ⟨stack, inside, mem_total.mpr ⟨frame, member, has⟩⟩
  cases frame with
  | dispatch user side entries => exact waits (by simpa [Frame.holds] using holding)
  | invoke next via => exact waits (by simpa [Frame.holds, eq_comm] using holding)
  | callback next via =>
    refine Multiset.mem_add.mpr (.inr ?_)
    refine mem_total.mpr ⟨stack, inside, mem_total.mpr ⟨_, member, ?_⟩⟩
    simpa [Frame.holds, eq_comm] using holding
  | _ => cases holding

theorem State.Parking.outstanding (parking : s.Parking op) : op ∈ s.waiting + s.running := by
  refine Multiset.mem_add.mpr (.inl (Multiset.mem_add.mpr ?_))
  rcases parking with queued | ⟨stack, inside, frame, member, parks⟩
  · left
    simp [State.stored, queued]
  · refine .inr (mem_total.mpr ⟨stack, inside, mem_total.mpr ⟨frame, member, ?_⟩⟩)
    cases frame with
    | park next side => simpa [Frame.parks, eq_comm] using parks
    | _ => cases parks

theorem not_ready_of_outstanding (sound : s.Sound) (marks : s.marks.Sound)
    (request : PostedAs s.posts op fun post => post.inplace = false)
    (outstanding : op ∈ s.waiting + s.running) : (s.heap op).ready = false := by
  obtain ⟨_, unreturned, unwithdrawn⟩ := sound.consistent.mem_outstanding.mp outstanding
  rw [← Bool.not_eq_true]
  intro ready
  rcases (marks.done op request).mp ready with returned | withdrawn
  · exact unreturned returned
  · exact unwithdrawn withdrawn

theorem place_of_completed (sound : s.Sound) (marks : s.marks.Sound)
    (posted : s.posts[op]? = some post) (shared : post.kind = .sharedRecv)
    (request : post.inplace = false) (completed : s.terminal op = some .completed) :
    (s.heap op).ready = true ∨ s.Parking op ∨ ∃ thread, s.Holds thread op := by
  have unread : ¬ s.Pending op := by
    intro pending
    rw [sound.reported.pending op pending] at completed
    cases completed
  have uncanceled (user : Option Nat) : op ∉ s.cancelQueue user := by
    intro queued
    rw [sound.reported.queued user op queued] at completed
    cases completed
  by_cases outstanding : op ∈ s.waiting + s.running
  · right
    rcases Multiset.mem_add.mp outstanding with waits | runs
    · rcases Multiset.mem_add.mp waits with stored | inHand
      · simp only [State.stored, Multiset.mem_add, Multiset.mem_coe] at stored
        rcases stored with (fabric | comms) | parked | canceled
        · exact absurd (.inl fabric) unread
        · obtain ⟨c, member, waits⟩ := mem_total.mp comms
          obtain ⟨comm, found⟩ := List.getElem?_of_mem member
          have belongs := (sound.settled.comms comm c found op waits).of_found posted
          simp [userOf, shared] at belongs
        · exact .inl (.inl parked)
        · exact absurd canceled (uncanceled none)
      · obtain ⟨stack, inside, inHand⟩ := mem_total.mp inHand
        obtain ⟨frame, member, waits⟩ := mem_total.mp inHand
        obtain ⟨thread, found⟩ := List.getElem?_of_mem inside
        cases frame with
        | invoke next via =>
          exact .inr ⟨thread, stack, found, _, member, by simpa [Frame.holds, eq_comm] using waits⟩
        | dispatch user side entries =>
          exact .inr ⟨thread, stack, found, _, member, by simpa [Frame.holds] using waits⟩
        | park next side =>
          exact .inl (.inr ⟨stack, inside, _, member, by simpa [Frame.parks, eq_comm] using waits⟩)
        | call user code =>
          cases code with
          | post next =>
            obtain rfl : op = next := by simpa using waits
            exact absurd (.inr (.inl ⟨stack, inside, user, member⟩)) unread
          | _ => simp at waits
        | _ => simp at waits
    · obtain ⟨stack, inside, runs⟩ := mem_total.mp runs
      obtain ⟨frame, member, runs⟩ := mem_total.mp runs
      obtain ⟨thread, found⟩ := List.getElem?_of_mem inside
      cases frame with
      | callback next via =>
        exact .inr ⟨thread, stack, found, _, member, by simpa [Frame.holds, eq_comm] using runs⟩
      | _ => simp at runs
  · left
    have known := (List.getElem?_eq_some_iff.mp posted).1
    refine (marks.done op ⟨post, posted, request⟩).mpr ?_
    by_contra unlogged
    push Not at unlogged
    exact outstanding (sound.consistent.mem_outstanding.mpr ⟨known, unlogged⟩)

theorem State.Stuck.of_reaches (stuck : s.Stuck thread op) (settled : s.Settled)
    (posted : s.posts[op]? = some post) (shared : post.kind = .sharedRecv)
    (ran : Reaches (Libfabric.step config) (Attends config thread base op) s t) : t.Stuck thread op := by
  have all := ran.invariant
    (fun s => s.Settled ∧ s.posts[op]? = some post ∧ s.Stuck thread op) ⟨settled, posted, stuck⟩
    fun before action after holds attends taken => by
      obtain ⟨settled, posted, stuck⟩ := holds
      exact ⟨settled.effect (step_effect taken), posts_of_reaches settled (leads_one taken) posted,
        stuck.step settled posted shared attends taken⟩
  exact all.2.2

theorem Serving.of_reaches (serving : Serving thread base op s) (settled : s.Settled)
    (posted : s.posts[op]? = some post) (shared : post.kind = .sharedRecv)
    (ran : Reaches (Libfabric.step config) (fun s action => Attends config thread base op s action ∧
      Undisturbed config thread op s action) s t) : Serving thread base op t := by
  have all := ran.invariant
    (fun s => s.Settled ∧ s.posts[op]? = some post ∧ Serving thread base op s)
    ⟨settled, posted, serving⟩ fun before action after holds permitted taken => by
      obtain ⟨settled, posted, serving⟩ := holds
      exact ⟨settled.effect (step_effect taken), posts_of_reaches settled (leads_one taken) posted,
        serving.step settled posted shared permitted.1 permitted.2 taken⟩
  exact all.2.2

theorem ready_of_leads {threads : Nat} (reached : Leads (step config) (State.initial threads) s)
    (ran : Leads (step config) s t) (posted : s.posts[op]? = some post)
    (request : post.inplace = false) (ready : (s.heap op).ready = true) :
    (t.heap op).ready = true := by
  have settled := Settled.of_reaches reached
  have logged : op ∈ Event.returnedOps s.history ∨ op ∈ Event.canceledOps s.history :=
    ((marks_of_reaches reached).done op ⟨post, posted, request⟩).mp ready
  have kept := ran.invariant (fun t => t.Settled ∧ (op ∈ Event.returnedOps t.history ∨
      op ∈ Event.canceledOps t.history)) ⟨settled, logged⟩ fun before action after holds _ taken => by
    obtain ⟨settled, logged⟩ := holds
    have entries := effect_entry settled (step_effect taken)
    exact ⟨settled.effect (step_effect taken), logged.imp (Books.returned_of_entries entries)
      (Books.withdrawn_of_entries entries)⟩
  exact ((marks_of_reaches (reached.trans ran)).done op
    ⟨post, posts_of_reaches settled ran posted, request⟩).mpr kept.2

theorem step_contextProgress (caller : s.threads[thread]? = some base)
    (calls : step config s ⟨thread, .contextProgress⟩ = some t) : inUserCode base = true ∧
      t = s.setStack thread (.work none .sends false :: .call none .leave :: base) := by
  unfold step at calls
  split at calls
  · cases calls
  · simp only [caller, Option.ite_none_right_eq_some] at calls
    obtain ⟨user, calls⟩ := calls
    cases calls
    exact ⟨user, rfl⟩

theorem State.Stuck.contextProgress (stuck : s.Stuck thread op) (posted : s.posts[op]? = some post)
    (shared : post.kind = .sharedRecv) (caller : s.threads[thread]? = some base)
    (calls : Libfabric.step config s ⟨thread, .contextProgress⟩ = some t) : t.Stuck thread op := by
  obtain ⟨user, moved⟩ := step_contextProgress caller calls
  rcases stuck with parking | ⟨other, different, stack, found, holding⟩
  · refine .inl (parking.step posted shared (fun frame top => ?_) calls)
    obtain ⟨rest, here⟩ := top_eq_some.mp top
    rw [caller] at here
    cases here
    cases frame with
    | callback => rfl
    | _ => cases user
  · refine .inr ⟨other, different, stack, ?_, holding⟩
    rw [moved, setStack_threads, List.getElem?_set_ne (Ne.symm different), found]

theorem not_ready_of_stuck {threads : Nat} (reached : Leads (step config) (State.initial threads) s)
    (posted : s.posts[op]? = some post) (request : post.inplace = false)
    (stuck : s.Stuck thread op) : (s.heap op).ready = false := by
  refine not_ready_of_outstanding (Sound.of_reaches reached) (marks_of_reaches reached)
    ⟨post, posted, request⟩ ?_
  rcases stuck with parking | ⟨_, _, holds⟩
  · exact parking.outstanding
  · exact holds.outstanding

theorem not_holds_of_unread (sound : s.Sound) (unread : op ∈ s.rx) : ¬ s.Holds thread op := by
  rintro ⟨stack, found, frame, member, holding⟩
  have inside := List.mem_of_getElem? found
  have stored : op ∈ s.stored := by simp [State.stored, unread]
  have waits : op ∈ s.waiting := Multiset.mem_add.mpr (.inl stored)
  have apart := (Multiset.nodup_add.mp sound.consistent.waiting_nodup).2.2
  have free : op ∉ frame.waiting := fun has => Multiset.disjoint_left.mp apart stored
    (mem_total.mpr ⟨stack, inside, mem_total.mpr ⟨frame, member, has⟩⟩)
  have idle : op ∉ frame.running := fun has => sound.consistent.not_called_of_waiting waits
    (sound.consistent.called_of_running
      (mem_total.mpr ⟨stack, inside, mem_total.mpr ⟨frame, member, has⟩⟩))
  cases frame with
  | dispatch user side entries => exact free (by simpa [Frame.holds] using holding)
  | invoke next via => exact free (by simpa [Frame.holds, eq_comm] using holding)
  | callback next via => exact idle (by simpa [Frame.holds, eq_comm] using holding)
  | _ => cases holding

theorem not_back_of_fault {last : State} {allowed : State → Action → Prop} (failed : t.fault ≠ none)
    (ran : Reaches (step config) allowed t last) (inside : base.length <
      (t.threads[thread]?.getD []).length) : last.threads[thread]? ≠ some base := by
  have same : last = t := by
    refine ran.invariant (fun state => state = t) rfl fun before action after equal _ taken => ?_
    rw [equal, step_of_fault failed] at taken
    cases taken
  rw [same]
  intro back
  simp [back] at inside

theorem ready_of_serving {threads : Nat} (reached : Leads (step config) (State.initial threads) s)
    (posted : s.posts[op]? = some post) (request : post.inplace = false)
    (serving : Serving thread base op s) (back : s.threads[thread]? = some base)
    (free : ∀ frame ∈ base, frame.holds op = false) : (s.heap op).ready = true := by
  cases serving with
  | unread above side retry _ found =>
    rw [back] at found
    have length := congrArg List.length (Option.some.inj found)
    simp only [List.length_append, List.length_cons] at length
    omega
  | held holds =>
    obtain ⟨stack, found, frame, member, holding⟩ := holds
    rw [back] at found
    cases found
    rw [free frame member] at holding
    cases holding
  | done returned =>
    exact ((marks_of_reaches reached).done op ⟨post, posted, request⟩).mpr (.inl returned)

/-- A call of `context_impl::progress`, at the top level or in a callback, leaves a completed
shared receive ready just if it was ready before, or its completion was unread at the call and is
then handled below the recursion limit. -/
theorem context_progress_serves_iff (config : Config) (threads : Nat) {s begun t : State}
    {thread op comm : Nat} {base : List Frame}
    (reached : Leads (step config) (State.initial threads) s)
    (shared : requestOf s.posts op = some (comm, .sharedRecv))
    (completed : op ∈ s.rx ∨ s.terminal op = some .completed)
    (caller : s.threads[thread]? = some base)
    (calls : step config s ⟨thread, .contextProgress⟩ = some begun)
    (returns : Reaches (step config) (Attends config thread base op) begun t)
    (back : t.threads[thread]? = some base) :
    (t.heap op).ready = true ↔ (s.heap op).ready = true ∨ op ∈ s.rx ∧
      Reaches (step config) (fun s action => Attends config thread base op s action ∧
        Undisturbed config thread op s action) begun t := by
  obtain ⟨post, posted, request, _, kind⟩ := requestOf_eq_some.mp shared
  have sound := Sound.of_reaches reached
  have ran : Leads (step config) s t := (leads_one calls).trans (returns.mono fun _ _ _ => trivial)
  have postedT := posts_of_reaches sound.settled ran posted
  have reachedT := reached.trans ran
  have settledBegun := sound.settled.effect (step_effect calls)
  have postedBegun := posts_of_reaches sound.settled (leads_one calls) posted
  have unserved (stuck : t.Stuck thread op) : ¬ (t.heap op).ready = true := by
    rw [not_ready_of_stuck reachedT postedT request stuck]
    nofun
  by_cases ready : (s.heap op).ready = true
  · exact ⟨fun _ => .inl ready, fun _ => ready_of_leads reached ran posted request ready⟩
  by_cases unread : op ∈ s.rx
  · constructor
    · intro readyT
      rcases returns.all_or_exists (Undisturbed config thread op) with
        all | ⟨before, action, next, sooner, attends, disturbed, moved, later⟩
      · exact .inr ⟨unread, all⟩
      · have postedBefore := posts_of_reaches settledBegun sooner postedBegun
        have settledBefore : before.Settled :=
          Settled.of_reaches ((reached.trans (leads_one calls)).trans (sooner.mono fun _ _ _ => trivial))
        rcases stuck_of_disturbed postedBefore kind disturbed moved with ⟨failed, same⟩ | stuck
        · exact absurd back (not_back_of_fault failed later (by rw [same]; exact attends.inside))
        · exact absurd readyT (unserved (stuck.of_reaches (settledBefore.effect (step_effect moved))
            (posts_of_reaches settledBefore (leads_one moved) postedBefore) kind later))
    · rintro (old | ⟨_, all⟩)
      · exact absurd old ready
      · have free : ∀ frame ∈ base, frame.holds op = false := by
          intro frame member
          rw [← Bool.not_eq_true]
          exact fun holding => not_holds_of_unread sound unread ⟨base, caller, frame, member, holding⟩
        have begins : Serving thread base op begun := by
          rw [(step_contextProgress caller calls).2]
          exact .unread [] .sends false unread
            (List.getElem?_set_self (List.getElem?_eq_some_iff.mp caller).1)
        exact ready_of_serving reachedT postedT request
          (begins.of_reaches settledBegun postedBegun kind all) back free
  · refine iff_of_false ?_ fun either => either.elim ready fun here => unread here.1
    have passedOver (stuck : s.Stuck thread op) : ¬ (t.heap op).ready = true :=
      unserved ((stuck.contextProgress posted kind caller calls).of_reaches settledBegun postedBegun
        kind returns)
    have read := completed.resolve_left unread
    rcases place_of_completed sound (marks_of_reaches reached) posted kind request read with
      done | parking | ⟨other, holds⟩
    · exact absurd done ready
    · exact passedOver (.inl parking)
    · by_cases own : other = thread
      · -- The frame that holds it lies under the call and is there when the call returns.
        subst own
        obtain ⟨stack, found, holding⟩ := holds
        obtain rfl := Option.some.inj (caller.symm.trans found)
        rw [not_ready_of_outstanding (Sound.of_reaches reachedT) (marks_of_reaches reachedT)
          ⟨post, postedT, request⟩ (Holds.outstanding ⟨base, back, holding⟩)]
        nofun
      · exact passedOver (.inr ⟨other, own, holds⟩)

/-- A shared receive that the call reads is called back. -/
theorem context_progress_serves_unread :
    ∃ s begun t, Leads (step ⟨20, 32, 64⟩) (State.initial 1) s ∧ 0 ∈ s.rx ∧
      step ⟨20, 32, 64⟩ s ⟨0, .contextProgress⟩ = some begun ∧
      Reaches (step ⟨20, 32, 64⟩) (Attends ⟨20, 32, 64⟩ 0 [] 0) begun t ∧
      t.threads[0]? = some [] ∧ (t.heap 0).ready = true := by
  obtain ⟨s, begun, t, reached, calls, returns, shared, unread, caller, back⟩ :=
    exists_call_of_run (step ⟨20, 32, 64⟩) (fun _ _ => True) (State.initial 1)
      [⟨0, .getCommunicator⟩, ⟨0, .sharedRecv 0 1 7⟩, ⟨0, .fi .success⟩, ⟨0, .read .nothing⟩,
        ⟨0, .advance⟩] ⟨0, .contextProgress⟩
      (fun _ s action => Attends ⟨20, 32, 64⟩ 0 [] 0 s action ∧
        Undisturbed ⟨20, 32, 64⟩ 0 0 s action)
      [⟨0, .read .nothing⟩, ⟨0, .read (.entries [0])⟩, ⟨0, .advance⟩, ⟨0, .advance⟩,
        ⟨0, .callbackReturns⟩, ⟨0, .advance⟩, ⟨0, .advance⟩]
      (fun s t => requestOf s.posts 0 = some (0, .sharedRecv) ∧ 0 ∈ s.rx ∧
        s.threads[0]? = some [] ∧ t.threads[0]? = some [])
      (by decide +kernel)
  have attended := returns.mono fun _ _ => And.left
  exact ⟨s, begun, t, reached, unread, calls, attended, back,
    (context_progress_serves_iff _ 1 reached shared (.inl unread) caller calls attended back).mpr
      (.inr ⟨unread, returns⟩)⟩

/-- Callbacks of shared receives nest until the recursion limit is reached, and the innermost one
posts a shared receive that completes at once and is queued.  When all of them have returned, the
limit is not reached, but `context_impl::progress` does not call the receive back. -/
theorem parked_receive_never_ready :
    ∃ s begun t, Leads (step ⟨20, 32, 64⟩) (State.initial 1) s ∧
      requestOf s.posts 21 = some (0, .sharedRecv) ∧ s.terminal 21 = some .completed ∧
      s.recursionDepth = 0 ∧ s.threads[0]? = some [] ∧
      step ⟨20, 32, 64⟩ s ⟨0, .contextProgress⟩ = some begun ∧
      Reaches (step ⟨20, 32, 64⟩) (Attends ⟨20, 32, 64⟩ 0 [] 21) begun t ∧
      t.threads[0]? = some [] ∧ (t.heap 21).ready = false := by
  obtain ⟨s, begun, t, reached, calls, returns, shared, completed, depth, caller, back, unready⟩ :=
    exists_call_of_run (step ⟨20, 32, 64⟩) (fun _ _ => True) (State.initial 1)
      ([⟨0, .getCommunicator⟩] ++ (List.range 22).flatMap nestedReceive ++
        [⟨0, .advance⟩, ⟨0, .advance⟩] ++ (List.range 21).flatMap fun _ =>
          [⟨0, .callbackReturns⟩, ⟨0, .advance⟩, ⟨0, .advance⟩])
      ⟨0, .contextProgress⟩ (fun _ => Attends ⟨20, 32, 64⟩ 0 [] 21)
      [⟨0, .read .nothing⟩, ⟨0, .read .nothing⟩, ⟨0, .advance⟩]
      (fun s t => requestOf s.posts 21 = some (0, .sharedRecv) ∧
        s.terminal 21 = some .completed ∧ s.recursionDepth = 0 ∧ s.threads[0]? = some [] ∧
        t.threads[0]? = some [] ∧ (t.heap 21).ready = false)
      (by decide +kernel)
  exact ⟨s, begun, t, reached, shared, completed, depth, caller, calls, returns, back, unready⟩

end Oomph.Libfabric
