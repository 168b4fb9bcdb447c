import Oomph.Nccl.Passes

namespace Oomph.Nccl

open Machine State

def Within (s : State) (action : Action) : Prop :=
  Smooth s action ∧ s.stack ≠ []

def Fires (_ : State) (action : Action) : Prop :=
  ∃ event, action = .fire event

instance (s : State) (action : Action) : Decidable (Within s action) :=
  inferInstanceAs (Decidable (_ ∧ _))

/-- The pass of a call over a queue: the queue is scanned in `scanned`, and the requests that are
ready there are called, in the order in which they were posted. -/
structure Pass (rank : RankType) (key : Nat × Side) (before scanned after : State) : Prop where
  begun : before.stack = [.queue key.1 key.2]
  waits : Reaches (Nccl.step rank) Fires before scanned
  runs : Reaches (Nccl.step rank) Within scanned after
  ended : after.stack = [key.2.next key.1]
  calls : after.callsOf key = scanned.callsOf key ++ scanned.readyAt key
  kept : Kept scanned key after
  inOrder : (scanned.readyAt key).Pairwise (· < ·) ∧ (after.reqsAt key).queue.Pairwise (· < ·)

variable {rank : RankType} {s t x y b : State} {action : Action} {key : Nat × Side} {comm : Nat}

theorem State.Orderly.along (orderly : s.Orderly)
    (within : Reaches (Nccl.step rank) Within s t) : t.Orderly :=
  within.invariant State.Orderly orderly fun _ _ _ orderly within taken =>
    orderly.step within.1 (step_effect taken)

theorem State.Orderly.idle (orderly : s.Orderly) (stack : s.stack = [.queue key.1 key.2]) :
    (s.reqsAt key).inProgress = false := by
  refine Bool.eq_false_iff.mpr fun mark => ?_
  have looped := orderly.marked key mark
  simp [State.loops, stack, List.filterMap_cons] at looped

inductive Phase (rank : RankType) (key : Nat × Side) (b x : State) : Prop
  | waits : Reaches (Nccl.step rank) Fires b x → x.stack = [.queue key.1 key.2] → Phase rank key b x
  | loops (scanned : State) : Reaches (Nccl.step rank) Fires b scanned → scanned.Orderly →
      Reaches (Nccl.step rank) Within scanned x → Partway key [] scanned x → Phase rank key b x
  | done (scanned after : State) : Pass rank key b scanned after →
      Reaches (Nccl.step rank) Within after x → Phase rank key b x

theorem Phase.step (phase : Phase rank key b x) (orderly : x.Orderly)
    (begun : b.stack = [.queue key.1 key.2]) (within : Within x action)
    (taken : Nccl.step rank x action = some y) : Phase rank key b y := by
  have effect := step_effect taken
  have finished {scanned : State} (fires : Reaches (Nccl.step rank) Fires b scanned)
      (sorted : scanned.Orderly) (run : Reaches (Nccl.step rank) Within scanned y)
      (ended : Over key [] scanned y) : Phase rank key b y :=
    .done scanned y ⟨begun, fires, run, ended.stack, ended.calls, ended.kept,
      (sorted.ordered key).filter _, (orderly.step within.1 effect).ordered key⟩ .refl
  cases phase with
  | waits fires stack =>
    rcases scan_of_effect orderly.toAccounted within.1 effect stack (orderly.idle stack) with
      ⟨fire, same⟩ | partway | ended
    · exact .waits (fires.extend fire taken) (same.trans stack)
    · exact .loops x fires orderly (Reaches.extend .refl within taken) partway
    · exact finished fires orderly (Reaches.extend .refl within taken) ended
  | loops scanned fires sorted run partway =>
    rcases partway.step orderly.toAccounted within.1 effect with partway | ended
    · exact .loops scanned fires sorted (run.extend within taken) partway
    · exact finished fires sorted (run.extend within taken) ended
  | done scanned after pass run => exact .done scanned after pass (run.extend within taken)

/-- A call that returns makes the pass. -/
theorem pass_of_run (key : Nat × Side) (orderly : b.Orderly) (begun : b.stack = [.queue key.1 key.2])
    (run : Reaches (Nccl.step rank) Within b t) (returned : t.stack = []) :
    ∃ scanned after, Pass rank key b scanned after ∧ Reaches (Nccl.step rank) Within after t := by
  have phase : t.Orderly ∧ Phase rank key b t := by
    refine Reaches.invariant (fun t => t.Orderly ∧ Phase rank key b t)
      ⟨orderly, .waits .refl begun⟩ ?_ run
    rintro before action after ⟨orderly, phase⟩ within taken
    exact ⟨orderly.step within.1 (step_effect taken), phase.step orderly begun within taken⟩
  cases phase.2 with
  | waits _ stack =>
    rw [returned] at stack
    cases stack
  | loops _ _ _ _ partway =>
    obtain ⟨above, frame, stack, _⟩ := partway.loop
    rw [returned] at stack
    simp at stack
  | done scanned after pass run => exact ⟨scanned, after, pass, run⟩

theorem Pass.run (pass : Pass rank key s x t) : Reaches (Nccl.step rank) Smooth s t := by
  refine (pass.waits.mono ?_).trans (pass.runs.mono fun _ _ within => within.1)
  rintro _ _ ⟨event, rfl⟩
  rfl

def Frame.Homed (count : Nat) : Frame → Prop
  | .queue comm _ => comm < count
  | .ready comm _ _ => comm < count
  | .callback comm _ _ _ => comm < count
  | _ => True

theorem Side.next_homed {count : Nat} (side : Side) (inside : comm < count) :
    (side.next comm).Homed count := by
  cases side with
  | sends => exact inside
  | recvs => trivial

def State.Homed (s : State) : Prop :=
  ∀ frame ∈ s.stack, frame.Homed s.comms.length

theorem State.Homed.step (homed : s.Homed) (effect : Effect rank s action t) : t.Homed := by
  have same (stack : t.stack = s.stack) (length : t.comms.length = s.comms.length) : t.Homed := by
    rwa [State.Homed, stack, length]
  have moved (top pushed : List Frame) {rest : List Frame} (before : s.stack = top ++ rest)
      (after : t.stack = pushed ++ rest) (length : t.comms.length = s.comms.length)
      (known : ∀ frame ∈ pushed, frame.Homed s.comms.length) : t.Homed := by
    intro frame member
    rw [length]
    rw [after] at member
    rcases List.mem_append.mp member with new | old
    · exact known frame new
    · exact homed frame (by rw [before]; exact List.mem_append_right _ old)
  have one {frame : Frame} (inside : frame.Homed s.comms.length) :
      ∀ other ∈ [frame], other.Homed s.comms.length := by
    intro other member
    rwa [List.mem_singleton.mp member]
  have found {comm : Nat} {c : CommunicatorImpl} (here : s.comms[comm]? = some c) :
      comm < s.comms.length := (List.getElem?_eq_some_iff.mp here).1
  have top {frame : Frame} {rest : List Frame} (stack : s.stack = frame :: rest) :
      frame.Homed s.comms.length := homed frame (by rw [stack]; exact List.mem_cons_self)
  cases effect with
  | getCommunicator =>
    intro frame member
    have inside := homed frame member
    cases frame with
    | queue => exact Nat.lt_of_lt_of_le inside (by simp)
    | ready => exact Nat.lt_of_lt_of_le inside (by simp)
    | callback => exact Nat.lt_of_lt_of_le inside (by simp)
    | context => trivial
    | shared => trivial
  | progress comm c _ here => exact moved [] [_] rfl rfl rfl (one (found here))
  | contextProgress => exact moved [] [_] rfl rfl rfl (one trivial)
  | skip comm side c rest stack here =>
    exact moved [_] [_] stack rfl rfl (one (side.next_homed (found here)))
  | scan comm side c rest stack here => exact moved [_] [_] stack rfl (by simp) (one (found here))
  | scanFailed comm side c rest i req scanned stack =>
    exact moved [_] [] stack rfl (by simp) nofun
  | call comm side e waiting rest stack =>
    have inside : comm < s.comms.length := top stack
    exact moved [_] [_] stack rfl rfl (one inside)
  | done comm side c rest stack here =>
    exact moved [_] [_] stack rfl (by simp) (one (side.next_homed (found here)))
  | sharedBusy rest stack => exact moved [_] [] stack rfl rfl nofun
  | sharedNone rest stack => exact moved [_] [] stack rfl rfl nofun
  | sharedFound rest e skipped left stack => exact moved [_] [_] stack rfl rfl (one trivial)
  | sharedFailed rest e skipped left stack => exact moved [_] [] stack rfl rfl nofun
  | returns comm side e waiting rest stack =>
    have inside : comm < s.comms.length := top stack
    exact moved [_] [_] stack rfl rfl (one inside)
  | sharedReturns e rest stack => exact moved [_] [] stack rfl rfl nofun
  | callbackThrows frame op rest stack => exact moved [_] [] stack rfl rfl nofun
  | startGroup => exact same rfl (by simp)
  | endEmpty => exact same rfl (by simp [resetGroup])
  | endGroup => exact same rfl (by simp [resetGroup])
  | postGroup => exact same rfl (by simp [State.postGroup])
  | postSingle => exact same rfl (by simp [State.postSingle])
  | _ => exact same rfl rfl

def Returns (s : State) (action : Action) : Prop :=
  s.stack ≠ [] ∧ (action = .advance ∨ action = .callbackReturns)

theorem Returns.within (returns : Returns s action) : Within s action := by
  refine ⟨?_, returns.1⟩
  rcases returns.2 with rfl | rfl <;> rfl

def Frame.weight : Frame → Nat
  | .queue _ .sends => 8
  | .ready _ .sends _ => 6
  | .callback _ .sends _ _ => 7
  | .queue _ .recvs => 5
  | .ready _ .recvs _ => 3
  | .callback _ .recvs _ _ => 4
  | .context => 2
  | .shared _ => 1

/-- What a call has still to do at most; a request is called once. -/
def State.toDo (s : State) : Nat :=
  2 * (s.posts.length - (Event.calls s.history).length) + (s.stack.map Frame.weight).sum

theorem State.Accounted.length_calls (accounted : s.Accounted) :
    (Event.calls s.history).length ≤ s.posts.length := by
  have placed := congrArg Multiset.card accounted.consistent.placed
  simp only [State.books, Multiset.card_add, Multiset.card_range, ← Event.coe_calls,
    Multiset.coe_card] at placed
  omega

private theorem toDo_advance (called : (Event.calls t.history).length ≤ t.posts.length)
    (taken : Nccl.step rank s .advance = some t) : t.toDo < s.toDo := by
  cases step_effect taken with
  | refused _ _ user =>
    -- user code does not advance
    simp only [Nccl.step, advance] at taken
    simp only [inUserCode] at user
    split at taken <;> simp_all
  | skip comm side c rest stack => cases side <;> simp [toDo, stack, Side.next, Frame.weight]
  | scan comm side c rest stack => cases side <;> simp [toDo, stack, Frame.weight]
  | scanFailed comm side c rest i req scanned stack =>
    cases side <;> simp [toDo, stack, Frame.weight]
  | call comm side e waiting rest stack =>
    have bound : (Event.calls s.history).length + 1 ≤ s.posts.length := by
      simpa [Event.calls] using called
    cases side <;> simp [toDo, stack, Frame.weight, Event.calls] <;> omega
  | done comm side c rest stack => cases side <;> simp [toDo, stack, Side.next, Frame.weight]
  | sharedBusy rest stack => simp [toDo, stack, Frame.weight]
  | sharedNone rest stack => simp [toDo, stack, Frame.weight]
  | sharedFound rest e skipped left stack =>
    simp [toDo, stack, Frame.weight, Event.calls]
    omega
  | sharedFailed rest e skipped left stack => simp [toDo, stack, Frame.weight]

private theorem toDo_return (taken : Nccl.step rank s .callbackReturns = some t) :
    t.toDo < s.toDo := by
  simp only [Nccl.step, returnCallback] at taken
  split at taken
  · rename_i comm side op waiting rest stack
    cases taken
    cases side <;> simp [toDo, stack, Frame.weight, Event.calls]
  · rename_i op rest stack
    cases taken
    simp [toDo, stack, Frame.weight, Event.calls]
  · cases taken

theorem toDo_lt (orderly : s.Orderly) (returns : Returns s action)
    (taken : Nccl.step rank s action = some t) : t.toDo < s.toDo := by
  have called := (orderly.step returns.within.1 (step_effect taken)).toAccounted.length_calls
  rcases returns.2 with rfl | rfl
  · exact toDo_advance called taken
  · exact toDo_return taken

theorem exists_step (homed : s.Homed) (unfinished : s.stack ≠ []) :
    ∃ action t, Returns s action ∧ Nccl.step rank s action = some t := by
  cases stack : s.stack with
  | nil => exact absurd stack unfinished
  | cons frame rest =>
    have inside := homed frame (by rw [stack]; exact List.mem_cons_self)
    cases frame with
    | queue comm side =>
      obtain ⟨c, found⟩ : ∃ c, s.comms[comm]? = some c := ⟨_, List.getElem?_eq_getElem inside⟩
      have progressed : ∃ t, s.progressQueue comm side rest = some t := by
        simp only [progressQueue, found]
        split
        · exact ⟨_, rfl⟩
        · split
          · exact ⟨_, rfl⟩
          · split <;> exact ⟨_, rfl⟩
      obtain ⟨t, taken⟩ := progressed
      exact ⟨.advance, t, ⟨unfinished, .inl rfl⟩, by simpa [Nccl.step, advance, stack] using taken⟩
    | ready comm side waiting =>
      obtain ⟨c, found⟩ : ∃ c, s.comms[comm]? = some c := ⟨_, List.getElem?_eq_getElem inside⟩
      cases waiting with
      | nil => exact ⟨.advance, _, ⟨unfinished, .inl rfl⟩, by
          simp [Nccl.step, advance, stack, visitReady, found]; rfl⟩
      | cons e waiting => exact ⟨.advance, _, ⟨unfinished, .inl rfl⟩, by
          simp [Nccl.step, advance, stack, visitReady]; rfl⟩
    | callback comm side op waiting =>
      exact ⟨.callbackReturns, _, ⟨unfinished, .inr rfl⟩, by
        simp [Nccl.step, returnCallback, stack]; rfl⟩
    | context =>
      exact ⟨.advance, _, ⟨unfinished, .inl rfl⟩, by simp [Nccl.step, advance, stack]; rfl⟩
    | shared op =>
      exact ⟨.callbackReturns, _, ⟨unfinished, .inr rfl⟩, by
        simp [Nccl.step, returnCallback, stack]; rfl⟩

/-- Whatever callbacks have done so far, a call returns when they return from now on. -/
theorem exists_returned (orderly : s.Orderly) (homed : s.Homed) :
    ∃ t, Reaches (Nccl.step rank) Within s t ∧ t.stack = [] := by
  have keeps : ∀ before action after, before.Orderly ∧ before.Homed → Returns before action →
      Nccl.step rank before action = some after → after.Orderly ∧ after.Homed := by
    rintro before action after ⟨orderly, homed⟩ returns taken
    exact ⟨orderly.step returns.within.1 (step_effect taken), homed.step (step_effect taken)⟩
  have ends : ∃ t, Reaches (Nccl.step rank) Returns s t ∧ t.stack = [] :=
    exists_final State.toDo keeps (fun _ _ _ holds => toDo_lt holds.1)
      (fun _ holds => exists_step holds.2) ⟨orderly, homed⟩
  obtain ⟨t, run, returned⟩ := ends
  exact ⟨t, run.mono fun _ _ returns => returns.within, returned⟩

theorem State.Orderly.scheduled_eq_card (orderly : s.Orderly) (comm : Nat) {kind : Kind}
    (own : kind ≠ .sharedRecv) :
    s.scheduled (kind.counter comm) = (((Finset.range s.posts.length).filter fun op =>
      requestOf s.posts op = some (comm, kind) ∧ op ∉ Event.returnedOps s.history).card : Nat) := by
  refine (orderly.consistent.outstanding_eq_card (kind.counter comm)).trans ?_
  simp only [State.books, Multiset.notMem_zero, not_false_eq_true, and_true, keyOf_counter_eq own]

/-- `progress` at the top level makes one pass over the sends and one over the receives, and does
nothing in an active group.  Requests are in one place each, in posting order in the queues, and
the counters count those whose callback has not returned. -/
theorem progress_passes (reached : Reaches (Nccl.step rank) Smooth State.initial s) :
    (∀ key, (s.reqsAt key).queue.Pairwise (· < ·)) ∧
    s.pending + Event.calledOps s.history = Multiset.range s.posts.length ∧
    (∀ comm kind, kind ≠ .sharedRecv →
      s.scheduled (kind.counter comm) = (((Finset.range s.posts.length).filter fun op =>
        requestOf s.posts op = some (comm, kind) ∧
          op ∉ Event.returnedOps s.history).card : Nat)) ∧
    ∀ comm c, s.comms[comm]? = some c →
      (s.inUserCode = true → c.isGroupActive = true →
        Nccl.step rank s (.progress comm) = some (s.throws .progressInGroup)) ∧
      (s.stack = [] → c.isGroupActive = false →
        ∃ begun, Nccl.step rank s (.progress comm) = some begun ∧
          (∀ x, Reaches (Nccl.step rank) Within begun x →
            ∃ t, Reaches (Nccl.step rank) Within x t ∧ t.stack = []) ∧
          ∀ t, Reaches (Nccl.step rank) Within begun t → t.stack = [] →
            ∃ sends sent recvs received, Pass rank (comm, .sends) begun sends sent ∧
              Pass rank (comm, .recvs) sent recvs received ∧
              Reaches (Nccl.step rank) Within received t) := by
  have orderly := State.Orderly.of_reaches reached
  refine ⟨orderly.ordered, ?_, fun comm kind own => orderly.scheduled_eq_card comm own, ?_⟩
  · simpa [State.books] using orderly.consistent.placed
  intro comm c found
  refine ⟨fun user active => ?_, fun top inactive => ?_⟩
  · simp [Nccl.step, State.call, user, State.progress, found, active]
  have taken : Nccl.step rank s (.progress comm) = some (s.setStack [.queue comm .sends]) := by
    simp [Nccl.step, State.call, State.inUserCode, top, State.progress, found, inactive]
  have begun : (s.setStack [.queue comm .sends]).Orderly := orderly.step rfl (step_effect taken)
  have homed : (s.setStack [.queue comm .sends]).Homed := by
    intro frame member
    rw [List.mem_singleton.mp member]
    exact (List.getElem?_eq_some_iff.mp found).1
  refine ⟨_, taken, fun x run => ?_, fun t run returned => ?_⟩
  · exact exists_returned (begun.along run)
      (run.invariant State.Homed homed fun _ _ _ homed _ taken => homed.step (step_effect taken))
  · obtain ⟨sends, sent, first, rest⟩ := pass_of_run (comm, .sends) begun rfl run returned
    have sorted : sent.Orderly := first.run.invariant State.Orderly begun
      fun _ _ _ orderly smooth taken => orderly.step smooth (step_effect taken)
    obtain ⟨recvs, received, second, last⟩ :=
      pass_of_run (comm, .recvs) sorted first.ended rest returned
    exact ⟨sends, sent, recvs, received, first, second, last⟩

/-- Two sends and a receive are posted, the event of the second send has fired, and `progress` is
called. -/
theorem progress_passes_reached : ∃ s begun sends sent recvs received t,
    Reaches (Nccl.step 0) Smooth State.initial s ∧
    s.readyAt (0, .sends) = [1] ∧ s.unreadyAt (0, .sends) = [0] ∧
    s.unreadyAt (0, .recvs) = [2] ∧ Nccl.step 0 s (.progress 0) = some begun ∧
    Pass 0 (0, .sends) begun sends sent ∧ Pass 0 (0, .recvs) sent recvs received ∧
    Reaches (Nccl.step 0) Within received t ∧ t.stack = [] := by
  have ran : ((run (Nccl.step 0) Smooth State.initial
      [.getCommunicator, .post 0 .send 1 7 0 .ok, .post 0 .send 1 8 0 .ok, .post 0 .recv 1 9 0 .ok,
        .fire 126]).map fun s => decide (s.readyAt (0, .sends) = [1] ∧
          s.unreadyAt (0, .sends) = [0] ∧ s.unreadyAt (0, .recvs) = [2] ∧ s.stack = [] ∧
          ∃ c ∈ s.comms[0]?, c.isGroupActive = false)) = some true := by
    decide +kernel
  obtain ⟨s, reached, facts⟩ := Option.map_eq_some_iff.mp ran
  obtain ⟨ready, waiting, others, top, c, found, inactive⟩ := of_decide_eq_true facts
  have smooth := reaches_of_run reached
  obtain ⟨-, -, -, calls⟩ := progress_passes smooth
  obtain ⟨begun, taken, returns, passes⟩ := (calls 0 c found).2 top inactive
  obtain ⟨t, run, returned⟩ := returns begun .refl
  obtain ⟨sends, sent, recvs, received, first, second, last⟩ := passes t run returned
  exact ⟨s, begun, sends, sent, recvs, received, t, smooth, ready, waiting, others, taken, first,
    second, last, returned⟩

end Oomph.Nccl
