import Oomph.Machine.Reentry
import Oomph.Nccl.Flags

namespace Oomph.Nccl

open Machine State

def Frame.covers : Frame → Nat × Side → Bool
  | .queue comm side, key => comm = key.1 && (side = key.2 || side = .sends)
  | .ready comm side _, key => comm = key.1 && side = .sends && key.2 = .recvs
  | .callback comm side _ _, key => comm = key.1 && side = .sends && key.2 = .recvs
  | _, _ => false

/-- What is assumed while the call of `progress` made over `base` runs: no callback throws, no
query of an event fails, and the operation of the request is complete whenever `is_ready` is
asked about it. -/
structure Attends (base : List Frame) (key : Nat × Side) (e : Nat) (s : State) (action : Action) :
    Prop where
  inside : base.length < s.stack.length
  returns : action ≠ .callbackThrows
  answers : ∀ op < s.posts.length, s.isReady op ≠ none
  complete : e ∈ (s.reqsAt key).queue → s.isReady e = some true

instance (base : List Frame) (key : Nat × Side) (e : Nat) (s : State) (action : Action) :
    Decidable (Attends base key e s action) :=
  decidable_of_iff (_ ∧ _ ∧ _ ∧ _)
    ⟨fun ⟨inside, returns, answers, complete⟩ => ⟨inside, returns, answers, complete⟩,
      fun ⟨inside, returns, answers, complete⟩ => ⟨inside, returns, answers, complete⟩⟩

variable {rank : RankType} {s t : State} {action : Action} {e : Nat} {key : Nat × Side}
  {base rest : List Frame}

theorem Attends.not_failed (attends : Attends base key e s action) (settled : s.Settled) :
    ¬ ∃ op, s.Queued op ∧ s.isReady op = none := by
  rintro ⟨op, queued, failed⟩
  exact attends.answers op (settled.queued op queued) failed

/-- A request that waits while its queue is marked, by a loop that is not part of the call. -/
abbrev State.Barred (s : State) (base : List Frame) (key : Nat × Side) (e : Nat) : Prop :=
  Machine.Barred Frame.loop key base s.stack ((s.reqsAt key).inProgress = true)
    (e ∈ (s.reqsAt key).queue ∨ e ∈ base.flatMap Frame.waiting)

theorem Placing.busy (placing : Placing s action t) (busy : (s.reqsAt key).inProgress = true)
    (other : ∀ frame, s.stack.head? = some frame → frame.loop ≠ some key) :
    (t.reqsAt key).inProgress = true ∧ (s.reqsAt key).queue ⊆ (t.reqsAt key).queue := by
  have updated : ∀ {comm : Nat} {side : Side} {reqs : RequestQueue}, (comm, side) ≠ key →
      t.reqsAt = Function.update s.reqsAt (comm, side) reqs →
      (t.reqsAt key).inProgress = true ∧ (s.reqsAt key).queue ⊆ (t.reqsAt key).queue := by
    intro comm side reqs different same
    rw [same, Function.update_of_ne (Ne.symm different)]
    exact ⟨busy, List.Subset.refl _⟩
  have kept (reqs : t.reqsAt = s.reqsAt) :
      (t.reqsAt key).inProgress = true ∧ (s.reqsAt key).queue ⊆ (t.reqsAt key).queue := by
    rw [reqs]
    exact ⟨busy, List.Subset.refl _⟩
  have idle : ∀ {comm : Nat} {side : Side}, (s.reqsAt (comm, side)).inProgress = false →
      (comm, side) ≠ key := by
    rintro comm side free rfl
    rw [busy] at free
    cases free
  cases placing with
  | keep _ _ _ _ _ _ _ _ _ reqs => exact kept reqs
  | lost _ _ _ _ _ _ reqs => exact kept reqs
  | made post _ _ _ reqs =>
    rw [reqs key]
    split
    · exact ⟨busy, List.subset_append_left _ _⟩
    · exact ⟨busy, List.Subset.refl _⟩
  | scanned comm side _ _ free _ _ reqs => exact updated (idle free) reqs
  | scanFailed comm side _ _ _ free _ _ _ _ reqs => exact updated (idle free) reqs
  | called _ _ _ _ _ _ _ _ reqs => exact kept reqs
  | returned _ _ _ _ _ _ _ _ reqs => exact kept reqs
  | done comm side rest before _ _ reqs =>
    refine updated ?_ reqs
    rintro rfl
    exact other _ (by rw [before]; rfl) rfl
  | found _ _ _ _ _ reqs => exact kept reqs

theorem Placing.loops (placing : Placing s action t) :
    Enters Frame.loop (fun key => (s.reqsAt key).inProgress = false) s.stack t.stack := by
  cases placing with
  | keep top pushed rest before after short _ empty =>
    refine ⟨top, pushed, rest, before, after, short, fun frame member key loops => ?_⟩
    rw [(empty frame member).2] at loops
    cases loops
  | lost frame rest before after => exact after ▸ .pop before
  | made _ _ stack => exact stack ▸ .refl _
  | scanned _ _ rest before idle after =>
    exact ⟨[_], [_], rest, before, after, Nat.le_refl 1, by simp [idle]⟩
  | scanFailed _ _ rest _ before _ after => exact after ▸ .pop before
  | called _ _ _ _ rest before after => exact after ▸ .replace before rfl
  | returned _ _ _ _ rest before after => exact after ▸ .replace before rfl
  | done _ _ rest before after => exact ⟨[_], [_], rest, before, after, Nat.le_refl 1, by simp⟩
  | found _ rest before after => exact after ▸ .replace before rfl

theorem Placing.barred (placing : Placing s action t) (barred : s.Barred base key e)
    (inside : base.length < s.stack.length) : t.Barred base key e := by
  refine barred.step inside placing.loops (by simp) fun other busy waits => ?_
  obtain ⟨still, more⟩ := placing.busy busy other
  exact ⟨still, waits.imp_left fun queued => more queued⟩

theorem barred_along (barred : s.Barred base key e) (placed : s.Placed)
    (continued : Reaches (Nccl.step rank) (Attends base key e) s t) :
    t.Placed ∧ t.Barred base key e := by
  refine Reaches.invariant (fun t => t.Placed ∧ t.Barred base key e) ⟨placed, barred⟩ ?_ continued
  rintro before action after ⟨placed, barred⟩ attends taken
  have effect := step_effect taken
  exact ⟨placed.step effect,
    (placing_of_effect placed.toSettled effect).barred barred attends.inside⟩

abbrev State.CalledBack (s : State) (e : Nat) : Prop :=
  Oomph.CalledBack (s.requests e) s.history e

abbrev State.Attended (s : State) (base : List Frame) (key : Nat × Side) (e : Nat) : Prop :=
  Machine.Attended (fun frame => frame.covers key = true) base s.stack
    (e ∈ (s.reqsAt key).queue) (e ∈ s.taken) (s.CalledBack e)

theorem taken_step (returns : action ≠ .callbackThrows) (taken : e ∈ s.taken)
    (effect : Effect rank s action t) :
    e ∈ t.taken ∨ (t.heap e).ready = true ∧ ∃ frame ∈ s.stack, frame.running = some e := by
  have kept : ∀ (top pushed : List Frame) {rest : List Frame}, s.stack = top ++ rest →
      t.stack = pushed ++ rest → top.flatMap Frame.taken = [] → e ∈ t.taken := by
    intro top pushed rest before after empty
    rw [State.taken, before, List.flatMap_append, empty, List.nil_append] at taken
    rw [State.taken, after, List.flatMap_append]
    exact List.mem_append_right _ taken
  cases effect with
  | progress => exact .inl (kept [] [_] rfl rfl rfl)
  | contextProgress => exact .inl (kept [] [_] rfl rfl rfl)
  | skip comm side c rest stack => exact .inl (kept [_] [_] stack rfl rfl)
  | scan comm side c rest stack => exact .inl (kept [_] [_] stack rfl rfl)
  | scanFailed comm side c rest i req scanned stack =>
    exact .inl (kept [_] [] stack rfl rfl)
  | done comm side c rest stack => exact .inl (kept [_] [_] stack rfl rfl)
  | sharedBusy rest stack => exact .inl (kept [_] [] stack rfl rfl)
  | sharedNone rest stack => exact .inl (kept [_] [] stack rfl rfl)
  | sharedFound rest x skipped left stack =>
    exact .inl (kept [_] [_] stack rfl rfl)
  | sharedFailed rest x skipped left stack =>
    exact .inl (kept [_] [] stack rfl rfl)
  | call comm side x waiting rest stack =>
    exact .inl (by simpa [State.taken, stack] using taken)
  | returns comm side x waiting rest stack =>
    by_cases same : e = x
    · subst same
      exact .inr ⟨by simp, _, by rw [stack]; exact List.mem_cons_self, rfl⟩
    · exact .inl (by simpa [State.taken, stack, same] using taken)
  | sharedReturns x rest stack =>
    by_cases same : e = x
    · subst same
      exact .inr ⟨by simp, _, by rw [stack]; exact List.mem_cons_self, rfl⟩
    · exact .inl (by simpa [State.taken, stack, same] using taken)
  | callbackThrows => exact absurd rfl returns
  | _ => exact .inl taken

theorem Frame.covers_queue {comm : Nat} {side : Side}
    (covers : (Frame.queue comm side).covers key = true) :
    (comm, side) = key ∨ side = .sends ∧ key = (comm, .recvs) := by
  obtain ⟨other, otherSide⟩ := key
  cases side <;> cases otherSide <;> simp_all [Frame.covers]

theorem Frame.covers_ready {comm : Nat} {side : Side} {waiting : List Nat}
    (covers : (Frame.ready comm side waiting).covers key = true) :
    side = .sends ∧ key = (comm, .recvs) := by
  obtain ⟨other, otherSide⟩ := key
  cases side <;> cases otherSide <;> simp_all [Frame.covers]

theorem covers_step {frame : Frame} (stack : s.stack = frame :: base)
    (covers : frame.covers key = true) (queued : e ∈ (s.reqsAt key).queue)
    (marked : s.MarkedOn key) (idle : key ∉ base.filterMap Frame.loop) (settled : s.Settled)
    (attends : Attends base key e s action) (effect : Effect rank s action t) :
    e ∈ t.taken ∨ ∃ above frame, t.stack = above ++ frame :: base ∧ frame.covers key = true := by
  have same (after : t.stack = s.stack) :
      ∃ above frame, t.stack = above ++ frame :: base ∧ frame.covers key = true :=
    ⟨[], frame, after.trans stack, covers⟩
  -- the frame of the call is replaced by a later one
  have replaced {old : Frame} {rest : List Frame} (before : s.stack = old :: rest)
      (new : Frame) (after : t.stack = new :: rest) (still : old = frame → new.covers key = true) :
      ∃ above frame, t.stack = above ++ frame :: base ∧ frame.covers key = true := by
    rw [stack] at before
    obtain ⟨rfl, rfl⟩ := List.cons.inj before
    exact ⟨[], new, after, still rfl⟩
  have gone {old : Frame} {rest : List Frame} (before : s.stack = old :: rest)
      (other : old.covers key = false) : False := by
    rw [stack] at before
    obtain ⟨rfl, -⟩ := List.cons.inj before
    rw [covers] at other
    cases other
  cases effect with
  | progress => exact .inr ⟨[_], frame, congrArg _ stack, covers⟩
  | contextProgress => exact .inr ⟨[_], frame, congrArg _ stack, covers⟩
  | skip comm side c rest before found passed =>
    refine .inr (replaced before _ rfl ?_)
    rintro rfl
    rcases Frame.covers_queue covers with rfl | ⟨rfl, rfl⟩
    · rw [reqsAt_of_found found] at queued
      rcases passed with busy | empty
      · have here := marked (by rw [reqsAt_of_found found, busy])
        rw [State.loops, stack, List.filterMap_cons_none rfl] at here
        exact absurd here idle
      · rw [empty] at queued
        cases queued
    · simp [Side.next, Frame.covers]
  | scan comm side c rest before found free =>
    have head : frame = .queue comm side := by
      rw [stack] at before
      exact (List.cons.inj before).1
    subst head
    rcases Frame.covers_queue covers with rfl | ⟨rfl, rfl⟩
    · have ready := attends.complete queued
      rw [reqsAt_of_found found] at queued
      exact .inl (by simp [State.taken, queued, ready])
    · exact .inr (replaced before _ rfl fun _ => by simp [Frame.covers])
  | scanFailed comm side c rest i req scanned before found free here failed =>
    exact absurd ⟨req, .inl ⟨comm, c, side, found, List.mem_of_getElem? here⟩, failed⟩
      (attends.not_failed settled)
  | call comm side x waiting rest before =>
    refine .inr (replaced before _ rfl ?_)
    rintro rfl
    exact covers
  | done comm side c rest before =>
    refine .inr (replaced before _ rfl ?_)
    rintro rfl
    obtain ⟨rfl, rfl⟩ := Frame.covers_ready covers
    simp [Side.next, Frame.covers]
  | sharedBusy rest before => exact (gone before rfl).elim
  | sharedNone rest before => exact (gone before rfl).elim
  | sharedFound rest x skipped left before => exact (gone before rfl).elim
  | sharedFailed rest x skipped left before => exact (gone before rfl).elim
  | returns comm side x waiting rest before =>
    refine .inr (replaced before _ rfl ?_)
    rintro rfl
    exact covers
  | sharedReturns x rest before => exact (gone before rfl).elim
  | callbackThrows => exact absurd rfl attends.returns
  | _ => exact .inr (same rfl)

/-- What is queued in a queue that is not scanned stays queued. -/
theorem Placing.queue_or_taken (placing : Placing s action t) (settled : s.Settled)
    (attends : Attends base key e s action) (queued : e ∈ (s.reqsAt key).queue) :
    e ∈ (t.reqsAt key).queue ∨ e ∈ t.taken := by
  cases placing with
  | keep _ _ _ _ _ _ _ _ _ reqs => exact .inl (reqs ▸ queued)
  | lost _ _ _ _ _ _ reqs => exact .inl (reqs ▸ queued)
  | made post _ _ _ reqs =>
    rw [reqs key]
    split
    · exact .inl (List.mem_append_left _ queued)
    · exact .inl queued
  | scanned comm side rest before _ after _ reqs =>
    by_cases same : key = (comm, side)
    · subst same
      have ready := attends.complete queued
      exact .inr (by simp [State.taken, after, queued, ready])
    · rw [reqs, Function.update_of_ne same]
      exact .inl queued
  | scanFailed _ _ _ _ _ _ _ query => exact absurd query (attends.not_failed settled)
  | called _ _ _ _ _ _ _ _ reqs => exact .inl (reqs ▸ queued)
  | returned _ _ _ _ _ _ _ _ reqs => exact .inl (reqs ▸ queued)
  | done comm side _ _ _ _ reqs =>
    refine .inl ?_
    rw [reqs]
    by_cases same : key = (comm, side)
    · subst same
      rw [Function.update_self]
      exact queued
    · rw [Function.update_of_ne same]
      exact queued
  | found _ _ _ _ _ reqs => exact .inl (reqs ▸ queued)

theorem attended_step (attended : s.Attended base key e) (placed : s.Placed)
    (known : requestOf s.posts e = some (key.1, key.2.kind)) (marked : s.MarkedOn key)
    (idle : key ∉ base.filterMap Frame.loop) (attends : Attends base key e s action)
    (effect : Effect rank s action t) : t.Attended base key e := by
  have placing := placing_of_effect placed.toSettled effect
  have answers := effect_answers placed effect
  refine attended.step placing.loops.tops ?_ ?_ ?_ ?_
  · exact placing.queue_or_taken placed.toSettled attends
  · exact fun frame stack covers queued =>
      covers_step stack covers queued marked idle placed.toSettled attends effect
  · intro taken
    refine (taken_step attends.returns taken effect).imp id ?_
    rintro ⟨ready, frame, member, runs⟩
    exact ⟨ready, answers.called_mono (placed.calls.running frame member e runs)⟩
  · obtain ⟨post, found, request, -⟩ := requestOf_eq_some.mp known
    exact fun back => back.step ⟨post, found, request⟩ answers

theorem attended_along (attended : s.Attended base key e) (placed : s.Placed)
    (known : requestOf s.posts e = some (key.1, key.2.kind)) (marked : s.MarkedOn key)
    (idle : key ∉ base.filterMap Frame.loop)
    (continued : Reaches (Nccl.step rank) (Attends base key e) s t) : t.Attended base key e := by
  have all : t.Placed ∧ requestOf t.posts e = some (key.1, key.2.kind) ∧ t.MarkedOn key ∧
      t.Attended base key e := by
    refine Reaches.invariant (fun t => t.Placed ∧ requestOf t.posts e = some (key.1, key.2.kind) ∧
      t.MarkedOn key ∧ t.Attended base key e) ⟨placed, known, marked, attended⟩ ?_ continued
    rintro before action after ⟨placed, known, marked, attended⟩ attends taken
    have effect := step_effect taken
    have placing := placing_of_effect placed.toSettled effect
    exact ⟨placed.step effect, placing.requestOf known,
      marked.step attends.returns (attends.not_failed placed.toSettled) placing,
      attended_step attended placed known marked idle attends effect⟩
  exact all.2.2.2

def State.Waits (s : State) (e : Nat) : Prop :=
  s.Queued e ∨ e ∈ s.waiting

theorem loop_of_waiting (typed : s.Typed) (known : requestOf s.posts e = some (key.1, key.2.kind))
    (waits : e ∈ s.waiting) : key ∈ s.loops := by
  obtain ⟨frame, member, inside⟩ := List.mem_flatMap.mp waits
  have taken := frame.waiting_sublist.subset inside
  cases loops : frame.loop with
  | none =>
    cases frame with
    | ready => cases loops
    | callback => cases loops
    | _ => cases inside
  | some other =>
    have same := home_unique known (typed.taken frame member other loops e taken)
    exact List.mem_filterMap.mpr ⟨frame, member, same ▸ loops⟩

theorem queue_of_queued (typed : s.Typed) (known : requestOf s.posts e = some (key.1, key.2.kind))
    (queued : s.Queued e) : e ∈ (s.reqsAt key).queue := by
  rcases queued_iff.mp queued with ⟨other, member⟩ | shared
  · rwa [home_unique known (typed.queued other e member)]
  · exact (home_own known (typed.shared e (.inl shared))).elim

/-- A call of `progress` that returns, with the operation of the request complete.  In an active
group `progress` throws. -/
def ProgressReturns (rank : RankType) (key : Nat × Side) (e : Nat) (s t : State) : Prop :=
  (∀ c, s.comms[key.1]? = some c → c.isGroupActive = false) ∧
  ∃ begun, Nccl.step rank s (.progress key.1) = some begun ∧
    Reaches (Nccl.step rank) (Attends s.stack key e) begun t ∧ t.stack = s.stack

/-- A request that waits in a queue is served by a call of `progress`, at the top level or in a
callback, exactly if the queue is not in progress. -/
theorem progress_serves_iff (reached : Leads (Nccl.step rank) State.initial s)
    (known : requestOf s.posts e = some (key.1, key.2.kind)) (waits : s.Waits e)
    (call : ProgressReturns rank key e s t) :
    t.CalledBack e ↔ (s.reqsAt key).inProgress = false := by
  obtain ⟨inactive, begun, calls, returns, back⟩ := call
  have entered : begun = s.setStack (.queue key.1 .sends :: s.stack) := by
    simp only [Nccl.step, State.call, State.progress, Option.ite_none_right_eq_some] at calls
    cases found : s.comms[key.1]? with
    | none => simp [found] at calls
    | some c => simpa [found, inactive c found, eq_comm] using calls.2
  have placed := Placed.of_reaches reached
  have started := Placed.of_reaches (reached.trans (leads_one calls))
  subst entered
  by_cases busy : (s.reqsAt key).inProgress = true
  · have here : e ∈ (s.reqsAt key).queue ∨ e ∈ s.waiting :=
      waits.imp_left (queue_of_queued placed.typed known)
    have barred : (s.setStack (.queue key.1 .sends :: s.stack)).Barred s.stack key e :=
      ⟨here, busy, [.queue key.1 .sends], rfl, by simp⟩
    obtain ⟨after, barred⟩ := barred_along barred started returns
    have uncalled : e ∉ Event.calledOps t.history := by
      refine after.calls.uncalled e (barred.waits.imp (fun queued => ?_) fun waits => ?_)
      · exact queued_iff.mpr (.inl ⟨key, queued⟩)
      · rw [State.waiting, back]
        exact waits
    exact ⟨fun served => absurd served.2 uncalled, fun free => by simp [busy] at free⟩
  · rw [Bool.not_eq_true] at busy
    have idle := placed.looping.not_mem busy
    have queued : s.Queued e :=
      waits.resolve_right fun waits => idle (loop_of_waiting placed.typed known waits)
    have marked : (s.setStack (.queue key.1 .sends :: s.stack)).MarkedOn key := by
      intro mark
      rw [show (s.reqsAt key).inProgress = true from mark] at busy
      cases busy
    have member : e ∈ (s.reqsAt key).queue := queue_of_queued placed.typed known queued
    have attended : (s.setStack (.queue key.1 .sends :: s.stack)).Attended s.stack key e :=
      .queued [] _ rfl (by simp [Frame.covers]) member
    have served := attended_along attended started known marked idle returns
    rw [State.Attended, back] at served
    refine ⟨fun _ => busy, fun _ => served.of_return fun taken => ?_⟩
    rw [State.taken, back] at taken
    exact placed.apart.queued e taken queued

end Oomph.Nccl
