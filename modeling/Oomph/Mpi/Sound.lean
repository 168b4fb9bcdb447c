import Oomph.Machine.Run
import Oomph.Mpi.Settled

namespace Oomph.Mpi

open Machine

namespace State

/-- A queued request: it owns itself and either MPI has not completed it, or a cancel
that came too late has and has left a null handle. -/
structure Pending (s : State) (e : Nat) : Prop where
  waits : (s.heap e).ready = false
  owned : (s.heap e).selfPtr = true
  handle : (s.heap e).req = some e ∧ s.transport e = .active ∨
    (s.heap e).req = none ∧ s.transport e = .waited

structure Sound (s : State) : Prop where
  loops : s.Loops
  typed : s.Typed
  recorded : s.Recorded
  distinct : (s.waiting + s.running).Nodup
  indexed : ∀ side, Indexed s.heap (s.reqs side).queue
  pending : ∀ e ∈ s.queued, s.Pending e

end State

variable {limit : Nat} {s t : State} {action : Action}

open State

inductive Moved (s t : State) : Prop
  | kept : t.waiting = s.waiting → t.running = s.running → Moved s t
  | started (e : Nat) : s.waiting = e ::ₘ t.waiting → t.running = e ::ₘ s.running → Moved s t
  | finished (e : Nat) : t.waiting = s.waiting → s.running = e ::ₘ t.running → Moved s t
  | dropped : t.waiting ≤ s.waiting → t.running = s.running → Moved s t

theorem Moved.distinct (moved : Moved s t) (distinct : (s.waiting + s.running).Nodup) :
    (t.waiting + t.running).Nodup := by
  cases moved with
  | kept waiting running => rwa [waiting, running]
  | started e waiting running =>
    rw [waiting, Multiset.cons_add] at distinct
    rwa [running, Multiset.add_cons]
  | finished e waiting running =>
    rw [running, Multiset.add_cons, Multiset.nodup_cons] at distinct
    rw [waiting]
    exact distinct.2
  | dropped waiting running =>
    rw [running]
    exact Multiset.nodup_of_le (add_le_add_left waiting _) distinct

private theorem indexed_of_same (indexed : ∀ side, Indexed s.heap (s.reqs side).queue)
    (queues : ∀ side, (t.reqs side).queue = (s.reqs side).queue)
    (same : ∀ e, (t.heap e).index = (s.heap e).index) :
    ∀ side, Indexed t.heap (t.reqs side).queue := by
  intro side i e found
  rw [same]
  rw [queues side] at found
  exact indexed side i e found

namespace State.Sound

theorem queue_nodup (sound : s.Sound) (side : Side) : (s.reqs side).queue.Nodup := by
  have waiting := (Multiset.nodup_add.mp sound.distinct).1
  have queued := (Multiset.nodup_add.mp waiting).1
  have both := (Multiset.nodup_add.mp queued).1
  cases side
  · exact (Multiset.nodup_add.mp both).1
  · exact (Multiset.nodup_add.mp both).2.1

theorem not_mem_queue (sound : s.Sound) {side other : Side} {e : Nat}
    (member : e ∈ (s.reqs side).queue) (different : other ≠ side) :
    e ∉ (s.reqs other).queue := by
  intro twice
  have first := sound.typed.queued side e member
  have second := sound.typed.queued other e twice
  rw [first] at second
  cases side <;> cases other <;> simp_all [Side.kind]

theorem indexed_create (sound : s.Sound) (kind : Kind) (rank : RankType) (tag : TagType) :
    ∀ side, Indexed (s.create kind rank tag).heap ((s.create kind rank tag).reqs side).queue := by
  intro side i e found
  have cases : (s.reqs side).queue[i]? = some e ∨
      e = s.posts.length ∧ kind = side.kind ∧ i = (s.reqs side).queue.length := by
    by_cases same : kind = side.kind
    · have appended : ((s.create kind rank tag).reqs side).queue =
          (s.reqs side).queue ++ [s.posts.length] := by
        subst kind
        cases side <;> rfl
      rw [appended] at found
      rcases concat_cases found with ⟨-, old⟩ | ⟨last, new⟩
      · exact .inl old
      · exact .inr ⟨new, same, last⟩
    · cases kind <;> cases side <;> first | exact .inl found | exact absurd rfl same
  rcases cases with old | ⟨rfl, rfl, rfl⟩
  · have known := sound.typed.queued side e (List.mem_of_getElem? old)
    rw [create_heap kind rank tag (Nat.ne_of_lt (requestKind_lt known))]
    exact sound.indexed side i e old
  · cases side <;> simp [State.create, enqueue, Heap.setIndex, Side.kind, reqs]

theorem indexed_enterLoop (sound : s.Sound) (side : Side) (positions : List Nat) (next : Stage)
    (rest : List Frame) : ∀ other, Indexed (s.enterLoop side positions next rest).heap
      ((s.enterLoop side positions next rest).reqs other).queue := by
  intro other
  obtain ⟨only, same, placed⟩ := compact_heap positions (sound.queue_nodup side)
    (sound.indexed side)
  by_cases equal : other = side
  · subst other
    cases side <;> exact placed
  · have queue : ((s.enterLoop side positions next rest).reqs other).queue =
        (s.reqs other).queue := by
      cases side <;> cases other <;> first | contradiction | rfl
    rw [queue]
    intro i e found
    have absent := sound.not_mem_queue (List.mem_of_getElem? found) (Ne.symm equal)
    have heap : (s.enterLoop side positions next rest).heap e = s.heap e := same e absent
    rw [heap]
    exact sound.indexed other i e found

theorem indexed_withdrawRecv (sound : s.Sound) {e x : Nat} (op : Nat)
    (found : s.recvs.queue[(s.heap e).index]? = some x) :
    ∀ side, Indexed (s.withdrawRecv e x op).heap ((s.withdrawRecv e x op).reqs side).queue := by
  obtain ⟨heap, queue, equal, -, -, placed, others⟩ := withdrawRecv_spec op found
  rw [equal]
  have before : ∀ y, ((((s.cancelHandle x op true).releaseSelfRef e).setCanceled e).heap y).index =
      (s.heap y).index := fun y => by simp
  intro side
  cases side with
  | recvs =>
    refine placed (sound.queue_nodup .recvs) fun i y position => ?_
    rw [before]
    exact sound.indexed .recvs i y position
  | sends =>
    intro i y position
    have member : y ∈ (s.reqs .sends).queue := List.mem_of_getElem? position
    have absent : y ∉ (s.reqs .recvs).queue := sound.not_mem_queue member nofun
    dsimp only
    rw [others y absent, before]
    exact sound.indexed .sends i y position

theorem indexed_effect (sound : s.Sound) (effect : Effect limit s action t) :
    ∀ side, Indexed t.heap (t.reqs side).queue := by
  have plain : ∀ {after : State}, after.sends = s.sends → after.recvs = s.recvs →
      (∀ e, (after.heap e).index = (s.heap e).index) →
      ∀ side, Indexed after.heap (after.reqs side).queue := by
    intro after sends recvs same
    refine indexed_of_same sound.indexed (fun side => ?_) same
    cases side
    · exact congrArg RequestQueue.queue sends
    · exact congrArg RequestQueue.queue recvs
  have marked : ∀ (side : Side) (ready : List Nat) (mark : Bool) (stack : List Frame),
      ∀ other, Indexed (s.setReqs side { s.reqs side with
        readyQueue := ready, inProgress := mark }).heap
        (({ s.setReqs side { s.reqs side with
          readyQueue := ready, inProgress := mark } with stack } : State).reqs other).queue := by
    intro side ready mark stack
    refine indexed_of_same (t := { s.setReqs side _ with stack }) sound.indexed
      (fun other => ?_) (fun e => by simp)
    cases side <;> cases other <;> rfl
  cases effect with
  | create kind rank tag => exact sound.indexed_create kind rank tag
  | runInplace kind rank tag =>
    exact plain (by cases kind <;> rfl) (by cases kind <;> rfl)
      (fun e => by cases kind <;> rfl)
  | testFailed stage side rest => exact marked side [] true rest
  | testEmpty stage next side rest => exact marked side [] false _
  | loopEnd side position finish rest => exact marked side _ false rest
  | compact stage next side rest positions =>
    exact sound.indexed_enterLoop side positions next rest
  | cancelRecv e x op held waits found => exact sound.indexed_withdrawRecv op found
  | _ => exact plain rfl rfl fun e => by simp

theorem not_queued_of_running (sound : s.Sound) {e : Nat} (runs : e ∈ s.running) :
    e ∉ s.queued := by
  intro queued
  have apart := (Multiset.nodup_add.mp sound.distinct).2.2
  exact Multiset.disjoint_left.mp apart (Multiset.mem_add.mpr (.inl queued)) runs

theorem not_queued_of_unvisited (sound : s.Sound) {e : Nat} (unvisited : e ∈ s.unvisited) :
    e ∉ s.queued := by
  intro queued
  have waiting := (Multiset.nodup_add.mp sound.distinct).1
  exact Multiset.disjoint_left.mp (Multiset.nodup_add.mp waiting).2.2 queued unvisited

theorem mem_queued {e : Nat} :
    e ∈ s.queued ↔ (∃ side, e ∈ (s.reqs side).queue) ∨ e ∈ s.shared.queue := by
  unfold queued
  simp only [Multiset.mem_add, Multiset.mem_coe]
  constructor
  · intro member
    rcases member with (sends | recvs) | shared
    · exact .inl ⟨.sends, sends⟩
    · exact .inl ⟨.recvs, recvs⟩
    · exact .inr shared
  · intro member
    rcases member with ⟨side, member⟩ | shared
    · cases side
      · exact .inl (.inl member)
      · exact .inl (.inr member)
    · exact .inr shared

theorem known_of_queued (sound : s.Sound) {e : Nat} (queued : e ∈ s.queued) :
    ∃ kind, s.requestKind e = some kind := by
  rcases mem_queued.mp queued with ⟨side, member⟩ | shared
  · exact ⟨_, sound.typed.queued side e member⟩
  · exact ⟨_, sound.typed.sharedQueued e shared⟩

end State.Sound

theorem Settled.queued (settled : Settled s t) {e : Nat} (member : e ∈ t.queued) :
    e ∈ s.queued := by
  rcases State.Sound.mem_queued.mp member with ⟨side, member⟩ | shared
  · exact State.Sound.mem_queued.mpr (.inl ⟨side, settled.queue side member⟩)
  · exact State.Sound.mem_queued.mpr (.inr (settled.shared shared))

theorem State.Pending.congr {e : Nat} (pending : s.Pending e)
    (heap : t.heap e = { s.heap e with index := (t.heap e).index })
    (transport : t.transport e = s.transport e) : t.Pending e := by
  constructor
  · rw [heap]
    exact pending.waits
  · rw [heap]
    exact pending.owned
  · rw [heap, transport]
    exact pending.handle

namespace State.Sound

theorem handle_own (sound : s.Sound) {e op : Nat} (queued : e ∈ s.queued)
    (handle : (s.heap e).req = some op) : op = e := by
  rcases (sound.pending e queued).handle with ⟨own, -⟩ | ⟨null, -⟩
  · rw [own] at handle
    exact (Option.some.inj handle).symm
  · rw [null] at handle
    cases handle

theorem queued_create {kind : Kind} {rank : RankType} {tag : TagType} {e : Nat}
    (member : e ∈ (s.create kind rank tag).queued) (old : e ≠ s.posts.length) : e ∈ s.queued := by
  cases kind <;>
    simp [State.create, enqueue, RequestQueue.enqueue, State.queued, old] at member ⊢ <;> tauto

theorem pending_create (sound : s.Sound) (kind : Kind) (rank : RankType) (tag : TagType) :
    ∀ e ∈ (s.create kind rank tag).queued, (s.create kind rank tag).Pending e := by
  intro e member
  by_cases new : e = s.posts.length
  · subst e
    cases kind <;> constructor <;>
      simp [State.create, enqueue, Heap.setIndex, RequestStateBase.create]
  · have old := queued_create member new
    refine (sound.pending e old).congr ?_ ?_ <;>
      cases kind <;> simp [State.create, enqueue, Heap.setIndex, new]

theorem pending_runInplace (sound : s.Sound) (kind : Kind) (rank : RankType) (tag : TagType) :
    ∀ e ∈ (s.runInplace kind rank tag).queued, (s.runInplace kind rank tag).Pending e := by
  intro e member
  have old : e ∈ s.queued := by cases kind <;> exact member
  obtain ⟨known, found⟩ := sound.known_of_queued old
  have different : e ≠ s.posts.length := Nat.ne_of_lt (requestKind_lt found)
  refine (sound.pending e old).congr ?_ ?_ <;>
    cases kind <;> simp [State.runInplace, different]

theorem pending_of_others (sound : s.Sound) (settled : Settled s t)
    (same : ∀ e ∈ t.queued, t.heap e = { s.heap e with index := (t.heap e).index } ∧
      t.transport e = s.transport e) : ∀ e ∈ t.queued, t.Pending e := by
  intro e member
  obtain ⟨heap, transport⟩ := same e member
  exact (sound.pending e (settled.queued member)).congr heap transport

theorem not_queued_of_left (sound : s.Sound) {e : Nat} (left : s.waiting = e ::ₘ t.waiting) :
    e ∉ t.queued := by
  have waiting := (Multiset.nodup_add.mp sound.distinct).1
  rw [left, Multiset.nodup_cons] at waiting
  exact fun member => waiting.1 (Multiset.mem_add.mpr (.inl member))

theorem compacted_readyQueue (side : Side) (positions : List Nat) :
    ((s.compacted side positions).reqs side).readyQueue =
      (split positions 0 (s.reqs side).queue).2 := by
  rw [← (compact_split s.heap (s.reqs side).queue positions).2]
  cases side <;> rfl

/-- The operations that `MPI_Testsome` reports are the requests made ready. -/
theorem mem_reportedOps (sound : s.Sound) {side : Side} {positions : List Nat} {e : Nat}
    (reported : Reportable s.transport (s.handles side) positions) :
    e ∈ reportedOps (s.handles side) positions ↔
      e ∈ ((s.compacted side positions).reqs side).readyQueue := by
  have at_position : ∀ position, (s.handles side)[position]? =
      (s.reqs side).queue[position]?.map fun x => (s.heap x).req := fun position =>
    List.getElem?_map
  rw [compacted_readyQueue, mem_split_ready reported.1 (fun _ _ => Nat.zero_le _), reportedOps,
    List.mem_filterMap]
  refine exists_congr fun position => and_congr_right fun chosen => ?_
  obtain ⟨op, listed, -⟩ := activeAt_iff.mp (reported.2 position chosen)
  rw [listed]
  rw [at_position] at listed
  obtain ⟨x, found, handle⟩ := Option.map_eq_some_iff.mp listed
  have queued : x ∈ s.queued := mem_queued.mpr (.inl ⟨side, List.mem_of_getElem? found⟩)
  have own := sound.handle_own queued handle
  subst op
  rw [Nat.sub_zero, found]
  rfl

theorem pending_enterLoop (sound : s.Sound) {stage : Stage} {side : Side} {rest : List Frame}
    {positions : List Nat} (next : Stage) (stack : s.stack = .progress stage :: rest)
    (free : (s.reqs side).inProgress = false)
    (reported : Reportable s.transport (s.handles side) positions) :
    ∀ e ∈ (s.enterLoop side positions next rest).queued,
      (s.enterLoop side positions next rest).Pending e := by
  have settled := settled_enterLoop positions next stack (sound.queue_nodup side)
    (sound.indexed side)
  have waiting := waiting_enterLoop positions next stack sound.loops free
  have distinct := (Multiset.nodup_add.mp sound.distinct).1
  rw [← waiting] at distinct
  refine sound.pending_of_others settled fun e member => ⟨?_, ?_⟩
  · exact (compact_heap positions (sound.queue_nodup side) (sound.indexed side)).1 e
  · have absent : e ∉ reportedOps (s.handles side) positions := by
      rw [sound.mem_reportedOps reported]
      intro ready
      refine Multiset.disjoint_left.mp (Multiset.nodup_add.mp distinct).2.2 member ?_
      refine mem_total.mpr ⟨_, List.mem_cons_self, ?_⟩
      rw [Frame.unvisited, List.drop_zero, Multiset.mem_coe]
      cases side <;> exact ready
    exact if_neg absent

theorem pending_cancelFailed (sound : s.Sound) {x op : Nat} (queued : x ∈ s.queued)
    (handle : (s.heap x).req = some op) :
    ∀ e ∈ (s.cancelHandle x op false).queued, (s.cancelHandle x op false).Pending e := by
  have own := sound.handle_own queued handle
  subst op
  intro e member
  have pending := sound.pending e member
  by_cases same : e = x
  · subst e
    constructor
    · simpa [cancelHandle] using pending.waits
    · simpa [cancelHandle] using pending.owned
    · exact .inr (by simp [cancelHandle])
  · exact pending.congr (by simp [cancelHandle, same]) (by simp [cancelHandle, same])

theorem queue_at_index (sound : s.Sound) {e : Nat} (held : s.requestKind e = some .recv)
    (queued : e ∈ s.queued) : s.recvs.queue[(s.heap e).index]? = some e := by
  rcases mem_queued.mp queued with ⟨side, member⟩ | shared
  · have kind := sound.typed.queued side e member
    rw [held] at kind
    cases side with
    | sends => cases kind
    | recvs =>
      obtain ⟨i, found⟩ := List.mem_iff_getElem?.mp member
      have index := sound.indexed .recvs i e found
      rw [index]
      exact found
  · rw [sound.typed.sharedQueued e shared] at held
    cases held

/-- Neither the request whose handle was cancelled nor the one it was meant for is queued
any more. -/
theorem not_queued_withdrawRecv (sound : s.Sound) {e x : Nat} (op : Nat)
    (held : s.requestKind e = some .recv)
    (found : s.recvs.queue[(s.heap e).index]? = some x) :
    x ∉ (s.withdrawRecv e x op).queued ∧ e ∉ (s.withdrawRecv e x op).queued := by
  have left := sound.not_queued_of_left (waiting_withdrawRecv op found)
  refine ⟨left, fun member => ?_⟩
  have own := sound.queue_at_index held ((settled_withdrawRecv op found).queued member)
  rw [found] at own
  cases own
  exact left member

theorem pending_withdrawRecv (sound : s.Sound) {e x op : Nat}
    (held : s.requestKind e = some .recv)
    (found : s.recvs.queue[(s.heap e).index]? = some x) (handle : (s.heap x).req = some op) :
    ∀ y ∈ (s.withdrawRecv e x op).queued, (s.withdrawRecv e x op).Pending y := by
  have queued : x ∈ s.queued := mem_queued.mpr (.inl ⟨.recvs, List.mem_of_getElem? found⟩)
  have own := sound.handle_own queued handle
  subst op
  obtain ⟨absentX, absentE⟩ := sound.not_queued_withdrawRecv x held found
  refine sound.pending_of_others (settled_withdrawRecv x found) fun y member => ?_
  have notX : y ≠ x := fun same => absentX (same ▸ member)
  have notE : y ≠ e := fun same => absentE (same ▸ member)
  obtain ⟨heap, queue, equal, -, only, -⟩ := withdrawRecv_spec x found
  rw [equal]
  constructor
  · refine (only y).trans ?_
    simp [setCanceled, releaseSelfRef, cancelHandle, notX, notE]
  · simp [setCanceled, releaseSelfRef, cancelHandle, notX]

theorem pending_effect (sound : s.Sound) (settled : Settled s t)
    (effect : Effect limit s action t) : ∀ e ∈ t.queued, t.Pending e := by
  cases effect with
  | create kind rank tag => exact sound.pending_create kind rank tag
  | runInplace kind rank tag => exact sound.pending_runInplace kind rank tag
  | compact stage next side rest positions stack free reported =>
    exact sound.pending_enterLoop next stack free reported
  | visit side position finish e rest stack more next =>
    have left := sound.not_queued_of_left (waiting_visit stack next)
    refine sound.pending_of_others settled fun y member => ?_
    have different : y ≠ e := fun same => left (same ▸ member)
    exact ⟨by simp [startReady, releaseSelfRef, different], rfl⟩
  | returnReady side position finish e rest stack =>
    have absent : e ∉ s.queued := sound.not_queued_of_running (by simp [State.running, stack])
    refine sound.pending_of_others settled fun y member => ?_
    have different : y ≠ e := fun same => absent (same ▸ member)
    exact ⟨by simp [finishCb, different], rfl⟩
  | popShared stage position e rest stack free popped =>
    have left := sound.not_queued_of_left (waiting_startShared stack popped)
    have queued : e ∈ s.queued := mem_queued.mpr (.inr (List.mem_of_getElem? popped))
    refine sound.pending_of_others settled fun y member => ?_
    have different : y ≠ e := fun same => left (same ▸ member)
    refine ⟨by simp [startShared, releaseSelfRef, different], ?_⟩
    cases handle : (s.heap e).req with
    | none => simp [startShared, releaseSelfRef, callCb, handle]
    | some op =>
      have own := sound.handle_own queued handle
      subst op
      simp [startShared, releaseSelfRef, callCb, handle, different]
  | returnShared e rest stack =>
    have absent : e ∉ s.queued := sound.not_queued_of_running (by simp [State.running, stack])
    refine sound.pending_of_others settled fun y member => ?_
    have different : y ≠ e := fun same => absent (same ▸ member)
    exact ⟨by simp [finishCb, different], rfl⟩
  | cancelFailed e x op held waits found handle =>
    have queued : x ∈ s.queued := mem_queued.mpr (.inl ⟨.recvs, List.mem_of_getElem? found⟩)
    exact sound.pending_cancelFailed queued handle
  | cancelRecv e x op held waits found handle =>
    exact sound.pending_withdrawRecv (holdsRequest_iff.mp held) found handle
  | cancelSharedFailed e op held waits queued handle =>
    exact sound.pending_cancelFailed (mem_queued.mpr (.inr queued)) handle
  | cancelShared e op held waits queued handle =>
    have own := sound.handle_own (mem_queued.mpr (.inr queued)) handle
    subst op
    have left := sound.not_queued_of_left (waiting_withdrawShared e queued)
    refine sound.pending_of_others settled fun y member => ?_
    have different : y ≠ e := fun same => left (same ▸ member)
    exact ⟨by simp [withdrawShared, setCanceled, releaseSelfRef, cancelHandle, different],
      by simp [withdrawShared, setCanceled, releaseSelfRef, cancelHandle, different]⟩
  | testFailed stage side rest =>
    exact sound.pending_of_others settled fun y member => ⟨by simp, by simp⟩
  | testEmpty stage next side rest =>
    exact sound.pending_of_others settled fun y member => ⟨by simp, by simp⟩
  | loopEnd side position finish rest =>
    exact sound.pending_of_others settled fun y member => ⟨by simp, by simp⟩
  | _ => exact sound.pending_of_others settled fun y member => ⟨rfl, rfl⟩

theorem distinct_create (sound : s.Sound) (fresh : ∀ e ∈ s.waiting + s.running, e < s.posts.length)
    (kind : Kind) (rank : RankType) (tag : TagType) :
    ((s.create kind rank tag).waiting + (s.create kind rank tag).running).Nodup := by
  rw [waiting_create, running_create, Multiset.cons_add, Multiset.nodup_cons]
  exact ⟨fun member => Nat.lt_irrefl _ (fresh _ member), sound.distinct⟩

theorem distinct_runInplace (sound : s.Sound)
    (fresh : ∀ e ∈ s.waiting + s.running, e < s.posts.length)
    (kind : Kind) (rank : RankType) (tag : TagType) :
    ((s.runInplace kind rank tag).waiting + (s.runInplace kind rank tag).running).Nodup := by
  rw [waiting_runInplace, running_runInplace, Multiset.add_cons, Multiset.nodup_cons]
  exact ⟨fun member => Nat.lt_irrefl _ (fresh _ member), sound.distinct⟩

theorem ready_of_unvisited {e : Nat} (unvisited : e ∈ s.unvisited) :
    ∃ side, e ∈ (s.reqs side).readyQueue := by
  obtain ⟨frame, -, member⟩ := mem_total.mp unvisited
  cases frame with
  | ready side position finish running =>
    cases running <;> exact ⟨side, List.mem_of_mem_drop member⟩
  | _ => exact absurd member (Multiset.notMem_zero e)

theorem running_cases (sound : s.Sound) {e : Nat} (runs : e ∈ s.running) :
    (∃ side, e ∈ (s.reqs side).readyQueue) ∨ Frame.shared e ∈ s.stack ∨
      Frame.inplace e ∈ s.stack ∨ Frame.sharedInplace e ∈ s.stack := by
  obtain ⟨frame, found, member⟩ := mem_total.mp runs
  cases frame with
  | ready side position finish running =>
    cases running with
    | none => exact absurd member (Multiset.notMem_zero e)
    | some x =>
      have same : e = x := Multiset.mem_singleton.mp member
      subst x
      have looping := sound.loops.intact side position finish (some e) found
      exact .inl ⟨side, List.mem_of_getElem? (looping.visiting e rfl)⟩
  | progress stage => exact absurd member (Multiset.notMem_zero e)
  | shared x =>
    have same : e = x := Multiset.mem_singleton.mp member
    exact .inr (.inl (same ▸ found))
  | inplace x =>
    have same : e = x := Multiset.mem_singleton.mp member
    exact .inr (.inr (.inl (same ▸ found)))
  | sharedInplace x =>
    have same : e = x := Multiset.mem_singleton.mp member
    exact .inr (.inr (.inr (same ▸ found)))

theorem known_of_waiting (sound : s.Sound) {e : Nat} (waits : e ∈ s.waiting) :
    ∃ kind, s.requestKind e = some kind := by
  rcases Multiset.mem_add.mp waits with queued | unvisited
  · exact sound.known_of_queued queued
  · obtain ⟨side, ready⟩ := ready_of_unvisited unvisited
    exact ⟨_, sound.typed.readied side e ready⟩

theorem posted (sound : s.Sound) {e : Nat} (member : e ∈ s.waiting + s.running) :
    e < s.posts.length := by
  rcases Multiset.mem_add.mp member with waits | runs
  · obtain ⟨kind, known⟩ := sound.known_of_waiting waits
    exact requestKind_lt known
  · rcases sound.running_cases runs with ⟨side, ready⟩ | shared | inplace
    · exact requestKind_lt (sound.typed.readied side e ready)
    · exact requestKind_lt (sound.typed.sharedRuns e shared)
    · exact (sound.typed.inplaceRuns e inplace).1

theorem posted_of_known (sound : s.Sound) {e : Nat} {kind : Kind}
    (known : s.requestKind e = some kind) :
    ∃ post, s.posts[e]? = some post ∧ post.kind = kind ∧ post.inplace = false ∧ post.comm = 0 ∧
      (s.heap e).identity = RequestStateBase.create 0 kind post.rank post.tag e := by
  obtain ⟨post, found, made⟩ := Option.bind_eq_some_iff.mp known
  obtain ⟨comm, identity⟩ := sound.recorded e post found
  cases inplace : post.inplace with
  | true => simp [inplace] at made
  | false =>
    have same : post.kind = kind := by simpa [inplace] using made
    exact ⟨post, found, same, inplace, comm, same ▸ identity inplace⟩

theorem cb_of_known (sound : s.Sound) {e : Nat} {kind : Kind}
    (known : s.requestKind e = some kind) : (s.heap e).cb = e := by
  obtain ⟨post, -, -, -, -, identity⟩ := sound.posted_of_known known
  exact congrArg RequestStateBase.cb identity

end State.Sound

theorem withdrawRecv_history {e x : Nat} (op : Nat)
    (found : s.recvs.queue[(s.heap e).index]? = some x) (own : (s.heap e).cb = e) :
    (s.withdrawRecv e x op).history = .canceled e :: s.history := by
  obtain ⟨heap, queue, equal, -⟩ := withdrawRecv_spec op found
  have cb : (((s.cancelHandle x op true).releaseSelfRef e).heap e).cb = e := by
    have same := (identity_releaseSelfRef (s := s.cancelHandle x op true) e e).trans
      (identity_cancelHandle x e op true)
    exact (congrArg RequestStateBase.cb same).trans own
  rw [equal]
  exact congrArg (fun cb => Event.canceled cb :: s.history) cb

theorem withdrawShared_history {e : Nat} (op : Nat) (own : (s.heap e).cb = e) :
    (s.withdrawShared e op).history = .canceled e :: s.history := by
  simp [withdrawShared, setCanceled, releaseSelfRef, cancelHandle, own]

variable {e : Nat} {kind : Kind}

/-- The request is in `m_queue` and its handle is not null. -/
def Cancellable (s : State) (e : Nat) : Prop :=
  e ∈ s.recvs.queue ∧ (s.heap e).req ≠ none

def Sane (s : State) : Action → Prop
  | .cancel e _ => (s.heap e).ready = true ∨ Cancellable s e
  | .cancelShared e _ =>
    (s.heap e).ready = true ∨ e ∉ s.shared.queue ∨ (s.heap e).req ≠ none
  | _ => True

instance (s : State) (e : Nat) : Decidable (Cancellable s e) :=
  inferInstanceAs (Decidable (_ ∧ _))

instance (s : State) (action : Action) : Decidable (Sane s action) :=
  match action with
  | .cancel _ _ => inferInstanceAs (Decidable (_ ∨ _))
  | .cancelShared _ _ => inferInstanceAs (Decidable (_ ∨ _ ∨ _))
  | .post _ _ _ _ => isTrue trivial
  | .progress => isTrue trivial
  | .contextProgress => isTrue trivial
  | .callbackReturns => isTrue trivial
  | .testsome _ => isTrue trivial
  | .test _ => isTrue trivial
  | .visit => isTrue trivial

def RequestState.life (request : RequestState) : Bool × Bool :=
  (request.ready, request.selfPtr)

/-- A sane step leaves all requests where they are, or moves one of them on. -/
inductive Turn (s t : State) : Prop
  | still :
      t.posts = s.posts → t.waiting = s.waiting → t.running = s.running →
      t.history = s.history → t.scheduled = s.scheduled →
      (∀ x, (t.heap x).life = (s.heap x).life) → Turn s t
  | created (kind : Kind) (rank : RankType) (tag : TagType) :
      t = s.create kind rank tag → Turn s t
  | ranInplace (kind : Kind) (rank : RankType) (tag : TagType) :
      t = s.runInplace kind rank tag → Turn s t
  | started (e : Nat) (kind : Kind) :
      s.requestKind e = some kind → t.posts = s.posts →
      s.waiting = e ::ₘ t.waiting → t.running = e ::ₘ s.running →
      t.history = .called e (s.heap e).rank (s.heap e).tag :: s.history →
      t.scheduled = s.scheduled → (t.heap e).ready = (s.heap e).ready →
      (∀ x, x ≠ e → (t.heap x).life = (s.heap x).life) → Turn s t
  | returned (e : Nat) (kind : Kind) :
      s.requestKind e = some kind → t.posts = s.posts →
      t.waiting = s.waiting → s.running = e ::ₘ t.running →
      t.history = .returned e :: s.history →
      t.scheduled = countDown s.scheduled (s.heap e).scheduled → (t.heap e).ready = true →
      (∀ x, x ≠ e → (t.heap x).life = (s.heap x).life) → Turn s t
  | returnedInplace (op : Nat) :
      s.requestKind op = none → t.posts = s.posts →
      t.waiting = s.waiting → s.running = op ::ₘ t.running →
      t.history = .returned op :: s.history → t.scheduled = s.scheduled →
      (∀ x, (t.heap x).life = (s.heap x).life) → Turn s t
  | withdrawn (e : Nat) (kind : Kind) :
      s.requestKind e = some kind → t.posts = s.posts →
      s.waiting = e ::ₘ t.waiting → t.running = s.running →
      t.history = .canceled e :: s.history →
      t.scheduled = countDown s.scheduled (s.heap e).scheduled → (t.heap e).ready = true →
      (∀ x, x ≠ e → (t.heap x).life = (s.heap x).life) → Turn s t

theorem withdrawRecv_scheduled {x : Nat} (op : Nat)
    (found : s.recvs.queue[(s.heap e).index]? = some x) :
    (s.withdrawRecv e x op).scheduled = countDown s.scheduled (s.heap e).scheduled := by
  obtain ⟨heap, queue, equal, -⟩ := withdrawRecv_spec op found
  have same := (identity_releaseSelfRef (s := s.cancelHandle x op true) e e).trans
    (identity_cancelHandle x e op true)
  have counter := congrArg RequestStateBase.scheduled same
  rw [equal]
  exact congrArg (countDown s.scheduled) counter

theorem withdrawShared_scheduled (op : Nat) :
    (s.withdrawShared e op).scheduled = countDown s.scheduled (s.heap e).scheduled := by
  simp [withdrawShared, setCanceled, releaseSelfRef, cancelHandle]

/-- A sane cancel finds its own request at its index. -/
theorem found_own (sound : s.Sound) {x : Nat} {flag : Bool} (sane : Sane s (.cancel e flag))
    (waits : (s.heap e).ready = false)
    (found : s.recvs.queue[(s.heap e).index]? = some x) : x = e := by
  rcases sane with ready | ⟨queued, -⟩
  · rw [waits] at ready
    cases ready
  · have known := sound.typed.queued .recvs e queued
    have own := sound.queue_at_index known (Sound.mem_queued.mpr (.inl ⟨.recvs, queued⟩))
    rw [found] at own
    exact Option.some.inj own

theorem life_update {heap : Heap} {request : RequestState} {x : Nat} (different : x ≠ e) :
    (Function.update heap e request x).life = (heap x).life := by
  rw [Function.update_of_ne different]

theorem OnlyIndices.life {before after : Heap} (only : OnlyIndices before after) (x : Nat) :
    (after x).life = (before x).life := by
  rw [only x]
  rfl

theorem life_cancelHandle (y op : Nat) (flag : Bool) (x : Nat) :
    ((s.cancelHandle y op flag).heap x).life = (s.heap x).life :=
  attr_update RequestState.life (by rfl) x

theorem life_withdrawRecv (op : Nat) (found : s.recvs.queue[(s.heap e).index]? = some e) :
    ((s.withdrawRecv e e op).heap e).ready = true ∧
      ∀ x, x ≠ e → ((s.withdrawRecv e e op).heap x).life = (s.heap x).life := by
  obtain ⟨heap, queue, equal, -, only, -⟩ := withdrawRecv_spec op found
  rw [equal]
  constructor
  · refine (congrArg Prod.fst (only.life e)).trans ?_
    simp [RequestState.life, setCanceled]
  · intro x different
    refine (only.life x).trans ?_
    exact (life_update different).trans ((life_update different).trans (life_update different))

/-- What a cancel that is not sane does: it takes away a request that waits, if any, and
marks at most a request that is not queued. -/
structure Stale (s t : State) : Prop where
  posts : t.posts = s.posts
  waiting : t.waiting ≤ s.waiting
  running : t.running = s.running
  history : t.history = s.history ∨ ∃ e kind, s.requestKind e = some kind ∧ e ∉ t.queued ∧
    t.history = .canceled e :: s.history

/-- A step moves at most one request on, unless it is a cancel that is not sane. -/
theorem effect_cases (sound : s.Sound) (effect : Effect limit s action t) :
    Turn s t ∨ ¬ Sane s action ∧ Stale s t := by
  cases effect with
  | create kind rank tag => exact .inl (.created kind rank tag rfl)
  | runInplace kind rank tag => exact .inl (.ranInplace kind rank tag rfl)
  | none => exact .inl (.still rfl rfl rfl rfl rfl fun _ => rfl)
  | fault => exact .inl (.still rfl rfl rfl rfl rfl fun _ => rfl)
  | call stage =>
    refine .inl (.still rfl (waiting_plain rfl rfl rfl ?_) ?_ rfl rfl fun _ => rfl)
    · simp
    · simp [State.running]
  | advance stage next rest answer stack =>
    refine .inl (.still rfl (waiting_plain rfl rfl rfl ?_) ?_ rfl rfl fun _ => rfl)
    · simp [stack]
    · simp [State.running, stack]
  | leave stage rest found stack =>
    refine .inl (.still rfl (waiting_plain rfl rfl rfl ?_) ?_ rfl rfl fun _ => rfl)
    · simp [stack]
    · simp [State.running, stack]
  | testFailed stage side rest stack free =>
    refine .inl (.still (by simp) (waiting_clearReady [] stack sound.loops free (by simp)) ?_
      (by simp) (by simp) (by simp))
    simp [State.running, stack]
  | testEmpty stage next side rest stack free =>
    refine .inl (.still (by simp)
      (waiting_clearReady [.progress next] stack sound.loops free (by simp)) ?_
      (by simp) (by simp) (by simp))
    simp [State.running, stack]
  | compact stage next side rest positions stack free reported =>
    refine .inl (.still (setReqs_posts _ _ _)
      (waiting_enterLoop positions next stack sound.loops free) ?_
      (setReqs_history _ _ _) (setReqs_scheduled _ _ _) fun x => ?_)
    · simp [State.running, enterLoop, stack]
    · exact (compact_heap positions (sound.queue_nodup side) (sound.indexed side)).1.life x
  | visit side position finish e rest stack more next =>
    have known := sound.typed.readied side e (List.mem_of_getElem? next)
    refine .inl (.started e side.kind known rfl (waiting_visit stack next) (running_visit stack)
      ?_ rfl ?_ fun x different => life_update different)
    · simp [startReady, callCb, releaseSelfRef, sound.cb_of_known known]
    · simp [startReady, releaseSelfRef]
  | loopEnd side position finish rest stack done =>
    refine .inl (.still (by simp) (waiting_loopEnd stack sound.loops done) ?_ (by simp) (by simp)
      (by simp))
    simp [State.running, stack]
  | returnInplace op rest stack =>
    have unknown := (sound.typed.inplaceRuns op (.inl (by simp [stack]))).2
    refine .inl (.returnedInplace op unknown rfl (waiting_plain rfl rfl rfl ?_) ?_ rfl rfl
      fun _ => rfl)
    · simp [stack]
    · simp [State.running, stack]
  | returnSharedInplace op rest stack =>
    have unknown := (sound.typed.inplaceRuns op (.inr (by simp [stack]))).2
    refine .inl (.returnedInplace op unknown rfl (waiting_plain rfl rfl rfl ?_) ?_ rfl rfl
      fun _ => rfl)
    · simp [stack]
    · simp [State.running, stack]
  | returnReady side position finish e rest stack =>
    have looping := sound.loops.intact side position finish (some e) (by simp [stack])
    have known := sound.typed.readied side e (List.mem_of_getElem? (looping.visiting e rfl))
    refine .inl (.returned e side.kind known rfl (waiting_returnReady stack)
      (running_returnReady stack) ?_ rfl ?_ fun x different => life_update different)
    · simp [finishCb, sound.cb_of_known known]
    · simp [finishCb]
  | popShared stage position e rest stack free popped =>
    have known := sound.typed.sharedQueued e (List.mem_of_getElem? popped)
    refine .inl (.started e .sharedRecv known rfl (waiting_startShared stack popped)
      (running_startShared stack) ?_ rfl ?_ fun x different => life_update different)
    · simp [startShared, callCb, releaseSelfRef, sound.cb_of_known known]
    · simp [startShared, releaseSelfRef]
  | returnShared e rest stack =>
    have known := sound.typed.sharedRuns e (by simp [stack])
    refine .inl (.returned e .sharedRecv known rfl (waiting_plain rfl rfl rfl ?_) ?_ ?_ rfl ?_
      fun x different => life_update different)
    · simp [stack]
    · simp [State.running, stack]
    · simp [finishCb, sound.cb_of_known known]
    · simp [finishCb]
  | cancelFailed e x op => exact .inl (.still rfl rfl rfl rfl rfl (life_cancelHandle x op false))
  | cancelRecv e x op held waits found handle =>
    have known := holdsRequest_iff.mp held
    have history := withdrawRecv_history op found (sound.cb_of_known known)
    by_cases own : x = e
    · subst x
      obtain ⟨ready, others⟩ := life_withdrawRecv op found
      exact .inl (.withdrawn e .recv known (settled_withdrawRecv op found).posts
        (waiting_withdrawRecv op found) (running_withdrawRecv op found) history
        (withdrawRecv_scheduled op found) ready others)
    · refine .inr ⟨fun sane => own (found_own sound sane waits found),
        (settled_withdrawRecv op found).posts, ?_, running_withdrawRecv op found,
        .inr ⟨e, .recv, known, (sound.not_queued_withdrawRecv op known found).2, history⟩⟩
      rw [waiting_withdrawRecv op found]
      exact Multiset.le_cons_self _ _
  | cancelSharedFailed e op =>
    exact .inl (.still rfl rfl rfl rfl rfl (life_cancelHandle e op false))
  | cancelShared e op held waits queued handle =>
    have known := holdsRequest_iff.mp held
    refine .inl (.withdrawn e .sharedRecv known rfl (waiting_withdrawShared op queued) rfl
      (withdrawShared_history op (sound.cb_of_known known)) (withdrawShared_scheduled op) ?_ ?_)
    · simp [withdrawShared, setCanceled]
    · intro x different
      exact (life_update different).trans
        ((life_update different).trans (life_update different))
  | cancelSharedThrew e flag held waits queued null =>
    refine .inr ⟨fun sane => ?_, rfl, waiting_dropShared _, rfl, .inl rfl⟩
    rcases sane with ready | absent | handle
    · rw [waits] at ready
      cases ready
    · exact absurd queued absent
    · exact absurd null handle

theorem Turn.moved (turn : Turn s t) :
    Moved s t ∨ ∃ kind rank tag, t = s.create kind rank tag ∨ t = s.runInplace kind rank tag := by
  cases turn with
  | still _ waiting running => exact .inl (.kept waiting running)
  | created kind rank tag made => exact .inr ⟨kind, rank, tag, .inl made⟩
  | ranInplace kind rank tag made => exact .inr ⟨kind, rank, tag, .inr made⟩
  | started e kind _ _ waiting running => exact .inl (.started e waiting running)
  | returned e kind _ _ waiting running => exact .inl (.finished e waiting running)
  | returnedInplace op _ _ waiting running => exact .inl (.finished op waiting running)
  | withdrawn e kind _ _ waiting running =>
    refine .inl (.dropped ?_ running)
    rw [waiting]
    exact Multiset.le_cons_self _ _

/-- A step makes a request, runs a callback in place, or moves at most one request. -/
theorem effect_moved (sound : s.Sound) (effect : Effect limit s action t) :
    Moved s t ∨ ∃ kind rank tag, t = s.create kind rank tag ∨ t = s.runInplace kind rank tag := by
  rcases effect_cases sound effect with turn | ⟨-, stale⟩
  · exact turn.moved
  · exact .inl (.dropped stale.waiting stale.running)

namespace State.Sound

theorem effect (sound : s.Sound) (effect : Effect limit s action t) : t.Sound := by
  have loops := sound.loops.effect effect
  have indexed := sound.indexed_effect effect
  have fresh : ∀ e ∈ s.waiting + s.running, e < s.posts.length := fun _ => sound.posted
  rcases effect_settled sound.queue_nodup sound.indexed effect with settled | made
  · have distinct : (t.waiting + t.running).Nodup := by
      rcases effect_moved sound effect with moved | ⟨kind, rank, tag, rfl | rfl⟩
      · exact moved.distinct sound.distinct
      · exact sound.distinct_create fresh kind rank tag
      · exact sound.distinct_runInplace fresh kind rank tag
    exact ⟨loops, sound.typed.settled settled, sound.recorded.settled settled, distinct, indexed,
      sound.pending_effect settled effect⟩
  · obtain ⟨kind, rank, tag, rfl | rfl⟩ := made
    · exact ⟨loops, sound.typed.create kind rank tag, sound.recorded.create kind rank tag,
        sound.distinct_create fresh kind rank tag, indexed, sound.pending_create kind rank tag⟩
    · exact ⟨loops, sound.typed.runInplace kind rank tag, sound.recorded.runInplace kind rank tag,
        sound.distinct_runInplace fresh kind rank tag, indexed,
        sound.pending_runInplace kind rank tag⟩

theorem start : State.initial.Sound where
  loops := ⟨nofun, List.nodup_nil⟩
  typed := ⟨fun side => by cases side <;> nofun, fun side => by cases side <;> nofun, nofun, nofun,
    fun _ member => by rcases member with member | member <;> cases member⟩
  recorded := fun _ _ found => by cases found
  distinct := Multiset.nodup_zero
  indexed := fun side => by cases side <;> nofun
  pending := nofun

theorem of_reaches {allowed : State → Action → Prop}
    (reached : Reaches (step limit) allowed State.initial s) : s.Sound :=
  Reaches.invariant Sound start (fun _ _ _ sound _ taken => sound.effect (step_effect taken)) reached

end State.Sound

theorem State.Sound.not_queued_of_finished (sound : s.Sound) {e : Nat}
    (waiting : t.waiting = s.waiting) (running : s.running = e ::ₘ t.running) :
    e ∉ t.queued ∧ e < s.posts.length := by
  have runs : e ∈ s.running := by
    rw [running]
    exact Multiset.mem_cons_self _ _
  refine ⟨fun queued => ?_, sound.posted (Multiset.mem_add.mpr (.inr runs))⟩
  have waits : e ∈ s.waiting := waiting ▸ Multiset.mem_add.mpr (.inl queued)
  exact Multiset.disjoint_left.mp (Multiset.nodup_add.mp sound.distinct).2.2 waits runs

private theorem one_event {event : Event} (history : t.history = event :: s.history)
    (absent : event.op ∉ t.queued) (posted : event.op < t.posts.length) :
    ∃ events, t.history = events ++ s.history ∧
      ∀ event ∈ events, event.op ∉ t.queued ∧ event.op < t.posts.length :=
  ⟨[event], history, by simpa using ⟨absent, posted⟩⟩

theorem effect_history (sound : s.Sound) (effect : Effect limit s action t) :
    ∃ events, t.history = events ++ s.history ∧
      ∀ event ∈ events, event.op ∉ t.queued ∧ event.op < t.posts.length := by
  rcases effect_cases sound effect with turn | ⟨-, posts, -, -, history⟩
  · cases turn with
    | still posts waiting running history => exact ⟨[], history, nofun⟩
    | created kind rank tag made =>
      subst made
      exact ⟨[], by cases kind <;> rfl, nofun⟩
    | ranInplace kind rank tag made =>
      subst made
      have history : (s.runInplace kind rank tag).history =
          .called s.posts.length rank tag :: s.history := by cases kind <;> rfl
      refine one_event history ?_ ?_
      · intro member
        have old : s.posts.length ∈ s.queued := by cases kind <;> exact member
        obtain ⟨known, found⟩ := sound.known_of_queued old
        exact Nat.lt_irrefl _ (requestKind_lt found)
      · simp [Event.op, runInplace_posts]
    | started e kind known posts waiting running history =>
      exact one_event history (sound.not_queued_of_left waiting)
        (posts ▸ requestKind_lt known)
    | returned e kind known posts waiting running history =>
      obtain ⟨absent, posted⟩ := sound.not_queued_of_finished waiting running
      exact one_event history absent (posts ▸ posted)
    | returnedInplace op unknown posts waiting running history =>
      obtain ⟨absent, posted⟩ := sound.not_queued_of_finished waiting running
      exact one_event history absent (posts ▸ posted)
    | withdrawn e kind known posts waiting running history =>
      exact one_event history (sound.not_queued_of_left waiting)
        (posts ▸ requestKind_lt known)
  · rcases history with same | ⟨e, kind, known, absent, marked⟩
    · exact ⟨[], same, nofun⟩
    · exact one_event marked absent (posts ▸ requestKind_lt known)

def State.Quiet (s : State) : Prop :=
  ∀ event ∈ s.history, event.op ∉ s.queued ∧ event.op < s.posts.length

theorem State.Quiet.effect (quiet : s.Quiet) (sound : s.Sound)
    (effect : Effect limit s action t) : t.Quiet := by
  obtain ⟨events, history, new⟩ := effect_history sound effect
  intro event member
  rw [history] at member
  rcases List.mem_append.mp member with added | old
  · exact new event added
  · obtain ⟨absent, posted⟩ := quiet event old
    rcases effect_settled sound.queue_nodup sound.indexed effect with
      settled | ⟨kind, rank, tag, rfl | rfl⟩
    · rw [settled.posts]
      exact ⟨fun queued => absent (settled.queued queued), posted⟩
    · rw [create_posts, List.length_append]
      exact ⟨fun queued => absent (Sound.queued_create queued (Nat.ne_of_lt posted)),
        Nat.lt_add_right _ posted⟩
    · rw [runInplace_posts, List.length_append]
      refine ⟨fun queued => absent ?_, Nat.lt_add_right _ posted⟩
      cases kind <;> exact queued

theorem State.Quiet.of_reaches {allowed : State → Action → Prop}
    (reached : Reaches (step limit) allowed State.initial s) : s.Quiet := by
  have both : s.Sound ∧ s.Quiet := by
    refine Reaches.invariant (fun s => s.Sound ∧ s.Quiet) ⟨Sound.start, nofun⟩ ?_ reached
    intro before action after holds _ taken
    have effect := step_effect taken
    exact ⟨holds.1.effect effect, holds.2.effect holds.1 effect⟩
  exact both.2

end Oomph.Mpi
