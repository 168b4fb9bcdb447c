import Oomph.Mpi.Sound

namespace Oomph.Mpi

open Machine State

/-! `mpi_request::cancel` waits for the operation whether or not it was cancelled, so a
cancel that fails leaves a request in the queue whose handle is `MPI_REQUEST_NULL`.
`MPI_Testsome` never reports such a handle.
-/

variable {limit : Nat} {s t : State} {action : Action} {e : Nat}

/-- What a user may expect of a receive whose cancel returned `false`: some later
`progress` calls it back, once, and makes it ready, and no `progress` writes outside
`indices`. -/
def StillCompleted (limit : Nat) (s : State) (e : Nat) : Prop :=
  (∃ t, Reaches (step limit) (fun _ _ => True) s t ∧
    (Event.calledOps t.history).count e = 1 ∧ e ∈ Event.returnedOps t.history ∧
    (t.heap e).ready = true) ∧
  ∀ t, Reaches (step limit) (fun _ _ => True) s t → t.fault ≠ some .indices

def Lost (s : State) (e : Nat) : Prop :=
  e ∈ s.recvs.queue ∧ (s.heap e).req = none

theorem Lost.queued (lost : Lost s e) : e ∈ s.queued :=
  Sound.mem_queued.mpr (.inl ⟨.recvs, lost.1⟩)

theorem Lost.create (lost : Lost s e) (sound : s.Sound) (kind : Kind) (rank : RankType)
    (tag : TagType) : Lost (s.create kind rank tag) e := by
  obtain ⟨known, found⟩ := sound.known_of_queued lost.queued
  have old : e ≠ s.posts.length := Nat.ne_of_lt (requestKind_lt found)
  obtain ⟨queued, handle⟩ := lost
  constructor
  · cases kind <;> simp [State.create, enqueue, RequestQueue.enqueue, queued]
  · cases kind <;> simp [State.create, enqueue, Heap.setIndex, old, handle]

/-- `MPI_Testsome` does not report a null handle, so compaction keeps it. -/
theorem Lost.enterLoop (lost : Lost s e) (sound : s.Sound) {side : Side} {positions : List Nat}
    (reported : Reportable s.transport (s.handles side) positions) (next : Stage)
    (rest : List Frame) : Lost (s.enterLoop side positions next rest) e := by
  obtain ⟨only, -, -⟩ := compact_heap positions (sound.queue_nodup side) (sound.indexed side)
  have handle : ((s.enterLoop side positions next rest).heap e).req = none := by
    have same : ((compact s.heap (s.reqs side).queue positions).heap e).req = (s.heap e).req := by
      rw [only e]
    exact same.trans lost.2
  refine ⟨?_, handle⟩
  cases side with
  | sends => exact lost.1
  | recvs =>
    obtain ⟨kept, -⟩ := compact_split s.heap s.recvs.queue positions
    have queue : (s.enterLoop .recvs positions next rest).recvs.queue =
        (split positions 0 s.recvs.queue).1 := kept
    rw [queue]
    have parts : e ∈ ((split positions 0 s.recvs.queue).1 : Multiset Nat) +
        (split positions 0 s.recvs.queue).2 := by
      rw [split_add]
      exact lost.1
    rcases Multiset.mem_add.mp parts with stays | ready
    · exact stays
    · obtain ⟨position, chosen, found⟩ :=
        (mem_split_ready reported.1 fun _ _ => Nat.zero_le _).mp (Multiset.mem_coe.mp ready)
      obtain ⟨op, listed, -⟩ := activeAt_iff.mp (reported.2 position chosen)
      have null : (s.handles .recvs)[position]? = some none := by
        rw [Nat.sub_zero] at found
        have here : (s.reqs .recvs).queue[position]? = some e := found
        simp [handles, here, lost.2]
      rw [null] at listed
      cases listed

theorem Lost.withdrawRecv (lost : Lost s e) {y x op : Nat}
    (found : s.recvs.queue[(s.heap y).index]? = some x) (handle : (s.heap x).req = some op) :
    Lost (s.withdrawRecv y x op) e := by
  obtain ⟨queued, null⟩ := lost
  have different : e ≠ x := by
    rintro rfl
    rw [null] at handle
    cases handle
  obtain ⟨heap, queue, equal, whole, only, -⟩ := withdrawRecv_spec op found
  rw [equal]
  constructor
  · have member : e ∈ (s.recvs.queue : Multiset Nat) := queued
    rw [whole, Multiset.mem_cons] at member
    rcases member with same | stays
    · exact absurd same different
    · exact stays
  · have unchanged : (heap e).req =
        ((((s.cancelHandle x op true).releaseSelfRef y).setCanceled y).heap e).req := by
      rw [only e]
    refine unchanged.trans ?_
    by_cases same : e = y
    · subst y
      simp [setCanceled, releaseSelfRef, cancelHandle, different, null]
    · simp [setCanceled, releaseSelfRef, cancelHandle, different, same, null]

theorem req_of_update {heap : Heap} {x : Nat} {request : RequestState}
    (same : request.req = (heap x).req ∨ request.req = none) (null : (heap e).req = none) :
    (Function.update heap x request e).req = none := by
  by_cases equal : e = x
  · subst x
    rw [Function.update_self]
    rcases same with same | gone
    · exact same.trans null
    · exact gone
  · rw [Function.update_of_ne equal]
    exact null

theorem Lost.effect (lost : Lost s e) (sound : s.Sound) (effect : Effect limit s action t) :
    Lost t e := by
  cases effect with
  | create kind rank tag => exact lost.create sound kind rank tag
  | runInplace kind rank tag => cases kind <;> exact lost
  | compact stage next side rest positions stack free reported =>
    exact lost.enterLoop sound reported next rest
  | testFailed stage side rest =>
    cases side <;> exact lost
  | testEmpty stage next side rest =>
    cases side <;> exact lost
  | loopEnd side position finish rest =>
    cases side <;> exact lost
  | visit side position finish x rest => exact ⟨lost.1, req_of_update (.inl rfl) lost.2⟩
  | returnReady side position finish x rest => exact ⟨lost.1, req_of_update (.inl rfl) lost.2⟩
  | popShared stage position x rest => exact ⟨lost.1, req_of_update (.inl rfl) lost.2⟩
  | returnShared x rest => exact ⟨lost.1, req_of_update (.inl rfl) lost.2⟩
  | cancelFailed y x op => exact ⟨lost.1, req_of_update (.inr rfl) lost.2⟩
  | cancelRecv y x op held waits found handle => exact lost.withdrawRecv found handle
  | cancelSharedFailed x op => exact ⟨lost.1, req_of_update (.inr rfl) lost.2⟩
  | cancelShared x op =>
    refine ⟨lost.1, req_of_update (.inl rfl) (req_of_update (.inl rfl) ?_)⟩
    exact req_of_update (.inr rfl) lost.2
  | _ => exact lost

/-- A lost receive stays lost, and nothing is ever said about it again. -/
theorem Lost.forever {allowed : State → Action → Prop} (lost : Lost s e) (sound : s.Sound)
    (quiet : s.Quiet) (continued : Reaches (step limit) allowed s t) :
    Lost t e ∧ t.Sound ∧ t.Quiet := by
  refine Reaches.invariant (fun t => Lost t e ∧ t.Sound ∧ t.Quiet) ⟨lost, sound, quiet⟩ ?_ continued
  intro before action after holds _ taken
  obtain ⟨lost, sound, quiet⟩ := holds
  have effect := step_effect taken
  exact ⟨lost.effect sound effect, sound.effect effect, quiet.effect sound effect⟩

theorem Lost.unspoken (lost : Lost s e) (quiet : s.Quiet) : ∀ event ∈ s.history, event.op ≠ e := by
  intro event member same
  exact (quiet event member).1 (same ▸ lost.queued)

theorem Lost.not_stillCompleted (lost : Lost s e) (sound : s.Sound) (quiet : s.Quiet) :
    ¬ StillCompleted limit s e := by
  intro completed
  obtain ⟨⟨t, continued, called, -⟩, -⟩ := completed
  obtain ⟨lost, -, quiet⟩ := lost.forever sound quiet continued
  have member : e ∈ Event.calledOps t.history := by
    rw [← Multiset.count_pos, called]
    exact Nat.one_pos
  obtain ⟨rank, tag, event⟩ := Event.mem_calledOps.mp member
  exact lost.unspoken quiet _ event rfl

theorem cancelRecv_failed (limit : Nat) (sound : s.Sound) {op : Nat} (queued : e ∈ s.recvs.queue)
    (handle : (s.heap e).req = some op) :
    s.cancelRecv e false = (s.cancelHandle e op false, .returned false) ∧
      Effect limit s (.cancel e false) (s.cancelHandle e op false) := by
  have member : e ∈ s.queued := Sound.mem_queued.mpr (.inl ⟨.recvs, queued⟩)
  have known := sound.typed.queued .recvs e queued
  have found := sound.queue_at_index known member
  have waits := (sound.pending e member).waits
  constructor
  · simp [cancelRecv, waits, found, handle]
  · exact .cancelFailed e e op (holdsRequest_iff.mpr known) waits found handle

/-- Whatever is called after a cancel that came too late, the receive stays queued and
not ready and is never called back; and when only such receives are left in the queue,
`progress` writes outside `indices`. -/
theorem failed_cancel_loses_receive (limit : Nat) {s : State} {e op : Nat}
    (reached : Reaches (step limit) (fun _ _ => True) State.initial s)
    (queued : e ∈ s.recvs.queue) (handle : (s.heap e).req = some op) :
    (s.cancelRecv e false).2 = .returned false ∧
    (∀ t, Reaches (step limit) (fun _ _ => True) (s.cancelRecv e false).1 t →
      e ∈ t.recvs.queue ∧ (t.heap e).ready = false ∧ (∀ event ∈ t.history, event.op ≠ e) ∧
      ∀ rest positions, t.fault = none → t.stack = .progress .recvs :: rest →
        t.recvs.inProgress = false → (∀ x ∈ t.recvs.queue, (t.heap x).req = none) →
        step limit t (.testsome (.done positions)) = some { t with fault := some .indices }) ∧
    ¬ StillCompleted limit (s.cancelRecv e false).1 e := by
  have sound := Sound.of_reaches reached
  obtain ⟨outcome, effect⟩ := cancelRecv_failed limit sound queued handle
  rw [outcome]
  have lost : Lost (s.cancelHandle e op false) e := ⟨queued, by simp [cancelHandle]⟩
  have soundAfter := sound.effect effect
  have quietAfter := (Quiet.of_reaches reached).effect sound effect
  refine ⟨rfl, fun t continued => ?_, lost.not_stillCompleted soundAfter quietAfter⟩
  obtain ⟨lost, sound, quiet⟩ := lost.forever soundAfter quietAfter continued
  refine ⟨lost.1, (sound.pending e lost.queued).waits, lost.unspoken quiet, ?_⟩
  intro rest positions running stack free null
  have nonempty : t.recvs.queue ≠ [] := List.ne_nil_of_mem lost.1
  have nulls : (t.handles .recvs).all Option.isNone = true := by
    simpa [handles, reqs] using null
  simp [step, running, stack, progressQueue, reqs, free, nonempty, nulls]

theorem failed_cancel_loses_first_receive :
    (0 ∈ (State.initial.create .recv 1 7).recvs.queue) ∧
      ¬ StillCompleted 20 ((State.initial.create .recv 1 7).cancelRecv 0 false).1 0 := by
  have reached : Reaches (step 20) (fun _ _ => True) State.initial
      (State.initial.create .recv 1 7) :=
    .single ⟨.post .recv 1 7 .incomplete, trivial, rfl⟩
  exact ⟨by decide, (failed_cancel_loses_receive 20 reached (by decide) rfl).2.2⟩

/-- One receive, a cancel that comes too late, and a call of `progress`. -/
theorem failed_cancel_then_progress :
    ∃ s t, Reaches (step 20) (fun _ _ => True) State.initial s ∧ s.recvs.queue = [0] ∧
      (s.cancelRecv 0 false).2 = .returned false ∧
      ¬ StillCompleted 20 (s.cancelRecv 0 false).1 0 ∧
      Reaches (step 20) (fun _ _ => True) (s.cancelRecv 0 false).1 t ∧
      t.fault = some .indices := by
  have reached : Reaches (step 20) (fun _ _ => True) State.initial
      (State.initial.create .recv 1 7) :=
    .single ⟨.post .recv 1 7 .incomplete, trivial, rfl⟩
  have sound := Sound.of_reaches reached
  obtain ⟨outcome, effect⟩ := cancelRecv_failed 20 sound (e := 0) (by decide) rfl
  have ran : ((run (step 20) (fun _ _ => True)
      ((State.initial.create .recv 1 7).cancelRecv 0 false).1
      [.progress, .testsome (.done []), .testsome (.done [])]).map State.fault) =
        some (some .indices) := by decide
  obtain ⟨t, after, fault⟩ := Option.map_eq_some_iff.mp ran
  refine ⟨_, t, reached, by decide, by decide, ?_, reaches_of_run after, fault⟩
  rw [outcome]
  exact Lost.not_stillCompleted ⟨by decide, rfl⟩ (sound.effect effect)
    ((Quiet.of_reaches reached).effect sound effect)

end Oomph.Mpi
