import Oomph.Machine.Reentry
import Oomph.Mpi.FailedCancel
import Oomph.Mpi.Flags
import Oomph.Mpi.Recursion

namespace Oomph.Mpi

open Machine State

def Side.stage : Side → Stage
  | .sends => .sends
  | .recvs => .recvs

def Side.next : Side → Stage
  | .sends => .recvs
  | .recvs => .context

def Stage.covers : Stage → Side → Bool
  | .sends, _ => true
  | .recvs, .recvs => true
  | _, _ => false

def Frame.covers : Frame → Side → Bool
  | .progress stage, side => stage.covers side
  | _, _ => false

/-- What is assumed while the call of `progress` made over `base` runs: no `MPI_Testsome`
fails, each reports the operation of the request, which is complete, whenever it is asked
about it, and no callback cancels the request. -/
structure Attends (base : List Frame) (side : Side) (e : Nat) (s : State) (action : Action) :
    Prop where
  inside : base.length < s.stack.length
  succeeds : action ≠ .testsome .failed
  reports : ∀ positions ∈ (match action with | .testsome (.done positions) => [positions] | _ => []),
    s.stack.head? = some (.progress side.stage) → (s.reqs side).inProgress = false →
      e ∈ (s.reqs side).queue → (s.heap e).req ≠ none → (s.reqs side).queue.idxOf e ∈ positions
  untouched : ¬ Hits s e action

instance (base : List Frame) (side : Side) (e : Nat) (s : State) (action : Action) :
    Decidable (Attends base side e s action) :=
  decidable_of_iff (_ ∧ _ ∧ _ ∧ _)
    ⟨fun ⟨inside, succeeds, reports, untouched⟩ => ⟨inside, succeeds, reports, untouched⟩,
      fun ⟨inside, succeeds, reports, untouched⟩ => ⟨inside, succeeds, reports, untouched⟩⟩

variable {limit : Nat} {s t : State} {action : Action} {e : Nat} {side : Side}
  {base rest : List Frame}

/-- A step changes the innermost frame.  A loop begins only over a queue that is not marked. -/
theorem effect_frames (effect : Effect limit s action t) :
    Enters Frame.side (fun side => (s.reqs side).inProgress = false) s.stack t.stack := by
  cases effect with
  | create kind => cases kind <;> exact .refl _
  | runInplace kind => cases kind <;> exact .push rfl
  | call stage => exact .push rfl
  | advance stage next rest answer stack => exact .replace stack rfl
  | leave stage rest found stack => exact .pop stack
  | testFailed stage side rest stack => exact .pop stack
  | testEmpty stage next side rest stack => exact .replace stack rfl
  | compact stage next side rest positions stack idle =>
    refine ⟨[_], [_, _], rest, stack, rfl, Nat.le_refl 1, ?_⟩
    simp [idle]
  | visit side position finish x rest stack => exact .replace stack rfl
  | loopEnd side position finish rest stack => exact .pop stack
  | returnInplace op rest stack => exact .pop stack
  | returnSharedInplace op rest stack => exact .pop stack
  | returnReady side position finish x rest stack => exact .replace stack rfl
  | popShared stage position x rest stack => exact .replace stack rfl
  | returnShared x rest stack => exact .pop stack
  | cancelRecv y x op held waits found =>
    obtain ⟨heap, queue, equal, -⟩ := withdrawRecv_spec op found
    rw [equal]
    exact .refl _
  | _ => exact .refl _

theorem effect_busy (effect : Effect limit s action t) (busy : (s.reqs side).inProgress = true) :
    (t.reqs side).inProgress = true ∨ ∃ frame, s.stack.head? = some frame ∧
      frame.side = some side := by
  cases effect with
  | create kind => cases kind <;> cases side <;> exact .inl busy
  | runInplace kind => cases kind <;> cases side <;> exact .inl busy
  | testFailed stage other rest stack idle =>
    cases side <;> cases other <;> first | exact .inl busy | exact .inl rfl
  | testEmpty stage next other rest stack idle =>
    refine .inl ?_
    cases side <;> cases other <;>
      first | exact busy | exact absurd (busy.symm.trans idle) (by decide)
  | compact stage next other rest positions stack idle =>
    cases side <;> cases other <;> first | exact .inl busy | exact .inl rfl
  | loopEnd other position finish rest stack =>
    by_cases same : other = side
    · exact .inr ⟨_, by rw [stack]; rfl, by simp [same]⟩
    · cases side <;> cases other <;> first | contradiction | exact .inl busy
  | cancelRecv y x op held waits found =>
    obtain ⟨heap, queue, equal, -⟩ := withdrawRecv_spec op found
    rw [equal]
    cases side <;> exact .inl busy
  | _ => cases side <;> exact .inl busy

/-- A request that waits while its queue is marked, by a loop that is not part of the call. -/
abbrev State.Barred (s : State) (base : List Frame) (side : Side) (e : Nat) : Prop :=
  Machine.Barred Frame.side side base s.stack ((s.reqs side).inProgress = true)
    (s.requestKind e = some side.kind ∧ e ∈ s.waiting)

theorem barred_step (barred : s.Barred base side e) (sound : s.Sound)
    (attends : Attends base side e s action) (effect : Effect limit s action t) :
    t.Barred base side e := by
  refine barred.step attends.inside (effect_frames effect) (by simp) fun other busy waits => ?_
  obtain ⟨known, waits⟩ := waits
  refine ⟨(effect_busy effect busy).resolve_right ?_, effect_requestKind sound effect known, ?_⟩
  · rintro ⟨frame, first, same⟩
    exact other frame first same
  · refine (effect_keeps sound known attends.untouched waits effect).resolve_right ?_
    rintro ⟨position, finish, rest, looping, -⟩
    exact other _ (by rw [looping]; rfl) rfl

theorem step_testsome {answer : Testsome} (stack : s.stack = .progress side.stage :: rest)
    (taken : step limit s (.testsome answer) = some t) :
    s.progressQueue side side.next rest answer = some t := by
  unfold step at taken
  split at taken
  · cases taken
  · cases side <;> simpa [stack, Side.stage, Side.next] using taken

theorem step_of_progress {stage : Stage} (stack : s.stack = .progress stage :: rest)
    (covers : stage.covers side = true) (taken : step limit s action = some t) :
    ∃ answer other, action = .testsome answer ∧ stage = other.stage ∧
      (other = side ∨ other = .sends) := by
  have outside : s.inUserCode = false := by simp [inUserCode, stack]
  unfold step at taken
  split at taken
  · cases taken
  · cases action with
    | testsome answer =>
      cases stage with
      | sends => exact ⟨answer, .sends, rfl, rfl, .inr rfl⟩
      | recvs =>
        cases side with
        | sends => cases covers
        | recvs => exact ⟨answer, .recvs, rfl, rfl, .inl rfl⟩
      | context => cases covers
    | test found =>
      cases stage with
      | sends => simp [stack] at taken
      | recvs => simp [stack] at taken
      | context => cases covers
    | callbackReturns => simp [returnCallback, stack] at taken
    | visit => simp [stack] at taken
    | _ => simp [State.call, outside] at taken

/-- A queue that is not in progress is asked about, and what is reported is in its loop. -/
theorem unvisited_of_testsome {answer : Testsome} (sound : s.Sound)
    (attends : Attends base side e s (.testsome answer))
    (stack : s.stack = .progress side.stage :: rest) (idle : (s.reqs side).inProgress = false)
    (queued : e ∈ (s.reqs side).queue) (handle : (s.heap e).req ≠ none)
    (taken : step limit s (.testsome answer) = some t) : e ∈ t.unvisited := by
  have entered := step_testsome stack taken
  have some : ((s.handles side).all Option.isNone) = false := by
    simp only [handles, List.all_map, List.all_eq_false]
    refine ⟨e, queued, ?_⟩
    simpa [Option.isNone_iff_eq_none] using handle
  cases answer with
  | failed => exact absurd rfl attends.succeeds
  | done positions =>
    have reported : (s.reqs side).queue.idxOf e ∈ positions :=
      attends.reports positions (by simp) (by rw [stack]; rfl) idle queued handle
    have nonempty : (s.reqs side).queue ≠ [] := List.ne_nil_of_mem queued
    have asked : positions ≠ [] := List.ne_nil_of_mem reported
    simp only [progressQueue, idle, Bool.false_eq_true, if_false, nonempty, some, asked,
      Option.ite_none_right_eq_some, Option.some.injEq] at entered
    obtain ⟨reportable, rfl⟩ := entered
    rw [unvisited_enterLoop sound.loops positions side.next stack idle, Multiset.mem_add,
      Sound.compacted_readyQueue]
    refine .inl ((mem_split_ready reportable.1 fun _ _ => Nat.zero_le _).mpr ⟨_, reported, ?_⟩)
    rw [Nat.sub_zero]
    exact List.getElem?_idxOf queued

theorem stack_of_testsome {answer : Testsome} (stack : s.stack = .progress .sends :: rest)
    (succeeds : answer ≠ .failed) (taken : step limit s (.testsome answer) = some t) :
    ∃ above stage, t.stack = above ++ .progress stage :: rest ∧ stage.covers .recvs = true := by
  cases answer with
  | failed => exact absurd rfl succeeds
  | done positions =>
    have entered : s.progressQueue .sends .recvs rest (.done positions) = some t :=
      step_testsome stack taken
    simp only [progressQueue] at entered
    split at entered
    · cases entered
      exact ⟨[], .recvs, rfl, rfl⟩
    · split at entered
      · cases entered
        exact ⟨[], .recvs, rfl, rfl⟩
      · split at entered
        · cases entered
          exact ⟨[], .sends, stack, rfl⟩
        · split at entered
          · cases entered
            exact ⟨[], .recvs, rfl, rfl⟩
          · simp only [Option.ite_none_right_eq_some, Option.some.injEq] at entered
            obtain ⟨-, rfl⟩ := entered
            exact ⟨[_], .recvs, rfl, rfl⟩

abbrev State.CalledBack (s : State) (e : Nat) : Prop :=
  Oomph.CalledBack (s.requests e) s.history e

abbrev State.Attended (s : State) (base : List Frame) (side : Side) (e : Nat) : Prop :=
  Machine.Attended (fun frame => frame.covers side = true) base s.stack
    (e ∈ (s.reqs side).queue ∧ s.transport e ≠ .waited) (e ∈ s.unvisited ∨ e ∈ s.running)
    (s.CalledBack e)

theorem queue_of_queued (typed : s.Typed) (known : s.requestKind e = some side.kind)
    (queued : e ∈ s.queued) : e ∈ (s.reqs side).queue := by
  rcases Sound.mem_queued.mp queued with ⟨other, here⟩ | shared
  · have same := typed.queued other e here
    rw [known] at same
    rwa [Side.kind_injective (Option.some.inj same)]
  · have same := typed.sharedQueued e shared
    rw [known] at same
    cases side <;> cases same

theorem loop_of_unvisited (typed : s.Typed) (known : s.requestKind e = some side.kind)
    (unvisited : e ∈ s.unvisited) : ∃ frame ∈ s.stack, frame.side = some side := by
  obtain ⟨frame, member, inside⟩ := mem_total.mp unvisited
  cases frame with
  | ready other position finish running =>
    have listed : e ∈ (s.reqs other).readyQueue := by
      cases running <;> exact List.mem_of_mem_drop inside
    have same := typed.readied other e listed
    rw [known] at same
    exact ⟨_, member, by simp [Side.kind_injective (Option.some.inj same)]⟩
  | _ => exact absurd inside (Multiset.notMem_zero e)

theorem queued_step (sound : s.Sound) (known : s.requestKind e = some side.kind)
    (untouched : ¬ Hits s e action) (queued : e ∈ (s.reqs side).queue)
    (active : s.transport e ≠ .waited) (effect : Effect limit s action t) :
    e ∈ t.unvisited ∨ e ∈ (t.reqs side).queue ∧ t.transport e ≠ .waited := by
  have member : e ∈ s.queued := Sound.mem_queued.mpr (.inl ⟨side, queued⟩)
  have notShared : e ∉ s.shared.queue := by
    intro shared
    have kinds := sound.typed.sharedQueued e shared
    rw [known] at kinds
    cases side <;> cases kinds
  have waits : e ∈ t.waiting := by
    refine (effect_keeps sound known untouched (Multiset.mem_add.mpr (.inl member))
      effect).resolve_right ?_
    rintro ⟨position, finish, rest, stack, next, -⟩
    exact sound.not_queued_of_unvisited (unvisited_next stack next) member
  rcases Multiset.mem_add.mp waits with still | unvisited
  · refine .inr ⟨?_, fun waited => ?_⟩
    · exact queue_of_queued (sound.effect effect).typed (effect_requestKind sound effect known) still
    · rcases effect_waited sound effect waited with old | hit | shared
      · exact active old
      · exact untouched hit
      · exact notShared shared
  · exact .inl unvisited

theorem covers_step {frame : Frame} (sound : s.Sound) (marked : s.MarkedOn side)
    (idle : ∀ frame ∈ base, frame.side ≠ some side) (attends : Attends base side e s action)
    (stack : s.stack = frame :: base) (covers : frame.covers side = true)
    (queued : e ∈ (s.reqs side).queue) (active : s.transport e ≠ .waited)
    (taken : step limit s action = some t) :
    e ∈ t.unvisited ∨ ∃ above frame, t.stack = above ++ frame :: base ∧
      frame.covers side = true := by
  cases frame with
  | progress stage =>
    obtain ⟨answer, other, rfl, rfl, same⟩ := step_of_progress stack covers taken
    by_cases here : other = side
    · subst here
      have free : (s.reqs other).inProgress = false := by
        by_contra mark
        obtain ⟨frame, member, looping⟩ := marked (by simpa using mark)
        rw [stack] at member
        rcases List.mem_cons.mp member with rfl | inside
        · cases looping
        · exact idle frame inside looping
      have handle : (s.heap e).req ≠ none := by
        rcases (sound.pending e (Sound.mem_queued.mpr (.inl ⟨other, queued⟩))).handle with
          ⟨own, -⟩ | ⟨-, waited⟩
        · rw [own]
          nofun
        · exact absurd waited active
      exact .inl (unvisited_of_testsome sound attends stack free queued handle taken)
    · obtain rfl := same.resolve_left here
      have receives : side = .recvs := by cases side <;> first | contradiction | rfl
      subst receives
      obtain ⟨above, stage, after, covers⟩ := stack_of_testsome stack
        (fun failed => attends.succeeds (by rw [failed])) taken
      exact .inr ⟨above, .progress stage, after, covers⟩
  | _ => cases covers

theorem unvisited_step (sound : s.Sound) (known : s.requestKind e = some side.kind)
    (untouched : ¬ Hits s e action) (unvisited : e ∈ s.unvisited)
    (effect : Effect limit s action t) : e ∈ t.unvisited ∨ e ∈ t.running := by
  have waits : e ∈ s.waiting := Multiset.mem_add.mpr (.inr unvisited)
  rcases effect_keeps sound known untouched waits effect with
    still | ⟨position, finish, rest, stack, next, rfl⟩
  · rcases Multiset.mem_add.mp still with queued | unvisited'
    · refine absurd ?_ (sound.not_queued_of_unvisited unvisited)
      rcases effect_settled sound.queue_nodup sound.indexed effect with
        settled | ⟨kind, rank, tag, rfl | rfl⟩
      · exact settled.queued queued
      · exact Sound.queued_create queued (Nat.ne_of_lt (requestKind_lt known))
      · cases kind <;> exact queued
    · exact .inl unvisited'
  · rw [running_visit stack]
    exact .inr (Multiset.mem_cons_self _ _)

theorem postedAs_of_requestKind {kind : Kind} (known : s.requestKind e = some kind) :
    PostedAs s.posts e fun post => post.inplace = false := by
  simp only [State.requestKind, Option.bind_eq_some_iff, Option.ite_none_left_eq_some] at known
  obtain ⟨post, found, request, -⟩ := known
  exact ⟨post, found, by simpa using request⟩

theorem attended_step (attended : s.Attended base side e) (calling : s.Calling)
    (known : s.requestKind e = some side.kind) (marked : s.MarkedOn side)
    (idle : ∀ frame ∈ base, frame.side ≠ some side) (attends : Attends base side e s action)
    (taken : step limit s action = some t) : t.Attended base side e := by
  have effect := step_effect taken
  have marks := effect_marks calling effect
  refine attended.step (effect_frames effect).tops ?_ ?_ ?_ ?_
  · rintro ⟨queued, active⟩
    exact (queued_step calling.sound known attends.untouched queued active effect).symm.imp id .inl
  · rintro frame stack covers ⟨queued, active⟩
    exact (covers_step calling.sound marked idle attends stack covers queued active taken).imp_left
      .inl
  · rintro (unvisited | runs)
    · exact .inl (unvisited_step calling.sound known attends.untouched unvisited effect)
    · have called : e ∈ Event.calledOps s.history := by
        rw [calling.fates]
        exact Multiset.mem_add.mpr (.inl runs)
      exact (effect_running calling.sound known runs effect).imp .inr
        fun ready => ⟨ready, marks.called_mono called⟩
  · exact fun back => back.step (postedAs_of_requestKind known) marks

theorem kind_of_waited {allowed : State → Action → Prop}
    (reached : Reaches (step limit) allowed State.initial s) (waited : s.transport e = .waited) :
    s.requestKind e = some .recv ∨ s.requestKind e = some .sharedRecv := by
  have all : s.Sound ∧ ∀ e, s.transport e = .waited →
      s.requestKind e = some .recv ∨ s.requestKind e = some .sharedRecv := by
    refine Reaches.invariant (fun s => s.Sound ∧ ∀ e, s.transport e = .waited →
      s.requestKind e = some .recv ∨ s.requestKind e = some .sharedRecv) ⟨Sound.start, nofun⟩ ?_
      reached
    rintro before action after ⟨sound, handled⟩ _ taken
    have effect := step_effect taken
    refine ⟨sound.effect effect, fun e waited => ?_⟩
    have kept : before.requestKind e = some .recv ∨ before.requestKind e = some .sharedRecv := by
      rcases effect_waited sound effect waited with old | hit | shared
      · exact handled e old
      · cases action with
        | cancel x flag => exact .inl (sound.typed.queued .recvs e (List.mem_of_getElem? hit))
        | _ => exact hit.elim
      · exact .inr (sound.typed.sharedQueued e shared)
    exact kept.imp (effect_requestKind sound effect) (effect_requestKind sound effect)
  exact all.2 e waited

theorem barred_along (barred : s.Barred base side e) (sound : s.Sound)
    (continued : Reaches (step limit) (Attends base side e) s t) : t.Barred base side e := by
  have both : t.Sound ∧ t.Barred base side e := by
    refine Reaches.invariant (fun t => t.Sound ∧ t.Barred base side e) ⟨sound, barred⟩ ?_ continued
    rintro before action after ⟨sound, barred⟩ attends taken
    have effect := step_effect taken
    exact ⟨sound.effect effect, barred_step barred sound attends effect⟩
  exact both.2

theorem attended_along (attended : s.Attended base side e) (calling : s.Calling)
    (known : s.requestKind e = some side.kind) (marked : s.MarkedOn side)
    (idle : ∀ frame ∈ base, frame.side ≠ some side)
    (continued : Reaches (step limit) (Attends base side e) s t) :
    t.Sound ∧ t.requestKind e = some side.kind ∧ t.Attended base side e := by
  have all : t.Calling ∧ t.MarkedOn side ∧ t.requestKind e = some side.kind ∧
      t.Attended base side e := by
    refine Reaches.invariant (fun t => t.Calling ∧ t.MarkedOn side ∧
      t.requestKind e = some side.kind ∧ t.Attended base side e)
      ⟨calling, marked, known, attended⟩ ?_ continued
    rintro before action after ⟨calling, marked, known, attended⟩ attends taken
    have effect := step_effect taken
    exact ⟨calling.effect effect, marked.effect attends.succeeds effect,
      effect_requestKind calling.sound effect known,
      attended_step attended calling known marked idle attends taken⟩
  exact ⟨all.1.sound, all.2.2⟩

theorem calledBack_of_return (attended : t.Attended base side e) (typed : t.Typed)
    (known : t.requestKind e = some side.kind) (back : t.stack = base)
    (idle : ∀ frame ∈ base, frame.side ≠ some side) (outside : e ∉ total Frame.runs base) :
    t.CalledBack e := by
  subst back
  refine attended.of_return ?_
  rintro (unvisited | runs)
  · obtain ⟨frame, member, looping⟩ := loop_of_unvisited typed known unvisited
    exact idle frame member looping
  · exact outside runs

theorem Lost.not_calledBack (lost : Lost s e) (sound : s.Sound) (quiet : s.Quiet)
    {allowed : State → Action → Prop} (continued : Reaches (step limit) allowed s t) :
    ¬ t.CalledBack e := by
  rintro ⟨-, called⟩
  obtain ⟨lost, -, quiet⟩ := lost.forever sound quiet continued
  obtain ⟨rank, tag, event⟩ := Event.mem_calledOps.mp called
  exact lost.unspoken quiet _ event rfl

def ProgressReturns (limit : Nat) (side : Side) (e : Nat) (s t : State) : Prop :=
  ∃ begun, step limit s .progress = some begun ∧
    Reaches (step limit) (Attends s.stack side e) begun t ∧ t.stack = s.stack

/-- A request that waits in a queue is served by a call of `progress`, at the top level or in a
callback, exactly if the queue is not in progress and the handle of the request is not null. -/
theorem progress_serves_iff (reached : Leads (step limit) State.initial s)
    (known : s.requestKind e = some side.kind) (waits : e ∈ s.waiting)
    (call : ProgressReturns limit side e s t) :
    t.CalledBack e ↔ (s.reqs side).inProgress = false ∧ (s.heap e).req ≠ none := by
  obtain ⟨begun, calls, returns, back⟩ := call
  have entered : begun = { s with stack := .progress .sends :: s.stack } := by
    unfold step at calls
    split at calls
    · cases calls
    · exact (Option.some.inj (call_some calls)).symm
  have started : Leads (step limit) State.initial begun := reached.trans (leads_one calls)
  have calling := Calling.of_reaches started
  have sound := calling.sound
  by_cases busy : (s.reqs side).inProgress = true
  · have barred : begun.Barred s.stack side e := by
      subst entered
      have same : ({ s with stack := .progress .sends :: s.stack } : State).waiting = s.waiting :=
        waiting_plain rfl rfl rfl (by simp)
      exact ⟨⟨known, same ▸ waits⟩, by cases side <;> exact busy, [.progress .sends], rfl, by simp⟩
    have uncalled := (Calling.of_reaches (started.trans (returns.mono fun _ _ _ => trivial))).uncalled
      (barred_along barred sound returns).waits.2
    exact ⟨fun served => absurd served.2 uncalled, fun served => by simp [busy] at served⟩
  · rw [Bool.not_eq_true] at busy
    have before := Sound.of_reaches reached
    have idle := before.loops.idle busy
    have queued : e ∈ (s.reqs side).queue := by
      rcases Multiset.mem_add.mp waits with queued | unvisited
      · exact queue_of_queued before.typed known queued
      · obtain ⟨frame, member, looping⟩ := loop_of_unvisited before.typed known unvisited
        exact absurd looping (idle frame member)
    have member : e ∈ s.queued := Sound.mem_queued.mpr (.inl ⟨side, queued⟩)
    subst entered
    rcases (before.pending e member).handle with ⟨own, active⟩ | ⟨null, waited⟩
    · have marked : ({ s with stack := .progress .sends :: s.stack } : State).MarkedOn side := by
        intro mark
        have still : (s.reqs side).inProgress = true := by cases side <;> exact mark
        rw [busy] at still
        cases still
      have attended : ({ s with stack := .progress .sends :: s.stack } : State).Attended
          s.stack side e :=
        .queued [] _ rfl rfl ⟨by cases side <;> exact queued, by simp [active]⟩
      obtain ⟨after, kinds, attended⟩ := attended_along attended calling known marked idle returns
      have outside : e ∉ s.running := fun runs => before.not_queued_of_running runs member
      exact ⟨fun _ => ⟨busy, by simp [own]⟩,
        fun _ => calledBack_of_return attended after.typed kinds back idle outside⟩
    · have receives : side = .recvs := by
        rcases kind_of_waited reached waited with kinds | kinds <;> rw [known] at kinds <;>
          cases side <;> first | rfl | cases kinds
      subst receives
      have lost : Lost { s with stack := .progress .sends :: s.stack } e := ⟨queued, null⟩
      exact ⟨fun served => absurd served (lost.not_calledBack sound (.of_reaches started) returns),
        fun served => absurd null served.2⟩

end Oomph.Mpi
