import Oomph.Mpi.Tracking
import Oomph.Machine.Marks

namespace Oomph.Mpi

open Machine State

variable {limit : Nat} {s t : State} {action : Action} {e : Nat} {kind : Kind} {side : Side}

theorem Side.kind_injective {other : Side} (same : side.kind = other.kind) : side = other := by
  cases side <;> cases other <;> first | rfl | cases same

theorem effect_requestKind (sound : s.Sound) (effect : Effect limit s action t)
    (known : s.requestKind e = some kind) : t.requestKind e = some kind := by
  rcases effect_settled sound.queue_nodup sound.indexed effect with
    settled | ⟨kind, rank, tag, rfl | rfl⟩
  · rw [requestKind, settled.posts]
    exact known
  · rw [requestKind_append (create_posts kind rank tag) (requestKind_lt known), known]
  · rw [requestKind_append (runInplace_posts kind rank tag) (requestKind_lt known), known]

inductive CallStep (s t : State) : Prop
  | keep : t.posts = s.posts → t.waiting ≤ s.waiting → t.running = s.running →
      Event.calledOps t.history = Event.calledOps s.history →
      Event.returnedOps t.history = Event.returnedOps s.history → CallStep s t
  | start (e : Nat) : t.posts = s.posts → s.waiting = e ::ₘ t.waiting →
      t.running = e ::ₘ s.running →
      Event.calledOps t.history = e ::ₘ Event.calledOps s.history →
      Event.returnedOps t.history = Event.returnedOps s.history → CallStep s t
  | finish (e : Nat) : t.posts = s.posts → t.waiting ≤ s.waiting → s.running = e ::ₘ t.running →
      Event.calledOps t.history = Event.calledOps s.history →
      Event.returnedOps t.history = e ::ₘ Event.returnedOps s.history → CallStep s t
  | created (kind : Kind) (rank : RankType) (tag : TagType) : t = s.create kind rank tag →
      CallStep s t
  | ranInplace (kind : Kind) (rank : RankType) (tag : TagType) : t = s.runInplace kind rank tag →
      CallStep s t

theorem Turn.callStep (turn : Turn s t) : CallStep s t := by
  cases turn with
  | still posts waiting running history =>
    exact .keep posts (le_of_eq waiting) running (by rw [history]) (by rw [history])
  | created kind rank tag made => exact .created kind rank tag made
  | ranInplace kind rank tag made => exact .ranInplace kind rank tag made
  | started e kind known posts waiting running history =>
    exact .start e posts waiting running (by rw [history]; rfl) (by rw [history]; rfl)
  | returned e kind known posts waiting running history =>
    exact .finish e posts (le_of_eq waiting) running (by rw [history]; rfl)
      (by rw [history]; rfl)
  | returnedInplace op unknown posts waiting running history =>
    exact .finish op posts (le_of_eq waiting) running (by rw [history]; rfl)
      (by rw [history]; rfl)
  | withdrawn e kind known posts waiting running history =>
    refine .keep posts ?_ running (by rw [history]; rfl) (by rw [history]; rfl)
    rw [waiting]
    exact Multiset.le_cons_self _ _

theorem Stale.callStep (stale : Stale s t) : CallStep s t := by
  rcases stale.history with same | ⟨e, kind, -, -, marked⟩
  · exact .keep stale.posts stale.waiting stale.running (by rw [same]) (by rw [same])
  · exact .keep stale.posts stale.waiting stale.running (by rw [marked]; rfl) (by rw [marked]; rfl)

theorem effect_callStep (sound : s.Sound) (effect : Effect limit s action t) : CallStep s t := by
  rcases effect_cases sound effect with turn | ⟨-, stale⟩
  · exact turn.callStep
  · exact stale.callStep

def State.calls (s : State) : Calls where
  issued := s.posts.length
  pending := s.waiting
  called := Event.calledOps s.history

theorem CallStep.calls (step : CallStep s t) : Calls.Step s.calls t.calls := by
  cases step with
  | keep posts waiting _ called => exact .keep (congrArg List.length posts) waiting called
  | start e posts waiting _ called =>
    exact .call e (congrArg List.length posts) (le_of_eq waiting.symm) called
  | finish e posts waiting _ called => exact .keep (congrArg List.length posts) waiting called
  | created kind rank tag equal =>
    subst equal
    refine .issue ?_ (waiting_create kind rank tag) (by cases kind <;> rfl)
    simp [State.calls, create_posts]
  | ranInplace kind rank tag equal =>
    subst equal
    refine .issueCalled ?_ (waiting_runInplace kind rank tag) (by cases kind <;> rfl)
    simp [State.calls, runInplace_posts]

structure State.Calling (s : State) : Prop where
  sound : s.Sound
  calls : s.calls.Sound
  fates : Event.calledOps s.history = s.running + Event.returnedOps s.history

theorem State.Calling.effect (calling : s.Calling) (effect : Effect limit s action t) :
    t.Calling := by
  have step := effect_callStep calling.sound effect
  refine ⟨calling.sound.effect effect, calling.calls.step step.calls, ?_⟩
  have fates := calling.fates
  cases step with
  | keep _ _ running called returned => rw [called, running, returned, fates]
  | start e _ _ running called returned =>
    rw [called, running, returned, fates, Multiset.cons_add]
  | finish e _ _ running called returned =>
    rw [called, returned, fates, running, Multiset.cons_add, Multiset.add_cons]
  | created kind rank tag equal =>
    subst equal
    rw [running_create]
    cases kind <;> exact fates
  | ranInplace kind rank tag equal =>
    subst equal
    rw [running_runInplace, Multiset.cons_add, ← (by cases kind <;> rfl :
      Event.returnedOps s.history = Event.returnedOps (s.runInplace kind rank tag).history),
      ← fates]
    cases kind <;> rfl

theorem State.Calling.initial : Calling initial where
  sound := Sound.start
  calls := ⟨Multiset.nodup_zero, nofun⟩
  fates := rfl

theorem State.Calling.of_reaches {allowed : State → Action → Prop}
    (reached : Reaches (step limit) allowed State.initial s) : s.Calling :=
  reached.invariant State.Calling .initial
    fun _ _ _ calling _ taken => calling.effect (step_effect taken)

theorem State.Calling.uncalled (calling : s.Calling) (waits : e ∈ s.waiting) :
    e ∉ Event.calledOps s.history :=
  Multiset.disjoint_left.mp (Multiset.nodup_add.mp calling.calls.once).2.2 waits

def Hits (s : State) (e : Nat) : Action → Prop
  | .cancel x _ => s.recvs.queue[(s.heap x).index]? = some e
  | _ => False

instance (s : State) (e : Nat) (action : Action) : Decidable (Hits s e action) := by
  cases action <;> unfold Hits <;> infer_instance

/-- A request of a queue waits until its loop comes to it, unless it is cancelled. -/
theorem effect_keeps (sound : s.Sound) (known : s.requestKind e = some side.kind)
    (untouched : ¬ Hits s e action) (waits : e ∈ s.waiting) (effect : Effect limit s action t) :
    e ∈ t.waiting ∨ ∃ position finish rest, s.stack = .ready side position finish none :: rest ∧
      (s.reqs side).readyQueue[position]? = some e ∧
      t = s.startReady side position finish e rest := by
  have kept : ∀ {after : State}, after.waiting = s.waiting → e ∈ after.waiting :=
    fun same => same ▸ waits
  have others : ∀ {x : Nat} {after : State}, s.waiting = x ::ₘ after.waiting → e ≠ x →
      e ∈ after.waiting := by
    intro x after left different
    rw [left, Multiset.mem_cons] at waits
    exact waits.resolve_left different
  have notShared : ∀ {x : Nat}, s.requestKind x = some .sharedRecv → e ≠ x := by
    rintro x shared rfl
    rw [known] at shared
    cases side <;> cases shared
  cases effect with
  | create kind rank tag =>
    rw [waiting_create]
    exact .inl (Multiset.mem_cons_of_mem waits)
  | runInplace kind rank tag => exact .inl (kept (waiting_runInplace kind rank tag))
  | call stage => exact .inl (kept (waiting_plain rfl rfl rfl (by simp)))
  | advance stage next rest answer stack =>
    exact .inl (kept (waiting_plain rfl rfl rfl (by simp [stack])))
  | leave stage rest found stack =>
    exact .inl (kept (waiting_plain rfl rfl rfl (by simp [stack])))
  | testFailed stage side rest stack free =>
    exact .inl (kept (waiting_clearReady [] stack sound.loops free (by simp)))
  | testEmpty stage next side rest stack free =>
    exact .inl (kept (waiting_clearReady [.progress next] stack sound.loops free (by simp)))
  | compact stage next side rest positions stack free =>
    exact .inl (kept (waiting_enterLoop positions next stack sound.loops free))
  | visit other position finish x rest stack more next =>
    by_cases same : e = x
    · subst same
      have kinds := sound.typed.readied other e (List.mem_of_getElem? next)
      rw [known] at kinds
      obtain rfl := Side.kind_injective (Option.some.inj kinds)
      exact .inr ⟨position, finish, rest, stack, next, rfl⟩
    · exact .inl (others (waiting_visit stack next) same)
  | loopEnd side position finish rest stack done =>
    exact .inl (kept (waiting_loopEnd stack sound.loops done))
  | returnInplace op rest stack =>
    exact .inl (kept (waiting_plain rfl rfl rfl (by simp [stack])))
  | returnSharedInplace op rest stack =>
    exact .inl (kept (waiting_plain rfl rfl rfl (by simp [stack])))
  | returnReady side position finish x rest stack => exact .inl (kept (waiting_returnReady stack))
  | popShared stage position x rest stack free popped =>
    exact .inl (others (waiting_startShared stack popped)
      (notShared (sound.typed.sharedQueued x (List.mem_of_getElem? popped))))
  | returnShared x rest stack =>
    exact .inl (kept (waiting_plain rfl rfl rfl (by simp [stack])))
  | cancelRecv y x op held ready found =>
    refine .inl (others (waiting_withdrawRecv op found) ?_)
    rintro rfl
    exact untouched found
  | cancelShared x op held ready queued =>
    exact .inl (others (waiting_withdrawShared op queued)
      (notShared (sound.typed.sharedQueued x queued)))
  | cancelSharedThrew x =>
    have absent : e ∉ s.shared.queue := fun member =>
      notShared (sound.typed.sharedQueued e member) rfl
    refine .inl ?_
    simp only [State.waiting, queued, Multiset.mem_add, Multiset.mem_coe] at waits ⊢
    rcases waits with (own | shared) | unvisited
    · exact .inl (.inl own)
    · exact absurd shared absent
    · exact .inr unvisited
  | _ => exact .inl (kept rfl)

theorem effect_running (sound : s.Sound) (known : s.requestKind e = some kind)
    (runs : e ∈ s.running) (effect : Effect limit s action t) :
    e ∈ t.running ∨ (t.heap e).ready = true := by
  rcases effect_cases sound effect with turn | ⟨-, stale⟩
  · cases turn with
    | still _ _ running => exact .inl (running ▸ runs)
    | created kind rank tag made =>
      rw [made, running_create]
      exact .inl runs
    | ranInplace kind rank tag made =>
      rw [made, running_runInplace]
      exact .inl (Multiset.mem_cons_of_mem runs)
    | started x kind _ _ _ running =>
      rw [running]
      exact .inl (Multiset.mem_cons_of_mem runs)
    | returned x kind _ _ _ running _ _ ready =>
      rw [running, Multiset.mem_cons] at runs
      rcases runs with rfl | other
      · exact .inr ready
      · exact .inl other
    | returnedInplace op none _ _ running =>
      rw [running, Multiset.mem_cons] at runs
      rcases runs with rfl | other
      · rw [known] at none
        cases none
      · exact .inl other
    | withdrawn x kind _ _ _ running => exact .inl (running ▸ runs)
  · exact .inl (stale.running ▸ runs)

/-- Only a cancel that comes too late completes an operation without a report. -/
theorem effect_waited (sound : s.Sound) (effect : Effect limit s action t)
    (waited : t.transport e = .waited) :
    s.transport e = .waited ∨ Hits s e action ∨ e ∈ s.shared.queue := by
  have updated : ∀ {x : Nat} {answer : Transport},
      Function.update s.transport x answer e = .waited → answer ≠ .waited →
      s.transport e = .waited := by
    intro x answer waited other
    by_cases same : e = x
    · rw [same, Function.update_self] at waited
      exact absurd waited other
    · rwa [Function.update_of_ne same] at waited
  have handle : ∀ {x op : Nat} {answer : Transport}, x ∈ s.queued → (s.heap x).req = some op →
      Function.update s.transport op answer e = .waited → s.transport e = .waited ∨ e = x := by
    intro x op answer queued owns waited
    rw [sound.handle_own queued owns] at waited
    by_cases same : e = x
    · exact .inr same
    · rw [Function.update_of_ne same] at waited
      exact .inl waited
  have recvQueued : ∀ {i x : Nat}, s.recvs.queue[i]? = some x → x ∈ s.queued := fun found =>
    Sound.mem_queued.mpr (.inl ⟨.recvs, List.mem_of_getElem? found⟩)
  cases effect with
  | create kind => cases kind <;> exact .inl (updated waited nofun)
  | runInplace kind => cases kind <;> exact .inl (updated waited nofun)
  | compact stage next side rest positions =>
    by_cases told : e ∈ reportedOps (s.handles side) positions
    · have reported : (s.enterLoop side positions next rest).transport e = .reported :=
        if_pos told
      rw [reported] at waited
      cases waited
    · have same : (s.enterLoop side positions next rest).transport e = s.transport e :=
        if_neg told
      exact .inl (same ▸ waited)
  | popShared stage position x rest stack free popped =>
    cases owns : (s.heap x).req with
    | none =>
      simp only [startShared, callCb, releaseSelfRef, owns] at waited
      exact .inl waited
    | some op =>
      simp only [startShared, callCb, releaseSelfRef, owns] at waited
      exact .inl (updated waited nofun)
  | cancelFailed y x op held ready found owns =>
    rcases handle (recvQueued found) owns waited with old | rfl
    · exact .inl old
    · exact .inr (.inl found)
  | cancelRecv y x op held ready found owns =>
    obtain ⟨heap, queue, equal, -⟩ := withdrawRecv_spec op found
    rw [equal] at waited
    rcases handle (recvQueued found) owns waited with old | rfl
    · exact .inl old
    · exact .inr (.inl found)
  | cancelSharedFailed x op held ready queued owns =>
    rcases handle (Sound.mem_queued.mpr (.inr queued)) owns waited with old | rfl
    · exact .inl old
    · exact .inr (.inr queued)
  | cancelShared x op held ready queued owns =>
    rcases handle (Sound.mem_queued.mpr (.inr queued)) owns waited with old | rfl
    · exact .inl old
    · exact .inr (.inr queued)
  | testFailed stage side => cases side <;> exact .inl waited
  | testEmpty stage next side => cases side <;> exact .inl waited
  | loopEnd side => cases side <;> exact .inl waited
  | _ => exact .inl waited

end Oomph.Mpi
