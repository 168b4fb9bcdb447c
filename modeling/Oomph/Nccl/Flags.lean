import Oomph.Answers
import Oomph.Nccl.Places

namespace Oomph.Nccl

open Machine State

variable {rank : RankType} {s t : State} {action : Action} {op : Nat}

namespace State

def requests (s : State) (op : Nat) : RequestStateBase :=
  (s.heap op).toRequestStateBase

def answers (s : State) : Marks :=
  marksOf s.posts s.requests s.history

end State

private theorem flags_kept {heap : Nat → RequestState} {x : Nat} {request : RequestState}
    (same : request.flags = (heap x).flags) (e : Nat) :
    (Function.update heap x request e).flags = (heap e).flags :=
  attr_update (fun request : RequestState => request.flags) same e

private theorem answers_same (posts : t.posts = s.posts)
    (flags : ∀ e, (t.heap e).flags = (s.heap e).flags)
    (called : ∀ e ∈ Event.calledOps s.history, e ∈ Event.calledOps t.history)
    (returned : Event.returnedOps t.history = Event.returnedOps s.history)
    (canceled : Event.canceledOps t.history = Event.canceledOps s.history) :
    Marks.Step s.answers t.answers := by
  rw [State.answers, State.answers, posts]
  exact marks_same flags called returned canceled

private theorem answers_create (post : Post) {req : NcclRequest}
    (posts : t.posts = s.posts ++ [post]) (request : post.inplace = false)
    (heap : t.heap = Function.update s.heap s.posts.length
      { RequestStateBase.create post.comm post.kind post.rank post.tag s.posts.length with
        req, selfPtr := true, held := true })
    (history : t.history = s.history) : Marks.Step s.answers t.answers := by
  rw [State.answers, State.answers, posts, history]
  refine marks_post (fun _ => ?_) (fun bare => ?_) (fun e other => ?_) (fun _ => id) rfl rfl
  · rw [State.requests, heap, Function.update_self]
    rfl
  · rw [request] at bare
    cases bare
  · rw [State.requests, heap, Function.update_of_ne other, State.requests]

private theorem answers_return {frame : Frame} {rest : List Frame} (placed : s.Placed)
    (stack : s.stack = frame :: rest) (runs : frame.running = some op) (posts : t.posts = s.posts)
    (heap : t.heap = (s.finishCb op).heap) (history : t.history = (s.finishCb op).history) :
    Marks.Step s.answers t.answers := by
  have called := placed.calls.running frame (by simp [stack]) op runs
  have known := placed.reported op (.inr (.inl called))
  rw [State.answers, State.answers, posts, history, finishCb_history, placed.toSettled.named known]
  refine marks_finish known called ?_ fun x other => ?_
  · simp [State.requests, heap, RequestStateBase.flags]
  · simp [State.requests, heap, Function.update_of_ne other]

theorem effect_answers (placed : s.Placed) (effect : Effect rank s action t) :
    Marks.Step s.answers t.answers := by
  cases effect with
  | postGroup comm kind peer tag =>
    exact answers_create ⟨comm, kind, peer, tag, false⟩ rfl rfl rfl rfl
  | postSingle comm kind peer tag =>
    exact answers_create ⟨comm, kind, peer, tag, false⟩ rfl rfl rfl rfl
  | call =>
    exact answers_same rfl (flags_kept (by rfl)) (fun _ => Multiset.mem_cons_of_mem) rfl rfl
  | sharedFound =>
    exact answers_same rfl (flags_kept (by rfl)) (fun _ => Multiset.mem_cons_of_mem) rfl rfl
  | drop => exact answers_same rfl (flags_kept (by rfl)) (fun _ => id) rfl rfl
  | returns comm side op waiting rest stack => exact answers_return placed stack rfl rfl rfl rfl
  | sharedReturns op rest stack => exact answers_return placed stack rfl rfl rfl rfl
  | _ => exact answers_same rfl (fun _ => rfl) (fun _ => id) rfl rfl

theorem answers_of_reaches {allowed : State → Action → Prop}
    (reached : Reaches (step rank) allowed State.initial s) : s.Placed ∧ s.answers.Sound := by
  refine reached.invariant (fun s => s.Placed ∧ s.answers.Sound)
    ⟨.initial, ⟨nofun, nofun, nofun, nofun, nofun⟩⟩ ?_
  rintro before action after ⟨placed, sound⟩ _ taken
  have effect := step_effect taken
  exact ⟨placed.step effect, sound.step (effect_answers placed effect)⟩

end Oomph.Nccl
