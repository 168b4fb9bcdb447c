import Oomph.Machine.Guard
import Oomph.Ucx.Stacks

namespace Oomph.Ucx

open Machine State

/-! The lock of the context is held exactly by the thread with a frame of locked code, as long
as no exception leaves such code.  A context that is not thread safe takes the lock in
`context_impl::progress` only, and callbacks may run under it there.
-/

namespace Frame

/-- The code that runs while its thread holds the lock. -/
def holds (config : Config) : Frame → Bool
  | .call _ (.post _ _ _) => config.threadSafe
  | .call user (.recvLoop _) => config.threadSafe || user.isNone
  | .call _ (.cancelLoop _) => config.threadSafe
  | .call user (.cancelScan _) => config.threadSafe && user.isNone
  | _ => false

/-- A communicator tries to take the lock in a thread safe context only. -/
def Tries (config : Config) : Frame → Prop
  | .call (some _) (.tryLock _) => config.threadSafe = true
  | _ => True

end Frame

structure State.Disciplined (config : Config) (s : State) : Prop where
  holding : Holding (Frame.holds config) s.mutex s.threads
  tries : ∀ stack ∈ s.threads, ∀ frame ∈ stack, frame.Tries config

/-- Nothing in the library catches the exception of a callback: it leaves every frame up to the
user code around them.  The recursion guard of the callback counts down on the way; the request
that a `send_callback` was called for is not freed. -/
def State.throwCallback (thread : Nat) (s : State) : Option State :=
  match s.threads[thread]? with
  | some (.callback _ via :: rest) =>
    some ((s.decRecursion via).setStack thread (rest.dropWhile (!·.isCallback)))
  | _ => none

inductive ThrowingAction
  | act (action : Action)
  | callbackThrows (thread : Nat)
deriving DecidableEq, Repr

def ThrowingAction.thread : ThrowingAction → Nat
  | .act action => action.thread
  | .callbackThrows thread => thread

def stepThrowing (config : Config) (s : State) : ThrowingAction → Option State
  | .act action => step config s action
  | .callbackThrows thread => if s.fault.isSome then none else s.throwCallback thread

/-- The frames that an exception leaves: the member function that learns of an error of UCX, or a
callback that throws with all that runs it. -/
def State.leaves (s : State) : ThrowingAction → List Frame
  | .act action => if action.act.isError then (s.threads.getD action.thread []).take 1 else []
  | .callbackThrows thread =>
    match s.threads.getD thread [] with
    | .callback op via :: rest => .callback op via :: rest.takeWhile (!·.isCallback)
    | _ => []

def ThrowsLocked (config : Config) (s : State) (move : ThrowingAction) : Prop :=
  ∃ frame ∈ s.leaves move, frame.holds config = true

def Orderly (config : Config) (s : State) (move : ThrowingAction) : Prop :=
  ¬ ThrowsLocked config s move

instance (config : Config) (s : State) (move : ThrowingAction) : Decidable (Orderly config s move) :=
  inferInstanceAs (Decidable (¬ ∃ frame ∈ s.leaves move, frame.holds config = true))

variable {config : Config} {s t : State} {thread : Nat} {stack moved rest : List Frame}
  {act : Act} {frame : Frame}

namespace State.Disciplined

theorem initial (threads : Nat) : (State.initial threads).Disciplined config where
  holding thread stack found := by
    rw [List.eq_of_mem_replicate (List.mem_of_getElem? found)]
    rfl
  tries stack member frame inside := by
    rw [List.eq_of_mem_replicate member] at inside
    cases inside

private theorem tries_set (disciplined : s.Disciplined config)
    (found : s.threads[thread]? = some stack)
    (keeps : (∀ frame ∈ stack, frame.Tries config) → ∀ frame ∈ moved, frame.Tries config) :
    ∀ stack ∈ s.threads.set thread moved, ∀ frame ∈ stack, frame.Tries config := by
  intro other member
  rcases List.mem_or_eq_of_mem_set member with old | rfl
  · exact disciplined.tries other old
  · exact keeps (disciplined.tries stack (List.mem_of_getElem? found))

private theorem same (disciplined : s.Disciplined config) (threads : t.threads = s.threads)
    (mutex : t.mutex = s.mutex) : t.Disciplined config := by
  refine ⟨?_, ?_⟩
  · rw [threads, mutex]
    exact disciplined.holding
  · rw [threads]
    exact disciplined.tries

private theorem move (disciplined : s.Disciplined config)
    (found : s.threads[thread]? = some stack) (threads : t.threads = s.threads.set thread moved)
    (mutex : t.mutex = s.mutex)
    (count : moved.countP (Frame.holds config) = stack.countP (Frame.holds config))
    (keeps : (∀ frame ∈ stack, frame.Tries config) → ∀ frame ∈ moved, frame.Tries config) :
    t.Disciplined config := by
  refine ⟨?_, ?_⟩
  · rw [threads, mutex]
    exact disciplined.holding.move found count
  · rw [threads]
    exact disciplined.tries_set found keeps

private theorem take (disciplined : s.Disciplined config)
    (found : s.threads[thread]? = some stack) (threads : t.threads = s.threads.set thread moved)
    (free : s.mutex = none) (mutex : t.mutex = some thread)
    (count : moved.countP (Frame.holds config) = stack.countP (Frame.holds config) + 1)
    (keeps : (∀ frame ∈ stack, frame.Tries config) → ∀ frame ∈ moved, frame.Tries config) :
    t.Disciplined config := by
  have holding := disciplined.holding
  rw [free] at holding
  refine ⟨?_, ?_⟩
  · rw [threads, mutex]
    exact holding.take found count
  · rw [threads]
    exact disciplined.tries_set found keeps

private theorem give (disciplined : s.Disciplined config)
    (found : s.threads[thread]? = some stack) (threads : t.threads = s.threads.set thread moved)
    (mutex : t.mutex = none)
    (count : moved.countP (Frame.holds config) + 1 = stack.countP (Frame.holds config))
    (keeps : (∀ frame ∈ stack, frame.Tries config) → ∀ frame ∈ moved, frame.Tries config) :
    t.Disciplined config := by
  refine ⟨?_, ?_⟩
  · rw [threads, mutex]
    exact disciplined.holding.give found count
  · rw [threads]
    exact disciplined.tries_set found keeps

end State.Disciplined

theorem tries_replace {pushed : List Frame} (fine : ∀ new ∈ pushed, new.Tries config)
    (before : ∀ old ∈ frame :: rest, old.Tries config) :
    ∀ new ∈ pushed ++ rest, new.Tries config :=
  List.forall_mem_append.mpr ⟨fine, (List.forall_mem_cons.mp before).2⟩

theorem tries_one (fine : frame.Tries config) : ∀ new ∈ [frame], new.Tries config :=
  List.forall_mem_singleton.mpr fine

theorem control_countP (control : Control config s thread act stack moved)
    (orderly : act.isError = true → ∀ frame rest, stack = frame :: rest →
      frame.holds config = false) :
    moved.countP (Frame.holds config) = stack.countP (Frame.holds config) := by
  cases control with
  | recvError comm kind src tag rest =>
    have free := orderly rfl _ _ rfl
    rw [List.countP_cons_of_neg (by simp [free])]
  | unguarded user kind src tag rest single =>
    simp [Frame.holds, single]
  | sendProgressed comm more rest =>
    cases more with
    | true => simp
    | false =>
      by_cases safe : config.threadSafe = true
      · simp [Frame.holds, State.afterSendLoop, safe]
      · simp [Frame.holds, State.afterSendLoop, safe]
  | recvProgressed comm tries more rest single =>
    cases more <;> simp [Frame.holds, single]
  | _ => simp [Frame.holds]

theorem control_tries (control : Control config s thread act stack moved)
    (before : ∀ frame ∈ stack, frame.Tries config) : ∀ frame ∈ moved, frame.Tries config := by
  cases control with
  | sendProgressed comm more rest =>
    refine tries_replace (tries_one ?_) before
    cases more with
    | true => trivial
    | false =>
      by_cases safe : config.threadSafe = true
      · simp only [Bool.false_eq_true, if_false, State.afterSendLoop, if_pos safe]
        exact safe
      · simp only [Bool.false_eq_true, if_false, State.afterSendLoop, if_neg safe]
        trivial
  | recvProgressed comm tries more rest single =>
    refine tries_replace (tries_one ?_) before
    cases more <;> trivial
  | busy user tries holder rest =>
    refine tries_replace (tries_one ?_) before
    have tried : (Frame.call user (.tryLock (tries + 1))).Tries config :=
      before _ List.mem_cons_self
    cases user with
    | none => trivial
    | some comm => exact tried
  | noMoreTries user rest =>
    refine tries_replace (tries_one ?_) before
    cases user <;> trivial
  | send => exact List.forall_mem_cons.mpr ⟨trivial, before⟩
  | recv => exact List.forall_mem_cons.mpr ⟨trivial, before⟩
  | progress => exact List.forall_mem_cons.mpr ⟨trivial, before⟩
  | contextProgress => exact List.forall_mem_cons.mpr ⟨trivial, before⟩
  | sendError => exact (List.forall_mem_cons.mp before).2
  | recvError => exact (List.forall_mem_cons.mp before).2
  | left => exact (List.forall_mem_cons.mp before).2
  | cleared => exact (List.forall_mem_cons.mp before).2
  | unguarded user =>
    refine tries_replace (tries_one ?_) before
    cases user <;> trivial
  | nextQueue user =>
    refine tries_replace (tries_one ?_) before
    cases user <;> trivial
  | _ =>
    refine tries_replace (tries_one ?_) before
    trivial

theorem leaves_of_error (failed : act.isError = true)
    (found : s.threads[thread]? = some (frame :: rest)) :
    s.leaves (.act ⟨thread, act⟩) = [frame] := by
  simp [State.leaves, failed, found]

theorem leaves_of_callback {op : Nat} {via : Via}
    (found : s.threads[thread]? = some (.callback op via :: rest)) :
    s.leaves (.callbackThrows thread) = .callback op via :: rest.takeWhile (!·.isCallback) := by
  simp [State.leaves, found]

theorem not_holds_of_orderly (orderly : Orderly config s (.act ⟨thread, act⟩))
    (failed : act.isError = true) (found : s.threads[thread]? = some (frame :: rest)) :
    frame.holds config = false := by
  rw [Orderly, ThrowsLocked, leaves_of_error failed found] at orderly
  simpa using orderly

namespace State.Disciplined

private theorem replace (disciplined : s.Disciplined config) (pushed : List Frame)
    (found : s.threads[thread]? = some (frame :: rest))
    (threads : t.threads = s.threads.set thread (pushed ++ rest)) (mutex : t.mutex = s.mutex)
    (free : pushed.countP (Frame.holds config) = [frame].countP (Frame.holds config))
    (fine : ∀ new ∈ pushed, new.Tries config) : t.Disciplined config := by
  refine disciplined.move found threads mutex ?_ (tries_replace fine)
  have whole : frame :: rest = [frame] ++ rest := rfl
  rw [whole, List.countP_append, List.countP_append, free]

private theorem unlock (disciplined : s.Disciplined config) (pushed : List Frame)
    (found : s.threads[thread]? = some (frame :: rest))
    (threads : t.threads = s.threads.set thread (pushed ++ rest))
    (mutex : t.mutex = if frame.holds config then none else s.mutex)
    (free : pushed.countP (Frame.holds config) = 0) (fine : ∀ new ∈ pushed, new.Tries config) :
    t.Disciplined config := by
  cases held : frame.holds config with
  | true =>
    rw [held, if_pos rfl] at mutex
    refine disciplined.give found threads mutex ?_ (tries_replace fine)
    rw [List.countP_append, free, List.countP_cons_of_pos held, Nat.zero_add]
  | false =>
    rw [held] at mutex
    refine disciplined.move found threads mutex ?_ (tries_replace fine)
    rw [List.countP_append, free, List.countP_cons_of_neg (by simp [held]), Nat.zero_add]

theorem effect (disciplined : s.Disciplined config) (orderly : Orderly config s (.act ⟨thread, act⟩))
    (effect : Effect config s thread act t) : t.Disciplined config := by
  cases effect with
  | stale => exact disciplined.same rfl rfl
  | nullSend => exact disciplined.same rfl rfl
  | badFree => exact disciplined.same rfl rfl
  | getCommunicator => exact disciplined.same rfl rfl
  | recvOwn => exact disciplined.same rfl rfl
  | recvShared => exact disciplined.same rfl rfl
  | recvEmpty => exact disciplined.same rfl rfl
  | control act stack moved found control =>
    refine disciplined.move found rfl rfl (control_countP control ?_) (control_tries control)
    rintro failed frame rest rfl
    exact not_holds_of_orderly orderly failed found
  | lock stack moved found free locks =>
    have before := disciplined.tries _ (List.mem_of_getElem? found)
    refine disciplined.take found rfl free rfl ?_ fun _ => ?_
    · cases locks with
      | recv user kind src tag rest safe => simp [Frame.holds, safe]
      | progress user tries rest =>
        have tried : (Frame.call user (.tryLock (tries + 1))).Tries config :=
          before _ List.mem_cons_self
        cases user with
        | none => simp [Frame.holds]
        | some comm =>
          have safe : config.threadSafe = true := tried
          simp [Frame.holds, safe]
    · cases locks with
      | recv user =>
        refine tries_replace (tries_one ?_) before
        cases user <;> trivial
      | progress user =>
        refine tries_replace (tries_one ?_) before
        cases user <;> trivial
  | unlock user tries more rest found locked =>
    have held : (Frame.call user (.recvLoop tries)).holds config = true := by
      rcases locked with safe | none
      · simp [Frame.holds, safe]
      · simp [Frame.holds, none]
    refine disciplined.unlock [_] found rfl (by rw [if_pos held]; rfl) ?_ (tries_one ?_)
    · cases more <;> simp [Frame.holds]
    · cases more with
      | false => cases user <;> trivial
      | true =>
        cases user with
        | none => trivial
        | some comm => exact locked.resolve_right nofun
  | submitRecv comm kind src tag ptr rest found =>
    exact disciplined.unlock [] found rfl rfl rfl nofun
  | early comm kind src tag ptr rest found =>
    exact disciplined.unlock [_] found rfl rfl rfl (tries_one trivial)
  | truncated comm kind src tag ptr rest found =>
    have free := not_holds_of_orderly orderly rfl found
    exact disciplined.replace [] found rfl rfl (by simp [free]) nofun
  | recvFailed user code request rest found receives member worker =>
    have free := not_holds_of_orderly orderly rfl found
    exact disciplined.replace [] found rfl rfl (by simp [free]) nofun
  | runSend comm dst tag c rest found =>
    exact disciplined.replace [_, _] found rfl rfl rfl (by simp [Frame.Tries])
  | queueSend comm dst tag c rest found =>
    exact disciplined.replace [] found rfl rfl rfl nofun
  | submitSend comm dst tag ptr rest found =>
    exact disciplined.replace [] found rfl rfl rfl nofun
  | runEarly comm kind src tag rest found =>
    exact disciplined.replace [_, _] found rfl rfl rfl (by simp [Frame.Tries])
  | deferEarly comm kind src tag ptr rest found =>
    exact disciplined.replace [] found rfl rfl rfl nofun
  | sendOk comm request op rest found =>
    exact disciplined.replace [_, _, _] found rfl rfl rfl (by simp [Frame.Tries])
  | sendFailed comm request rest found =>
    exact disciplined.replace [_, _] found rfl rfl rfl (by simp [Frame.Tries])
  | recvDirect user code request op shared rest found =>
    refine disciplined.move found rfl rfl ?_ fun before => List.forall_mem_cons.mpr ⟨trivial, before⟩
    rw [List.countP_cons_of_neg (by simp [Frame.holds])]
  | start op via rest found =>
    exact disciplined.replace [_] found rfl rfl rfl (by simp [Frame.Tries])
  | returnCallback op via rest found =>
    unfold State.returnCallback
    split <;> exact disciplined.replace [] found rfl rfl rfl nofun
  | release request rest found =>
    exact disciplined.replace [] found rfl rfl rfl nofun
  | pop user stage op queue rest found =>
    refine disciplined.move found rfl rfl ?_ fun before => List.forall_mem_cons.mpr ⟨trivial, before⟩
    rw [List.countP_cons_of_neg (by simp [Frame.holds])]

theorem cancelEffect (disciplined : s.Disciplined config)
    (effect : CancelEffect config s thread act t) (sound : t.fault = none) :
    t.Disciplined config := by
  -- the lock that the search of the context gives back
  have scanned (user : Option Nat) (op : Nat) :
      (s.takeCanceled config thread user op).mutex =
        if (Frame.call user (.cancelScan op)).holds config then none else s.mutex := by
    cases user <;> cases config.threadSafe <;> simp [Frame.holds]
  cases effect with
  | refuse => exact disciplined.same rfl rfl
  | canceledOwn => exact disciplined.same rfl rfl
  | canceledShared => exact disciplined.same rfl rfl
  | canceledNull => exact disciplined.same rfl rfl
  | again => exact disciplined
  | bad user code op rest t found code lost failed =>
    rw [sound] at failed
    cases failed
  | begin op post stack found =>
    refine disciplined.move found rfl rfl ?_ fun before => List.forall_mem_cons.mpr ⟨?_, before⟩
    · rw [List.countP_cons_of_neg (by simp [Frame.holds])]
    · cases userOf post.comm post.kind <;> trivial
  | ask user op ptr rest found free pointer =>
    have fine : ∀ new ∈ [Frame.call user (.cancelLoop op)], new.Tries config :=
      tries_one (by cases user <;> trivial)
    by_cases safe : config.threadSafe = true
    · refine disciplined.take found rfl (free safe) (if_pos safe) ?_ (tries_replace fine)
      simp [Frame.holds, safe]
    · refine disciplined.replace [_] found rfl (if_neg safe) ?_ fine
      simp [Frame.holds, safe]
  | sendCanceled comm request rest found =>
    exact disciplined.replace [_, _] found rfl rfl rfl (by simp [Frame.Tries])
  | looped user op rest found =>
    cases user with
    | none =>
      refine disciplined.replace [_] found rfl rfl ?_ (tries_one trivial)
      cases safe : config.threadSafe <;> simp [Frame.holds, safe]
    | some comm =>
      exact disciplined.unlock [_] found rfl rfl (by simp [Frame.holds]) (tries_one trivial)
  | missed user op rest found =>
    exact disciplined.unlock [] found rfl (scanned user op) rfl nofun
  | withdraw user op ptr rest found =>
    refine disciplined.unlock [_] found rfl (scanned user op) rfl (tries_one ?_)
    cases user <;> trivial
  | free user op ptr rest found =>
    exact disciplined.replace [] found rfl rfl rfl nofun

end State.Disciplined

theorem fault_none_of_step {action : Action} (taken : step config s action = some t) :
    s.fault = none := by
  unfold step at taken
  split at taken
  · cases taken
  · rename_i sound
    simpa using sound

variable {move : ThrowingAction}

theorem throwCallback_spec (thrown : s.throwCallback thread = some t) :
    ∃ rest, s.threads[thread]? = some (s.leaves (.callbackThrows thread) ++ rest) ∧
      t.threads = s.threads.set thread rest ∧ t.mutex = s.mutex := by
  unfold State.throwCallback at thrown
  split at thrown
  · rename_i op via rest found
    cases thrown
    refine ⟨rest.dropWhile (!·.isCallback), ?_, rfl, rfl⟩
    rw [leaves_of_callback found, found, List.cons_append, List.takeWhile_append_dropWhile]
  · cases thrown

theorem State.Disciplined.throwCallback (disciplined : s.Disciplined config)
    (orderly : Orderly config s (.callbackThrows thread))
    (thrown : s.throwCallback thread = some t) : t.Disciplined config := by
  obtain ⟨rest, found, threads, mutex⟩ := throwCallback_spec thrown
  refine ⟨?_, ?_⟩
  · rw [threads, mutex]
    exact disciplined.holding.move_of_leaves found orderly
  · rw [threads]
    exact disciplined.tries_set found fun before => (List.forall_mem_append.mp before).2

theorem stepThrowing_callbackThrows
    (taken : stepThrowing config s (.callbackThrows thread) = some t) :
    s.fault = none ∧ s.throwCallback thread = some t := by
  simpa [stepThrowing, Option.ite_none_left_eq_some] using taken

theorem fault_none_of_stepThrowing (taken : stepThrowing config s move = some t) :
    s.fault = none := by
  cases move with
  | act action => exact fault_none_of_step taken
  | callbackThrows thread => exact (stepThrowing_callbackThrows taken).1

theorem State.Disciplined.stepThrowing (disciplined : s.Disciplined config)
    (orderly : Orderly config s move) (taken : Ucx.stepThrowing config s move = some t)
    (sound : t.fault = none) : t.Disciplined config := by
  cases move with
  | act action =>
    rcases step_cases taken with effect | effect
    · exact disciplined.effect orderly effect
    · exact disciplined.cancelEffect effect sound
  | callbackThrows thread => exact disciplined.throwCallback orderly (stepThrowing_callbackThrows taken).2

theorem disciplined_of_reaches {start : State}
    (reached : Reaches (stepThrowing config) (Orderly config) start s)
    (initial : start.fault = none → start.Disciplined config) (sound : s.fault = none) :
    s.Disciplined config := by
  refine Reaches.invariant (fun s => s.fault = none → s.Disciplined config) initial ?_ reached sound
  intro before move after disciplined orderly taken later
  exact (disciplined (fault_none_of_stepThrowing taken)).stepThrowing orderly taken later

theorem not_holds_of_user (user : inUserCode (frame :: rest) = true) :
    frame.holds config = false := by
  cases frame with
  | callback => rfl
  | _ => cases user

/-- An exception that leaves locked code leaves the lock as it is. -/
theorem effect_throws (effect : Effect config s thread act t) (failed : act.isError = true)
    (found : s.threads[thread]? = some (frame :: rest)) (held : frame.holds config = true) :
    t.threads = s.threads.set thread rest ∧ t.mutex = s.mutex := by
  have same {other : Frame} {below : List Frame}
      (here : s.threads[thread]? = some (other :: below)) : other = frame ∧ below = rest := by
    rw [found] at here
    cases here
    exact ⟨rfl, rfl⟩
  cases effect with
  | control act stack moved here control =>
    rw [found] at here
    cases here
    cases control with
    | send comm dst tag stack user => rw [not_holds_of_user user] at held; cases held
    | recv act comm kind src tag stack user => rw [not_holds_of_user user] at held; cases held
    | progress comm stack user => cases failed
    | contextProgress stack user => cases failed
    | sendError => cases held
    | recvError => exact ⟨rfl, rfl⟩
    | _ => cases failed
  | truncated comm kind src tag ptr below here =>
    obtain ⟨_, rfl⟩ := same here
    exact ⟨rfl, rfl⟩
  | recvFailed user code request below here =>
    obtain ⟨_, rfl⟩ := same here
    exact ⟨rfl, rfl⟩
  | sendFailed comm request below here =>
    obtain ⟨rfl, _⟩ := same here
    cases held
  | _ => cases failed

theorem cancelEffect_calm (effect : CancelEffect config s thread act t) : act.isError = false := by
  cases effect <;> rfl

/-- An exception that leaves locked code leaves its frames behind and the lock as it is. -/
theorem throws_spec (taken : stepThrowing config s move = some t)
    (throws : ThrowsLocked config s move) :
    ∃ rest, s.threads[move.thread]? = some (s.leaves move ++ rest) ∧
      t.threads = s.threads.set move.thread rest ∧ t.mutex = s.mutex := by
  cases move with
  | callbackThrows thread => exact throwCallback_spec (stepThrowing_callbackThrows taken).2
  | act action =>
    obtain ⟨frame, member, held⟩ := throws
    have failed : action.act.isError = true := by
      by_contra calm
      simp [State.leaves, calm] at member
    cases found : s.threads[action.thread]? with
    | none => simp [State.leaves, found] at member
    | some stack =>
      cases stack with
      | nil => simp [State.leaves, found] at member
      | cons top rest =>
        rw [leaves_of_error failed found, List.mem_singleton] at member
        subst member
        have effect : Effect config s action.thread action.act t := by
          refine (step_cases taken).resolve_right fun effect => ?_
          rw [cancelEffect_calm effect] at failed
          cases failed
        obtain ⟨threads, mutex⟩ := effect_throws effect failed found held
        exact ⟨rest, by rw [leaves_of_error failed found]; exact found, threads, mutex⟩

/-- A call leaves the lock as it found it: two states of an orderly run in which a thread has
the same stack agree on whether it has the lock.  Where an exception leaves locked code, the
thread keeps a lock that it never had with the stack it is left with. -/
theorem lock_restored (config : Config) (threads : Nat) {s : State}
    (reached : Reaches (stepThrowing config) (Orderly config) (State.initial threads) s) :
    (∀ t thread stack, Reaches (stepThrowing config) (Orderly config) s t → s.fault = none →
      t.fault = none → s.threads[thread]? = some stack → t.threads[thread]? = some stack →
      (s.mutex = some thread ↔ t.mutex = some thread)) ∧
    (∀ move t, stepThrowing config s move = some t → ThrowsLocked config s move →
      ∃ stack, t.threads[move.thread]? = some stack ∧ t.mutex = some move.thread ∧
        ∀ earlier, Reaches (stepThrowing config) (Orderly config) (State.initial threads) earlier →
          earlier.fault = none → earlier.threads[move.thread]? = some stack →
          earlier.mutex ≠ some move.thread) := by
  have disciplined {u : State}
      (run : Reaches (stepThrowing config) (Orderly config) (State.initial threads) u)
      (sound : u.fault = none) : u.Disciplined config :=
    disciplined_of_reaches run (fun _ => .initial threads) sound
  constructor
  · intro t thread stack later before after found same
    exact (disciplined reached before).holding.restored
      (disciplined (reached.trans later) after).holding found same
  · intro move t taken throws
    have here := disciplined reached (fault_none_of_stepThrowing taken)
    obtain ⟨rest, found, moved, mutex⟩ := throws_spec taken throws
    obtain ⟨owned, unlocked⟩ := here.holding.kept_of_leaves found throws
    have inside := (List.getElem?_eq_some_iff.mp found).1
    refine ⟨rest, by rw [moved, List.getElem?_set_self inside], by rw [mutex, owned], ?_⟩
    intro earlier run sound same before
    have count := ((disciplined run sound).holding.held_iff same).mp before
    omega

/-- A receive is posted, cancelled and freed by one thread while another progresses the
context; both have given the lock back. -/
theorem lock_restored_after_cancel :
    ∃ s, Reaches (stepThrowing ⟨20, true⟩) (Orderly ⟨20, true⟩) (State.initial 2) s ∧
      s.cancelResults = [(0, true)] ∧ s.mutex ≠ some 0 := by
  obtain ⟨s, reached, canceled, returned, sound⟩ := exists_of_run (stepThrowing ⟨20, true⟩)
      (Orderly ⟨20, true⟩) (State.initial 2)
    ([⟨0, .getCommunicator⟩, ⟨0, .recv 0 1 7⟩, ⟨0, .advance⟩, ⟨0, .ucx (.inProgress 3)⟩,
      ⟨1, .contextProgress⟩, ⟨1, .advance⟩, ⟨0, .cancel 0⟩, ⟨1, .ucx (.progressed false)⟩,
      ⟨0, .advance⟩, ⟨0, .ucx (.callback ⟨3, 0, none⟩ .canceled)⟩, ⟨0, .ucx (.progressed false)⟩,
      ⟨0, .advance⟩, ⟨0, .advance⟩].map .act)
    (fun s => s.cancelResults = [(0, true)] ∧ s.threads[0]? = some [] ∧ s.fault = none)
      (by decide +kernel)
  refine ⟨s, reached, canceled, fun held => ?_⟩
  have restored := (lock_restored ⟨20, true⟩ 2 .refl).1 s 0 [] reached rfl sound rfl returned
  cases restored.mpr held

/-- `recv` of a thread safe context throws because UCX returns an error pointer, and `progress` of
a context that is not thread safe because the callback it runs throws: both were called with the
lock free and leave it taken. -/
theorem exceptions_keep_lock :
    (∃ s t, Leads (stepThrowing ⟨20, true⟩) (State.initial 1) s ∧
      Leads (stepThrowing ⟨20, true⟩) s t ∧ s.threads[0]? = some [] ∧
      s.mutex = none ∧ t.threads[0]? = some [] ∧ t.mutex = some 0) ∧
    (∃ s t, Leads (stepThrowing ⟨20, false⟩) (State.initial 1) s ∧
      Leads (stepThrowing ⟨20, false⟩) s t ∧ s.threads[0]? = some [] ∧
      s.mutex = none ∧ t.threads[0]? = some [] ∧ t.mutex = some 0) := by
  constructor
  · obtain ⟨s, begun, t, reached, called, during, facts⟩ := exists_call_of_run
      (stepThrowing ⟨20, true⟩) (fun _ _ => True) (State.initial 1) [.act ⟨0, .getCommunicator⟩]
      (.act ⟨0, .recv 0 1 7⟩) (fun _ _ _ => True) [.act ⟨0, .advance⟩, .act ⟨0, .ucx .errorPtr⟩]
      (fun s t => s.threads[0]? = some [] ∧ s.mutex = none ∧ t.threads[0]? = some [] ∧
        t.mutex = some 0) (by decide +kernel)
    exact ⟨s, t, reached, (leads_one called).trans during, facts⟩
  · obtain ⟨s, begun, t, reached, called, during, facts⟩ := exists_call_of_run
      (stepThrowing ⟨20, false⟩) (fun _ _ => True) (State.initial 1)
      [.act ⟨0, .getCommunicator⟩, .act ⟨0, .recv 0 1 7⟩, .act ⟨0, .advance⟩,
        .act ⟨0, .ucx (.inProgress 3)⟩] (.act ⟨0, .contextProgress⟩) (fun _ _ _ => True)
      [.act ⟨0, .advance⟩, .act ⟨0, .ucx (.callback ⟨3, 0, none⟩ .ok)⟩, .act ⟨0, .advance⟩,
        .callbackThrows 0]
      (fun s t => s.threads[0]? = some [] ∧ s.mutex = none ∧ t.threads[0]? = some [] ∧
        t.mutex = some 0) (by decide +kernel)
    exact ⟨s, t, reached, (leads_one called).trans during, facts⟩

end Oomph.Ucx
