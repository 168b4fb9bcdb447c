import Oomph.Ucx.Communicator
import Oomph.Machine.Reentry

namespace Oomph.Ucx

open Machine State

structure State.Alone (s : State) (holder : Option Nat) (stack : List Frame) (queue : List Nat)
    (depth : Nat) : Prop where
  fault : s.fault = none
  threads : s.threads = [stack]
  mutex : s.mutex = holder
  comms : ∃ c, s.comms = [c] ∧ c.owner = 0 ∧ c.sendReqQueue = queue ∧ c.recursionDepth = depth

variable {config : Config} {s : State} {stack : List Frame} {queue : List Nat} {depth op : Nat}

theorem State.Alone.nest (config : Config) (alone : s.Alone none stack queue depth)
    (user : inUserCode stack = true) (below : depth ≤ config.recursionDepth) :
    ∃ t op, Leads (step config) s t ∧
      t.Alone none (.callback op (.immediate 0) :: .call (some 0) .leave :: stack) queue
        (depth + 1) := by
  obtain ⟨fault, threads, mutex, c, comms, owner, rfl, rfl⟩ := alone
  have begun : step config s ⟨0, .send 0 0 0⟩ =
      some (s.setStack 0 (.call (some 0) (.send 0 0) :: stack)) := by
    simp [step, fault, threads, user, State.userCall, State.usable, comms, owner]
  have sent : step config (s.setStack 0 (.call (some 0) (.send 0 0) :: stack))
      ⟨0, .ucx .immediate⟩ =
      some ((s.setStack 0 (.call (some 0) (.send 0 0) :: stack)).runSend 0 0 0 0 stack) := by
    simp [step, fault, threads, State.answered, comms, State.hasReachedRecursionDepth, below]
  refine ⟨_, s.posts.length, (leads_one begun).trans (leads_one sent), ?_⟩
  refine ⟨fault, ?_, mutex, ?_⟩
  · simp [State.runSend, threads]
  · refine ⟨{ c with recursionDepth := c.recursionDepth + 1 }, ?_, owner, rfl, rfl⟩
    simp [State.runSend, comms]

theorem State.Alone.enqueue (config : Config) (alone : s.Alone none stack queue depth)
    (user : inUserCode stack = true) (beyond : config.recursionDepth < depth) :
    ∃ t op, Leads (step config) s t ∧ t.Alone none stack (queue ++ [op]) depth := by
  obtain ⟨fault, threads, mutex, c, comms, owner, rfl, rfl⟩ := alone
  have begun : step config s ⟨0, .send 0 0 0⟩ =
      some (s.setStack 0 (.call (some 0) (.send 0 0) :: stack)) := by
    simp [step, fault, threads, user, State.userCall, State.usable, comms, owner]
  have sent : step config (s.setStack 0 (.call (some 0) (.send 0 0) :: stack))
      ⟨0, .ucx .immediate⟩ =
      some ((s.setStack 0 (.call (some 0) (.send 0 0) :: stack)).queueSend 0 0 0 0 stack) := by
    simp [step, fault, threads, State.answered, comms, State.hasReachedRecursionDepth, beyond]
  refine ⟨_, s.posts.length, (leads_one begun).trans (leads_one sent), ?_⟩
  refine ⟨fault, ?_, mutex, ?_⟩
  · simp [State.queueSend, threads]
  · refine ⟨c.enqueueSend s.posts.length, ?_, owner, rfl, rfl⟩
    simp [State.queueSend, comms]

theorem State.Alone.setStack {holder : Option Nat} {before : List Frame}
    (alone : s.Alone holder before queue depth) (stack : List Frame) :
    (s.setStack 0 stack).Alone holder stack queue depth := by
  obtain ⟨fault, threads, mutex, comms⟩ := alone
  exact ⟨fault, by simp [threads], mutex, comms⟩

theorem State.Alone.setMutex {holder : Option Nat} (alone : s.Alone holder stack queue depth)
    (later : Option Nat) : (s.setMutex later).Alone later stack queue depth :=
  ⟨alone.fault, alone.threads, rfl, alone.comms⟩

theorem State.Alone.progress (config : Config) (alone : s.Alone none stack queue depth)
    (user : inUserCode stack = true) :
    step config s ⟨0, .progress 0⟩ = some (s.setStack 0 (.call (some 0) .sendLoop :: stack)) := by
  obtain ⟨fault, threads, mutex, c, comms, owner, _⟩ := alone
  simp [step, fault, threads, user, State.userCall, State.usable, comms, owner]

theorem State.Alone.sendPolled
    (alone : s.Alone none (.call (some 0) .sendLoop :: stack) queue depth) :
    step config s ⟨0, .ucx (.progressed false)⟩ =
      some (s.setStack 0 (.call (some 0) (afterSendLoop config) :: stack)) := by
  simp [step, alone.fault, alone.threads, State.answered]

theorem State.Alone.locks
    (alone : s.Alone none (.call (some 0) (.tryLock 10) :: stack) queue depth) :
    step config s ⟨0, .advance⟩ =
      some ((s.setMutex (some 0)).setStack 0 (.call (some 0) (.recvLoop 9) :: stack)) := by
  simp [step, alone.fault, alone.threads, alone.mutex, State.advance, State.tryLock]

theorem State.Alone.unlocks {tries : Nat} (safe : config.threadSafe = true)
    (alone : s.Alone (some 0) (.call (some 0) (.recvLoop tries) :: stack) queue depth) :
    step config s ⟨0, .ucx (.progressed false)⟩ =
      some ((s.setMutex none).setStack 0 (.call (some 0) (.clear (.sends 0)) :: stack)) := by
  simp [step, alone.fault, alone.threads, State.answered, State.recvProgressed, safe, Drain.first]

theorem State.Alone.recvPolled {tries : Nat} (single : config.threadSafe = false)
    (alone : s.Alone none (.call (some 0) (.recvLoop tries) :: stack) queue depth) :
    step config s ⟨0, .ucx (.progressed false)⟩ =
      some (s.setStack 0 (.call (some 0) (.clear (.sends 0)) :: stack)) := by
  simp [step, alone.fault, alone.threads, State.answered, State.recvProgressed, single, Drain.first]

theorem State.Alone.poll (config : Config) (alone : s.Alone none stack queue depth)
    (user : inUserCode stack = true) :
    ∃ t, Leads (step config) s t ∧
      t.Alone none (.call (some 0) (.clear (.sends 0)) :: stack) queue depth := by
  have polling := alone.setStack (.call (some 0) .sendLoop :: stack)
  have receiving := polling.setStack (.call (some 0) (afterSendLoop config) :: stack)
  have first := (leads_one (alone.progress config user)).trans
    (leads_one polling.sendPolled)
  cases safe : config.threadSafe with
  | true =>
    simp only [afterSendLoop, safe, if_true] at receiving first
    have locked := (receiving.setMutex (some 0)).setStack (.call (some 0) (.recvLoop 9) :: stack)
    have second := (leads_one receiving.locks).trans (leads_one (locked.unlocks safe))
    exact ⟨_, first.trans second, (locked.setMutex none).setStack _⟩
  | false =>
    simp only [afterSendLoop, safe] at receiving first
    exact ⟨_, first.trans (leads_one (receiving.recvPolled safe)), receiving.setStack _⟩

theorem State.Alone.pop (config : Config)
    (alone : s.Alone none (.call (some 0) (.clear (.sends 0)) :: stack) (op :: queue) depth) :
    ∃ t, Leads (step config) s t ∧
      t.Alone none (.callback op (.queue (some 0)) :: .call (some 0) (.clear (.sends 0)) :: stack)
        queue depth := by
  obtain ⟨fault, threads, mutex, c, comms, owner, queued, rfl⟩ := alone
  have next : s.reqQueue (.sends 0) = op :: queue := by
    simp [State.reqQueue, comms, queued]
  have popped : ((s.setReqQueue (.sends 0) queue).setStack 0
      (.invoke op (.queue (some 0)) :: .call (some 0) (.clear (.sends 0)) :: stack)).Alone none
      (.invoke op (.queue (some 0)) :: .call (some 0) (.clear (.sends 0)) :: stack) queue
      c.recursionDepth :=
    ⟨fault, by simp [threads], mutex, { c with sendReqQueue := queue }, by simp [comms], owner, rfl,
      rfl⟩
  have taken : step config s ⟨0, .advance⟩ = some ((s.setReqQueue (.sends 0) queue).setStack 0
      (.invoke op (.queue (some 0)) :: .call (some 0) (.clear (.sends 0)) :: stack)) := by
    simp [step, fault, threads, State.advance, State.drain, next, Drain.user]
  generalize (s.setReqQueue (.sends 0) queue).setStack 0
    (.invoke op (.queue (some 0)) :: .call (some 0) (.clear (.sends 0)) :: stack) = middle
    at taken popped
  have started : step config middle ⟨0, .advance⟩ = some (middle.start 0 op (.queue (some 0))
      (.call (some 0) (.clear (.sends 0)) :: stack)) := by
    simp [step, popped.fault, popped.threads, State.advance]
  refine ⟨_, (leads_one taken).trans (leads_one started), popped.fault, ?_, popped.mutex,
    popped.comms⟩
  simp [State.start, popped.threads]

theorem deferring (config : Config) :
    Deferring (step config) Frame.isCallback config.recursionDepth fun s stack queue depth =>
      s.Alone none stack queue depth ∧ inUserCode stack = true where
  nest := by
    rintro before stack queue depth below ⟨alone, user⟩
    obtain ⟨t, op, leads, alone⟩ := alone.nest config user below
    exact ⟨t, [.callback op (.immediate 0), .call (some 0) .leave], leads, rfl, alone, rfl⟩
  defer := by
    rintro before stack queue depth beyond ⟨alone, user⟩
    obtain ⟨t, op, leads, alone⟩ := alone.enqueue config user beyond
    exact ⟨t, op, leads, alone, user⟩
  resume := by
    rintro before stack op queue depth ⟨alone, user⟩
    obtain ⟨middle, polled, alone⟩ := alone.poll config user
    obtain ⟨t, popped, alone⟩ := alone.pop config
    exact ⟨t, [.callback op (.queue (some 0)), .call (some 0) (.clear (.sends 0))],
      polled.trans popped, rfl, alone, rfl⟩

/-- Callbacks of one communicator, progressed by one thread, nest deeper than any bound. -/
theorem exists_deep_nesting (config : Config) (bound : Nat) :
    ∃ s, Leads (step config) (State.initial 1) s ∧ s.comms.length = 1 ∧
      bound < nested Frame.isCallback s.threads 0 := by
  have made : step config (State.initial 1) ⟨0, .getCommunicator⟩ =
      some ((State.initial 1).addCommunicator 0) := by
    cases safe : config.threadSafe <;>
      simp [step, State.initial, inUserCode, State.userCall, State.lock, safe]
  have alone : ((State.initial 1).addCommunicator 0).Alone none [] [] 0 :=
    ⟨rfl, rfl, rfl, _, rfl, rfl, rfl, rfl⟩
  obtain ⟨s, stack, queue, depth, leads, ⟨alone, _⟩, more⟩ :=
    (deferring config).exists_deep ⟨alone, rfl⟩ bound
  refine ⟨s, (leads_one made).trans leads, ?_, ?_⟩
  · obtain ⟨c, comms, _⟩ := alone.comms
    rw [comms]
    rfl
  · rw [nested, alone.threads]
    exact more

end Oomph.Ucx
