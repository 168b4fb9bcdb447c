import Oomph.Libfabric.Communicator
import Oomph.Machine.Reentry

namespace Oomph.Libfabric

open Machine State

def Frame.isCallback : Frame → Bool
  | .callback _ _ => true
  | _ => false

structure State.Alone (s : State) (stack : List Frame) (queue : List Nat) (depth : Nat) :
    Prop where
  fault : s.fault = none
  threads : s.threads = [stack]
  comms : ∃ c, s.comms = [c] ∧ c.owner = 0 ∧ c.alive = true ∧ c.sendCbQueue = queue ∧
    c.recursionDepth = depth

variable {config : Config} {s : State} {stack : List Frame} {queue : List Nat} {depth op : Nat}

theorem State.Alone.setStack {before : List Frame} (alone : s.Alone before queue depth)
    (stack : List Frame) : (s.setStack 0 stack).Alone stack queue depth :=
  ⟨alone.fault, by simp [alone.threads], alone.comms⟩

theorem State.Alone.usable (alone : s.Alone stack queue depth) : s.usable 0 0 = true := by
  obtain ⟨_, _, c, comms, owner, alive, _⟩ := alone
  simp [State.usable, comms, owner, alive]

theorem State.Alone.send (config : Config) (alone : s.Alone stack queue depth)
    (user : inUserCode stack = true) :
    step config s ⟨0, .send 0 0 0 0⟩ =
      some (s.setStack 0 (.call (some 0) (.inject 0 0) :: stack)) := by
  simp [step, alone.fault, alone.threads, user, State.userCall, alone.usable]

theorem State.Alone.nest (config : Config) (alone : s.Alone stack queue depth)
    (user : inUserCode stack = true) (below : depth ≤ config.recursionDepth) :
    ∃ t op, Leads (step config) s t ∧
      t.Alone (.callback op (.inject 0) :: .call (some 0) .leave :: stack) queue (depth + 1) := by
  have injecting := alone.setStack (.call (some 0) (.inject 0 0) :: stack)
  have begun := alone.send config user
  generalize s.setStack 0 (.call (some 0) (.inject 0 0) :: stack) = middle at injecting begun
  obtain ⟨fault, threads, c, comms, owner, alive, rfl, rfl⟩ := injecting
  have sent : step config middle ⟨0, .fi .success⟩ = some (middle.runInject 0 0 0 0 stack) := by
    simp [step, fault, threads, State.executeFi, comms, below]
  refine ⟨_, middle.posts.length, (leads_one begun).trans (leads_one sent), fault, ?_, ?_⟩
  · simp [State.runInject, State.incRecursion, threads]
  · refine ⟨{ c with recursionDepth := c.recursionDepth + 1 }, ?_, owner, alive, rfl, rfl⟩
    simp [State.runInject, State.incRecursion, comms]

theorem State.Alone.enqueue (config : Config) (alone : s.Alone stack queue depth)
    (user : inUserCode stack = true) (beyond : config.recursionDepth < depth) :
    ∃ t op, Leads (step config) s t ∧ t.Alone stack (queue ++ [op]) depth := by
  have injecting := alone.setStack (.call (some 0) (.inject 0 0) :: stack)
  have begun := alone.send config user
  generalize s.setStack 0 (.call (some 0) (.inject 0 0) :: stack) = middle at injecting begun
  obtain ⟨fault, threads, c, comms, owner, alive, rfl, rfl⟩ := injecting
  have sent : step config middle ⟨0, .fi .success⟩ = some (middle.queueInject 0 0 0 0 stack) := by
    simp [step, fault, threads, State.executeFi, comms, beyond]
  refine ⟨_, middle.posts.length, (leads_one begun).trans (leads_one sent), fault, ?_, ?_⟩
  · simp [State.queueInject, threads]
  · exact ⟨c.pushSend middle.posts.length, by simp [State.queueInject, comms], owner, alive, rfl,
      rfl⟩

theorem State.Alone.reads (config : Config) {frame : Frame} {user : Option Nat} {side : Side}
    (alone : s.Alone (frame :: stack) queue depth) (polls : frame.poll = some (user, side)) :
    step config s ⟨0, .read .nothing⟩ =
      some (s.setStack 0 (frame.afterPoll config 0 ++ stack)) := by
  simp [step, alone.fault, alone.threads, State.readCq, polls]

/-- `progress` up to the queues, when the fabric has nothing to report. -/
theorem State.Alone.poll (size : 0 < config.maxCompletionsPerPoll)
    (alone : s.Alone stack queue depth) (user : inUserCode stack = true) :
    ∃ t, Leads (step config) s t ∧
      t.Alone (.call (some 0) (.clear .sends false) :: stack) queue depth := by
  have begun : step config s ⟨0, .progress 0⟩ = some (s.setStack 0
      (.work (some 0) .sends false :: .call (some 0) (.clear .sends false) :: stack)) := by
    simp [step, alone.fault, alone.threads, user, State.userCall, alone.usable]
  have polling := alone.setStack
    (.work (some 0) .sends false :: .call (some 0) (.clear .sends false) :: stack)
  have first := polling.reads config rfl
  have more : (0 = config.maxCompletionsPerPoll) = False := by simp; omega
  simp only [Frame.afterPoll, more, decide_false, List.singleton_append] at first
  have receiving := polling.setStack
    (.work (some 0) .recvs false :: .call (some 0) (.clear .sends false) :: stack)
  have second := receiving.reads config rfl
  simp only [Frame.afterPoll, more, decide_false, Bool.or_false, Bool.false_eq_true, if_false,
    List.nil_append] at second
  exact ⟨_, ((leads_one begun).trans (leads_one first)).trans (leads_one second),
    receiving.setStack _⟩

theorem State.Alone.pop (config : Config)
    (alone : s.Alone (.call (some 0) (.clear .sends false) :: stack) (op :: queue) depth) :
    ∃ t, Leads (step config) s t ∧
      t.Alone (.callback op (.queue (some 0)) :: .call (some 0) (.clear .sends false) :: stack)
        queue depth := by
  obtain ⟨fault, threads, c, comms, owner, alive, queued, rfl⟩ := alone
  have next : s.cbQueue 0 .sends = op :: queue := by
    simp [State.cbQueue, comms, queued]
  have taken : step config s ⟨0, .advance⟩ = some ((s.setCbQueue 0 .sends queue).setStack 0
      (.invoke op (.queue (some 0)) :: .call (some 0) (.clear .sends false) :: stack)) := by
    simp [step, fault, threads, State.advance, State.drain, next, State.drainUser]
  have popped : ((s.setCbQueue 0 .sends queue).setStack 0
      (.invoke op (.queue (some 0)) :: .call (some 0) (.clear .sends false) :: stack)).Alone
      (.invoke op (.queue (some 0)) :: .call (some 0) (.clear .sends false) :: stack) queue
      c.recursionDepth :=
    ⟨fault, by simp [State.setCbQueue, threads], { c with sendCbQueue := queue },
      by simp [State.setCbQueue, comms], owner, alive, rfl, rfl⟩
  generalize (s.setCbQueue 0 .sends queue).setStack 0
    (.invoke op (.queue (some 0)) :: .call (some 0) (.clear .sends false) :: stack) = middle
    at taken popped
  have started : step config middle ⟨0, .advance⟩ = some (middle.start 0 op (.queue (some 0))
      (.call (some 0) (.clear .sends false) :: stack)) := by
    simp [step, popped.fault, popped.threads, State.advance]
  refine ⟨_, (leads_one taken).trans (leads_one started), popped.fault, ?_, popped.comms⟩
  simp [State.start, State.incRecursion, popped.threads]

theorem deferring (config : Config) (size : 0 < config.maxCompletionsPerPoll) :
    Deferring (step config) Frame.isCallback config.recursionDepth fun s stack queue depth =>
      s.Alone stack queue depth ∧ inUserCode stack = true where
  nest := by
    rintro before stack queue depth below ⟨alone, user⟩
    obtain ⟨t, op, leads, alone⟩ := alone.nest config user below
    exact ⟨t, [.callback op (.inject 0), .call (some 0) .leave], leads, rfl, alone, rfl⟩
  defer := by
    rintro before stack queue depth beyond ⟨alone, user⟩
    obtain ⟨t, op, leads, alone⟩ := alone.enqueue config user beyond
    exact ⟨t, op, leads, alone, user⟩
  resume := by
    rintro before stack op queue depth ⟨alone, user⟩
    obtain ⟨middle, polled, alone⟩ := alone.poll size user
    obtain ⟨t, popped, alone⟩ := alone.pop config
    exact ⟨t, [.callback op (.queue (some 0)), .call (some 0) (.clear .sends false)],
      polled.trans popped, rfl, alone, rfl⟩

/-- Callbacks of one communicator, progressed by one thread, nest deeper than any bound.
With a poll size of 0 no poll would return. -/
theorem exists_deep_nesting (config : Config) (size : 0 < config.maxCompletionsPerPoll)
    (bound : Nat) :
    ∃ s, Leads (step config) (State.initial 1) s ∧ s.comms.length = 1 ∧
      bound < nested Frame.isCallback s.threads 0 := by
  have made : step config (State.initial 1) ⟨0, .getCommunicator⟩ =
      some ((State.initial 1).getCommunicator 0) := rfl
  have alone : ((State.initial 1).getCommunicator 0).Alone [] [] 0 :=
    ⟨rfl, rfl, _, rfl, rfl, rfl, rfl, rfl⟩
  obtain ⟨s, stack, queue, depth, leads, ⟨alone, _⟩, more⟩ :=
    (deferring config size).exists_deep ⟨alone, rfl⟩ bound
  refine ⟨s, (leads_one made).trans leads, ?_, ?_⟩
  · obtain ⟨c, comms, _⟩ := alone.comms
    rw [comms]
    rfl
  · rw [nested, alone.threads]
    exact more

end Oomph.Libfabric
