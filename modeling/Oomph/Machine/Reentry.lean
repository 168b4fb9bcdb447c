import Oomph.Machine.Run
import Oomph.Machine.Stacks

namespace Machine

/-! Calls of a library run tasks, and a task may call the library again.  A queue is marked while a
loop works through it, so that a call made by one of its tasks passes it over.
-/

section Nesting

variable {State Action Frame : Type*} {step : State → Action → Option State}
  {isTask : Frame → Bool} {limit : Nat} {At : State → List Frame → List Nat → Nat → Prop}

/-- The tasks that run nested on a thread. -/
def nested (isTask : Frame → Bool) (threads : List (List Frame)) (thread : Nat) : Nat :=
  (threads.getD thread []).countP isTask

/-- A counter of the guarded tasks is compared with a limit, and beyond it a task is queued; the
queue is worked through without the guard.  `At` relates a state, in which the user's code runs,
to the stack, the queue and the counter. -/
structure Deferring (step : State → Action → Option State) (isTask : Frame → Bool) (limit : Nat)
    (At : State → List Frame → List Nat → Nat → Prop) : Prop where
  nest : ∀ before stack queue depth, depth ≤ limit → At before stack queue depth →
    ∃ after pushed, Leads step before after ∧ pushed.countP isTask = 1 ∧
      At after (pushed ++ stack) queue (depth + 1)
  defer : ∀ before stack queue depth, limit < depth → At before stack queue depth →
    ∃ after task, Leads step before after ∧ At after stack (queue ++ [task]) depth
  resume : ∀ before stack task queue depth, At before stack (task :: queue) depth →
    ∃ after pushed, Leads step before after ∧ pushed.countP isTask = 1 ∧
      At after (pushed ++ stack) queue depth

namespace Deferring

def NestedAt (isTask : Frame → Bool) (At : State → List Frame → List Nat → Nat → Prop)
    (running queued depth : Nat) (state : State) : Prop :=
  ∃ stack queue, At state stack queue depth ∧ stack.countP isTask = running ∧ queue.length = queued

variable {running queued depth : Nat} {before : State}

theorem nest_one (deferring : Deferring step isTask limit At) (below : depth ≤ limit)
    (here : NestedAt isTask At running queued depth before) :
    ∃ after, Leads step before after ∧
      NestedAt isTask At (running + 1) queued (depth + 1) after := by
  obtain ⟨stack, queue, here, rfl, rfl⟩ := here
  obtain ⟨after, pushed, leads, one, there⟩ := deferring.nest before stack queue depth below here
  exact ⟨after, leads, _, queue, there, by rw [List.countP_append, one, Nat.add_comm], rfl⟩

theorem defer_one (deferring : Deferring step isTask limit At) (beyond : limit < depth)
    (here : NestedAt isTask At running queued depth before) :
    ∃ after, Leads step before after ∧ NestedAt isTask At running (queued + 1) depth after := by
  obtain ⟨stack, queue, here, rfl, rfl⟩ := here
  obtain ⟨after, task, leads, there⟩ := deferring.defer before stack queue depth beyond here
  exact ⟨after, leads, stack, _, there, rfl, by simp⟩

theorem resume_one (deferring : Deferring step isTask limit At)
    (here : NestedAt isTask At running (queued + 1) depth before) :
    ∃ after, Leads step before after ∧ NestedAt isTask At (running + 1) queued depth after := by
  obtain ⟨stack, queue, here, rfl, length⟩ := here
  obtain ⟨task, rest, rfl⟩ := List.exists_cons_of_length_eq_add_one length
  obtain ⟨after, pushed, leads, one, there⟩ := deferring.resume before stack task rest depth here
  exact ⟨after, leads, _, rest, there, by rw [List.countP_append, one, Nat.add_comm],
    Nat.succ.inj length⟩

/-- A queued task that works through the queue starts the next one before it ends, so no number
bounds how many tasks run nested. -/
theorem exists_deep (deferring : Deferring step isTask limit At) {start : State}
    (initial : At start [] [] 0) (bound : Nat) :
    ∃ after stack queue depth, Leads step start after ∧ At after stack queue depth ∧
      bound < stack.countP isTask := by
  have first : NestedAt isTask At 0 0 0 start := ⟨[], [], initial, rfl, rfl⟩
  -- up to the limit, then fill the queue, then work through it from the inside
  obtain ⟨atLimit, toLimit, here⟩ := Reaches.iterate (fun k => NestedAt isTask At k 0 k) (limit + 1)
    (fun k inside before here => deferring.nest_one (by omega) here) first
  obtain ⟨full, toFull, here⟩ := Reaches.iterate
    (fun k => NestedAt isTask At (limit + 1) k (limit + 1)) bound
    (fun k _ before here => deferring.defer_one (by omega) here) here
  obtain ⟨deep, toDeep, stack, queue, here, count, -⟩ := Reaches.iterate
    (fun k => NestedAt isTask At (limit + 1 + k) (bound - k) (limit + 1)) bound
    (fun k inside before here => by
      obtain ⟨rest, more⟩ : ∃ rest, bound - k = rest + 1 := ⟨bound - k - 1, by omega⟩
      have less : bound - (k + 1) = rest := by omega
      rw [more] at here
      rw [less]
      exact deferring.resume_one here) here
  exact ⟨deep, stack, queue, _, toLimit.trans (toFull.trans toDeep), here, by omega⟩

end Deferring

end Nesting

section Calls

variable {Frame Party : Type*} {loop : Frame → Option Party} {begins : Party → Prop}
  {covers : Frame → Prop} {base stack moved : List Frame} {party : Party}
  {busy waits queued taken done : Prop} {stillBusy stillWaits stillQueued nowTaken nowDone : Prop}

/-- What waits for a party is barred from the call made over `base`: the party is busy, and no
frame of the call works for it. -/
structure Barred (loop : Frame → Option Party) (party : Party) (base stack : List Frame)
    (busy waits : Prop) : Prop where
  waits : waits
  busy : busy
  above : ∃ above, stack = above ++ base ∧ ∀ frame ∈ above, loop frame ≠ some party

theorem Barred.step (barred : Barred loop party base stack busy waits)
    (inside : base.length < stack.length) (enters : Enters loop begins stack moved)
    (bars : busy → ¬ begins party)
    (keeps : (∀ frame, stack.head? = some frame → loop frame ≠ some party) → busy → waits →
      stillBusy ∧ stillWaits) : Barred loop party base moved stillBusy stillWaits := by
  obtain ⟨waiting, marked, above, rfl, others⟩ := barred
  -- the innermost frame is part of the call
  cases above with
  | nil => exact absurd inside (Nat.lt_irrefl _)
  | cons head above =>
    have other : ∀ frame, (head :: above ++ base).head? = some frame → loop frame ≠ some party := by
      rintro frame ⟨⟩
      exact others _ List.mem_cons_self
    obtain ⟨still, remains⟩ := keeps other marked waiting
    exact ⟨remains, still, enters.avoids (bars marked) others⟩

/-- What becomes of a token that the call made over `base` finds queued: a frame of the call has
still to come to it, or it was taken out of the queue, or it is done. -/
inductive Attended (covers : Frame → Prop) (base stack : List Frame) (queued taken done : Prop) :
    Prop
  | queued (above : List Frame) (frame : Frame) : stack = above ++ frame :: base → covers frame →
      queued → Attended covers base stack queued taken done
  | taken : taken → Attended covers base stack queued taken done
  | done : done → Attended covers base stack queued taken done

theorem Attended.step (attended : Attended covers base stack queued taken done)
    (tops : Tops stack moved) (waits : queued → stillQueued ∨ nowTaken)
    (comes : ∀ frame, stack = frame :: base → covers frame → queued →
      nowTaken ∨ ∃ above frame, moved = above ++ frame :: base ∧ covers frame)
    (takes : taken → nowTaken ∨ nowDone) (stays : done → nowDone) :
    Attended covers base moved stillQueued nowTaken nowDone := by
  cases attended with
  | queued above frame stack cover here =>
    subst stack
    rcases waits here with still | out
    · rcases tops.under with ⟨kept, after⟩ | ⟨rfl, -⟩
      · exact .queued kept frame after cover still
      · rcases comes frame rfl cover here with out | ⟨above, later, after, cover⟩
        · exact .taken out
        · exact .queued above later after cover still
    · exact .taken out
  | taken out => exact (takes out).elim .taken .done
  | done finished => exact .done (stays finished)

theorem Attended.of_return (attended : Attended covers base base queued taken done)
    (free : ¬ taken) : done := by
  cases attended with
  | queued above frame stack =>
    have lengths := congrArg List.length stack
    simp only [List.length_append, List.length_cons] at lengths
    omega
  | taken out => exact absurd out free
  | done finished => exact finished

end Calls

end Machine
