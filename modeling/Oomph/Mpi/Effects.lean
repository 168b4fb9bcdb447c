import Oomph.Mpi.Communicator

namespace Oomph.Mpi

inductive Effect (limit : Nat) (s : State) : Action → State → Prop
  | none (action : Action) : Effect limit s action s
  | fault (action : Action) (fault : Fault) :
      Effect limit s action { s with fault := some fault }
  | create (kind : Kind) (rank : RankType) (tag : TagType) (answer : Posted) :
      Effect limit s (.post kind rank tag answer) (s.create kind rank tag)
  | runInplace (kind : Kind) (rank : RankType) (tag : TagType) :
      s.hasReachedRecursionDepth limit kind = false →
      Effect limit s (.post kind rank tag .complete) (s.runInplace kind rank tag)
  | call (stage : Stage) (action : Action) : action = .progress ∨ action = .contextProgress →
      Effect limit s action { s with stack := .progress stage :: s.stack }
  | advance (stage next : Stage) (rest : List Frame) (answer : Testsome) :
      s.stack = .progress stage :: rest →
      Effect limit s (.testsome answer) { s with stack := .progress next :: rest }
  | leave (stage : Stage) (rest : List Frame) (found : Option Nat) :
      s.stack = .progress stage :: rest →
      Effect limit s (.test found) { s with stack := rest }
  | testFailed (stage : Stage) (side : Side) (rest : List Frame) :
      s.stack = .progress stage :: rest → (s.reqs side).inProgress = false →
      Effect limit s (.testsome .failed) { s.setReqs side
        { s.reqs side with readyQueue := [], inProgress := true } with stack := rest }
  | testEmpty (stage next : Stage) (side : Side) (rest : List Frame) :
      s.stack = .progress stage :: rest → (s.reqs side).inProgress = false →
      Effect limit s (.testsome (.done [])) { s.setReqs side
        { s.reqs side with readyQueue := [], inProgress := false } with
          stack := .progress next :: rest }
  | compact (stage next : Stage) (side : Side) (rest : List Frame) (positions : List Nat) :
      s.stack = .progress stage :: rest → (s.reqs side).inProgress = false →
      Reportable s.transport (s.handles side) positions →
      Effect limit s (.testsome (.done positions)) (s.enterLoop side positions next rest)
  | visit (side : Side) (position finish e : Nat) (rest : List Frame) :
      s.stack = .ready side position finish none :: rest → position < finish →
      (s.reqs side).readyQueue[position]? = some e →
      Effect limit s .visit (s.startReady side position finish e rest)
  | loopEnd (side : Side) (position finish : Nat) (rest : List Frame) :
      s.stack = .ready side position finish none :: rest → ¬ position < finish →
      Effect limit s .visit { s.setReqs side { s.reqs side with inProgress := false } with
        stack := rest }
  | returnInplace (op : Nat) (rest : List Frame) : s.stack = .inplace op :: rest →
      Effect limit s .callbackReturns { s with
        history := .returned op :: s.history
        recursionDepth := s.recursionDepth - 1
        stack := rest }
  | returnSharedInplace (op : Nat) (rest : List Frame) : s.stack = .sharedInplace op :: rest →
      Effect limit s .callbackReturns { s with
        history := .returned op :: s.history
        contextRecursionDepth := s.contextRecursionDepth - 1
        stack := rest }
  | returnReady (side : Side) (position finish e : Nat) (rest : List Frame) :
      s.stack = .ready side position finish (some e) :: rest →
      Effect limit s .callbackReturns { s.finishCb e with
        stack := .ready side (position + 1) finish none :: rest }
  | popShared (stage : Stage) (position e : Nat) (rest : List Frame) :
      s.stack = .progress stage :: rest → s.shared.inProgress = false →
      s.shared.queue[position]? = some e →
      Effect limit s (.test (some position)) (s.startShared position e rest)
  | returnShared (e : Nat) (rest : List Frame) : s.stack = .shared e :: rest →
      Effect limit s .callbackReturns { s.finishCb e with
        shared := { s.shared with size := s.shared.size - 1, inProgress := false }
        stack := rest }
  | cancelFailed (e x op : Nat) : s.holdsRequest .recv e = true → (s.heap e).ready = false →
      s.recvs.queue[(s.heap e).index]? = some x → (s.heap x).req = some op →
      Effect limit s (.cancel e false) (s.cancelHandle x op false)
  | cancelRecv (e x op : Nat) : s.holdsRequest .recv e = true → (s.heap e).ready = false →
      s.recvs.queue[(s.heap e).index]? = some x → (s.heap x).req = some op →
      Effect limit s (.cancel e true) (s.withdrawRecv e x op)
  | cancelSharedFailed (e op : Nat) : s.holdsRequest .sharedRecv e = true →
      (s.heap e).ready = false → e ∈ s.shared.queue → (s.heap e).req = some op →
      Effect limit s (.cancelShared e false) (s.cancelHandle e op false)
  | cancelShared (e op : Nat) : s.holdsRequest .sharedRecv e = true →
      (s.heap e).ready = false → e ∈ s.shared.queue → (s.heap e).req = some op →
      Effect limit s (.cancelShared e true) (s.withdrawShared e op)
  | cancelSharedThrew (e : Nat) (flag : Bool) : s.holdsRequest .sharedRecv e = true →
      (s.heap e).ready = false → e ∈ s.shared.queue → (s.heap e).req = none →
      Effect limit s (.cancelShared e flag) { s with
        shared := { s.shared with queue := s.shared.queue.drop (s.shared.queue.idxOf e + 1) } }

variable {limit : Nat} {s t : State} {action : Action}

theorem call_some {outcome : Option State} (taken : s.call outcome = some t) :
    outcome = some t := by
  unfold State.call at taken
  split at taken
  · exact taken
  · cases taken

private theorem post_effect (kind : Kind) (rank : RankType) (tag : TagType) (answer : Posted) :
    Effect limit s (.post kind rank tag answer) (s.post limit kind rank tag answer) := by
  cases answer with
  | failed => exact .none _
  | incomplete => exact .create kind rank tag _
  | complete =>
    unfold State.post
    by_cases reached : s.hasReachedRecursionDepth limit kind
    · simp only [reached, if_true]
      exact .create kind rank tag _
    · simp only [reached, Bool.false_eq_true, if_false]
      exact .runInplace kind rank tag (by simpa using reached)

private theorem cancelRecv_effect (e : Nat) (flag : Bool) (held : s.holdsRequest .recv e = true) :
    Effect limit s (.cancel e flag) (s.cancelRecv e flag).1 := by
  unfold State.cancelRecv
  by_cases ready : (s.heap e).ready
  · simp only [ready, if_true]
    exact .none _
  · simp only [ready, Bool.false_eq_true, if_false]
    have waits : (s.heap e).ready = false := by simpa using ready
    cases found : s.recvs.queue[(s.heap e).index]? with
    | none => exact .fault _ .queue
    | some x =>
      cases handle : (s.heap x).req with
      | none => simp only [handle]; exact .none _
      | some op =>
        cases flag with
        | false =>
          simp only [handle, Bool.false_eq_true, if_false]
          exact .cancelFailed e x op held waits found handle
        | true =>
          simp only [handle, if_true]
          exact .cancelRecv e x op held waits found handle

private theorem cancelShared_effect (e : Nat) (flag : Bool)
    (held : s.holdsRequest .sharedRecv e = true) :
    Effect limit s (.cancelShared e flag) (s.cancelShared e flag).1 := by
  unfold State.cancelShared
  by_cases ready : (s.heap e).ready
  · simp only [ready, if_true]
    exact .none _
  · simp only [ready, Bool.false_eq_true, if_false]
    have waits : (s.heap e).ready = false := by simpa using ready
    by_cases queued : e ∈ s.shared.queue
    · simp only [queued, if_true]
      cases handle : (s.heap e).req with
      | none => exact .cancelSharedThrew e flag held waits queued handle
      | some op =>
        cases flag with
        | false =>
          simp only [Bool.false_eq_true, if_false]
          exact .cancelSharedFailed e op held waits queued handle
        | true =>
          simp only [if_true]
          exact .cancelShared e op held waits queued handle
    · simp only [queued, if_false]
      exact .none _

private theorem returnCallback_effect (taken : s.returnCallback = some t) :
    Effect limit s .callbackReturns t := by
  unfold State.returnCallback at taken
  split at taken <;> simp only [Option.some.injEq, reduceCtorEq] at taken
  · subst t; exact .returnInplace _ _ ‹_›
  · subst t; exact .returnSharedInplace _ _ ‹_›
  · subst t; exact .returnReady _ _ _ _ _ ‹_›
  · subst t; exact .returnShared _ _ ‹_›

private theorem progressQueue_effect {stage next : Stage} {side : Side} {rest : List Frame}
    {answer : Testsome} (stack : s.stack = .progress stage :: rest)
    (taken : s.progressQueue side next rest answer = some t) :
    Effect limit s (.testsome answer) t := by
  unfold State.progressQueue at taken
  by_cases busy : (s.reqs side).inProgress
  · simp only [busy, if_true, Option.some.injEq] at taken
    subst t
    exact .advance stage next rest _ stack
  · simp only [busy, Bool.false_eq_true, if_false] at taken
    have idle : (s.reqs side).inProgress = false := by simpa using busy
    by_cases empty : (s.reqs side).queue = []
    · simp only [empty, if_true, Option.some.injEq] at taken
      subst t
      exact .advance stage next rest _ stack
    · simp only [empty, if_false] at taken
      cases answer with
      | failed =>
        simp only [Option.some.injEq] at taken
        subst t
        exact .testFailed stage side rest stack idle
      | done positions =>
        by_cases null : (s.handles side).all Option.isNone
        · simp only [null, if_true, Option.some.injEq] at taken
          subst t
          exact .fault _ .indices
        · simp only [null, Bool.false_eq_true, if_false] at taken
          by_cases nothing : positions = []
          · subst nothing
            simp only [if_true, Option.some.injEq] at taken
            subst t
            exact .testEmpty stage next side rest stack idle
          · simp only [nothing, if_false] at taken
            by_cases reported : Reportable s.transport (s.handles side) positions
            · simp only [reported, if_true, Option.some.injEq] at taken
              subst t
              exact .compact stage next side rest positions stack idle reported
            · simp [reported] at taken

private theorem progressShared_effect {stage : Stage} {rest : List Frame} {found : Option Nat}
    (stack : s.stack = .progress stage :: rest)
    (taken : s.progressShared rest found = some t) : Effect limit s (.test found) t := by
  unfold State.progressShared at taken
  by_cases busy : s.shared.inProgress
  · simp only [busy, if_true, Option.some.injEq] at taken
    subst t
    exact .leave stage rest _ stack
  · simp only [busy, Bool.false_eq_true, if_false] at taken
    have idle : s.shared.inProgress = false := by simpa using busy
    cases found with
    | none =>
      simp only at taken
      split at taken
      · simp only [Option.some.injEq] at taken
        subst t
        exact .leave stage rest _ stack
      · cases taken
    | some position =>
      cases popped : s.shared.queue[position]? with
      | none => simp [popped] at taken
      | some e =>
        simp only [popped] at taken
        split at taken
        · simp only [Option.some.injEq] at taken
          subst t
          exact .popShared stage position e rest stack idle popped
        · cases taken

private theorem visitReady_effect {side : Side} {position finish : Nat} {rest : List Frame}
    (stack : s.stack = .ready side position finish none :: rest) :
    Effect limit s .visit (s.visitReady side position finish rest) := by
  unfold State.visitReady
  by_cases more : position < finish
  · simp only [more, if_true]
    cases next : (s.reqs side).readyQueue[position]? with
    | none => exact .fault _ .queue
    | some e => exact .visit side position finish e rest stack more next
  · simp only [more, if_false]
    exact .loopEnd side position finish rest stack more

theorem step_effect (taken : step limit s action = some t) : Effect limit s action t := by
  unfold step at taken
  split at taken
  · cases taken
  · cases action with
    | post kind rank tag answer =>
      have outcome := call_some taken
      cases outcome
      exact post_effect kind rank tag answer
    | progress =>
      have outcome := call_some taken
      cases outcome
      exact .call .sends _ (.inl rfl)
    | contextProgress =>
      have outcome := call_some taken
      cases outcome
      exact .call .context _ (.inr rfl)
    | cancel e flag =>
      have outcome := call_some taken
      split at outcome
      · cases outcome
        exact cancelRecv_effect e flag ‹_›
      · cases outcome
    | cancelShared e flag =>
      have outcome := call_some taken
      split at outcome
      · cases outcome
        exact cancelShared_effect e flag ‹_›
      · cases outcome
    | callbackReturns => exact returnCallback_effect taken
    | testsome answer =>
      simp only at taken
      split at taken
      · exact progressQueue_effect ‹_› taken
      · exact progressQueue_effect ‹_› taken
      · cases taken
    | test found =>
      simp only at taken
      split at taken
      · exact progressShared_effect ‹_› taken
      · cases taken
    | visit =>
      simp only at taken
      split at taken
      · simp only [Option.some.injEq] at taken
        subst t
        exact visitReady_effect ‹_›
      · cases taken

end Oomph.Mpi
