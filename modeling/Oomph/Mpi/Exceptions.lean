import Oomph.Mpi.Reentry

namespace Oomph.Mpi

open Machine State

/-! A callback may throw.  Nothing in the library catches the exception: it leaves the loop that runs
the callback and every call around it, up to the call that the user made.
-/

/-- The recursion guard of a callback in place counts down on the way. -/
def State.throwCallback (s : State) : Option State :=
  match s.stack with
  | .inplace _ :: rest => some { s with
      recursionDepth := s.recursionDepth - 1
      stack := rest }
  | .sharedInplace _ :: rest => some { s with
      contextRecursionDepth := s.contextRecursionDepth - 1
      stack := rest }
  | .ready _ _ _ (some _) :: .progress _ :: rest => some { s with stack := rest }
  | .shared _ :: rest => some { s with stack := rest }
  | _ => none

inductive Move
  | act (action : Action)
  | callbackThrows
deriving DecidableEq, Repr

def stepThrowing (limit : Nat) (s : State) : Move → Option State
  | .act action => step limit s action
  | .callbackThrows => if s.fault.isSome then none else s.throwCallback

inductive QueueThrows (side : Side) (s : State) : Move → Prop
  | testsome (rest : List Frame) : s.stack = .progress side.stage :: rest →
      (s.reqs side).inProgress = false → (s.reqs side).queue ≠ [] →
      QueueThrows side s (.act (.testsome .failed))
  | callback (position finish e : Nat) (rest : List Frame) :
      s.stack = .ready side position finish (some e) :: rest → QueueThrows side s .callbackThrows

/-- The queue can go on: it is not in progress, and each of its requests that was neither called
back nor cancelled is in it once. -/
structure State.Recovered (s : State) (side : Side) : Prop where
  idle : (s.reqs side).inProgress = false
  tracked : ∀ e, s.requestKind e = some side.kind → e ∉ Event.calledOps s.history →
    e ∉ Event.canceledOps s.history → (s.reqs side).queue.count e = 1

variable {limit : Nat} {s t : State} {side : Side} {move : Move}

theorem throwCallback_spec (thrown : s.throwCallback = some t) :
    t.stack <:+ s.stack ∧ ∀ side, t.reqs side = s.reqs side := by
  unfold throwCallback at thrown
  split at thrown <;> simp only [Option.some.injEq, reduceCtorEq] at thrown <;> subst t <;>
    rename_i stack <;> rw [stack] <;>
    refine ⟨?_, fun side => by cases side <;> rfl⟩
  · exact List.suffix_cons _ _
  · exact List.suffix_cons _ _
  · exact (List.suffix_cons _ _).trans (List.suffix_cons _ _)
  · exact List.suffix_cons _ _

theorem Loops.stepThrowing (loops : s.Loops) (taken : Mpi.stepThrowing limit s move = some t) :
    t.Loops := by
  cases move with
  | act action => exact loops.effect (step_effect taken)
  | callbackThrows =>
    simp only [Mpi.stepThrowing] at taken
    split at taken
    · cases taken
    · obtain ⟨shorter, reqs⟩ := throwCallback_spec taken
      exact loops.keep [] t.stack rfl shorter nofun fun _ _ side _ => by simp [reqs side]

theorem Loops.of_throwing (reached : Leads (Mpi.stepThrowing limit) State.initial s) : s.Loops :=
  Reaches.invariant State.Loops ⟨by simp [State.initial], by simp [State.initial]⟩
    (fun _ _ _ loops _ taken => Loops.stepThrowing loops taken) reached

/-- No exception takes the mark of the queue away. -/
theorem QueueThrows.marked (throws : QueueThrows side s move) (loops : s.Loops)
    (taken : Mpi.stepThrowing limit s move = some t) : (t.reqs side).inProgress = true := by
  cases throws with
  | testsome rest stack idle queued =>
    simp only [Mpi.stepThrowing, step] at taken
    split at taken
    · cases taken
    · cases side <;>
        simp only [Side.stage] at stack <;>
        simp only [stack, State.progressQueue, idle, queued, Bool.false_eq_true, if_false,
          Option.some.injEq] at taken <;>
        subst t <;> rfl
  | callback position finish e rest stack =>
    simp only [Mpi.stepThrowing] at taken
    split at taken
    · cases taken
    · rw [(throwCallback_spec taken).2 side]
      exact (loops.intact side position finish (some e) (by simp [stack])).active

end Oomph.Mpi
