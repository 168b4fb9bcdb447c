import Oomph.Mpi.Accounting

namespace Oomph.Mpi

open Machine State

variable {limit : Nat} {s t : State} {action : Action}

namespace Frame

def runsCallback : Frame → Bool
  | .inplace _ => true
  | .sharedInplace _ => true
  | .ready _ _ _ running => running.isSome
  | .shared _ => true
  | .progress _ => false

def isInplace : Frame → Bool
  | .inplace _ => true
  | _ => false

def isSharedInplace : Frame → Bool
  | .sharedInplace _ => true
  | _ => false

def isShared : Frame → Bool
  | .shared _ => true
  | _ => false

def plain (frame : Frame) : Prop :=
  frame.isInplace = false ∧ frame.isSharedInplace = false ∧ frame.isShared = false

theorem plain_ready (side : Side) (position finish : Nat) (running : Option Nat) :
    (ready side position finish running).plain :=
  ⟨rfl, rfl, rfl⟩

theorem plain_progress (stage : Stage) : (progress stage).plain :=
  ⟨rfl, rfl, rfl⟩

end Frame

def State.callbacks (s : State) : Nat :=
  s.stack.countP Frame.runsCallback

/-- The counters count the frames they guard and stay at the limit. -/
structure State.Recursing (limit : Nat) (s : State) : Prop where
  depth : s.recursionDepth = s.stack.countP Frame.isInplace
  bound : s.recursionDepth ≤ limit + 1
  contextDepth : s.contextRecursionDepth = s.stack.countP Frame.isSharedInplace
  contextBound : s.contextRecursionDepth ≤ limit + 1
  shared : s.stack.countP Frame.isShared = s.shared.inProgress.toNat

private theorem countP_replaced {kind : Frame → Bool} {removed pushed rest : List Frame}
    {before after : List Frame} (old : before = removed ++ rest) (new : after = pushed ++ rest)
    (others : ∀ frame ∈ removed ++ pushed, kind frame = false) :
    after.countP kind = before.countP kind := by
  have gone : removed.countP kind = 0 := List.countP_eq_zero.mpr fun frame member => by
    simp [others frame (List.mem_append_left _ member)]
  have come : pushed.countP kind = 0 := List.countP_eq_zero.mpr fun frame member => by
    simp [others frame (List.mem_append_right _ member)]
  rw [old, new, List.countP_append, List.countP_append, gone, come]

private theorem recursing_keep (recursing : s.Recursing limit) (removed pushed rest : List Frame)
    (before : s.stack = removed ++ rest) (after : t.stack = pushed ++ rest)
    (plain : ∀ frame ∈ removed ++ pushed, frame.plain)
    (depth : t.recursionDepth = s.recursionDepth)
    (contextDepth : t.contextRecursionDepth = s.contextRecursionDepth)
    (shared : t.shared.inProgress = s.shared.inProgress) : t.Recursing limit where
  depth := by
    rw [depth, recursing.depth]
    exact (countP_replaced before after fun frame member => (plain frame member).1).symm
  bound := by rw [depth]; exact recursing.bound
  contextDepth := by
    rw [contextDepth, recursing.contextDepth]
    exact (countP_replaced before after fun frame member => (plain frame member).2.1).symm
  contextBound := by rw [contextDepth]; exact recursing.contextBound
  shared := by
    rw [shared, ← recursing.shared]
    exact countP_replaced before after fun frame member => (plain frame member).2.2

private theorem recursing_same (recursing : s.Recursing limit) (stack : t.stack = s.stack)
    (depth : t.recursionDepth = s.recursionDepth)
    (contextDepth : t.contextRecursionDepth = s.contextRecursionDepth)
    (shared : t.shared.inProgress = s.shared.inProgress) : t.Recursing limit :=
  recursing_keep recursing [] [] s.stack rfl stack nofun depth contextDepth shared

theorem State.Recursing.runInplace (recursing : s.Recursing limit) {kind : Kind} (rank : RankType)
    (tag : TagType) (below : s.hasReachedRecursionDepth limit kind = false) :
    (s.runInplace kind rank tag).Recursing limit := by
  obtain ⟨depth, bound, contextDepth, contextBound, shared⟩ := recursing
  cases kind <;> constructor <;>
    simp_all [hasReachedRecursionDepth, State.runInplace, List.countP_cons, Frame.isInplace, Frame.isSharedInplace,
      Frame.isShared]

theorem State.Recursing.effect (recursing : s.Recursing limit) (effect : Effect limit s action t) :
    t.Recursing limit := by
  cases effect with
  | none => exact recursing
  | create kind rank tag =>
    cases kind <;> exact recursing_same recursing rfl rfl rfl rfl
  | runInplace kind rank tag below => exact recursing.runInplace rank tag below
  | call stage =>
    exact recursing_keep recursing [] [_] s.stack rfl rfl (by simp [Frame.plain_progress]) rfl rfl rfl
  | advance stage next rest answer stack =>
    exact recursing_keep recursing [_] [_] rest stack rfl (by simp [Frame.plain_progress]) rfl rfl rfl
  | leave stage rest found stack =>
    exact recursing_keep recursing [_] [] rest stack rfl (by simp [Frame.plain_progress]) rfl rfl rfl
  | testFailed stage side rest stack =>
    refine recursing_keep recursing [_] [] rest stack rfl (by simp [Frame.plain_progress]) ?_ ?_ ?_ <;>
      cases side <;> rfl
  | testEmpty stage next side rest stack =>
    refine recursing_keep recursing [_] [_] rest stack rfl (by simp [Frame.plain_progress]) ?_ ?_ ?_ <;>
      cases side <;> rfl
  | compact stage next side rest positions stack =>
    refine recursing_keep recursing [_] [_, _] rest stack rfl
      (by simp [Frame.plain_progress, Frame.plain_ready]) ?_ ?_ ?_ <;> cases side <;> rfl
  | visit side position finish e rest stack =>
    exact recursing_keep recursing [_] [_] rest stack rfl (by simp [Frame.plain_ready]) rfl rfl rfl
  | loopEnd side position finish rest stack =>
    refine recursing_keep recursing [_] [] rest stack rfl (by simp [Frame.plain_ready]) ?_ ?_ ?_ <;>
      cases side <;> rfl
  | returnInplace op rest stack =>
    obtain ⟨depth, bound, contextDepth, contextBound, shared⟩ := recursing
    simp only [stack, List.countP_cons, Frame.isInplace, Frame.isSharedInplace, Frame.isShared,
      if_true, Bool.false_eq_true, if_false, add_zero] at depth contextDepth shared
    exact ⟨by simp only; omega, by simp only; omega, contextDepth, contextBound, shared⟩
  | returnSharedInplace op rest stack =>
    obtain ⟨depth, bound, contextDepth, contextBound, shared⟩ := recursing
    simp only [stack, List.countP_cons, Frame.isInplace, Frame.isSharedInplace, Frame.isShared,
      if_true, Bool.false_eq_true, if_false, add_zero] at depth contextDepth shared
    exact ⟨depth, bound, by simp only; omega, by simp only; omega, shared⟩
  | returnReady side position finish e rest stack =>
    exact recursing_keep recursing [_] [_] rest stack rfl (by simp [Frame.plain_ready]) rfl rfl rfl
  | popShared stage position e rest stack idle =>
    obtain ⟨depth, bound, contextDepth, contextBound, shared⟩ := recursing
    simp only [stack, idle, List.countP_cons, Frame.isInplace, Frame.isSharedInplace,
      Frame.isShared, Bool.false_eq_true, if_false, add_zero, Bool.toNat_false] at depth contextDepth shared
    refine ⟨?_, bound, ?_, contextBound, ?_⟩
    · simp only [startShared, releaseSelfRef, callCb, List.countP_cons, Frame.isInplace,
        Bool.false_eq_true, if_false, add_zero]
      exact depth
    · simp only [startShared, releaseSelfRef, callCb, List.countP_cons, Frame.isSharedInplace,
        Bool.false_eq_true, if_false, add_zero]
      exact contextDepth
    · simp only [startShared, releaseSelfRef, callCb, List.countP_cons, Frame.isShared, if_true,
        Bool.toNat_true, shared]
  | returnShared e rest stack =>
    obtain ⟨depth, bound, contextDepth, contextBound, shared⟩ := recursing
    have mark := Bool.toNat_le s.shared.inProgress
    simp only [stack, List.countP_cons, Frame.isInplace, Frame.isSharedInplace, Frame.isShared,
      if_true, Bool.false_eq_true, if_false, add_zero] at depth contextDepth shared
    exact ⟨depth, bound, contextDepth, contextBound, by simp only [Bool.toNat_false]; omega⟩
  | cancelRecv e x op held waits found =>
    obtain ⟨heap, queue, equal, -⟩ := withdrawRecv_spec op found
    rw [equal]
    exact recursing_same recursing rfl rfl rfl rfl
  | _ => exact recursing_same recursing rfl rfl rfl rfl

theorem State.Recursing.of_reaches {allowed : State → Action → Prop}
    (reached : Reaches (step limit) allowed State.initial s) : s.Recursing limit :=
  Reaches.invariant (State.Recursing limit) ⟨rfl, Nat.zero_le _, rfl, Nat.zero_le _, rfl⟩
    (fun _ _ _ recursing _ taken => recursing.effect (step_effect taken)) reached

private theorem sides_le_two {sides : List Side} (distinct : sides.Nodup) : sides.length ≤ 2 := by
  match sides, distinct with
  | [], _ => exact Nat.zero_le 2
  | [_], _ => exact Nat.le_succ 1
  | [_, _], _ => exact Nat.le_refl 2
  | first :: second :: third :: rest, distinct =>
    simp only [List.nodup_cons, List.mem_cons, not_or] at distinct
    obtain ⟨⟨one, two, -⟩, ⟨three, -⟩, -⟩ := distinct
    cases first <;> cases second <;> cases third <;> simp_all

/-- A frame of user code is guarded by a counter or by the mark of a queue. -/
theorem callbacks_le (stack : List Frame) :
    stack.countP Frame.runsCallback ≤ stack.countP Frame.isInplace +
      stack.countP Frame.isSharedInplace + stack.countP Frame.isShared +
      (stack.filterMap Frame.side).length := by
  induction stack with
  | nil => exact Nat.zero_le _
  | cons frame rest ih =>
    cases frame with
    | ready side position finish running =>
      cases running <;>
        simp [List.countP_cons, Frame.runsCallback, Frame.isInplace, Frame.isSharedInplace,
          Frame.isShared] <;> omega
    | _ =>
      simp [List.countP_cons, List.filterMap_cons, Frame.runsCallback, Frame.isInplace,
        Frame.isSharedInplace, Frame.isShared]
      omega

theorem State.Recursing.callbacks_le (recursing : s.Recursing limit) (loops : s.Loops) :
    s.callbacks ≤ 2 * limit + 5 := by
  have frames := Mpi.callbacks_le s.stack
  have sides := sides_le_two loops.single
  have shared := recursing.shared
  have mark := Bool.toNat_le s.shared.inProgress
  rw [← recursing.depth, ← recursing.contextDepth] at frames
  have depth := recursing.bound
  have contextDepth := recursing.contextBound
  unfold State.callbacks
  omega

/-- A queue that is marked in progress has a loop on the stack. -/
def State.Marked (s : State) : Prop :=
  ∀ side, (s.reqs side).inProgress = true → ∃ frame ∈ s.stack, frame.side = some side

def Undisturbed (s : State) (action : Action) : Prop :=
  NoCancel s action ∧ action ≠ .testsome .failed

instance (s : State) (action : Action) : Decidable (Undisturbed s action) :=
  inferInstanceAs (Decidable (_ ∧ _))

def State.MarkedOn (s : State) (side : Side) : Prop :=
  (s.reqs side).inProgress = true → ∃ frame ∈ s.stack, frame.side = some side

section MarkedOn

variable {side : Side}

private theorem markedOn_keep (marked : s.MarkedOn side) (removed pushed rest : List Frame)
    (before : s.stack = removed ++ rest) (after : t.stack = pushed ++ rest)
    (marks : (t.reqs side).inProgress = true →
      ((s.reqs side).inProgress = true ∧ ∀ frame ∈ removed, frame.side ≠ some side) ∨
        ∃ frame ∈ pushed, frame.side = some side) : t.MarkedOn side := by
  intro mark
  rw [after]
  rcases marks mark with ⟨old, other⟩ | ⟨frame, new, here⟩
  · obtain ⟨frame, member, here⟩ := marked old
    rw [before] at member
    refine ⟨frame, List.mem_append_right _ ?_, here⟩
    exact (List.mem_append.mp member).resolve_left fun gone => other frame gone here
  · exact ⟨frame, List.mem_append_left _ new, here⟩

private theorem markedOn_plain (marked : s.MarkedOn side) (removed pushed rest : List Frame)
    (before : s.stack = removed ++ rest) (after : t.stack = pushed ++ rest)
    (plain : ∀ frame ∈ removed, frame.side = none)
    (same : (t.reqs side).inProgress = (s.reqs side).inProgress) : t.MarkedOn side :=
  markedOn_keep marked removed pushed rest before after fun mark =>
    .inl ⟨same ▸ mark, fun frame member => by rw [plain frame member]; nofun⟩

theorem State.MarkedOn.effect (marked : s.MarkedOn side) (succeeds : action ≠ .testsome .failed)
    (effect : Effect limit s action t) : t.MarkedOn side := by
  cases effect with
  | create kind rank tag =>
    exact markedOn_plain marked [] [] s.stack rfl (by cases kind <;> rfl) nofun
      (by cases kind <;> cases side <;> rfl)
  | runInplace kind rank tag =>
    cases kind <;> exact markedOn_plain marked [] [_] s.stack rfl rfl nofun (by cases side <;> rfl)
  | call stage =>
    exact markedOn_plain marked [] [_] s.stack rfl rfl nofun (by cases side <;> rfl)
  | advance stage next rest answer stack =>
    exact markedOn_plain marked [_] [_] rest stack rfl (by simp) (by cases side <;> rfl)
  | leave stage rest found stack =>
    exact markedOn_plain marked [_] [] rest stack rfl (by simp) (by cases side <;> rfl)
  | testFailed => exact absurd rfl succeeds
  | testEmpty stage next other rest stack idle =>
    refine markedOn_plain marked [_] [_] rest stack rfl (by simp) ?_
    cases side <;> cases other <;> first | exact idle.symm | rfl
  | compact stage next other rest positions stack =>
    refine markedOn_keep marked [_] [_, _] rest stack rfl fun mark => ?_
    by_cases same : side = other
    · exact .inr ⟨.ready other 0 _ none, List.mem_cons_self, by simp [same]⟩
    · refine .inl ⟨?_, by simp⟩
      cases side <;> cases other <;> first | contradiction | exact mark
  | visit other position finish e rest stack =>
    refine markedOn_keep marked [_] [_] rest stack rfl fun mark => ?_
    by_cases same : side = other
    · exact .inr ⟨_, List.mem_cons_self, by simp [same]⟩
    · exact .inl ⟨by cases side <;> exact mark, by simpa using Ne.symm same⟩
  | loopEnd other position finish rest stack =>
    refine markedOn_keep marked [_] [] rest stack rfl fun mark => ?_
    have different : side ≠ other := by
      rintro rfl
      cases side <;> cases mark
    refine .inl ⟨?_, by simpa using Ne.symm different⟩
    cases side <;> cases other <;> first | contradiction | exact mark
  | returnInplace op rest stack =>
    exact markedOn_plain marked [_] [] rest stack rfl (by simp) (by cases side <;> rfl)
  | returnSharedInplace op rest stack =>
    exact markedOn_plain marked [_] [] rest stack rfl (by simp) (by cases side <;> rfl)
  | returnReady other position finish e rest stack =>
    refine markedOn_keep marked [_] [_] rest stack rfl fun mark => ?_
    by_cases same : side = other
    · exact .inr ⟨_, List.mem_cons_self, by simp [same]⟩
    · exact .inl ⟨by cases side <;> exact mark, by simpa using Ne.symm same⟩
  | popShared stage position e rest stack =>
    exact markedOn_plain marked [_] [_] rest stack rfl (by simp) (by cases side <;> rfl)
  | returnShared e rest stack =>
    exact markedOn_plain marked [_] [] rest stack rfl (by simp) (by cases side <;> rfl)
  | cancelRecv e x op held waits found =>
    obtain ⟨heap, queue, equal, -⟩ := withdrawRecv_spec op found
    rw [equal]
    exact markedOn_plain marked [] [] s.stack rfl rfl nofun (by cases side <;> rfl)
  | none => exact marked
  | _ => exact markedOn_plain marked [] [] s.stack rfl rfl nofun (by cases side <;> rfl)

end MarkedOn

theorem State.Marked.of_reaches (reached : Reaches (step limit) Undisturbed State.initial s) :
    s.Marked :=
  Reaches.invariant State.Marked (fun side mark => by cases side <;> cases mark)
    (fun _ _ _ marked undisturbed taken side =>
      MarkedOn.effect (marked side) undisturbed.2 (step_effect taken)) reached

/-- Callbacks nest at most `2 * OOMPH_RECURSION_DEPTH + 5` deep, whatever they call and even if
MPI calls fail.  At the top level the counters are zero and, unless `MPI_Testsome` failed, no
queue is marked in progress. -/
theorem callbacks_bounded (limit : Nat) :
    (∀ s, Reaches (step limit) NoCancel State.initial s → s.callbacks ≤ 2 * limit + 5 ∧
      (s.stack = [] → s.recursionDepth = 0 ∧ s.contextRecursionDepth = 0 ∧
        s.shared.inProgress = false)) ∧
    ∀ s, Reaches (step limit) Undisturbed State.initial s → s.stack = [] →
      s.sends.inProgress = false ∧ s.recvs.inProgress = false := by
  constructor
  · intro s reached
    have recursing := Recursing.of_reaches reached
    refine ⟨recursing.callbacks_le (Sound.of_reaches reached).loops, fun top => ?_⟩
    obtain ⟨depth, -, contextDepth, -, shared⟩ := recursing
    rw [top] at depth contextDepth shared
    exact ⟨depth, contextDepth, by simpa using shared.symm⟩
  · intro s reached top
    have idle (side : Side) : (s.reqs side).inProgress = false := by
      by_contra mark
      obtain ⟨frame, member, -⟩ := Marked.of_reaches reached side (by simpa using mark)
      rw [top] at member
      cases member
    exact ⟨idle .sends, idle .recvs⟩

/-- With the limit 0 five callbacks can be on the stack: a send in place and a shared receive in
place, one in each loop over a ready queue, and one of the shared queue. -/
theorem callbacks_bounded_reached :
    ∃ s, Reaches (step 0) NoCancel State.initial s ∧ s.callbacks = 5 ∧ s.callbacks ≤ 2 * 0 + 5 := by
  have ran : (run (step 0) NoCancel State.initial
      [.post .send 1 7 .incomplete, .post .recv 1 7 .incomplete, .post .sharedRecv 1 7 .incomplete,
        .progress, .testsome (.done [0]), .visit,
        .progress, .testsome (.done []), .testsome (.done [0]), .visit,
        .contextProgress, .test (some 0),
        .post .send 1 8 .complete, .post .sharedRecv 1 8 .complete]).map
      (fun s => decide (s.callbacks = 5)) = some true := by decide +kernel
  obtain ⟨s, reached, deep⟩ := Option.map_eq_some_iff.mp ran
  have reached := reaches_of_run reached
  exact ⟨s, reached, of_decide_eq_true deep, ((callbacks_bounded 0).1 s reached).1⟩

end Oomph.Mpi
