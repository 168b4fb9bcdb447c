import Oomph.Machine.Pool
import Oomph.Mpi.Communicator
import Oomph.Mpi.Compaction
import Mathlib.Tactic.Abel

namespace Oomph.Mpi

open Machine

namespace Frame

def runs : Frame → Multiset Nat
  | .inplace op => {op}
  | .sharedInplace op => {op}
  | .ready _ _ _ (some e) => {e}
  | .ready _ _ _ none => 0
  | .shared e => {e}
  | .progress _ => 0

/-- What the loop of this frame has still to visit, given the ready queues. -/
def unvisited (ready : Side → List Nat) : Frame → Multiset Nat
  | .ready side position _ none => (ready side).drop position
  | .ready side position _ (some _) => (ready side).drop (position + 1)
  | _ => 0

def side : Frame → Option Side
  | .ready side _ _ _ => some side
  | _ => none

end Frame

attribute [simp] Frame.runs Frame.unvisited Frame.side

namespace State

def readyQueues (s : State) (side : Side) : List Nat := (s.reqs side).readyQueue

def running (s : State) : Multiset Nat := total Frame.runs s.stack

def unvisited (s : State) : Multiset Nat := total (Frame.unvisited s.readyQueues) s.stack

def queued (s : State) : Multiset Nat := s.sends.queue + s.recvs.queue + s.shared.queue

def waiting (s : State) : Multiset Nat := s.queued + s.unvisited

def books (s : State) : Books Post Counter where
  attrs := s.posts
  waiting := s.waiting
  running := s.running
  called := Event.calledOps s.history
  returned := Event.returnedOps s.history
  withdrawn := Event.canceledOps s.history
  outstanding := s.scheduled

section Fields

variable (s : State) (side : Side) (reqs : RequestQueue) (e : Nat)

@[simp] theorem setReqs_heap : (s.setReqs side reqs).heap = s.heap := by cases side <;> rfl

@[simp] theorem setReqs_posts : (s.setReqs side reqs).posts = s.posts := by cases side <;> rfl

@[simp] theorem setReqs_shared : (s.setReqs side reqs).shared = s.shared := by cases side <;> rfl

@[simp] theorem setReqs_scheduled : (s.setReqs side reqs).scheduled = s.scheduled := by
  cases side <;> rfl

@[simp] theorem setReqs_transport : (s.setReqs side reqs).transport = s.transport := by
  cases side <;> rfl

@[simp] theorem setReqs_history : (s.setReqs side reqs).history = s.history := by
  cases side <;> rfl

@[simp] theorem setReqs_fault : (s.setReqs side reqs).fault = s.fault := by cases side <;> rfl

@[simp] theorem reqs_setReqs : (s.setReqs side reqs).reqs side = reqs := by cases side <;> rfl

end Fields

theorem total_unvisited_congr {ready changed : Side → List Nat} {stack : List Frame}
    (same : ∀ frame ∈ stack, ∀ side, frame.side = some side → changed side = ready side) :
    total (Frame.unvisited changed) stack = total (Frame.unvisited ready) stack := by
  induction stack with
  | nil => rfl
  | cons frame rest ih =>
    rw [total_cons, total_cons, ih fun other member => same other (List.mem_cons_of_mem _ member)]
    congr 1
    cases frame with
    | ready side position finish running =>
      have equal := same _ List.mem_cons_self side rfl
      cases running <;> simp [equal]
    | _ => rfl

/-- A frame in the loop over `m_ready_queue` of its side: the queue is marked in
progress and is the one the loop began with. -/
structure Looping (s : State) (side : Side) (position finish : Nat) (running : Option Nat) :
    Prop where
  active : (s.reqs side).inProgress = true
  bound : finish = (s.reqs side).readyQueue.length
  within : position ≤ finish
  visiting : ∀ e, running = some e → (s.reqs side).readyQueue[position]? = some e

structure Loops (s : State) : Prop where
  intact : ∀ side position finish running, Frame.ready side position finish running ∈ s.stack →
    s.Looping side position finish running
  single : (s.stack.filterMap Frame.side).Nodup

theorem Loops.idle {s : State} (loops : s.Loops) {side : Side}
    (idle : (s.reqs side).inProgress = false) : ∀ frame ∈ s.stack, frame.side ≠ some side := by
  intro frame member same
  cases frame with
  | ready other position finish running =>
    have equal : other = side := by simpa using same
    subst other
    have active := (loops.intact _ _ _ _ member).active
    simp [idle] at active
  | _ => simp at same

/-- Loops stay intact when other frames come and go, as long as the ready queues they
walk are left alone. -/
theorem Loops.keep {s t : State} (loops : s.Loops) (pushed kept : List Frame)
    (stack : t.stack = pushed ++ kept) (suffix : kept <:+ s.stack)
    (plain : ∀ frame ∈ pushed, frame.side = none)
    (same : ∀ frame ∈ kept, ∀ side, frame.side = some side →
      (t.reqs side).readyQueue = (s.reqs side).readyQueue ∧
        (t.reqs side).inProgress = (s.reqs side).inProgress) :
    t.Loops := by
  constructor
  · intro side position finish running member
    rw [stack] at member
    rcases List.mem_append.mp member with new | old
    · exact absurd (plain _ new) (by simp)
    · obtain ⟨ready, progress⟩ := same _ old side rfl
      have looping := loops.intact _ _ _ _ (suffix.subset old)
      exact ⟨progress ▸ looping.active, ready ▸ looping.bound, looping.within,
        fun e runs => ready ▸ looping.visiting e runs⟩
  · have none : pushed.filterMap Frame.side = [] := by
      rw [List.filterMap_eq_nil_iff]
      exact plain
    rw [stack, List.filterMap_append, none, List.nil_append]
    exact loops.single.sublist (suffix.sublist.filterMap _)

theorem Loops.idle_rest {s : State} (loops : s.Loops) {side : Side} {position finish : Nat}
    {running : Option Nat} {rest : List Frame}
    (stack : s.stack = .ready side position finish running :: rest) :
    ∀ frame ∈ rest, frame.side ≠ some side := by
  have single := loops.single
  rw [stack] at single
  simp only [List.filterMap_cons, Frame.side, List.nodup_cons] at single
  exact fun frame member same => single.1 (List.mem_filterMap.mpr ⟨frame, member, same⟩)

theorem Loops.enter {s t : State} (loops : s.Loops) {side : Side} {position finish : Nat}
    {running : Option Nat} (between rest : List Frame)
    (stack : t.stack = .ready side position finish running :: (between ++ rest))
    (suffix : rest <:+ s.stack) (plain : ∀ frame ∈ between, frame.side = none)
    (idle : ∀ frame ∈ rest, frame.side ≠ some side)
    (others : ∀ other, other ≠ side → t.reqs other = s.reqs other)
    (looping : t.Looping side position finish running) : t.Loops := by
  have tail : ({ t with stack := between ++ rest } : State).Loops := by
    refine loops.keep between rest rfl suffix plain fun frame member other found => ?_
    have different : other ≠ side := fun same => idle frame member (same ▸ found)
    have kept := others other different
    cases other <;> exact ⟨congrArg RequestQueue.readyQueue kept, congrArg RequestQueue.inProgress kept⟩
  constructor
  · intro other place bound runs member
    rw [stack] at member
    rcases List.mem_cons.mp member with same | old
    · cases same
      exact looping
    · have other := tail.intact _ _ _ _ old
      exact ⟨other.active, other.bound, other.within, other.visiting⟩
  · rw [stack, List.filterMap_cons]
    simp only [Frame.side, List.nodup_cons]
    refine ⟨fun member => ?_, tail.single⟩
    obtain ⟨frame, found, same⟩ := List.mem_filterMap.mp member
    rcases List.mem_append.mp found with new | old
    · rw [plain frame new] at same
      cases same
    · exact idle frame old same

variable {s : State}

theorem waiting_create (kind : Kind) (rank : RankType) (tag : TagType) :
    (s.create kind rank tag).waiting = s.posts.length ::ₘ s.waiting := by
  have same : (s.create kind rank tag).unvisited = s.unvisited := by
    cases kind <;> exact total_unvisited_congr fun _ _ side _ => by cases side <;> rfl
  unfold waiting queued
  rw [same]
  cases kind <;>
    simp only [create, enqueue, RequestQueue.enqueue, ← Multiset.coe_add, Multiset.coe_singleton,
      ← Multiset.singleton_add] <;>
    abel

theorem running_create (kind : Kind) (rank : RankType) (tag : TagType) :
    (s.create kind rank tag).running = s.running := by
  cases kind <;> rfl

theorem waiting_runInplace (kind : Kind) (rank : RankType) (tag : TagType) :
    (s.runInplace kind rank tag).waiting = s.waiting := by
  have same : (s.runInplace kind rank tag).unvisited = s.unvisited := by
    unfold unvisited
    cases kind <;>
      simp only [runInplace, total_cons, Frame.unvisited, zero_add] <;>
      exact total_unvisited_congr fun _ _ side _ => by cases side <;> rfl
  unfold waiting queued
  rw [same]
  cases kind <;> rfl

theorem running_runInplace (kind : Kind) (rank : RankType) (tag : TagType) :
    (s.runInplace kind rank tag).running = s.posts.length ::ₘ s.running := by
  cases kind <;> simp [runInplace, running, Multiset.singleton_add]

theorem waiting_of_frames {t : State} (sends : t.sends = s.sends) (recvs : t.recvs = s.recvs)
    (shared : t.shared.queue = s.shared.queue) {gone : Multiset Nat}
    (frames : total (Frame.unvisited s.readyQueues) s.stack =
      gone + total (Frame.unvisited s.readyQueues) t.stack) : s.waiting = gone + t.waiting := by
  have queues : t.readyQueues = s.readyQueues := by
    funext side
    cases side
    · exact congrArg RequestQueue.readyQueue sends
    · exact congrArg RequestQueue.readyQueue recvs
  simp only [waiting, queued, unvisited, sends, recvs, shared, queues, frames]
  abel

theorem waiting_plain {t : State} (sends : t.sends = s.sends) (recvs : t.recvs = s.recvs)
    (shared : t.shared.queue = s.shared.queue)
    (frames : total (Frame.unvisited s.readyQueues) t.stack =
      total (Frame.unvisited s.readyQueues) s.stack) : t.waiting = s.waiting := by
  have same : s.waiting = 0 + t.waiting := by
    refine waiting_of_frames sends recvs shared ?_
    rw [frames, zero_add]
  rw [same, zero_add]

theorem waiting_of_queues {t : State} (stack : t.stack = s.stack)
    (ready : ∀ side, (t.reqs side).readyQueue = (s.reqs side).readyQueue) {gone : Multiset Nat}
    (queues : s.queued = gone + t.queued) : s.waiting = gone + t.waiting := by
  have same : t.readyQueues = s.readyQueues := funext ready
  simp only [waiting, unvisited, stack, same, queues]
  abel

/-- The queues of a side and its loops may be changed as long as the side's requests
stay in one or the other. -/
theorem waiting_of_side {t : State} (side : Side) (rest : List Frame) (before after : Multiset Nat)
    (shared : t.shared = s.shared)
    (others : ∀ other, other ≠ side → t.reqs other = s.reqs other)
    (idle : ∀ frame ∈ rest, frame.side ≠ some side)
    (framesBefore : total (Frame.unvisited s.readyQueues) s.stack =
      before + total (Frame.unvisited s.readyQueues) rest)
    (framesAfter : total (Frame.unvisited t.readyQueues) t.stack =
      after + total (Frame.unvisited t.readyQueues) rest)
    (kept : ((t.reqs side).queue : Multiset Nat) + after = (s.reqs side).queue + before) :
    t.waiting = s.waiting := by
  have rests : total (Frame.unvisited t.readyQueues) rest =
      total (Frame.unvisited s.readyQueues) rest := by
    refine total_unvisited_congr fun frame member other found => ?_
    have different : other ≠ side := fun same => idle frame member (same ▸ found)
    exact congrArg RequestQueue.readyQueue (others other different)
  unfold waiting queued unvisited
  rw [framesBefore, framesAfter, rests, shared]
  cases side with
  | sends =>
    have same : t.recvs = s.recvs := others .recvs (by decide)
    have kept : (t.sends.queue : Multiset Nat) + after = s.sends.queue + before := kept
    rw [same]
    calc
      _ = (t.sends.queue + after) + s.recvs.queue + s.shared.queue +
          total (Frame.unvisited s.readyQueues) rest := by abel
      _ = _ := by rw [kept]; abel
  | recvs =>
    have same : t.sends = s.sends := others .sends (by decide)
    have kept : (t.recvs.queue : Multiset Nat) + after = s.recvs.queue + before := kept
    rw [same]
    calc
      _ = (t.recvs.queue + after) + s.sends.queue + s.shared.queue +
          total (Frame.unvisited s.readyQueues) rest := by abel
      _ = _ := by rw [kept]; abel

variable {side : Side} {position finish e : Nat} {rest : List Frame}

theorem drop_of_next {queue : List Nat} (next : queue[position]? = some e) :
    queue.drop position = e :: queue.drop (position + 1) := by
  obtain ⟨inside, found⟩ := List.getElem?_eq_some_iff.mp next
  rw [← found]
  exact List.drop_eq_getElem_cons inside

theorem unvisited_next (stack : s.stack = .ready side position finish none :: rest)
    (next : (s.reqs side).readyQueue[position]? = some e) : e ∈ s.unvisited := by
  refine mem_total.mpr ⟨.ready side position finish none, by simp [stack], ?_⟩
  have drop : (s.readyQueues side).drop position = _ := drop_of_next next
  rw [Frame.unvisited, drop]
  exact List.mem_cons_self

theorem waiting_visit (stack : s.stack = .ready side position finish none :: rest)
    (next : (s.reqs side).readyQueue[position]? = some e) :
    s.waiting = e ::ₘ (s.startReady side position finish e rest).waiting := by
  have drop : (s.readyQueues side).drop position =
      e :: (s.readyQueues side).drop (position + 1) := drop_of_next next
  rw [← Multiset.singleton_add]
  refine waiting_of_frames (by rfl) (by rfl) (by rfl) ?_
  simp only [startReady, stack, total_cons, Frame.unvisited, drop, ← Multiset.cons_coe,
    ← Multiset.singleton_add, add_assoc]

theorem running_visit (stack : s.stack = .ready side position finish none :: rest) :
    (s.startReady side position finish e rest).running = e ::ₘ s.running := by
  simp [running, startReady, stack]

theorem waiting_loopEnd (stack : s.stack = .ready side position finish none :: rest)
    (loops : s.Loops) (done : ¬ position < finish) :
    ({ s.setReqs side { s.reqs side with inProgress := false } with
      stack := rest } : State).waiting = s.waiting := by
  have looping := loops.intact side position finish none (by rw [stack]; exact List.mem_cons_self)
  have idle := loops.idle_rest stack
  have visited : (s.readyQueues side).drop position = [] := by
    apply List.drop_of_length_le
    have bound := looping.bound
    simp only [readyQueues]
    omega
  refine waiting_of_side side rest 0 0 (by simp) (fun other different => ?_) idle ?_ ?_ ?_
  · cases side <;> cases other <;> first | contradiction | rfl
  · simp [stack, visited]
  · simp
  · cases side <;> rfl

theorem waiting_returnReady (stack : s.stack = .ready side position finish (some e) :: rest) :
    ({ s.finishCb e with
      stack := .ready side (position + 1) finish none :: rest } : State).waiting = s.waiting := by
  exact waiting_plain (by rfl) (by rfl) (by rfl) (by simp [stack])

theorem running_returnReady (stack : s.stack = .ready side position finish (some e) :: rest) :
    s.running = e ::ₘ ({ s.finishCb e with
      stack := .ready side (position + 1) finish none :: rest } : State).running := by
  simp [running, stack]

theorem waiting_clearReady {stage : Stage} {flag : Bool} (kept : List Frame)
    (stack : s.stack = .progress stage :: rest) (loops : s.Loops)
    (free : (s.reqs side).inProgress = false)
    (same : ∀ ready, total (Frame.unvisited ready) (kept ++ rest) =
      total (Frame.unvisited ready) rest) :
    ({ s.setReqs side { s.reqs side with readyQueue := [], inProgress := flag } with
      stack := kept ++ rest } : State).waiting = s.waiting := by
  have idle : ∀ frame ∈ rest, frame.side ≠ some side := fun frame member =>
    loops.idle free frame (by rw [stack]; exact List.mem_cons_of_mem _ member)
  refine waiting_of_side side rest 0 0 (by simp) (fun other different => ?_) idle ?_ ?_ ?_
  · cases side <;> cases other <;> first | contradiction | rfl
  · simp [stack]
  · simp [same]
  · cases side <;> rfl

theorem waiting_enterLoop {stage : Stage} (positions : List Nat) (next : Stage)
    (stack : s.stack = .progress stage :: rest) (loops : s.Loops)
    (free : (s.reqs side).inProgress = false) :
    (s.enterLoop side positions next rest).waiting = s.waiting := by
  have idle : ∀ frame ∈ rest, frame.side ≠ some side := fun frame member =>
    loops.idle free frame (by rw [stack]; exact List.mem_cons_of_mem _ member)
  obtain ⟨queue, ready⟩ := compact_split s.heap (s.reqs side).queue positions
  refine waiting_of_side side rest 0 (split positions 0 (s.reqs side).queue).2 ?_
    (fun other different => ?_) idle ?_ ?_ ?_
  · cases side <;> rfl
  · cases side <;> cases other <;> first | contradiction | rfl
  · simp [stack]
  · simp only [enterLoop, total_cons, Frame.unvisited, List.drop_zero, zero_add]
    congr 2
    rw [← ready]
    cases side <;> rfl
  · rw [add_zero, ← split_add positions 0 (s.reqs side).queue]
    congr 2
    rw [← queue]
    cases side <;> rfl

theorem waiting_startShared {stage : Stage} (stack : s.stack = .progress stage :: rest)
    (popped : s.shared.queue[position]? = some e) :
    s.waiting = e ::ₘ (s.startShared position e rest).waiting := by
  have parts : s.shared.queue =
      s.shared.queue.take position ++ e :: s.shared.queue.drop (position + 1) := by
    rw [← drop_of_next popped, List.take_append_drop]
  have queue : (s.shared.queue : Multiset Nat) = e ::ₘ
      (s.shared.queue.drop (position + 1) ++ s.shared.queue.take position : List Nat) := by
    rw [Multiset.cons_coe, Multiset.coe_eq_coe]
    nth_rewrite 1 [parts]
    exact List.perm_middle.trans (List.Perm.cons e List.perm_append_comm)
  have frames : s.unvisited = total (Frame.unvisited s.readyQueues) rest := by
    simp [unvisited, stack]
  have framesAfter : (s.startShared position e rest).unvisited =
      total (Frame.unvisited s.readyQueues) rest := by
    simp only [unvisited, startShared, total_cons, Frame.unvisited, zero_add]
    rfl
  unfold waiting queued
  rw [frames, framesAfter, queue]
  simp only [Multiset.add_cons, Multiset.cons_add]
  rfl

theorem running_startShared {stage : Stage} (stack : s.stack = .progress stage :: rest) :
    (s.startShared position e rest).running = e ::ₘ s.running := by
  simp [running, startShared, stack]

private theorem coe_swap {queue : List Nat} {index x back : Nat}
    (found : queue[index]? = some x) (last : queue.getLast? = some back)
    (inner : index + 1 < queue.length) :
    (queue : Multiset Nat) = x ::ₘ ((queue.set index back).dropLast : List Nat) := by
  obtain ⟨front, whole⟩ := List.getLast?_eq_some_iff.mp last
  subst queue
  have inside : index < front.length := by simpa using inner
  rw [List.getElem?_append_left inside] at found
  have parts : front = front.take index ++ x :: front.drop (index + 1) := by
    rw [← drop_of_next found, List.take_append_drop]
  rw [List.set_append_left _ _ inside, List.dropLast_concat, Multiset.cons_coe, Multiset.coe_eq_coe,
    List.set_eq_take_append_cons_drop, if_pos inside]
  have expose : front.Perm (x :: (front.take index ++ front.drop (index + 1))) := by
    nth_rewrite 1 [parts]
    exact List.perm_middle
  calc
    (front ++ [back]).Perm (back :: front) := List.perm_append_singleton back front
    _ |>.Perm (back :: x :: (front.take index ++ front.drop (index + 1))) := expose.cons back
    _ |>.Perm (x :: back :: (front.take index ++ front.drop (index + 1))) := .swap _ _ _
    _ |>.Perm (x :: (front.take index ++ back :: front.drop (index + 1))) :=
        .cons x List.perm_middle.symm

private theorem coe_dropLast {queue : List Nat} {index x : Nat}
    (found : queue[index]? = some x) (final : ¬ index + 1 < queue.length) :
    (queue : Multiset Nat) = x ::ₘ (queue.dropLast : List Nat) := by
  obtain ⟨inside, here⟩ := List.getElem?_eq_some_iff.mp found
  have nonempty : queue ≠ [] := by
    rintro rfl
    simp at inside
  have last : queue.getLast nonempty = x := by
    rw [List.getLast_eq_getElem, ← here]
    congr 1
    omega
  rw [Multiset.cons_coe, Multiset.coe_eq_coe]
  nth_rewrite 1 [← List.dropLast_concat_getLast nonempty]
  rw [last]
  exact List.perm_append_singleton x _

private theorem indexed_swap {heap : Heap} {queue : List Nat} {index back : Nat}
    (distinct : queue.Nodup) (indexed : Indexed heap queue)
    (last : queue.getLast? = some back) :
    Indexed (heap.setIndex back index) (queue.set index back).dropLast := by
  intro i e found
  rw [List.getElem?_dropLast] at found
  split at found
  · rename_i inner
    rw [List.length_set] at inner
    by_cases same : index = i
    · subst i
      rw [List.getElem?_set_self (by omega)] at found
      cases found
      simp [Heap.setIndex]
    · rw [List.getElem?_set_ne same] at found
      have different : e ≠ back := by
        rintro rfl
        rw [List.getLast?_eq_getElem?] at last
        have positions := (List.getElem?_inj (by omega) distinct).mp (found.trans last.symm)
        omega
      rw [Heap.setIndex_of_ne _ different]
      exact indexed i e found
  · cases found

private theorem indexed_dropLast {heap : Heap} {queue : List Nat} (indexed : Indexed heap queue) :
    Indexed heap queue.dropLast := by
  intro i e found
  rw [List.getElem?_dropLast] at found
  split at found
  · exact indexed i e found
  · cases found

/-- `removeRecv` takes exactly the request at the index out of the queue; of the others
it changes the `m_index` of at most one, and leaves each with its position. -/
theorem removeRecv_spec {index x : Nat} (found : s.recvs.queue[index]? = some x) :
    ∃ heap queue, s.removeRecv index = { s with heap, recvs := { s.recvs with queue } } ∧
      (s.recvs.queue : Multiset Nat) = x ::ₘ queue ∧ OnlyIndices s.heap heap ∧
      (s.recvs.queue.Nodup → Indexed s.heap s.recvs.queue → Indexed heap queue) ∧
      ∀ e, e ∉ s.recvs.queue → heap e = s.heap e := by
  unfold removeRecv
  cases last : s.recvs.queue.getLast? with
  | none =>
    rw [List.getLast?_eq_none_iff] at last
    simp [last] at found
  | some back =>
    by_cases inner : index + 1 < s.recvs.queue.length
    · simp only [last, inner, if_true]
      refine ⟨_, _, rfl, coe_swap found last inner, OnlyIndices.setIndex _ _ _,
        fun distinct indexed => indexed_swap distinct indexed last, fun e absent => ?_⟩
      apply Heap.setIndex_of_ne
      rintro rfl
      exact absent (List.mem_of_getLast? last)
    · simp only [last, inner, if_false]
      exact ⟨_, _, rfl, coe_dropLast found inner, OnlyIndices.refl _,
        fun _ indexed => indexed_dropLast indexed, fun _ _ => rfl⟩

theorem withdrawRecv_spec {x : Nat} (op : Nat)
    (found : s.recvs.queue[(s.heap e).index]? = some x) :
    ∃ heap queue, s.withdrawRecv e x op =
        { ((s.cancelHandle x op true).releaseSelfRef e).setCanceled e with
          heap, recvs := { s.recvs with queue } } ∧
      (s.recvs.queue : Multiset Nat) = x ::ₘ queue ∧
      OnlyIndices (((s.cancelHandle x op true).releaseSelfRef e).setCanceled e).heap heap ∧
      (s.recvs.queue.Nodup →
        Indexed (((s.cancelHandle x op true).releaseSelfRef e).setCanceled e).heap
          s.recvs.queue → Indexed heap queue) ∧
      ∀ y, y ∉ s.recvs.queue →
        heap y = (((s.cancelHandle x op true).releaseSelfRef e).setCanceled e).heap y :=
  removeRecv_spec (s := ((s.cancelHandle x op true).releaseSelfRef e).setCanceled e) found

theorem waiting_withdrawRecv {x : Nat} (op : Nat)
    (found : s.recvs.queue[(s.heap e).index]? = some x) :
    s.waiting = x ::ₘ (s.withdrawRecv e x op).waiting := by
  obtain ⟨heap, queue, equal, whole, -⟩ := withdrawRecv_spec op found
  rw [equal, ← Multiset.singleton_add]
  refine waiting_of_queues (by rfl) (fun side => by cases side <;> rfl) ?_
  rw [queued, whole, Multiset.singleton_add, Multiset.add_cons, Multiset.cons_add]
  rfl

theorem running_withdrawRecv {x : Nat} (op : Nat)
    (found : s.recvs.queue[(s.heap e).index]? = some x) :
    (s.withdrawRecv e x op).running = s.running := by
  obtain ⟨heap, queue, equal, -⟩ := withdrawRecv_spec op found
  rw [equal]
  rfl

theorem waiting_withdrawShared (op : Nat) (member : e ∈ s.shared.queue) :
    s.waiting = e ::ₘ (s.withdrawShared e op).waiting := by
  have whole : (s.shared.queue : Multiset Nat) = e ::ₘ (s.shared.queue.erase e : List Nat) := by
    rw [Multiset.cons_coe, Multiset.coe_eq_coe]
    exact List.perm_cons_erase member
  rw [← Multiset.singleton_add]
  refine waiting_of_queues (by rfl) (fun side => by cases side <;> rfl) ?_
  rw [queued, whole, Multiset.singleton_add, Multiset.add_cons]
  rfl

/-- An exception out of `consume_all` drops what was popped before it. -/
theorem waiting_dropShared (count : Nat) :
    State.waiting { s with shared := { s.shared with queue := s.shared.queue.drop count } } ≤
      s.waiting := by
  have whole : (s.shared.queue : Multiset Nat) =
      (s.shared.queue.take count : List Nat) + (s.shared.queue.drop count : List Nat) := by
    rw [Multiset.coe_add, List.take_append_drop]
  have parts : s.waiting = (s.shared.queue.take count : List Nat) + State.waiting { s with
      shared := { s.shared with queue := s.shared.queue.drop count } } := by
    refine waiting_of_queues (by rfl) (fun side => by cases side <;> rfl) ?_
    rw [queued, whole, add_left_comm]
    rfl
  rw [parts]
  exact Multiset.le_add_left _ _

end State

end Oomph.Mpi
