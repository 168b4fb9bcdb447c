import Oomph.Libfabric.Effects
import Oomph.Ledger

namespace Oomph.Libfabric

open Machine

namespace Frame

/-- The operations a frame has in hand and has not called. -/
def waiting : Frame → Multiset Nat
  | .invoke op _ => {op}
  | .park op _ => {op}
  | .dispatch _ _ entries => entries
  | .call _ (.post op) => {op}
  | _ => 0

def running : Frame → Multiset Nat
  | .callback op _ => {op}
  | _ => 0

end Frame

def CommunicatorImpl.waiting (c : CommunicatorImpl) : Multiset Nat :=
  c.sendCbQueue + c.recvCbQueue + c.recvCbCancel

namespace CommunicatorImpl

theorem waiting_pushSend (op : Nat) (c : CommunicatorImpl) :
    (c.pushSend op).waiting = {op} + c.waiting := by
  simp only [waiting, pushSend, ← Multiset.coe_add, Multiset.coe_singleton]
  abel

theorem waiting_pushRecv (op : Nat) (c : CommunicatorImpl) :
    (c.pushRecv op).waiting = {op} + c.waiting := by
  simp only [waiting, pushRecv, ← Multiset.coe_add, Multiset.coe_singleton]
  abel

theorem waiting_pushCancel (op : Nat) (c : CommunicatorImpl) :
    (c.pushCancel op).waiting = {op} + c.waiting := by
  simp only [waiting, pushCancel, ← Multiset.coe_add, Multiset.coe_singleton]
  abel

end CommunicatorImpl

namespace State

/-- The operations that no thread has in hand. -/
def stored (s : State) : Multiset Nat :=
  (s.tx + s.rx : Multiset Nat) + total CommunicatorImpl.waiting s.comms +
    (s.recvCbQueue + s.recvCbCancel)

def waiting (s : State) : Multiset Nat :=
  s.stored + total (total Frame.waiting) s.threads

def running (s : State) : Multiset Nat :=
  total (total Frame.running) s.threads

def books (s : State) : Books Post Counter where
  attrs := s.posts
  waiting := s.waiting
  running := s.running
  called := Event.calledOps s.history
  returned := Event.returnedOps s.history
  withdrawn := Event.canceledOps s.history
  outstanding := s.scheduled

def ledger (s : State) : Ledger Frame :=
  ⟨s.posts, s.threads, s.stored, s.history, s.scheduled⟩

theorem books_eq (s : State) : s.books = s.ledger.books Frame.waiting Frame.running := rfl

end State

attribute [simp] Frame.waiting Frame.running

variable {config : Config} {s t : State} {thread : Nat} {stack moved rest : List Frame}

namespace State

theorem stored_modifyComm {comm : Nat} {c : CommunicatorImpl} (found : s.comms[comm]? = some c)
    (change : CommunicatorImpl → CommunicatorImpl) (before after : Multiset Nat)
    (moves : after + c.waiting = before + (change c).waiting) :
    after + s.stored = before + (s.modifyComm comm change).stored := by
  obtain ⟨others, whole, changed⟩ := total_modify CommunicatorImpl.waiting found change
  simp only [stored, modifyComm_tx, modifyComm_rx, modifyComm_comms, modifyComm_recvCbQueue,
    modifyComm_recvCbCancel, whole, changed]
  calc after + (↑s.tx + ↑s.rx + (c.waiting + others) + (↑s.recvCbQueue + ↑s.recvCbCancel))
      = (after + c.waiting) + (↑s.tx + ↑s.rx + others + (↑s.recvCbQueue + ↑s.recvCbCancel)) := by
        abel
    _ = before + (↑s.tx + ↑s.rx + ((change c).waiting + others) +
          (↑s.recvCbQueue + ↑s.recvCbCancel)) := by rw [moves]; abel

theorem stored_modifyComm_same (comm : Nat) {change : CommunicatorImpl → CommunicatorImpl}
    (same : ∀ c, (change c).waiting = c.waiting) :
    (s.modifyComm comm change).stored = s.stored := by
  simp only [stored, modifyComm_tx, modifyComm_rx, modifyComm_comms, modifyComm_recvCbQueue,
    modifyComm_recvCbCancel, total_modify_same _ _ _ same]

theorem stored_incRecursion (via : Via) : (s.incRecursion via).stored = s.stored := by
  cases via with
  | inject comm => exact stored_modifyComm_same comm fun _ => rfl
  | inplace comm => exact stored_modifyComm_same comm fun _ => rfl
  | context => rfl
  | queue user => rfl

theorem stored_decRecursion (via : Via) : (s.decRecursion via).stored = s.stored := by
  cases via with
  | inject comm => exact stored_modifyComm_same comm fun _ => rfl
  | inplace comm => exact stored_modifyComm_same comm fun _ => rfl
  | context => rfl
  | queue user => rfl

theorem stored_getCommunicator : (s.getCommunicator thread).stored = s.stored := by
  simp [stored, CommunicatorImpl.waiting]

theorem stored_give (op : Nat) (kind : Kind) : (s.give op kind).stored = {op} + s.stored := by
  unfold give
  cases Side.ofKind kind with
  | sends =>
    simp only [stored, ← Multiset.coe_add, Multiset.coe_singleton]
    abel
  | recvs =>
    simp only [stored, ← Multiset.coe_add, Multiset.coe_singleton]
    abel

private theorem coe_diff {posted ops : List Nat} (within : (ops : Multiset Nat) ≤ posted) :
    (posted : Multiset Nat) = ops + (posted.diff ops : List Nat) := by
  rw [← Multiset.coe_sub, add_tsub_cancel_of_le within]

theorem stored_take {side : Side} {ops : List Nat} (within : (ops : Multiset Nat) ≤ s.posted side) :
    s.stored = ops + (s.take side ops).stored := by
  cases side with
  | sends =>
    simp only [stored, take]
    rw [coe_diff (show (ops : Multiset Nat) ≤ s.tx from within)]
    abel
  | recvs =>
    simp only [stored, take]
    rw [coe_diff (show (ops : Multiset Nat) ≤ s.rx from within)]
    abel

theorem comm_of_isAlive {comm : Nat} (alive : s.isAlive comm = true) :
    ∃ c, s.comms[comm]? = some c ∧ c.alive = true := by
  unfold isAlive at alive
  split at alive
  · exact ⟨_, ‹_›, alive⟩
  · cases alive

private theorem stored_push {comm op : Nat} {c : CommunicatorImpl}
    (found : s.comms[comm]? = some c) {change : CommunicatorImpl → CommunicatorImpl}
    (pushed : (change c).waiting = {op} + c.waiting) :
    (s.modifyComm comm change).stored = {op} + s.stored := by
  have moved := stored_modifyComm found change 0 {op} (by rw [pushed, zero_add])
  rw [moved, zero_add]

private theorem stored_pop {comm op : Nat} {c : CommunicatorImpl}
    (found : s.comms[comm]? = some c) {change : CommunicatorImpl → CommunicatorImpl}
    (popped : c.waiting = {op} + (change c).waiting) :
    s.stored = {op} + (s.modifyComm comm change).stored := by
  have moved := stored_modifyComm found change {op} 0 (by rw [popped, zero_add])
  rw [← moved, zero_add]

theorem stored_queueInject {comm : Nat} {c : CommunicatorImpl} (dst : RankType) (tag : TagType)
    (found : s.comms[comm]? = some c) :
    (s.queueInject thread comm dst tag rest).stored = {s.posts.length} + s.stored :=
  stored_push (s := s.create comm .send dst tag) found (c.waiting_pushSend _)

theorem stored_pushCb {post : Post} (side : Side) (op : Nat)
    (alive : s.isAlive post.comm = true) :
    (s.pushCb post side op).stored = {op} + s.stored := by
  obtain ⟨c, found, _⟩ := comm_of_isAlive alive
  unfold pushCb
  split
  · simp only [stored, ← Multiset.coe_add, Multiset.coe_singleton]
    abel
  · exact stored_push found (c.waiting_pushSend op)
  · exact stored_push found (c.waiting_pushRecv op)

theorem stored_pushCancel {user : Option Nat} (op : Nat)
    (found : ∀ comm, user = some comm → ∃ c, s.comms[comm]? = some c) :
    (s.pushCancel user op).stored = {op} + s.stored := by
  cases user with
  | none =>
    simp only [stored, pushCancel, ← Multiset.coe_add, Multiset.coe_singleton]
    abel
  | some comm =>
    obtain ⟨c, found⟩ := found comm rfl
    exact stored_push found (c.waiting_pushCancel op)

theorem stored_handleCancelled {op : Nat} {post : Post} (received : op ∈ s.rx)
    (found : ∀ comm, userOf post = some comm → ∃ c, s.comms[comm]? = some c) :
    (s.handleCancelled op post).stored = s.stored := by
  refine (stored_pushCancel (s := s.takeCanceled op) op found).trans ?_
  have whole : (s.rx : Multiset Nat) = {op} + (s.rx.erase op : List Nat) := by
    rw [Multiset.singleton_add, ← Multiset.coe_erase, Multiset.cons_erase received]
  simp only [stored, takeCanceled, whole]
  abel

theorem stored_setCbQueue {comm op : Nat} {stage : Drain} {queue : List Nat}
    (waits : s.cbQueue comm stage = op :: queue) :
    s.stored = {op} + (s.setCbQueue comm stage queue).stored := by
  cases stage with
  | shared =>
    have whole : s.recvCbQueue = op :: queue := waits
    simp only [stored, setCbQueue, whole, ← Multiset.cons_coe, ← Multiset.singleton_add]
    abel
  | sends =>
    cases found : s.comms[comm]? with
    | none => simp [cbQueue, found] at waits
    | some c =>
      have whole : c.sendCbQueue = op :: queue := by simpa [cbQueue, found] using waits
      apply stored_pop found
      simp only [CommunicatorImpl.waiting, whole, ← Multiset.cons_coe, ← Multiset.singleton_add]
      abel
  | recvs =>
    cases found : s.comms[comm]? with
    | none => simp [cbQueue, found] at waits
    | some c =>
      have whole : c.recvCbQueue = op :: queue := by simpa [cbQueue, found] using waits
      apply stored_pop found
      simp only [CommunicatorImpl.waiting, whole, ← Multiset.cons_coe, ← Multiset.singleton_add]
      abel

end State

theorem popUntil_found (op : Nat) (queue temp : List Nat) :
    (popUntil op queue temp).1 = true ↔ op ∈ queue := by
  induction queue generalizing temp with
  | nil => simp [popUntil]
  | cons next queue ih =>
    by_cases same : next = op
    · simp [popUntil, same]
    · simp [popUntil, same, ih, Ne.symm same]

theorem popUntil_rest (op : Nat) (queue temp : List Nat) :
    (queue + temp : Multiset Nat) =
      (if (popUntil op queue temp).1 then {op} else 0) + ((popUntil op queue temp).2 : List Nat) := by
  induction queue generalizing temp with
  | nil => simp [popUntil]
  | cons next queue ih =>
    by_cases same : next = op
    · simp [popUntil, same]
    · rw [popUntil, if_neg same, ← ih, ← Multiset.cons_coe, ← Multiset.cons_coe,
        Multiset.cons_add, Multiset.add_cons]

theorem State.stored_setCancelQueue (user : Option Nat) (before after : Multiset Nat)
    {queue : List Nat}
    (moves : after + (s.cancelQueue user : Multiset Nat) = before + (queue : Multiset Nat))
    (found : ∀ comm, user = some comm → ∃ c, s.comms[comm]? = some c) :
    after + s.stored = before + (s.setCancelQueue user queue).stored := by
  cases user with
  | none =>
    simp only [State.stored, State.setCancelQueue]
    have moves : after + (s.recvCbCancel : Multiset Nat) = before + (queue : Multiset Nat) := moves
    calc after + (↑s.tx + ↑s.rx + total CommunicatorImpl.waiting s.comms +
          (↑s.recvCbQueue + ↑s.recvCbCancel))
        = (after + ↑s.recvCbCancel) + (↑s.tx + ↑s.rx +
            total CommunicatorImpl.waiting s.comms + ↑s.recvCbQueue) := by abel
      _ = _ := by rw [moves]; abel
  | some comm =>
    obtain ⟨c, found⟩ := found comm rfl
    have moves : after + (c.recvCbCancel : Multiset Nat) = before + (queue : Multiset Nat) := by
      simpa [State.cancelQueue, found] using moves
    apply State.stored_modifyComm found
    simp only [CommunicatorImpl.waiting]
    calc after + (↑c.sendCbQueue + ↑c.recvCbQueue + ↑c.recvCbCancel)
        = (after + ↑c.recvCbCancel) + (↑c.sendCbQueue + ↑c.recvCbQueue) := by abel
      _ = _ := by rw [moves]; abel

end Oomph.Libfabric
