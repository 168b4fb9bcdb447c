import Oomph.Libfabric.Delivery

namespace Oomph.Libfabric

open Machine State

/-! `fi_cancel` only asks the fabric to cancel; the receive still gets one event, which
says that it was cancelled or that it had completed.  `cancel_recv` polls until it finds
the receive among the cancelled ones.
-/

variable {config : Config} {s t : State} {thread : Nat} {stack moved rest : List Frame}
  {act : Act} {frame : Frame} {op comm : Nat} {user : Option Nat}

namespace State

theorem take_terminal (side : Side) (ops : List Nat) (op : Nat) :
    (s.take side ops).terminal op = if op ∈ ops then some .completed else s.terminal op := by
  cases side <;> rfl

/-- A call has made the request state and not yet given it to the fabric. -/
def Posting (s : State) (op : Nat) : Prop :=
  ∃ stack ∈ s.threads, ∃ user, Frame.call user (.post op) ∈ stack

theorem cancelQueue_modifyComm {changed : Nat} {change : CommunicatorImpl → CommunicatorImpl}
    (same : ∀ c, (change c).recvCbCancel = c.recvCbCancel) (user : Option Nat) :
    (s.modifyComm changed change).cancelQueue user = s.cancelQueue user := by
  cases user with
  | none => rfl
  | some comm =>
    simp only [cancelQueue, modifyComm_comms, List.getElem?_modify]
    cases s.comms[comm]? with
    | none => rfl
    | some c =>
      by_cases here : changed = comm
      · simp [here, same]
      · simp [here]

theorem cancelQueue_incRecursion (via : Via) (user : Option Nat) :
    (s.incRecursion via).cancelQueue user = s.cancelQueue user := by
  cases via with
  | inject => exact cancelQueue_modifyComm (fun _ => by rfl) user
  | inplace => exact cancelQueue_modifyComm (fun _ => by rfl) user
  | context => cases user <;> rfl
  | queue => rfl

theorem cancelQueue_decRecursion (via : Via) (user : Option Nat) :
    (s.decRecursion via).cancelQueue user = s.cancelQueue user := by
  cases via with
  | inject => exact cancelQueue_modifyComm (fun _ => by rfl) user
  | inplace => exact cancelQueue_modifyComm (fun _ => by rfl) user
  | context => cases user <;> rfl
  | queue => rfl

theorem cancelQueue_getCommunicator (user : Option Nat) :
    (s.getCommunicator thread).cancelQueue user = s.cancelQueue user := by
  cases user with
  | none => rfl
  | some comm =>
    simp only [cancelQueue, getCommunicator_comms, List.getElem?_append]
    split
    · rfl
    · rename_i outside
      rw [List.getElem?_eq_none (Nat.le_of_not_lt outside)]
      cases comm - s.comms.length with
      | zero => rfl
      | succ => rfl

theorem cancelQueue_pushCb (post : Post) (side : Side) (op : Nat) (user : Option Nat) :
    (s.pushCb post side op).cancelQueue user = s.cancelQueue user := by
  unfold pushCb
  split
  · cases user <;> rfl
  · exact cancelQueue_modifyComm (fun _ => by rfl) user
  · exact cancelQueue_modifyComm (fun _ => by rfl) user

theorem cancelQueue_setCbQueue (comm : Nat) (stage : Drain) (queue : List Nat)
    (user : Option Nat) : (s.setCbQueue comm stage queue).cancelQueue user = s.cancelQueue user := by
  cases stage with
  | shared => cases user <;> rfl
  | sends => exact cancelQueue_modifyComm (fun _ => by rfl) user
  | recvs => exact cancelQueue_modifyComm (fun _ => by rfl) user

theorem cancelQueue_setCancelQueue_of_ne {changed : Option Nat} (queue : List Nat)
    (different : user ≠ changed) :
    (s.setCancelQueue changed queue).cancelQueue user = s.cancelQueue user := by
  cases changed with
  | none =>
    cases user with
    | none => exact absurd rfl different
    | some comm => rfl
  | some changed =>
    cases user with
    | none => rfl
    | some comm =>
      have other : changed ≠ comm := fun same => different (congrArg some same.symm)
      simp [cancelQueue, setCancelQueue, other]

theorem mem_of_setCancelQueue {queue : List Nat}
    (member : op ∈ (s.setCancelQueue user queue).cancelQueue user) : op ∈ queue := by
  cases user with
  | none => exact member
  | some comm =>
    cases found : s.comms[comm]? with
    | none => simp [cancelQueue, setCancelQueue, found] at member
    | some c => simpa [cancelQueue, setCancelQueue, found] using member

theorem cancelQueue_setCancelQueue (queue : List Nat) (member : op ∈ s.cancelQueue user) :
    (s.setCancelQueue user queue).cancelQueue user = queue := by
  cases user with
  | none => rfl
  | some comm =>
    cases found : s.comms[comm]? with
    | none => simp [cancelQueue, found] at member
    | some c => simp [cancelQueue, setCancelQueue, found]

theorem cancelQueue_pushCancel (other : Option Nat) (op : Nat)
    (exists_ : ∀ comm, user = some comm → ∃ c, s.comms[comm]? = some c) :
    (s.pushCancel user op).cancelQueue other =
      if other = user then s.cancelQueue other ++ [op] else s.cancelQueue other := by
  cases user with
  | none => cases other <;> rfl
  | some comm =>
    obtain ⟨c, found⟩ := exists_ comm rfl
    cases other with
    | none => rfl
    | some other =>
      by_cases here : other = comm
      · subst here
        simp [cancelQueue, pushCancel, found, CommunicatorImpl.pushCancel]
      · have different : comm ≠ other := fun same => here same.symm
        simp [cancelQueue, pushCancel, here, different]

end State

inductive Report (s t : State) : Prop
  | quiet : t.terminal = s.terminal →
      (∀ op, op ∈ t.tx ∨ op ∈ t.rx → op ∈ s.tx ∨ op ∈ s.rx ∨ s.Posting op) →
      (∀ user, ∀ op ∈ t.cancelQueue user, op ∈ s.cancelQueue user) →
      (∀ user, ∀ op ∈ s.cancelQueue user,
        op ∈ t.cancelQueue user ∨ op ∈ Event.canceledOps t.history) → Report s t
  | completed (side : Side) (ops : List Nat) : (ops : Multiset Nat) ≤ s.posted side →
      t.tx = (s.take side ops).tx → t.rx = (s.take side ops).rx →
      t.terminal = (s.take side ops).terminal →
      (∀ user, t.cancelQueue user = s.cancelQueue user) → Report s t
  | canceled (op : Nat) (post : Post) : op ∈ s.rx → s.posts[op]? = some post →
      t.tx = s.tx → t.rx = s.rx.erase op →
      t.terminal = Function.update s.terminal op (some .canceled) →
      (∀ user, t.cancelQueue user =
        if user = userOf post then s.cancelQueue user ++ [op] else s.cancelQueue user) →
      Report s t

private theorem Report.same (tx : t.tx = s.tx) (rx : t.rx = s.rx) (terminal : t.terminal = s.terminal)
    (queues : ∀ user, t.cancelQueue user = s.cancelQueue user) : Report s t := by
  refine .quiet terminal (fun op member => ?_) (fun user op member => ?_) fun user op member => ?_
  · rw [tx, rx] at member
    exact member.imp_right .inl
  · rwa [queues] at member
  · exact .inl (by rwa [queues])

private theorem report_withdraw (settled : s.Settled) {queue : List Nat}
    (found : s.threads[thread]? = some (.call user (.scan op) :: rest))
    (scanned : popUntil op (s.cancelQueue user) [] = (true, queue)) :
    Report s (s.withdraw thread user op queue rest) := by
  have member : op ∈ s.cancelQueue user := by rw [← popUntil_found op _ [], scanned]
  have left := popUntil_rest op (s.cancelQueue user) []
  simp only [scanned, Multiset.coe_nil, add_zero, if_true] at left
  have cb := (settled.request (settled.head found).made).1
  have withdrawn : op ∈ Event.canceledOps (s.withdraw thread user op queue rest).history := by
    have heap : (s.setCancelQueue user queue).heap = s.heap := by cases user <;> rfl
    simp [State.withdraw, heap, cb]
  have queues : ∀ other, (s.withdraw thread user op queue rest).cancelQueue other =
      (s.setCancelQueue user queue).cancelQueue other := by
    intro other
    cases other <;> rfl
  refine .quiet ?_ (fun other posted => ?_) (fun other next inside => ?_) fun other next inside => ?_
  · cases user <;> rfl
  · exact (show other ∈ s.tx ∨ other ∈ s.rx by cases user <;> exact posted).imp_right .inl
  · rw [queues] at inside
    by_cases same : other = user
    · subst same
      exact mem_of_popUntil scanned (mem_of_setCancelQueue inside)
    · rwa [cancelQueue_setCancelQueue_of_ne queue same] at inside
  · rw [queues]
    by_cases same : other = user
    · subst same
      rw [cancelQueue_setCancelQueue queue member]
      rw [← Multiset.mem_coe, left, Multiset.singleton_add, Multiset.mem_cons] at inside
      rcases inside with rfl | later
      · exact .inr withdrawn
      · exact .inl later
    · rw [cancelQueue_setCancelQueue_of_ne queue same]
      exact .inl inside

private theorem report_rescan {queue : List Nat} (stack : List Frame)
    (scanned : popUntil op (s.cancelQueue user) [] = (false, queue)) :
    Report s ((s.setCancelQueue user queue).setStack thread stack) := by
  have left := popUntil_rest op (s.cancelQueue user) []
  simp only [scanned, Multiset.coe_nil, add_zero, Bool.false_eq_true, if_false, zero_add] at left
  have queues : ∀ other, ((s.setCancelQueue user queue).setStack thread stack).cancelQueue other =
      (s.setCancelQueue user queue).cancelQueue other := by
    intro other
    cases other <;> rfl
  refine .quiet ?_ (fun other posted => ?_) (fun other next inside => ?_) fun other next inside => ?_
  · cases user <;> rfl
  · exact (show other ∈ s.tx ∨ other ∈ s.rx by cases user <;> exact posted).imp_right .inl
  · rw [queues] at inside
    by_cases same : other = user
    · subst same
      exact mem_of_popUntil scanned (mem_of_setCancelQueue inside)
    · rwa [cancelQueue_setCancelQueue_of_ne queue same] at inside
  · left
    rw [queues]
    by_cases same : other = user
    · subst same
      rwa [cancelQueue_setCancelQueue queue inside, ← Multiset.mem_coe, ← left]
    · rwa [cancelQueue_setCancelQueue_of_ne queue same]

private theorem report_give {post : Post} (posting : s.Posting op) (stack : List Frame) :
    Report s ((s.give op post.kind).setStack thread stack) := by
  have queues : ∀ user, ((s.give op post.kind).setStack thread stack).cancelQueue user =
      s.cancelQueue user := by
    intro user
    cases post.kind <;> cases user <;> rfl
  refine .quiet ?_ (fun other member => ?_) (fun user next inside => ?_) fun user next inside => ?_
  · cases post.kind <;> rfl
  · have given : other ∈ s.tx ∨ other ∈ s.rx ∨ other = op := by
      cases kind : post.kind <;> simp [State.give, Side.ofKind, kind] at member <;> tauto
    rcases given with sent | received | rfl
    · exact .inl sent
    · exact .inr (.inl received)
    · exact .inr (.inr posting)
  · rwa [queues] at inside
  · exact .inl (by rwa [queues])

theorem effect_report (settled : s.Settled) (effect : Effect config s thread act t) :
    Report s t := by
  cases effect with
  | getCommunicator => exact .same rfl rfl rfl cancelQueue_getCommunicator
  | runInject comm =>
    exact .same rfl rfl rfl (cancelQueue_incRecursion (s := s.addPost _) (.inject comm))
  | queueInject comm dst tag =>
    exact .same rfl rfl rfl
      (cancelQueue_modifyComm (s := s.create comm .send dst tag) fun _ => by rfl)
  | give user op post rest found =>
    exact report_give ⟨_, List.mem_of_getElem? found, user, List.mem_cons_self⟩ _
  | take frame user side ops rest found polls within =>
    refine .completed side ops within rfl rfl rfl fun other => ?_
    cases side <;> cases other <;> rfl
  | canceled frame user op post rest found polls received asked posted alive =>
    have pushed := fun other => cancelQueue_pushCancel (s := s.takeCanceled op) other op
      (comm_of_user alive)
    refine .canceled op post received posted ?_ ?_ ?_ fun other => (Eq.trans ?_ (pushed other)).trans ?_
    · unfold handleCancelled pushCancel
      split <;> rfl
    · unfold handleCancelled pushCancel
      split <;> rfl
    · unfold handleCancelled pushCancel
      split <;> rfl
    · cases other <;> rfl
    · cases other <;> rfl
  | park op side post =>
    refine .same ?_ ?_ ?_ (cancelQueue_pushCb post side op)
    · unfold pushCb
      split <;> rfl
    · unfold pushCb
      split <;> rfl
    · unfold pushCb
      split <;> rfl
  | start op via =>
    refine .same ?_ ?_ ?_ (cancelQueue_incRecursion via)
    all_goals cases via <;> rfl
  | returnCallback op via =>
    unfold State.returnCallback
    split
    · exact .same rfl rfl rfl (cancelQueue_decRecursion (s := s.log _) _)
    · refine .same ?_ ?_ ?_ (cancelQueue_decRecursion (s := s.finishCb op) via)
      all_goals cases via <;> rfl
  | pop comm stage destroying op queue =>
    refine .same ?_ ?_ ?_ (cancelQueue_setCbQueue comm stage queue)
    all_goals cases stage <;> rfl
  | destroyed comm => exact .same rfl rfl rfl (cancelQueue_modifyComm fun _ => by rfl)
  | withdraw user op queue rest found scanned => exact report_withdraw settled found scanned
  | rescan user op queue rest found scanned => exact report_rescan _ scanned
  | _ => exact .same rfl rfl rfl fun other => by cases other <;> rfl

theorem Restack.posting (restack : Restack config s thread act stack moved)
    (member : Frame.call user (.post op) ∈ moved) :
    Frame.call user (.post op) ∈ stack ∨ op = s.posts.length := by
  have afterPoll : ∀ {frame : Frame} {polled : Option Nat} {side : Side} (count : Nat),
      frame.poll = some (polled, side) →
      Frame.call user (.post op) ∉ frame.afterPoll config count := by
    intro frame polled side count polls
    unfold Frame.poll at polls
    split at polls
    · rename_i side retry
      cases side with
      | sends => simp [Frame.afterPoll]
      | recvs =>
        simp only [Frame.afterPoll]
        split <;> simp
    · simp [Frame.afterPoll]
    · simp [Frame.afterPoll]
    · cases polls
  cases restack with
  | control act stack moved control =>
    left
    cases control with
    | nothing frame polled side rest polls =>
      rcases List.mem_append.mp member with here | kept
      · exact absurd here (afterPoll 0 polls)
      · exact List.mem_cons_of_mem _ kept
    | _ => simp_all
  | give act caller other kind rest =>
    left
    cases kind <;> simp_all [afterPost]
  | take act frame polled side ops rest polls =>
    left
    rcases List.mem_cons.mp member with here | member
    · cases here
    · rcases List.mem_append.mp member with here | kept
      · exact absurd here (afterPoll _ polls)
      · exact List.mem_cons_of_mem _ kept
  | canceled act frame polled side rest polls =>
    left
    rcases List.mem_append.mp member with here | kept
    · exact absurd here (afterPoll 0 polls)
    · exact List.mem_cons_of_mem _ kept
  | post act comm stack user =>
    rcases List.mem_cons.mp member with here | kept
    · cases here
      exact .inr rfl
    · exact .inl kept
  | _ => simp_all

namespace State

theorem posting_effect (effect : Effect config s thread act t) (posting : t.Posting op) :
    s.Posting op ∨ op = s.posts.length := by
  obtain ⟨stack, member, user, inside⟩ := posting
  obtain ⟨index, here⟩ := List.getElem?_of_mem member
  rcases (effect_moves effect).getElem? index with same | ⟨rfl, old, moved, was, now, restack⟩
  · exact .inl ⟨stack, List.mem_of_getElem? (same ▸ here), user, inside⟩
  · obtain rfl := Option.some.inj (here.symm.trans now)
    exact (restack.posting inside).imp_left fun before =>
      ⟨old, List.mem_of_getElem? was, user, before⟩

def Pending (s : State) (op : Nat) : Prop :=
  (op ∈ s.tx ∨ op ∈ s.rx) ∨ s.Posting op ∨ s.posts.length ≤ op

structure Reported (s : State) : Prop where
  pending : ∀ op, s.Pending op → s.terminal op = none
  canceled : ∀ op post, s.posts[op]? = some post → s.terminal op = some .canceled →
    op ∈ s.cancelQueue (userOf post) ∨ op ∈ Event.canceledOps s.history
  queued : ∀ user, ∀ op ∈ s.cancelQueue user, s.terminal op = some .canceled

theorem fabric_nodup (consistent : Books.Consistent Post.counter s.books) :
    (s.tx + s.rx : Multiset Nat).Nodup := by
  have nodup : s.waiting.Nodup := consistent.waiting_nodup
  have stored := (Multiset.nodup_add.mp nodup).1
  exact (Multiset.nodup_add.mp (Multiset.nodup_add.mp stored).1).1

theorem not_posting (consistent : Books.Consistent Post.counter s.books)
    (posted : op ∈ s.tx ∨ op ∈ s.rx) : ¬ s.Posting op := by
  rintro ⟨stack, member, user, inside⟩
  have nodup : s.waiting.Nodup := consistent.waiting_nodup
  have stored : op ∈ s.stored := by
    simp only [State.stored, Multiset.mem_add, Multiset.mem_coe]
    exact .inl (.inl posted)
  have held : op ∈ total (total Frame.waiting) s.threads :=
    mem_total.mpr ⟨stack, member, mem_total.mpr ⟨_, inside, by simp⟩⟩
  exact Multiset.disjoint_left.mp (Multiset.nodup_add.mp nodup).2.2 stored held

end State

/-- A step changes the record of an operation only when it takes it from the fabric. -/
theorem Report.reads (consistent : Books.Consistent Post.counter s.books) (report : Report s t)
    (op : Nat) : t.terminal op = s.terminal op ∨
      (op ∈ s.tx ∨ op ∈ s.rx) ∧ ¬ (op ∈ t.tx ∨ op ∈ t.rx) := by
  obtain ⟨sends, recvs, apart⟩ := Multiset.nodup_add.mp (fabric_nodup consistent)
  cases report with
  | quiet terminal => exact .inl (by rw [terminal])
  | completed side ops within tx rx terminal =>
    by_cases read : op ∈ ops
    · right
      have posted := Multiset.mem_of_le within (Multiset.mem_coe.mpr read)
      cases side with
      | sends =>
        have other : op ∉ s.rx := Multiset.disjoint_left.mp apart posted
        refine ⟨.inl posted, ?_⟩
        simp [tx, rx, State.take, (Multiset.coe_nodup.mp sends).mem_sdiff_iff, read, other]
      | recvs =>
        have other : op ∉ s.tx := Multiset.disjoint_right.mp apart posted
        refine ⟨.inr posted, ?_⟩
        simp [tx, rx, State.take, (Multiset.coe_nodup.mp recvs).mem_sdiff_iff, read, other]
    · left
      rw [terminal, take_terminal, if_neg read]
  | canceled other post received posted tx rx terminal =>
    by_cases same : op = other
    · right
      subst same
      have sent : op ∉ s.tx := Multiset.disjoint_right.mp apart received
      refine ⟨.inr received, ?_⟩
      simp [tx, rx, sent, (Multiset.coe_nodup.mp recvs).mem_erase_iff]
    · left
      rw [terminal, Function.update_of_ne same]

theorem Report.pending (report : Report s t) (effect : Effect config s thread act t)
    (grown : s.posts <+: t.posts) (pending : t.Pending op) : s.Pending op := by
  rcases pending with posted | posting | unborn
  · cases report with
    | quiet _ given =>
      rcases given op posted with sent | received | posting
      · exact .inl (.inl sent)
      · exact .inl (.inr received)
      · exact .inr (.inl posting)
    | completed side ops within tx rx =>
      left
      rw [tx, rx] at posted
      cases side with
      | sends => exact posted.imp_left fun left => List.diff_subset _ _ left
      | recvs => exact posted.imp_right fun left => List.diff_subset _ _ left
    | canceled other post received _ tx rx =>
      left
      rw [tx, rx] at posted
      exact posted.imp_right List.mem_of_mem_erase
  · rcases posting_effect effect posting with before | rfl
    · exact .inr (.inl before)
    · exact .inr (.inr (Nat.le_refl _))
  · exact .inr (.inr (Nat.le_trans grown.length_le unborn))

/-- An event is read at most once: what the fabric can still report has none. -/
theorem Report.unread (consistent : Books.Consistent Post.counter s.books) (settled : s.Settled)
    (report : Report s t) (effect : Effect config s thread act t) (grown : s.posts <+: t.posts)
    (pending : t.Pending op) : t.terminal op = s.terminal op := by
  rcases report.reads consistent op with same | ⟨posted, gone⟩
  · exact same
  · obtain ⟨post, found, _⟩ := settled.fabric op posted
    have issued := (List.getElem?_eq_some_iff.mp found).1
    rcases pending with still | posting | unborn
    · exact absurd still gone
    · rcases posting_effect effect posting with before | rfl
      · exact absurd before (not_posting consistent posted)
      · exact absurd issued (Nat.lt_irrefl _)
    · have grows := grown.length_le
      omega

private theorem canceled_effect (reported : s.Reported) (report : Report s t)
    (grown : s.posts <+: t.posts)
    (withdrawn : op ∈ Event.canceledOps s.history → op ∈ Event.canceledOps t.history) {post : Post}
    (posted : t.posts[op]? = some post) (canceled : t.terminal op = some .canceled) :
    op ∈ t.cancelQueue (userOf post) ∨ op ∈ Event.canceledOps t.history := by
  have before : s.terminal op = some .canceled →
      op ∈ s.cancelQueue (userOf post) ∨ op ∈ Event.canceledOps s.history := by
    intro terminal
    have issued : op < s.posts.length := by
      by_contra unborn
      rw [reported.pending op (.inr (.inr (Nat.le_of_not_lt unborn)))] at terminal
      cases terminal
    refine reported.canceled op post ?_ terminal
    obtain ⟨more, grown⟩ := grown
    rw [← posted, ← grown, List.getElem?_append_left issued]
  cases report with
  | quiet terminal _ _ kept =>
    rw [terminal] at canceled
    rcases before canceled with queued | done
    · exact kept _ op queued
    · exact .inr (withdrawn done)
  | completed side ops within tx rx terminal queues =>
    have unread : s.terminal op = some .canceled := by
      rw [terminal, take_terminal] at canceled
      split at canceled
      · cases canceled
      · exact canceled
    rw [queues]
    exact (before unread).imp_right withdrawn
  | canceled other found received read tx rx terminal queues =>
    rw [queues]
    by_cases same : op = other
    · subst same
      obtain ⟨more, grown⟩ := grown
      rw [← grown, List.getElem?_append_left (List.getElem?_eq_some_iff.mp read).1, read] at posted
      cases posted
      left
      simp
    · rw [terminal, Function.update_of_ne same] at canceled
      rcases before canceled with queued | done
      · left
        split
        · exact List.mem_append_left _ queued
        · exact queued
      · exact .inr (withdrawn done)

theorem State.Reported.effect (reported : s.Reported) (settled : s.Settled)
    (consistent : Books.Consistent Post.counter s.books) (effect : Effect config s thread act t) :
    t.Reported := by
  have report := effect_report settled effect
  have entries := effect_entry settled effect
  have grown : s.posts <+: t.posts := Books.attrs_of_entries entries
  constructor
  · intro op pending
    rw [report.unread consistent settled effect grown pending]
    exact reported.pending op (report.pending effect grown pending)
  · intro op post posted canceled
    exact canceled_effect reported report grown (Books.withdrawn_of_entries entries) posted canceled
  · intro user op member
    cases report with
    | quiet terminal _ kept =>
      rw [terminal]
      exact reported.queued user op (kept user op member)
    | completed side ops within tx rx terminal queues =>
      rw [queues] at member
      have before := reported.queued user op member
      rw [terminal, take_terminal, if_neg, before]
      intro read
      have posted := Multiset.mem_of_le within (Multiset.mem_coe.mpr read)
      have pending : s.Pending op := by cases side <;> simp_all [State.Pending, State.posted]
      rw [reported.pending op pending] at before
      cases before
    | canceled other post received posted tx rx terminal queues =>
      rw [terminal]
      by_cases same : op = other
      · rw [same, Function.update_self]
      · rw [Function.update_of_ne same]
        refine reported.queued user op ?_
        rw [queues] at member
        split at member
        · simpa [same] using member
        · exact member

theorem State.Reported.initial (threads : Nat) : (State.initial threads).Reported where
  pending op _ := rfl
  canceled op post found := by cases found
  queued user op member := by cases user <;> cases member

/-- The receive will not be found in a queue of cancelled ones again. -/
def State.Lost (s : State) (op : Nat) : Prop :=
  s.terminal op = some .completed ∨ op ∈ Event.canceledOps s.history

structure State.Sound (s : State) : Prop where
  settled : s.Settled
  consistent : Books.Consistent Post.counter s.books
  reported : s.Reported

theorem State.Sound.effect (sound : s.Sound) (effect : Effect config s thread act t) : t.Sound where
  settled := sound.settled.effect effect
  consistent := sound.consistent.entries (effect_entry sound.settled effect)
  reported := sound.reported.effect sound.settled sound.consistent effect

theorem State.Sound.of_reaches {allowed : State → Action → Prop} {threads : Nat}
    (reached : Reaches (step config) allowed (State.initial threads) s) : s.Sound :=
  reached.invariant State.Sound ⟨.initial threads, consistent_initial threads, .initial threads⟩
    fun _ _ _ sound _ taken => sound.effect (step_effect taken)

theorem waiting_of_cancelQueue (member : op ∈ s.cancelQueue user) : op ∈ s.waiting := by
  refine Multiset.mem_add.mpr (.inl ?_)
  simp only [State.stored, Multiset.mem_add, Multiset.mem_coe]
  cases user with
  | none => exact .inr (.inr member)
  | some comm =>
    obtain ⟨c, found⟩ := comm_of_cancelQueue member
    have inside : op ∈ c.recvCbCancel := by simpa [cancelQueue, found] using member
    refine .inl (.inr (mem_total.mpr ⟨c, List.mem_of_getElem? found, ?_⟩))
    simp [CommunicatorImpl.waiting, inside]

theorem State.Lost.not_queued (sound : s.Sound) (lost : s.Lost op) (user : Option Nat) :
    op ∉ s.cancelQueue user := by
  intro member
  rcases lost with completed | withdrawn
  · rw [sound.reported.queued user op member] at completed
    cases completed
  · exact sound.consistent.not_withdrawn_of_waiting (waiting_of_cancelQueue member) withdrawn

theorem State.Lost.effect (sound : s.Sound) (lost : s.Lost op)
    (effect : Effect config s thread act t) : t.Lost op := by
  rcases lost with completed | withdrawn
  · rcases (effect_report sound.settled effect).reads sound.consistent op with same | ⟨posted, _⟩
    · exact .inl (same.trans completed)
    · rw [sound.reported.pending op (.inl posted)] at completed
      cases completed
  · exact .inr (Books.withdrawn_of_entries (effect_entry sound.settled effect) withdrawn)

def State.Canceling (s : State) (thread : Nat) (user : Option Nat) (op : Nat)
    (rest : List Frame) : Prop :=
  ∃ above code, s.threads[thread]? = some (above ++ .call user code :: rest) ∧
    (code = .cancel op ∨ code = .scan op)

private theorem restack_cancel {code : Code} (loops : code = .cancel op ∨ code = .scan op)
    (restack : Restack config s thread act (.call user code :: rest) moved)
    (missing : op ∉ s.cancelQueue user) :
    ∃ above next, moved = above ++ .call user next :: rest ∧ (next = .cancel op ∨ next = .scan op) := by
  have polled : ∀ {other : Option Nat} {side : Side} (count : Nat),
      (Frame.call user code).poll = some (other, side) →
      (Frame.call user code).afterPoll config count = [.call user (.scan op)] := by
    intro other side count polls
    rcases loops with rfl | rfl
    · rfl
    · cases polls
  cases restack with
  | control act stack moved control =>
    cases control with
    | inject _ _ _ _ _ user => cases user
    | progress _ _ user => cases user
    | contextProgress _ user => cases user
    | destroy _ _ user => cases user
    | again => exact ⟨[_], code, rfl, loops⟩
    | nothing _ _ _ _ polls =>
      exact ⟨[], .scan op, by rw [polled _ polls]; rfl, .inr rfl⟩
    | left => rcases loops with loop | loop <;> cases loop
    | nextQueue => rcases loops with loop | loop <;> cases loop
    | cleared => rcases loops with loop | loop <;> cases loop
  | post _ _ _ user => cases user
  | cancel _ _ _ user => cases user
  | inject => rcases loops with loop | loop <;> cases loop
  | queueInject => rcases loops with loop | loop <;> cases loop
  | give => rcases loops with loop | loop <;> cases loop
  | take _ _ other side ops _ polls =>
    exact ⟨[.dispatch other side ops], .scan op, by rw [polled _ polls]; rfl, .inr rfl⟩
  | canceled _ _ _ _ _ polls => exact ⟨[], .scan op, by rw [polled _ polls]; rfl, .inr rfl⟩
  | pop => rcases loops with loop | loop <;> cases loop
  | destroyed => rcases loops with loop | loop <;> cases loop
  | withdraw _ _ _ _ found =>
    rcases loops with loop | loop
    · cases loop
    · cases loop
      exact absurd found missing
  | rescan =>
    rcases loops with loop | loop
    · cases loop
    · cases loop
      exact ⟨[], .cancel op, rfl, .inl rfl⟩

theorem State.Canceling.effect {active : Nat} (canceling : s.Canceling thread user op rest)
    (missing : op ∉ s.cancelQueue user) (effect : Effect config s active act t) :
    t.Canceling thread user op rest := by
  obtain ⟨above, code, found, loops⟩ := canceling
  rcases (effect_moves effect).under (fun _ _ => Restack.tops) found with
    ⟨kept, still⟩ | ⟨rfl, rfl, moved, now, restack⟩
  · exact ⟨kept, code, still, loops⟩
  · obtain ⟨above, next, rfl, still⟩ := restack_cancel loops restack missing
    exact ⟨above, next, now, still⟩

/-- A cancel of a receive that is lost never returns. -/
theorem canceling_of_lost {later : State} {allowed : State → Action → Prop} (sound : s.Sound)
    (lost : s.Lost op) (canceling : s.Canceling thread user op rest)
    (ran : Reaches (step config) allowed s later) : later.Canceling thread user op rest := by
  have all := ran.invariant (fun s => s.Sound ∧ s.Lost op ∧ s.Canceling thread user op rest)
    ⟨sound, lost, canceling⟩ fun before action after holds _ taken => by
      obtain ⟨sound, lost, canceling⟩ := holds
      have effect := step_effect taken
      exact ⟨sound.effect effect, lost.effect sound effect,
        canceling.effect (lost.not_queued sound user) effect⟩
  exact all.2.2

/-- What is promised about a receive whose event has been read, when `cancel_recv` looks
for it: the call returns, says whether the event was `FI_ECANCELED`, and the callback
runs once if it was not and never if it was. -/
def CancelLaw (config : Config) (s : State) (thread op : Nat) (rest : List Frame) : Prop :=
  ∃ t result, step config s ⟨thread, .advance⟩ = some t ∧ t.threads[thread]? = some rest ∧
    t.cancelResults = (op, result) :: s.cancelResults ∧
    (result = true ↔ s.terminal op = some .canceled) ∧
    (s.terminal op = some .canceled → ∀ later, Reaches (step config) (fun _ _ => True) t later →
      op ∉ Event.calledOps later.history) ∧
    (s.terminal op = some .completed →
      (∀ later, Reaches (step config) (fun _ _ => True) t later →
        (Event.calledOps later.history).count op ≤ 1) ∧
      ∃ later, Reaches (step config) (fun _ _ => True) t later ∧ op ∈ Event.calledOps later.history)

section

variable (checking : s.threads[thread]? = some (.call user (.scan op) :: rest))
include checking

theorem step_scan (config : Config) (running : s.fault = none) :
    step config s ⟨thread, .advance⟩ = some (s.scanCancel thread user op rest) := by
  simp [step, running, checking, State.advance]

/-- A receive is in the queue if its event was `FI_ECANCELED` and no cancel has taken it. -/
theorem queued_iff (sound : s.Sound) : op ∈ s.cancelQueue user ↔
    s.terminal op = some .canceled ∧ Event.canceled op ∉ s.history := by
  rw [← Event.mem_canceledOps]
  constructor
  · intro member
    exact ⟨sound.reported.queued user op member,
      sound.consistent.not_withdrawn_of_waiting (waiting_of_cancelQueue member)⟩
  · rintro ⟨canceled, untaken⟩
    obtain ⟨post, posted, _, owned⟩ := sound.settled.head checking
    rcases sound.reported.canceled op post posted canceled with queued | taken
    · rwa [owned] at queued
    · exact absurd taken untaken

theorem queued_of_law (running : s.fault = none) (law : CancelLaw config s thread op rest) :
    op ∈ s.cancelQueue user := by
  obtain ⟨t, result, taken, returned, _⟩ := law
  rw [step_scan checking config running] at taken
  cases taken
  rw [← popUntil_found op _ []]
  unfold State.scanCancel at returned
  split at returned
  · rename_i queue scanned
    rw [scanned]
  · rename_i queue scanned
    have inside := (List.getElem?_eq_some_iff.mp checking).1
    have threads := (s.sameRecords_setCancelQueue user queue).threads
    rw [setStack_threads, threads, List.getElem?_set_self inside, Option.some.injEq] at returned
    exact absurd returned (List.cons_ne_self _ _)

theorem law_of_queued (sound : s.Sound) (running : s.fault = none)
    (queued : op ∈ s.cancelQueue user) : CancelLaw config s thread op rest := by
  have canceled := sound.reported.queued user op queued
  obtain ⟨queue, scanned⟩ : ∃ queue, popUntil op (s.cancelQueue user) [] = (true, queue) :=
    ⟨_, Prod.ext ((popUntil_found op _ []).mpr queued) rfl⟩
  have effect : Effect config s thread .advance (s.withdraw thread user op queue rest) :=
    .withdraw user op queue rest checking scanned
  have cb := (sound.settled.request (sound.settled.head checking).made).1
  have records := s.sameRecords_setCancelQueue user queue
  have heap : (s.setCancelQueue user queue).heap = s.heap := by cases user <;> rfl
  have withdrawn : op ∈ Event.canceledOps (s.withdraw thread user op queue rest).history := by
    simp [State.withdraw, heap, cb]
  refine ⟨s.withdraw thread user op queue rest, true, ?_, ?_, ?_, ?_, ?_, ?_⟩
  · rw [step_scan checking config running, State.scanCancel, scanned]
  · have inside := (List.getElem?_eq_some_iff.mp checking).1
    simp [State.withdraw, records.threads, inside]
  · cases user <;> rfl
  · simp [canceled]
  · intro _ later ran called
    have both := ran.invariant (fun s => s.Sound ∧ op ∈ Event.canceledOps s.history)
      ⟨sound.effect effect, withdrawn⟩ fun before action after holds _ taken =>
        ⟨holds.1.effect (step_effect taken), Books.withdrawn_of_entries
          (effect_entry holds.1.settled (step_effect taken)) holds.2⟩
    exact both.1.consistent.not_withdrawn_of_called called both.2
  · intro completed
    rw [canceled] at completed
    cases completed

end

/-- The promise holds exactly for a receive whose event was `FI_ECANCELED` and that no
other cancel has taken from the queue; in every other case the call never returns. -/
theorem cancel_recv_law_iff (config : Config) (threads : Nat) {s : State} {thread op : Nat}
    {user : Option Nat} {rest : List Frame}
    (reached : Reaches (step config) (fun _ _ => True) (State.initial threads) s)
    (running : s.fault = none)
    (checking : s.threads[thread]? = some (.call user (.scan op) :: rest))
    (read : s.terminal op ≠ none) :
    (CancelLaw config s thread op rest ↔
      s.terminal op = some .canceled ∧ Event.canceled op ∉ s.history) ∧
    (¬ CancelLaw config s thread op rest →
      ∀ later, Reaches (step config) (fun _ _ => True) s later →
        later.Canceling thread user op rest) := by
  have sound := Sound.of_reaches reached
  have law : CancelLaw config s thread op rest ↔
      s.terminal op = some .canceled ∧ Event.canceled op ∉ s.history := by
    rw [← queued_iff checking sound]
    exact ⟨queued_of_law checking running, law_of_queued checking sound running⟩
  refine ⟨law, fun broken later ran => ?_⟩
  have lost : s.Lost op := by
    rw [law, ← Event.mem_canceledOps] at broken
    cases event : s.terminal op with
    | none => exact absurd event read
    | some terminal =>
      cases terminal with
      | completed => exact .inl event
      | canceled => exact .inr (by simpa [event] using broken)
  exact canceling_of_lost sound lost ⟨[], .scan op, checking, .inr rfl⟩ ran

/-- A receive that the fabric cancels. -/
theorem cancel_recv_law_of_canceled :
    ∃ s, Reaches (step ⟨20, 32, 64⟩) (fun _ _ => True) (State.initial 1) s ∧
      s.terminal 0 = some .canceled ∧ CancelLaw ⟨20, 32, 64⟩ s 0 0 [] := by
  have ran : ((run (step ⟨20, 32, 64⟩) (fun _ _ => True) (State.initial 1)
      [⟨0, .getCommunicator⟩, ⟨0, .recv 0 1 7⟩, ⟨0, .fi .success⟩, ⟨0, .cancel 0 true⟩,
        ⟨0, .read (.canceled 0)⟩]).map fun s =>
      decide (s.fault = none ∧ s.threads[0]? = some [.call (some 0) (.scan 0)] ∧
        s.terminal 0 = some .canceled ∧ Event.canceled 0 ∉ s.history)) = some true := by
    decide +kernel
  obtain ⟨s, first, ran⟩ := Option.map_eq_some_iff.mp ran
  obtain ⟨running, checking, canceled, untaken⟩ := of_decide_eq_true ran
  have reached := reaches_of_run first
  have law := (cancel_recv_law_iff ⟨20, 32, 64⟩ 1 reached running checking (by simp [canceled])).1
  exact ⟨s, reached, canceled, law.mpr ⟨canceled, untaken⟩⟩

/-- The receive completes while its cancel polls.  Its callback runs, and the cancel goes
on looking for it in the queue of cancelled receives. -/
theorem cancel_recv_never_returns :
    ∃ s, Reaches (step ⟨20, 32, 64⟩) (fun _ _ => True) (State.initial 1) s ∧ s.fault = none ∧
      s.threads[0]? = some [.call (some 0) (.scan 0)] ∧ s.terminal 0 = some .completed ∧
      Event.returned 0 ∈ s.history ∧ ¬ CancelLaw ⟨20, 32, 64⟩ s 0 0 [] ∧
      ∀ later, Reaches (step ⟨20, 32, 64⟩) (fun _ _ => True) s later →
        later.Canceling 0 (some 0) 0 [] := by
  have ran : ((run (step ⟨20, 32, 64⟩) (fun _ _ => True) (State.initial 1)
      [⟨0, .getCommunicator⟩, ⟨0, .recv 0 1 7⟩, ⟨0, .fi .success⟩, ⟨0, .cancel 0 true⟩,
        ⟨0, .read (.entries [0])⟩, ⟨0, .advance⟩, ⟨0, .advance⟩, ⟨0, .callbackReturns⟩,
        ⟨0, .advance⟩]).map fun s =>
      decide (s.fault = none ∧ s.threads[0]? = some [.call (some 0) (.scan 0)] ∧
        s.terminal 0 = some .completed ∧ Event.returned 0 ∈ s.history)) = some true := by
    decide +kernel
  obtain ⟨s, first, ran⟩ := Option.map_eq_some_iff.mp ran
  obtain ⟨running, checking, completed, returned⟩ := of_decide_eq_true ran
  have reached := reaches_of_run first
  have sound := Sound.of_reaches reached
  refine ⟨s, reached, running, checking, completed, returned, fun law => ?_, fun later ran => ?_⟩
  · exact State.Lost.not_queued sound (.inl completed) (some 0) (queued_of_law checking running law)
  · exact canceling_of_lost sound (.inl completed) ⟨[], .scan 0, checking, .inr rfl⟩ ran

end Oomph.Libfabric
