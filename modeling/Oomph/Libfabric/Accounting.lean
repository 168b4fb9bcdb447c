import Oomph.Libfabric.Settled

namespace Oomph.Libfabric

open Machine State

variable {config : Config} {s t : State} {thread : Nat} {stack moved rest : List Frame}
  {act : Act} {frame : Frame} {op : Nat} {user : Option Nat}

namespace State

@[simp] theorem incRecursion_threads (via : Via) : (s.incRecursion via).threads = s.threads := by
  cases via <;> rfl

@[simp] theorem incRecursion_history (via : Via) : (s.incRecursion via).history = s.history := by
  cases via <;> rfl

@[simp] theorem incRecursion_scheduled (via : Via) :
    (s.incRecursion via).scheduled = s.scheduled := by
  cases via <;> rfl

@[simp] theorem decRecursion_threads (via : Via) : (s.decRecursion via).threads = s.threads := by
  cases via <;> rfl

@[simp] theorem decRecursion_history (via : Via) : (s.decRecursion via).history = s.history := by
  cases via <;> rfl

@[simp] theorem decRecursion_scheduled (via : Via) :
    (s.decRecursion via).scheduled = s.scheduled := by
  cases via <;> rfl

structure SameRecords (s t : State) : Prop where
  posts : t.posts = s.posts
  threads : t.threads = s.threads
  scheduled : t.scheduled = s.scheduled
  history : t.history = s.history

theorem sameRecords_give (op : Nat) (kind : Kind) : s.SameRecords (s.give op kind) := by
  cases kind <;> exact ⟨rfl, rfl, rfl, rfl⟩

theorem sameRecords_take (side : Side) (ops : List Nat) : s.SameRecords (s.take side ops) := by
  cases side <;> exact ⟨rfl, rfl, rfl, rfl⟩

theorem sameRecords_handleCancelled (op : Nat) (post : Post) :
    s.SameRecords (s.handleCancelled op post) := by
  unfold handleCancelled pushCancel
  split <;> exact ⟨rfl, rfl, rfl, rfl⟩

theorem sameRecords_pushCb (post : Post) (side : Side) (op : Nat) :
    s.SameRecords (s.pushCb post side op) := by
  unfold pushCb
  split <;> exact ⟨rfl, rfl, rfl, rfl⟩

theorem sameRecords_setCbQueue (comm : Nat) (stage : Drain) (queue : List Nat) :
    s.SameRecords (s.setCbQueue comm stage queue) := by
  cases stage <;> exact ⟨rfl, rfl, rfl, rfl⟩

theorem sameRecords_setCancelQueue (user : Option Nat) (queue : List Nat) :
    s.SameRecords (s.setCancelQueue user queue) := by
  cases user <;> exact ⟨rfl, rfl, rfl, rfl⟩

theorem SameRecords.books (records : s.SameRecords t) (found : s.threads[thread]? = some stack)
    (waits : t.stored + total Frame.waiting moved = s.stored + total Frame.waiting stack)
    (runs : total Frame.running moved = total Frame.running stack) :
    (t.setStack thread moved).books = s.books := by
  rw [books_eq, books_eq]
  exact Ledger.books_same found (congrArg (·.set thread moved) records.threads) records.posts
    records.scheduled records.history waits runs

end State

theorem afterPoll_empty {side : Side} (config : Config) (count : Nat)
    (polls : frame.poll = some (user, side)) :
    (frame.waiting = 0 ∧ total Frame.waiting (frame.afterPoll config count) = 0) ∧
      frame.running = 0 ∧ total Frame.running (frame.afterPoll config count) = 0 := by
  unfold Frame.poll at polls
  split at polls
  · rename_i side retry
    cases side with
    | sends => simp [Frame.afterPoll]
    | recvs =>
      simp only [Frame.afterPoll]
      split <;> simp
  · simp [Frame.afterPoll]
  · simp [Frame.afterPoll]
  · cases polls

theorem control_waiting (control : Control config s thread act stack moved) :
    total Frame.waiting moved = total Frame.waiting stack := by
  cases control with
  | nothing frame user side rest polls =>
    obtain ⟨⟨before, after⟩, _⟩ := afterPoll_empty config 0 polls
    rw [total_append, total_cons, before, after]
  | inplace user side op entries =>
    simp only [total_cons, Frame.waiting, ← Multiset.cons_coe, ← Multiset.singleton_add, add_assoc]
  | queued user side op entries =>
    simp only [total_cons, Frame.waiting, ← Multiset.cons_coe, ← Multiset.singleton_add, add_assoc]
  | _ => simp

theorem control_running (control : Control config s thread act stack moved) :
    total Frame.running moved = total Frame.running stack := by
  cases control with
  | nothing frame user side rest polls =>
    obtain ⟨_, before, after⟩ := afterPoll_empty config 0 polls
    rw [total_append, total_cons, before, after]
  | _ => simp

theorem State.Settled.request (settled : s.Settled) (made : Made s.posts op) :
    (s.heap op).cb = op ∧
      Books.keyOf Post.counter s.posts op = some (s.heap op).scheduled := by
  obtain ⟨post, found, own⟩ := made
  have identity := settled.recorded op post found own
  have cb := congrArg RequestStateBase.cb identity
  have counter := congrArg RequestStateBase.scheduled identity
  refine ⟨cb, ?_⟩
  simp only [Books.keyOf, found, Option.bind_some, Post.counter, own, Bool.false_eq_true, if_false]
  exact congrArg some counter.symm

theorem entry_post (comm : Nat) (kind : Kind) (rank : RankType) (tag : TagType)
    (found : s.threads[thread]? = some stack) :
    Books.Entry Post.counter s.books (s.beginPost thread comm kind rank tag stack).books := by
  rw [books_eq, books_eq]
  refine Ledger.issue found rfl { comm, kind, rank, tag, inplace := false } rfl rfl rfl ?_ (by simp)
  change s.stored + _ = {s.posts.length} + (s.stored + _)
  rw [total_cons, Frame.waiting]
  abel

theorem entry_queueInject {comm : Nat} {c : CommunicatorImpl} (dst : RankType) (tag : TagType)
    (found : s.threads[thread]? = some (.call (some comm) (.inject dst tag) :: rest))
    (owner : s.comms[comm]? = some c) :
    Books.Entry Post.counter s.books (s.queueInject thread comm dst tag rest).books := by
  rw [books_eq, books_eq]
  exact Ledger.issue found rfl { comm, kind := .send, rank := dst, tag, inplace := false } rfl rfl
    rfl (Ledger.wait_of_stored (stored_queueInject dst tag owner) (by simp)) (by simp)

theorem entry_runInject {comm : Nat} (dst : RankType) (tag : TagType)
    (found : s.threads[thread]? = some (.call (some comm) (.inject dst tag) :: rest)) :
    Books.Entry Post.counter s.books (s.runInject thread comm dst tag rest).books := by
  rw [books_eq, books_eq]
  refine Ledger.issueRunning found rfl
    { comm, kind := .send, rank := dst, tag, inplace := true } rfl rfl dst tag rfl
    (congrArg₂ _ ?_ (by simp)) (by simp [ledger])
  exact stored_incRecursion (s := s.addPost _) (.inject comm)

theorem entry_start (settled : s.Settled) {via : Via}
    (found : s.threads[thread]? = some (.invoke op via :: rest)) :
    Books.Entry Post.counter s.books (s.start thread op via rest).books := by
  obtain ⟨cb, _⟩ := settled.request (settled.head found).1.made
  have threads : (s.start thread op via rest).threads =
      s.threads.set thread (.callback op via :: rest) := by simp [State.start]
  rw [books_eq, books_eq]
  refine Ledger.start found threads op (s.heap op).rank (s.heap op).tag
    (by simp [ledger, State.start]) (by simp [ledger, State.start])
    (by simp [ledger, State.start, cb]) ?_ (by simp)
  have stored : (s.start thread op via rest).stored = s.stored := stored_incRecursion via
  change s.stored + _ = {op} + ((s.start thread op via rest).stored + _)
  rw [stored]
  simp only [total_cons, Frame.waiting, zero_add]
  abel

theorem entry_returnInject (settled : s.Settled) {comm : Nat}
    (found : s.threads[thread]? = some (.callback op (.inject comm) :: rest)) :
    Books.Entry Post.counter s.books (s.returnCallback thread op (.inject comm) rest).books := by
  obtain ⟨post, posted, inplace, _⟩ := settled.head found
  rw [books_eq, books_eq]
  refine Ledger.finish found rfl op rfl ?_ rfl
    (congrArg₂ _ (stored_decRecursion (s := s.log _) (.inject comm)) (by simp)) (by simp)
  have uncounted : Books.keyOf Post.counter s.posts op = none := by
    simp [Books.keyOf, posted, Post.counter, inplace, Via.isInject]
  change s.scheduled = Books.adjust s.scheduled (-1) (Books.keyOf Post.counter s.posts op)
  rw [uncounted]
  rfl

theorem entry_returnRequest (settled : s.Settled) {via : Via} (request : via.isInject = false)
    (found : s.threads[thread]? = some (.callback op via :: rest)) :
    Books.Entry Post.counter s.books
      (((s.finishCb op).decRecursion via).setStack thread rest).books := by
  have made : Made s.posts op := (settled.head found).imp fun _ fits => fits.1.trans request
  obtain ⟨cb, counter⟩ := settled.request made
  have threads : (((s.finishCb op).decRecursion via).setStack thread rest).threads =
      s.threads.set thread rest := by simp
  rw [books_eq, books_eq]
  exact Ledger.finish found threads op (by simp [ledger])
    (by simp [ledger, counter, countDown_eq_adjust]) (by simp [ledger, cb])
    (congrArg₂ _ (stored_decRecursion (s := s.finishCb op) via) (by simp)) (by simp)

theorem entry_return (settled : s.Settled) {via : Via}
    (found : s.threads[thread]? = some (.callback op via :: rest)) :
    Books.Entry Post.counter s.books (s.returnCallback thread op via rest).books := by
  cases via with
  | inject comm => exact entry_returnInject settled found
  | inplace comm => exact entry_returnRequest settled rfl found
  | context => exact entry_returnRequest settled rfl found
  | queue user => exact entry_returnRequest settled rfl found

theorem comm_of_cancelQueue {comm : Nat} (member : op ∈ s.cancelQueue (some comm)) :
    ∃ c, s.comms[comm]? = some c := by
  cases found : s.comms[comm]? with
  | none => simp [cancelQueue, found] at member
  | some c => exact ⟨c, rfl⟩

theorem entry_withdraw (settled : s.Settled) {queue : List Nat}
    (found : s.threads[thread]? = some (.call user (.scan op) :: rest))
    (scanned : popUntil op (s.cancelQueue user) [] = (true, queue)) :
    Books.Entry Post.counter s.books (s.withdraw thread user op queue rest).books := by
  have records := s.sameRecords_setCancelQueue user queue
  have heap : (s.setCancelQueue user queue).heap = s.heap := by cases user <;> rfl
  obtain ⟨cb, counter⟩ := settled.request (settled.head found).made
  have member : op ∈ s.cancelQueue user := by
    rw [← popUntil_found op _ [], scanned]
  have left := popUntil_rest op (s.cancelQueue user) []
  rw [scanned, Multiset.coe_nil, add_zero] at left
  have stored : 0 + s.stored = {op} + (s.withdraw thread user op queue rest).stored :=
    State.stored_setCancelQueue user {op} 0 (by simpa using left)
      fun comm same => comm_of_cancelQueue (same ▸ member)
  have threads : (s.withdraw thread user op queue rest).threads = s.threads.set thread rest := by
    simp [State.withdraw, records.threads]
  rw [books_eq, books_eq]
  refine Ledger.withdraw found threads op
    (by simp [ledger, State.withdraw])
    (by simp [ledger, State.withdraw, records.scheduled, heap, counter, countDown_eq_adjust])
    (by simp [ledger, State.withdraw, records.history, heap, cb]) ?_ (by simp)
  change s.stored + _ = {op} + ((s.withdraw thread user op queue rest).stored + _)
  rw [← zero_add s.stored, stored, add_assoc]
  simp

private theorem no_entry {key : Post → Option Counter} {before after : Books Post Counter}
    (same : after = before) : Relation.ReflGen (Books.Entry key) before after := by
  rw [same]

theorem comm_of_user {post : Post}
    (alive : post.kind ≠ .sharedRecv → s.isAlive post.comm = true) (comm : Nat)
    (owned : userOf post = some comm) : ∃ c, s.comms[comm]? = some c := by
  by_cases shared : post.kind = .sharedRecv
  · simp [userOf, shared] at owned
  · obtain ⟨c, found, _⟩ := comm_of_isAlive (alive shared)
    rw [userOf_of_ne shared] at owned
    cases owned
    exact ⟨c, found⟩

theorem stored_rescan {queue : List Nat}
    (scanned : popUntil op (s.cancelQueue user) [] = (false, queue)) :
    (s.setCancelQueue user queue).stored = s.stored := by
  have same := popUntil_rest op (s.cancelQueue user) []
  simp only [scanned, Multiset.coe_nil, add_zero, Bool.false_eq_true, if_false, zero_add] at same
  have moves : 0 + (s.cancelQueue user : Multiset Nat) = 0 + (queue : Multiset Nat) := by rw [same]
  by_cases exists_ : ∀ comm, user = some comm → ∃ c, s.comms[comm]? = some c
  · simpa using (State.stored_setCancelQueue user 0 0 moves exists_).symm
  · push Not at exists_
    obtain ⟨comm, rfl, missing⟩ := exists_
    have none : s.comms[comm]? = none := Option.eq_none_iff_forall_ne_some.mpr missing
    simp [State.setCancelQueue, State.stored, List.modify_eq_set_getElem?, none]

theorem effect_entry (settled : s.Settled) (effect : Effect config s thread act t) :
    Relation.ReflGen (Books.Entry Post.counter) s.books t.books := by
  cases effect with
  | refuse => exact .refl
  | fail => exact .refl
  | control act stack moved found control =>
    refine no_entry (SameRecords.books ⟨rfl, rfl, rfl, rfl⟩ found ?_ (control_running control))
    rw [control_waiting control]
  | getCommunicator =>
    refine no_entry ?_
    have waiting : (s.getCommunicator thread).waiting = s.waiting := by
      rw [State.waiting, stored_getCommunicator]
      rfl
    simp only [State.books, waiting]
    rfl
  | post act comm kind rank tag stack found => exact .single (entry_post comm kind rank tag found)
  | runInject comm dst tag c rest found => exact .single (entry_runInject dst tag found)
  | queueInject comm dst tag c rest found owner =>
    exact .single (entry_queueInject dst tag found owner)
  | give user op post rest found =>
    refine no_entry ((sameRecords_give op post.kind).books found ?_ ?_)
    · rw [stored_give]
      cases post.kind <;> simp [afterPost]
    · cases post.kind <;> simp [afterPost]
  | take frame user side ops rest found polls within =>
    obtain ⟨⟨before, after⟩, first, second⟩ := afterPoll_empty config ops.length polls
    refine no_entry ((sameRecords_take side ops).books found ?_ ?_)
    · rw [stored_take within, total_cons, total_append, total_cons, before, after]
      simp only [Frame.waiting, zero_add]
      abel
    · rw [total_cons, total_append, total_cons, first, second]
      simp
  | canceled frame user op post rest found polls received asked posted alive =>
    obtain ⟨⟨before, after⟩, first, second⟩ := afterPoll_empty config 0 polls
    refine no_entry ((sameRecords_handleCancelled op post).books found ?_ ?_)
    · rw [stored_handleCancelled received (comm_of_user alive), total_append, total_cons,
        before, after]
    · rw [total_append, total_cons, first, second]
  | park op side post rest found posted alive =>
    refine no_entry ((sameRecords_pushCb post side op).books found ?_ ?_)
    · rw [stored_pushCb side op alive, total_cons, Frame.waiting]
      abel
    · simp
  | start op via rest found => exact .single (entry_start settled found)
  | returnCallback op via rest found => exact .single (entry_return settled found)
  | pop comm stage destroying op queue rest found waits =>
    refine no_entry ((sameRecords_setCbQueue comm stage queue).books found ?_ ?_)
    · rw [stored_setCbQueue waits]
      simp only [total_cons, Frame.waiting, zero_add]
      abel
    · simp
  | destroyed comm rest found =>
    refine no_entry (SameRecords.books (t := s.modifyComm comm _) ⟨rfl, rfl, rfl, rfl⟩ found ?_ ?_)
    · rw [stored_modifyComm_same comm fun _ => by rfl]
      simp
    · simp
  | withdraw user op queue rest found scanned =>
    exact .single (entry_withdraw settled found scanned)
  | rescan user op queue rest found scanned =>
    refine no_entry ((sameRecords_setCancelQueue user queue).books found ?_ ?_)
    · rw [stored_rescan scanned]
      simp
    · simp
  | beginCancel op post stack found =>
    refine no_entry (SameRecords.books (t := s.fiCancel op) ⟨rfl, rfl, rfl, rfl⟩ found ?_ ?_)
    · simp only [total_cons, Frame.waiting, zero_add]
      rfl
    · simp

end Oomph.Libfabric
