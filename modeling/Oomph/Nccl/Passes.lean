import Oomph.Nccl.Accounting

namespace Oomph.Nccl

open Machine State

namespace State

/-- The requests of a queue that have been called, oldest first. -/
def callsOf (s : State) (key : Nat × Side) : List Nat :=
  (Event.calls s.history).reverse.filter (requestOf s.posts · = some (key.1, key.2.kind))

def readyAt (s : State) (key : Nat × Side) : List Nat :=
  (s.reqsAt key).queue.filter (s.isReady · = some true)

def unreadyAt (s : State) (key : Nat × Side) : List Nat :=
  (s.reqsAt key).queue.filter (s.isReady · = some false)

end State

variable {rank : RankType} {s t x y : State} {action : Action} {key : Nat × Side}
  {base : List Frame} {e : Nat}

theorem Effect.history (effect : Effect rank s action t) : Event.Extends s.history t.history := by
  cases effect with
  | call => exact .one _
  | sharedFound => exact .one _
  | returns => exact .one _
  | sharedReturns => exact .one _
  | _ => exact .same

theorem calls_of_same (effect : Effect rank s action t)
    (same : Event.calledOps t.history = Event.calledOps s.history) :
    Event.calls t.history = Event.calls s.history := by
  rcases effect.history.calls with equal | ⟨e, grown⟩
  · exact equal
  · rw [← Event.coe_calls, ← Event.coe_calls, grown] at same
    have length := congrArg Multiset.card same
    simp at length

theorem calls_of_call (effect : Effect rank s action t)
    (called : Event.calledOps t.history = e ::ₘ Event.calledOps s.history) :
    Event.calls t.history = e :: Event.calls s.history := by
  rw [← Event.coe_calls, ← Event.coe_calls] at called
  rcases effect.history.calls with equal | ⟨other, grown⟩
  · rw [equal] at called
    have length := congrArg Multiset.card called
    simp at length
  · rw [grown, ← Multiset.cons_coe] at called
    rw [grown, (Multiset.cons_inj_left _).mp called]

theorem callsOf_same (key : Nat × Side) (placed : s.Placed) (placing : Placing s action t)
    (calls : Event.calls t.history = Event.calls s.history) : t.callsOf key = s.callsOf key := by
  rw [callsOf, callsOf, calls]
  refine List.filter_congr fun op member => ?_
  have called : op ∈ Event.calledOps s.history := by
    rw [← Event.coe_calls, Multiset.mem_coe]
    exact List.mem_reverse.mp member
  have known := placed.reported op (.inr (.inl called))
  obtain ⟨more, grown⟩ := placing.posts
  rw [requestOf, requestOf, ← grown, List.getElem?_append_left known]

theorem callsOf_call (key : Nat × Side) (posts : t.posts = s.posts)
    (calls : Event.calls t.history = e :: Event.calls s.history) :
    t.callsOf key = s.callsOf key ++
      if requestOf s.posts e = some (key.1, key.2.kind) then [e] else [] := by
  rw [callsOf, callsOf, calls, posts, List.reverse_cons, List.filter_append]
  congr 1
  simp [List.filter_cons]

theorem State.Accounted.answered (accounted : s.Accounted) :
    ¬ ∃ op, s.Queued op ∧ s.isReady op = none := by
  rintro ⟨op, queued, failed⟩
  exact accounted.isReady (accounted.placed.queued op queued) failed

def Kept (s : State) (key : Nat × Side) (x : State) : Prop :=
  s.posts.length ≤ x.posts.length ∧ ∃ new, (x.reqsAt key).queue = s.unreadyAt key ++ new ∧
    ∀ op ∈ new, s.posts.length ≤ op

structure Partway (key : Nat × Side) (base : List Frame) (s x : State) : Prop where
  loop : ∃ above frame, x.stack = above ++ frame :: base ∧ frame.loop = some key ∧
    x.callsOf key ++ frame.waiting = s.callsOf key ++ s.readyAt key
  kept : Kept s key x

structure Over (key : Nat × Side) (base : List Frame) (s x : State) : Prop where
  stack : x.stack = key.2.next key.1 :: base
  calls : x.callsOf key = s.callsOf key ++ s.readyAt key
  kept : Kept s key x

theorem Kept.same (kept : Kept s key x) (posts : y.posts = x.posts)
    (queue : (y.reqsAt key).queue = (x.reqsAt key).queue) : Kept s key y := by
  obtain ⟨grown, new, split, later⟩ := kept
  exact ⟨posts ▸ grown, new, queue.trans split, later⟩

private theorem loop_under {above rest : List Frame} {frame head : Frame}
    (stack : above ++ frame :: base = head :: rest) (looping : frame.loop = some key)
    (other : head.loop ≠ some key) : ∃ middle, rest = middle ++ frame :: base := by
  cases above with
  | nil =>
    obtain ⟨rfl, -⟩ := List.cons.inj (show frame :: base = head :: rest from stack)
    exact absurd looping other
  | cons first above => exact ⟨above, (List.cons.inj stack).2.symm⟩

private theorem loop_cases {above rest : List Frame} {frame head : Frame} (looping : x.Looping)
    (stack : x.stack = above ++ frame :: base) (here : x.stack = head :: rest)
    (own : frame.loop = some key) :
    above = [] ∧ head = frame ∧ rest = base ∨
      head.loop ≠ some key ∧ ∃ middle, rest = middle ++ frame :: base := by
  cases above with
  | nil =>
    rw [here] at stack
    obtain ⟨rfl, rfl⟩ := List.cons.inj (show head :: rest = frame :: base from stack)
    exact .inl ⟨rfl, rfl, rfl⟩
  | cons first above =>
    rw [here] at stack
    obtain ⟨rfl, rfl⟩ := List.cons.inj (show head :: rest = first :: (above ++ frame :: base) from stack)
    refine .inr ⟨fun same => ?_, above, rfl⟩
    have single := looping.single
    rw [State.loops, here, List.filterMap_cons, same] at single
    refine (List.nodup_cons.mp single).1 (List.mem_filterMap.mpr ⟨frame, ?_, own⟩)
    simp

theorem Partway.step (partway : Partway key base s x) (accounted : x.Accounted)
    (smooth : action.isSmooth = true) (effect : Effect rank x action y) :
    Partway key base s y ∨ Over key base s y := by
  have placed := accounted.placed
  have placing := placing_of_effect placed.toSettled effect
  obtain ⟨⟨above, frame, stack, own, calls⟩, kept⟩ := partway
  have busy : (x.reqsAt key).inProgress = true := placed.looping.marked key
    (List.mem_filterMap.mpr ⟨frame, by simp [stack], own⟩)
  -- a step further in leaves the loop where it is
  have further (pushed : List Frame) (after : y.stack = pushed ++ frame :: base)
      (same : y.callsOf key = x.callsOf key) (kept : Kept s key y) :
      Partway key base s y ∨ Over key base s y :=
    .inl ⟨⟨pushed, frame, after, own, by rw [same, calls]⟩, kept⟩
  have others {comm : Nat} {side : Side} {reqs : RequestQueue} (different : (comm, side) ≠ key)
      (posts : y.posts = x.posts) (update : y.reqsAt = Function.update x.reqsAt (comm, side) reqs) :
      Kept s key y :=
    kept.same posts (by rw [update, Function.update_of_ne (Ne.symm different)])
  cases id placing with
  | keep top pushed rest before after short free _ posts reqs _ called =>
    have same := callsOf_same key placed placing (calls_of_same effect called)
    have stays := kept.same posts (by rw [reqs])
    cases top with
    | nil =>
      refine further (pushed ++ above) ?_ same stays
      rw [after, ← (show x.stack = rest from before), stack, List.append_assoc]
    | cons head top =>
      have empty : top = [] := List.length_eq_zero_iff.mp (by simpa using short)
      subst empty
      have other : head.loop ≠ some key := by
        rw [(free head List.mem_cons_self).2]
        exact (Option.some_ne_none key).symm
      obtain ⟨middle, rfl⟩ := loop_under (stack.symm.trans before) own other
      exact further (pushed ++ middle) (by rw [after, List.append_assoc]) same stays
  | lost head rest _ _ why =>
    rcases why with rfl | failed
    · cases smooth
    · exact absurd failed accounted.answered
  | made post _ after posts reqs _ called =>
    refine further above (after.trans stack) (callsOf_same key placed placing (calls_of_same effect called)) ?_
    obtain ⟨grown, new, split, later⟩ := kept
    refine ⟨by rw [posts]; simp; omega, ?_⟩
    rw [reqs key]
    split
    · refine ⟨new ++ [x.posts.length], by simp [RequestQueue.enqueue, split], fun op member => ?_⟩
      rcases List.mem_append.mp member with old | last
      · exact later op old
      · rw [List.mem_singleton.mp last]
        exact grown
    · exact ⟨new, split, later⟩
  | scanned comm side rest before idle after posts reqs _ called =>
    have different : (comm, side) ≠ key := by
      rintro rfl
      rw [busy] at idle
      cases idle
    obtain ⟨middle, rfl⟩ := loop_under (stack.symm.trans before) own (Option.some_ne_none key).symm
    exact further (_ :: middle) after
      (callsOf_same key placed placing (calls_of_same effect called)) (others different posts reqs)
  | scanFailed comm side rest queue _ _ _ failed => exact absurd failed accounted.answered
  | called comm side e waiting rest before after posts reqs _ called =>
    have home := placed.typed.taken _ (by rw [before]; exact List.mem_cons_self) (comm, side) rfl e
      List.mem_cons_self
    have more := callsOf_call key posts (calls_of_call effect called)
    have stays := kept.same posts (by rw [reqs])
    rcases loop_cases placed.looping stack before own with ⟨-, rfl, rfl⟩ | ⟨other, middle, rfl⟩
    · cases own
      refine .inl ⟨⟨[], _, after, rfl, ?_⟩, stays⟩
      rw [more, if_pos home, ← calls]
      simp
    · have foreign : ¬ requestOf x.posts e = some (key.1, key.2.kind) := fun same =>
        other (congrArg some (home_unique home same))
      rw [if_neg foreign, List.append_nil] at more
      exact further (_ :: middle) after more stays
  | returned comm side e waiting rest before after posts reqs _ called =>
    have same := callsOf_same key placed placing (calls_of_same effect called)
    have stays := kept.same posts (by rw [reqs])
    rcases loop_cases placed.looping stack before own with ⟨-, rfl, rfl⟩ | ⟨_, middle, rfl⟩
    · cases own
      exact .inl ⟨⟨[], _, after, rfl, by rw [same, ← calls]; rfl⟩, stays⟩
    · exact further (_ :: middle) after same stays
  | done comm side rest before after posts reqs _ called =>
    have same := callsOf_same key placed placing (calls_of_same effect called)
    rcases loop_cases placed.looping stack before own with ⟨-, rfl, rfl⟩ | ⟨other, middle, rfl⟩
    · cases own
      refine .inr ⟨after, ?_, kept.same posts (by rw [reqs, Function.update_self])⟩
      rw [same, ← calls]
      simp
    · have different : (comm, side) ≠ key := fun equal => other (congrArg some equal)
      exact further (_ :: middle) after same (others different posts reqs)
  | found e rest before after posts reqs shared called =>
    obtain ⟨middle, rfl⟩ := loop_under (stack.symm.trans before) own (Option.some_ne_none key).symm
    have more := callsOf_call key posts (calls_of_call effect called)
    have waits : e ∈ x.sharedWaiting := by
      rw [shared]
      exact Multiset.mem_cons_self _ _
    have foreign : ¬ requestOf x.posts e = some (key.1, key.2.kind) := fun same =>
      home_own same (placed.typed.shared e (.inl waits))
    rw [if_neg foreign, List.append_nil] at more
    exact further (_ :: middle) after more (kept.same posts (by rw [reqs]))

structure State.Orderly (s : State) : Prop extends s.Accounted where
  marked : ∀ key, s.MarkedOn key
  ordered : ∀ key, (s.reqsAt key).queue.Pairwise (· < ·)

theorem Placing.ordered (placing : Placing s action t) (accounted : s.Accounted)
    (ordered : (s.reqsAt key).queue.Pairwise (· < ·)) :
    (t.reqsAt key).queue.Pairwise (· < ·) := by
  cases placing with
  | keep _ _ _ _ _ _ _ _ _ reqs => rwa [reqs]
  | lost _ _ _ _ _ _ reqs => rwa [reqs]
  | made post _ _ _ reqs =>
    rw [reqs key]
    split
    · refine List.pairwise_append.mpr ⟨ordered, List.pairwise_singleton _ _, ?_⟩
      intro first member last single
      rw [List.mem_singleton.mp single]
      exact accounted.placed.queued first (queued_iff.mpr (.inl ⟨key, member⟩))
    · exact ordered
  | scanned comm side _ _ _ _ _ reqs =>
    rw [reqs]
    by_cases same : key = (comm, side)
    · subst same
      rw [Function.update_self]
      exact ordered.filter _
    · rwa [Function.update_of_ne same]
  | scanFailed _ _ _ _ _ _ _ failed => exact absurd failed accounted.answered
  | called _ _ _ _ _ _ _ _ reqs => rwa [reqs]
  | returned _ _ _ _ _ _ _ _ reqs => rwa [reqs]
  | done comm side _ _ _ _ reqs =>
    rw [reqs]
    by_cases same : key = (comm, side)
    · subst same
      rwa [Function.update_self]
    · rwa [Function.update_of_ne same]
  | found _ _ _ _ _ reqs => rwa [reqs]

theorem State.Orderly.initial : Orderly initial where
  toAccounted := .initial
  marked _ mark := by cases mark
  ordered _ := .nil

theorem State.Orderly.step (orderly : s.Orderly) (smooth : action.isSmooth = true)
    (effect : Effect rank s action t) : t.Orderly where
  toAccounted := orderly.toAccounted.step smooth effect
  marked key := by
    refine (orderly.marked key).step ?_ orderly.answered
      (placing_of_effect orderly.placed.toSettled effect)
    rintro rfl
    cases smooth
  ordered key := (placing_of_effect orderly.placed.toSettled effect).ordered orderly.toAccounted
    (orderly.ordered key)

theorem State.Orderly.of_reaches (reached : Reaches (Nccl.step rank) Smooth State.initial s) :
    s.Orderly :=
  reached.invariant State.Orderly .initial fun _ _ _ orderly smooth taken =>
    orderly.step smooth (step_effect taken)

/-- The step that scans a queue; until then only events fire. -/
theorem scan_of_effect (accounted : x.Accounted) (smooth : action.isSmooth = true)
    (effect : Effect rank x action y) (stack : x.stack = .queue key.1 key.2 :: base)
    (idle : (x.reqsAt key).inProgress = false) :
    (∃ event, action = .fire event) ∧ y.stack = x.stack ∨ Partway key base x y ∨
      Over key base x y := by
  have busy : ¬ x.inUserCode = true := by simp [State.inUserCode, stack]
  obtain ⟨comm, side⟩ := key
  cases effect with
  | skip _ _ c rest here found why =>
    cases stack.symm.trans here
    have reqs := reqsAt_of_found found side
    have empty : (x.reqsAt (comm, side)).queue = [] := by
      rw [reqs] at idle ⊢
      exact why.resolve_left (by simp [idle])
    refine .inr (.inr ⟨rfl, ?_, Nat.le_refl _, [], ?_, nofun⟩)
    · simp [callsOf, readyAt, empty]
    · rw [show (x.setStack (side.next comm :: base)).reqsAt = x.reqsAt from rfl]
      simp [unreadyAt, empty]
  | scan _ _ c rest here found free =>
    cases stack.symm.trans here
    have reqs := reqsAt_of_found found side
    refine .inr (.inl ⟨⟨[], _, rfl, rfl, ?_⟩, Nat.le_refl _, [], ?_, nofun⟩)
    · simp only [callsOf, readyAt, reqs, Frame.waiting_ready]
      rfl
    · rw [reqsAt_setReqs found rfl, Function.update_self, unreadyAt, reqs, List.append_nil]
  | scanFailed comm side c rest i req scanned _ found _ here failed =>
    exact absurd ⟨req, .inl ⟨comm, c, side, found, List.mem_of_getElem? here⟩, failed⟩
      accounted.answered
  | fire event => exact .inl ⟨⟨event, rfl⟩, rfl⟩
  | fail => cases smooth
  | callbackThrows => cases smooth
  | call _ _ _ _ _ here => cases stack.symm.trans here
  | done _ _ _ _ here => cases stack.symm.trans here
  | sharedBusy _ here => cases stack.symm.trans here
  | sharedNone _ here => cases stack.symm.trans here
  | sharedFound _ _ _ _ here => cases stack.symm.trans here
  | sharedFailed _ _ _ _ here => cases stack.symm.trans here
  | returns _ _ _ _ _ here => cases stack.symm.trans here
  | sharedReturns _ _ here => cases stack.symm.trans here
  | refused _ _ user => exact absurd user busy
  | getCommunicator user => exact absurd user busy
  | startGroup _ _ user => exact absurd user busy
  | startFailed _ _ user => exact absurd user busy
  | endEmpty _ _ _ user => exact absurd user busy
  | endGroup _ _ _ _ user => exact absurd user busy
  | endFailed _ _ _ _ user => exact absurd user busy
  | postGroup _ _ _ _ _ _ _ user => exact absurd user busy
  | postSingle _ _ _ _ _ _ user => exact absurd user busy
  | postFailed _ _ _ _ _ _ user => exact absurd user busy
  | progress _ _ user => exact absurd user busy
  | contextProgress user => exact absurd user busy
  | drop _ user => exact absurd user busy

end Oomph.Nccl
