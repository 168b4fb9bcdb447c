import Oomph.Nccl.Communicator

namespace Oomph.Nccl

inductive Effect (rank : RankType) (s : State) : Action → State → Prop
  | refused (action : Action) (thrown : Thrown) : s.inUserCode = true →
      Effect rank s action (s.throws thrown)
  | getCommunicator : s.inUserCode = true → Effect rank s .getCommunicator s.addCommunicator
  | startGroup (comm : Nat) (c : CommunicatorImpl) : s.inUserCode = true →
      s.comms[comm]? = some c → c.groupInfo = none →
      Effect rank s (.startGroup comm .ok) (s.ncclGroupStart.popEvent.openGroup comm s.nextEvent)
  | startFailed (comm : Nat) (c : CommunicatorImpl) : s.inUserCode = true →
      s.comms[comm]? = some c → c.groupInfo = none → s.pool = [] →
      Effect rank s (.startGroup comm .createFails) (s.ncclGroupStart.throws .cuda)
  | endEmpty (comm : Nat) (c : CommunicatorImpl) (g : Nat) : s.inUserCode = true →
      s.comms[comm]? = some c → c.groupInfo = some ⟨g, none⟩ →
      Effect rank s (.endGroup comm .ok) (s.ncclGroupEnd.resetGroup comm g)
  | endGroup (comm : Nat) (c : CommunicatorImpl) (g stream : Nat) : s.inUserCode = true →
      s.comms[comm]? = some c → c.groupInfo = some ⟨g, some stream⟩ →
      Effect rank s (.endGroup comm .ok)
        ((s.ncclGroupEnd.recordGroup g stream).resetGroup comm g)
  | endFailed (comm : Nat) (c : CommunicatorImpl) (g stream : Nat) : s.inUserCode = true →
      s.comms[comm]? = some c → c.groupInfo = some ⟨g, some stream⟩ →
      Effect rank s (.endGroup comm .recordFails) (s.ncclGroupEnd.throws .cuda)
  | postGroup (comm : Nat) (kind : Kind) (peer : RankType) (tag : TagType) (stream : Nat)
      (c : CommunicatorImpl) (info : GroupInfo) : s.inUserCode = true →
      s.comms[comm]? = some c → c.groupInfo = some info →
      Effect rank s (.post comm kind peer tag stream .ok)
        (s.postGroup comm kind peer tag stream info)
  | postSingle (comm : Nat) (kind : Kind) (peer : RankType) (tag : TagType) (stream : Nat)
      (c : CommunicatorImpl) : s.inUserCode = true → s.comms[comm]? = some c →
      c.groupInfo = none → peer ≠ rank →
      Effect rank s (.post comm kind peer tag stream .ok) (s.postSingle comm kind peer tag stream)
  | postFailed (comm : Nat) (kind : Kind) (peer : RankType) (tag : TagType) (stream : Nat)
      (c : CommunicatorImpl) : s.inUserCode = true → s.comms[comm]? = some c →
      c.groupInfo = none →
      Effect rank s (.post comm kind peer tag stream .recordFails)
        ((s.popEvent.pushEvent s.nextEvent).throws .cuda)
  | progress (comm : Nat) (c : CommunicatorImpl) : s.inUserCode = true →
      s.comms[comm]? = some c → c.groupInfo = none →
      Effect rank s (.progress comm) (s.setStack (.queue comm .sends :: s.stack))
  | contextProgress : s.inUserCode = true →
      Effect rank s .contextProgress (s.setStack (.context :: s.stack))
  | drop (op : Nat) : s.inUserCode = true → op < s.posts.length → (s.heap op).held = true →
      Effect rank s (.drop op) ((s.dropHandle op).sweep op)
  | skip (comm : Nat) (side : Side) (c : CommunicatorImpl) (rest : List Frame) :
      s.stack = .queue comm side :: rest → s.comms[comm]? = some c →
      (c.reqs side).inProgress = true ∨ (c.reqs side).queue = [] →
      Effect rank s .advance (s.setStack (side.next comm :: rest))
  | scan (comm : Nat) (side : Side) (c : CommunicatorImpl) (rest : List Frame) :
      s.stack = .queue comm side :: rest → s.comms[comm]? = some c →
      (c.reqs side).inProgress = false →
      Effect rank s .advance ((s.modifyComm comm (·.setReqs side
        { queue := (c.reqs side).queue.filter (s.isReady · = some false)
          inProgress := true })).setStack
        (.ready comm side ((c.reqs side).queue.filter (s.isReady · = some true)) :: rest))
  | scanFailed (comm : Nat) (side : Side) (c : CommunicatorImpl) (rest : List Frame) (i req : Nat)
      (scanned : Scan) : s.stack = .queue comm side :: rest → s.comms[comm]? = some c →
      (c.reqs side).inProgress = false → (c.reqs side).queue[i]? = some req →
      s.isReady req = none → scanned.Upto s.isReady (c.reqs side).queue i →
      Effect rank s .advance (((s.modifyComm comm (·.setReqs side
        { queue := scanned.queue, inProgress := true })).setStack rest).throws .cuda)
  | call (comm : Nat) (side : Side) (e : Nat) (waiting : List Nat) (rest : List Frame) :
      s.stack = .ready comm side (e :: waiting) :: rest →
      Effect rank s .advance
        (((s.releaseSelfRef e).callCb e).setStack (.callback comm side e waiting :: rest))
  | done (comm : Nat) (side : Side) (c : CommunicatorImpl) (rest : List Frame) :
      s.stack = .ready comm side [] :: rest → s.comms[comm]? = some c →
      Effect rank s .advance ((s.modifyComm comm
        (·.setReqs side { c.reqs side with inProgress := false })).setStack
          (side.next comm :: rest))
  | sharedBusy (rest : List Frame) : s.stack = .context :: rest → s.sharedInProgress = true →
      Effect rank s .advance (s.setStack rest)
  | sharedNone (rest : List Frame) : s.stack = .context :: rest → s.sharedInProgress = false →
      (∀ req ∈ s.sharedQueue, s.isReady req = some false) →
      Effect rank s .advance ((s.setShared (s.localQueue ++ s.sharedQueue) [] false).setStack rest)
  | sharedFound (rest : List Frame) (e : Nat) (skipped left : List Nat) :
      s.stack = .context :: rest → s.sharedInProgress = false →
      s.sharedQueue = skipped ++ e :: left → s.isReady e = some true →
      (∀ req ∈ skipped, s.isReady req = some false) →
      Effect rank s .advance
        ((((s.setShared (left ++ (s.localQueue ++ skipped)) [] false).releaseSelfRef e).callCb
          e).setStack (.shared e :: rest))
  | sharedFailed (rest : List Frame) (e : Nat) (skipped left : List Nat) :
      s.stack = .context :: rest → s.sharedInProgress = false →
      s.sharedQueue = skipped ++ e :: left → s.isReady e = none →
      (∀ req ∈ skipped, s.isReady req = some false) →
      Effect rank s .advance
        (((s.setShared left (s.localQueue ++ skipped) true).setStack rest).throws .cuda)
  | returns (comm : Nat) (side : Side) (op : Nat) (waiting : List Nat) (rest : List Frame) :
      s.stack = .callback comm side op waiting :: rest →
      Effect rank s .callbackReturns
        (((s.finishCb op).setStack (.ready comm side waiting :: rest)).sweep op)
  | sharedReturns (op : Nat) (rest : List Frame) : s.stack = .shared op :: rest →
      Effect rank s .callbackReturns (((s.finishCb op).setStack rest).sweep op)
  | callbackThrows (frame : Frame) (op : Nat) (rest : List Frame) : s.stack = frame :: rest →
      frame.running = some op →
      Effect rank s .callbackThrows (((s.setStack rest).sweep op).throws .callback)
  | fire (event : Nat) : s.cuda event = .notReady →
      Effect rank s (.fire event) (s.setQuery event .success)
  | fail (event : Nat) : Effect rank s (.fail event) (s.setQuery event .error)

variable {rank : RankType} {s t : State} {action : Action} {comm : Nat} {side : Side}
  {rest : List Frame}

namespace State

theorem groupInfo_of_inactive {c : CommunicatorImpl} (inactive : ¬ c.isGroupActive = true) :
    c.groupInfo = none := by
  simpa [CommunicatorImpl.isGroupActive] using inactive

private theorem startGroup_effect {answer : Answer} (user : s.inUserCode = true)
    (taken : s.startGroup comm answer = some t) : Effect rank s (.startGroup comm answer) t := by
  unfold startGroup at taken
  cases found : s.comms[comm]? with
  | none => simp [found] at taken
  | some c =>
    simp only [found] at taken
    split at taken
    · cases taken
      exact .refused _ _ user
    · rename_i inactive
      have closed := groupInfo_of_inactive inactive
      cases answer with
      | ok =>
        cases taken
        exact .startGroup comm c user found closed
      | ncclFails =>
        cases taken
        exact .refused _ _ user
      | createFails =>
        simp only [Option.ite_none_right_eq_some, Option.some.injEq] at taken
        obtain ⟨empty, rfl⟩ := taken
        exact .startFailed comm c user found closed empty
      | recordFails => cases taken

private theorem endGroup_effect {answer : Answer} (user : s.inUserCode = true)
    (taken : s.endGroup comm answer = some t) : Effect rank s (.endGroup comm answer) t := by
  unfold endGroup at taken
  cases found : s.comms[comm]? with
  | none => simp [found] at taken
  | some c =>
    cases opened : c.groupInfo with
    | none =>
      simp only [found, opened] at taken
      cases taken
      exact .refused _ _ user
    | some info =>
      obtain ⟨g, lastStream⟩ := info
      simp only [found, opened] at taken
      cases answer with
      | ok =>
        cases lastStream with
        | none =>
          cases taken
          exact .endEmpty comm c g user found opened
        | some stream =>
          cases taken
          exact .endGroup comm c g stream user found opened
      | ncclFails =>
        cases taken
        exact .refused _ _ user
      | createFails => cases taken
      | recordFails =>
        cases lastStream with
        | none => cases taken
        | some stream =>
          cases taken
          exact .endFailed comm c g stream user found opened

private theorem post_effect {kind : Kind} {peer : RankType} {tag : TagType} {stream : Nat}
    {answer : Answer} (user : s.inUserCode = true)
    (taken : s.post rank comm kind peer tag stream answer = some t) :
    Effect rank s (.post comm kind peer tag stream answer) t := by
  unfold post at taken
  cases found : s.comms[comm]? with
  | none => simp [found] at taken
  | some c =>
    simp only [found] at taken
    split at taken
    · cases taken
      exact .refused _ _ user
    · rename_i allowed
      cases opened : c.groupInfo with
      | none =>
        have other : peer ≠ rank := by
          intro same
          exact allowed ⟨same, by simp [CommunicatorImpl.isGroupActive, opened]⟩
        simp only [opened] at taken
        cases answer with
        | ok =>
          cases taken
          exact .postSingle comm kind peer tag stream c user found opened other
        | ncclFails =>
          cases taken
          exact .refused _ _ user
        | createFails =>
          simp only [Option.ite_none_right_eq_some, Option.some.injEq] at taken
          obtain ⟨_, rfl⟩ := taken
          exact .refused _ _ user
        | recordFails =>
          cases taken
          exact .postFailed comm kind peer tag stream c user found opened
      | some info =>
        simp only [opened] at taken
        cases answer with
        | ok =>
          cases taken
          exact .postGroup comm kind peer tag stream c info user found opened
        | ncclFails =>
          cases taken
          exact .refused _ _ user
        | createFails => cases taken
        | recordFails => cases taken

private theorem progress_effect (user : s.inUserCode = true)
    (taken : s.progress comm = some t) : Effect rank s (.progress comm) t := by
  unfold progress at taken
  cases found : s.comms[comm]? with
  | none => simp [found] at taken
  | some c =>
    simp only [found] at taken
    split at taken
    · cases taken
      exact .refused _ _ user
    · rename_i inactive
      cases taken
      exact .progress comm c user found (groupInfo_of_inactive inactive)

private theorem progressQueue_effect (stack : s.stack = .queue comm side :: rest)
    (taken : s.progressQueue comm side rest = some t) : Effect rank s .advance t := by
  unfold progressQueue at taken
  cases found : s.comms[comm]? with
  | none => simp [found] at taken
  | some c =>
    simp only [found] at taken
    split at taken
    · rename_i busy
      cases taken
      exact .skip comm side c rest stack found (.inl busy)
    · rename_i idle
      rw [Bool.not_eq_true] at idle
      split at taken
      · rename_i empty
        cases taken
        exact .skip comm side c rest stack found (.inr empty)
      · cases scanned : scan s.isReady (c.reqs side).queue with
        | ok after =>
          obtain ⟨left, ready⟩ := scan_ok scanned
          simp only [scanned, left, ready, Option.some.injEq] at taken
          subst taken
          exact .scan comm side c rest stack found idle
        | error after =>
          obtain ⟨i, req, here, failed, upto⟩ := scan_error scanned
          simp only [scanned, Option.some.injEq] at taken
          subst taken
          exact .scanFailed comm side c rest i req after stack found idle here failed upto

private theorem progressShared_effect (stack : s.stack = .context :: rest) :
    Effect rank s .advance (s.progressShared rest) := by
  unfold progressShared
  split
  · exact .sharedBusy rest stack ‹_›
  · rename_i idle
    rw [Bool.not_eq_true] at idle
    cases popped : popReady s.isReady s.sharedQueue s.localQueue with
    | none skipped =>
      obtain ⟨rfl, waits⟩ := popReady_none popped
      exact .sharedNone rest stack idle waits
    | found e queue skipped =>
      obtain ⟨ready, before, whole, rfl, waits⟩ := popReady_found popped
      exact .sharedFound rest e before queue stack idle whole ready waits
    | threw queue skipped =>
      obtain ⟨e, before, whole, rfl, failed, waits⟩ := popReady_threw popped
      exact .sharedFailed rest e before queue stack idle whole failed waits

private theorem advance_effect (taken : s.advance = some t) : Effect rank s .advance t := by
  unfold advance at taken
  split at taken
  · exact progressQueue_effect ‹_› taken
  · rename_i comm side waiting rest stack
    cases waiting with
    | nil =>
      simp only [visitReady, Option.map_eq_some_iff] at taken
      obtain ⟨c, found, rfl⟩ := taken
      exact .done comm side c rest stack found
    | cons e waiting =>
      cases taken
      exact .call comm side e waiting rest stack
  · cases taken
    exact progressShared_effect ‹_›
  · cases taken

end State

theorem step_effect (taken : step rank s action = some t) : Effect rank s action t := by
  have inside {after : Option State} (called : s.call after = some t) :
      s.inUserCode = true ∧ after = some t := by
    simpa [State.call] using called
  cases action with
  | getCommunicator =>
    obtain ⟨user, done⟩ := inside taken
    cases done
    exact .getCommunicator user
  | startGroup comm answer =>
    obtain ⟨user, done⟩ := inside taken
    exact State.startGroup_effect user done
  | endGroup comm answer =>
    obtain ⟨user, done⟩ := inside taken
    exact State.endGroup_effect user done
  | post comm kind peer tag stream answer =>
    obtain ⟨user, done⟩ := inside taken
    exact State.post_effect user done
  | progress comm =>
    obtain ⟨user, done⟩ := inside taken
    exact State.progress_effect user done
  | contextProgress =>
    obtain ⟨user, done⟩ := inside taken
    cases done
    exact .contextProgress user
  | drop op =>
    obtain ⟨user, done⟩ := inside taken
    simp only [Option.ite_none_right_eq_some, Option.some.injEq] at done
    obtain ⟨⟨known, held⟩, rfl⟩ := done
    exact .drop op user known held
  | callbackReturns =>
    simp only [step, State.returnCallback] at taken
    split at taken
    · cases taken
      exact .returns _ _ _ _ _ ‹_›
    · cases taken
      exact .sharedReturns _ _ ‹_›
    · cases taken
  | callbackThrows =>
    simp only [step, State.throwCallback] at taken
    split at taken
    · cases taken
      exact .callbackThrows _ _ _ ‹_› rfl
    · cases taken
      exact .callbackThrows _ _ _ ‹_› rfl
    · cases taken
  | advance => exact State.advance_effect taken
  | fire event =>
    simp only [step, Option.ite_none_right_eq_some, Option.some.injEq] at taken
    obtain ⟨pending, rfl⟩ := taken
    exact .fire event pending
  | fail event =>
    cases taken
    exact .fail event

end Oomph.Nccl
