import Oomph.Libfabric.Communicator

namespace Oomph.Libfabric

inductive Control (config : Config) (s : State) (thread : Nat) :
    Act → List Frame → List Frame → Prop
  | inject (comm size : Nat) (dst : RankType) (tag : TagType) (stack : List Frame) :
      inUserCode stack = true → s.usable thread comm = true →
      Control config s thread (.send comm dst tag size) stack
        (.call (some comm) (.inject dst tag) :: stack)
  | progress (comm : Nat) (stack : List Frame) :
      inUserCode stack = true → s.usable thread comm = true →
      Control config s thread (.progress comm) stack
        (.work (some comm) .sends false :: .call (some comm) (.clear .sends false) :: stack)
  | contextProgress (stack : List Frame) : inUserCode stack = true →
      Control config s thread .contextProgress stack
        (.work none .sends false :: .call none .leave :: stack)
  | destroy (comm : Nat) (stack : List Frame) :
      inUserCode stack = true → s.usable thread comm = true →
      Control config s thread (.destroy comm) stack
        (.call (some comm) (.clear .sends true) :: stack)
  | again (user : Option Nat) (code : Code) (rest : List Frame) :
      Control config s thread (.fi .again) (.call user code :: rest)
        (.work user .sends false :: .call user code :: rest)
  | nothing (frame : Frame) (user : Option Nat) (side : Side) (rest : List Frame) :
      frame.poll = some (user, side) →
      Control config s thread (.read .nothing) (frame :: rest)
        (frame.afterPoll config 0 ++ rest)
  | inplace (user : Option Nat) (side : Side) (op : Nat) (entries : List Nat) (post : Post)
      (c : CommunicatorImpl) (via : Via) (rest : List Frame) :
      s.posts[op]? = some post → s.comms[post.comm]? = some c → c.alive = true →
      s.inplaceVia config user post c = some via →
      Control config s thread .advance (.dispatch user side (op :: entries) :: rest)
        (.invoke op via :: .dispatch user side entries :: rest)
  | queued (user : Option Nat) (side : Side) (op : Nat) (entries : List Nat) (post : Post)
      (c : CommunicatorImpl) (rest : List Frame) :
      s.posts[op]? = some post → s.comms[post.comm]? = some c → c.alive = true →
      s.inplaceVia config user post c = none →
      Control config s thread .advance (.dispatch user side (op :: entries) :: rest)
        (.park op side :: .dispatch user side entries :: rest)
  | dispatched (user : Option Nat) (side : Side) (rest : List Frame) :
      Control config s thread .advance (.dispatch user side [] :: rest) rest
  | left (user : Option Nat) (rest : List Frame) :
      Control config s thread .advance (.call user .leave :: rest) rest
  | nextQueue (comm : Nat) (stage next : Drain) (destroying : Bool) (rest : List Frame) :
      s.cbQueue comm stage = [] → stage.next = some next →
      Control config s thread .advance (.call (some comm) (.clear stage destroying) :: rest)
        (.call (some comm) (.clear next destroying) :: rest)
  | cleared (comm : Nat) (rest : List Frame) : s.cbQueue comm .shared = [] →
      Control config s thread .advance (.call (some comm) (.clear .shared false) :: rest) rest

inductive Effect (config : Config) (s : State) (thread : Nat) : Act → State → Prop
  | refuse (op : Nat) (accepted : Bool) :
      Effect config s thread (.cancel op accepted) (s.returnCancel op false)
  | fail (act : Act) (fault : Fault) : Effect config s thread act (s.fail fault)
  | control (act : Act) (stack moved : List Frame) : s.threads[thread]? = some stack →
      Control config s thread act stack moved →
      Effect config s thread act (s.setStack thread moved)
  | getCommunicator : Effect config s thread .getCommunicator (s.getCommunicator thread)
  | post (act : Act) (comm : Nat) (kind : Kind) (rank : RankType) (tag : TagType)
      (stack : List Frame) :
      s.threads[thread]? = some stack → inUserCode stack = true → s.usable thread comm = true →
      Effect config s thread act (s.beginPost thread comm kind rank tag stack)
  | runInject (comm : Nat) (dst : RankType) (tag : TagType) (c : CommunicatorImpl)
      (rest : List Frame) :
      s.threads[thread]? = some (.call (some comm) (.inject dst tag) :: rest) →
      s.comms[comm]? = some c → c.recursionDepth ≤ config.recursionDepth →
      Effect config s thread (.fi .success) (s.runInject thread comm dst tag rest)
  | queueInject (comm : Nat) (dst : RankType) (tag : TagType) (c : CommunicatorImpl)
      (rest : List Frame) :
      s.threads[thread]? = some (.call (some comm) (.inject dst tag) :: rest) →
      s.comms[comm]? = some c → config.recursionDepth < c.recursionDepth →
      Effect config s thread (.fi .success) (s.queueInject thread comm dst tag rest)
  | give (user : Option Nat) (op : Nat) (post : Post) (rest : List Frame) :
      s.threads[thread]? = some (.call user (.post op) :: rest) → s.posts[op]? = some post →
      Effect config s thread (.fi .success)
        ((s.give op post.kind).setStack thread (State.afterPost user post.kind ++ rest))
  | take (frame : Frame) (user : Option Nat) (side : Side) (ops : List Nat)
      (rest : List Frame) :
      s.threads[thread]? = some (frame :: rest) → frame.poll = some (user, side) →
      (ops : Multiset Nat) ≤ s.posted side →
      Effect config s thread (.read (.entries ops)) ((s.take side ops).setStack thread
        (.dispatch user side ops :: (frame.afterPoll config ops.length ++ rest)))
  | canceled (frame : Frame) (user : Option Nat) (op : Nat) (post : Post) (rest : List Frame) :
      s.threads[thread]? = some (frame :: rest) → frame.poll = some (user, .recvs) →
      op ∈ s.rx → op ∈ s.canceling → s.posts[op]? = some post →
      (post.kind ≠ .sharedRecv → s.isAlive post.comm = true) →
      Effect config s thread (.read (.canceled op)) ((s.handleCancelled op post).setStack thread
        (frame.afterPoll config 0 ++ rest))
  | park (op : Nat) (side : Side) (post : Post) (rest : List Frame) :
      s.threads[thread]? = some (.park op side :: rest) → s.posts[op]? = some post →
      s.isAlive post.comm = true →
      Effect config s thread .advance ((s.pushCb post side op).setStack thread rest)
  | start (op : Nat) (via : Via) (rest : List Frame) :
      s.threads[thread]? = some (.invoke op via :: rest) →
      Effect config s thread .advance (s.start thread op via rest)
  | returnCallback (op : Nat) (via : Via) (rest : List Frame) :
      s.threads[thread]? = some (.callback op via :: rest) →
      Effect config s thread .callbackReturns (s.returnCallback thread op via rest)
  | pop (comm : Nat) (stage : Drain) (destroying : Bool) (op : Nat) (queue : List Nat)
      (rest : List Frame) :
      s.threads[thread]? = some (.call (some comm) (.clear stage destroying) :: rest) →
      s.cbQueue comm stage = op :: queue →
      Effect config s thread .advance ((s.setCbQueue comm stage queue).setStack thread
        (.invoke op (.queue (State.drainUser comm stage)) ::
          .call (some comm) (.clear stage destroying) :: rest))
  | destroyed (comm : Nat) (rest : List Frame) :
      s.threads[thread]? = some (.call (some comm) (.clear .shared true) :: rest) →
      s.cbQueue comm .shared = [] →
      Effect config s thread .advance
        ((s.modifyComm comm fun c => { c with alive := false }).setStack thread rest)
  | withdraw (user : Option Nat) (op : Nat) (queue : List Nat) (rest : List Frame) :
      s.threads[thread]? = some (.call user (.scan op) :: rest) →
      popUntil op (s.cancelQueue user) [] = (true, queue) →
      Effect config s thread .advance (s.withdraw thread user op queue rest)
  | rescan (user : Option Nat) (op : Nat) (queue : List Nat) (rest : List Frame) :
      s.threads[thread]? = some (.call user (.scan op) :: rest) →
      popUntil op (s.cancelQueue user) [] = (false, queue) →
      Effect config s thread .advance
        ((s.setCancelQueue user queue).setStack thread (.call user (.cancel op) :: rest))
  | beginCancel (op : Nat) (post : Post) (stack : List Frame) :
      s.threads[thread]? = some stack → inUserCode stack = true → s.posts[op]? = some post →
      post.inplace = false → post.kind ≠ .send →
      (post.kind = .recv → s.usable thread post.comm = true) → (s.heap op).ready = false →
      Effect config s thread (.cancel op true) (s.beginCancel thread op post stack)

variable {config : Config} {s t : State} {thread : Nat} {stack rest : List Frame}

section

variable (found : s.threads[thread]? = some stack)
include found

private theorem executeFi_effect {answer : FiAnswer}
    (taken : s.executeFi config thread answer stack = some t) :
    Effect config s thread (.fi answer) t := by
  unfold State.executeFi at taken
  split at taken
  · rename_i comm dst tag rest
    cases lookup : s.comms[comm]? with
    | none => simp [lookup] at taken
    | some c =>
      simp only [lookup] at taken
      split at taken
      · cases taken
        exact .queueInject comm dst tag c rest found lookup ‹_›
      · cases taken
        exact .runInject comm dst tag c rest found lookup (Nat.le_of_not_lt ‹_›)
  · rename_i user op rest
    cases lookup : s.posts[op]? with
    | none => simp [lookup] at taken
    | some post =>
      simp only [lookup] at taken
      cases taken
      exact .give user op post rest found lookup
  · cases taken
    exact .control _ _ _ found (.again _ _ _)
  · cases taken
    exact .control _ _ _ found (.again _ _ _)
  · cases taken
    exact .fail _ _
  · cases taken
    exact .fail _ _
  · cases taken

private theorem readCq_effect {answer : CqRead}
    (taken : s.readCq config thread answer stack = some t) :
    Effect config s thread (.read answer) t := by
  cases stack with
  | nil => cases taken
  | cons frame rest =>
    unfold State.readCq at taken
    cases polled : frame.poll with
    | none => simp [polled] at taken
    | some poll =>
      obtain ⟨user, side⟩ := poll
      simp only [polled] at taken
      cases answer with
      | nothing =>
        cases taken
        exact .control _ _ _ found (.nothing frame user side rest polled)
      | entries ops =>
        simp only [Option.ite_none_right_eq_some] at taken
        obtain ⟨⟨_, _, within⟩, taken⟩ := taken
        cases taken
        exact .take frame user side ops rest found polled within
      | canceled op =>
        simp only [Option.ite_none_right_eq_some] at taken
        obtain ⟨⟨received, waiting, asked⟩, taken⟩ := taken
        subst received
        cases lookup : s.posts[op]? with
        | none => simp [lookup] at taken
        | some post =>
          simp only [lookup] at taken
          split at taken
          · cases taken
            exact .fail _ _
          · rename_i usable
            cases taken
            refine .canceled frame user op post rest found polled waiting asked lookup ?_
            intro own
            simpa [own] using usable
      | failed =>
        cases taken
        exact .fail _ _

private theorem handle_effect {user : Option Nat} {side : Side} {op : Nat} {entries : List Nat}
    (shape : stack = .dispatch user side (op :: entries) :: rest)
    (taken : s.handle config thread user side op entries rest = some t) :
    Effect config s thread .advance t := by
  subst shape
  unfold State.handle at taken
  cases lookup : s.posts[op]? with
  | none => simp [lookup] at taken
  | some post =>
    cases owner : s.comms[post.comm]? with
    | none => simp [lookup, owner] at taken
    | some c =>
      simp only [lookup, owner] at taken
      split at taken
      · rename_i alive
        cases path : s.inplaceVia config user post c with
        | none =>
          simp only [path] at taken
          cases taken
          exact .control _ _ _ found
            (.queued user side op entries post c rest lookup owner alive path)
        | some via =>
          simp only [path] at taken
          cases taken
          exact .control _ _ _ found
            (.inplace user side op entries post c via rest lookup owner alive path)
      · cases taken
        exact .fail _ _

private theorem drain_effect {comm : Nat} {stage : Drain} {destroying : Bool}
    (shape : stack = .call (some comm) (.clear stage destroying) :: rest) :
    Effect config s thread .advance (s.drain thread comm stage destroying rest) := by
  subst shape
  unfold State.drain
  split
  · rename_i op queue waiting
    exact .pop comm stage destroying op queue rest found waiting
  · rename_i empty
    split
    · rename_i next follows
      exact .control _ _ _ found (.nextQueue comm stage next destroying rest empty follows)
    · rename_i last
      cases stage with
      | sends => cases last
      | recvs => cases last
      | shared =>
        cases destroying with
        | true => exact .destroyed comm rest found empty
        | false => exact .control _ _ _ found (.cleared comm rest empty)

private theorem park_effect {op : Nat} {side : Side} (shape : stack = .park op side :: rest)
    (taken : s.park thread op side rest = some t) : Effect config s thread .advance t := by
  subst shape
  unfold State.park at taken
  cases lookup : s.posts[op]? with
  | none => simp [lookup] at taken
  | some post =>
    simp only [lookup] at taken
    split at taken
    · cases taken
      exact .park op side post rest found lookup ‹_›
    · cases taken
      exact .fail _ _

private theorem scan_effect {user : Option Nat} {op : Nat}
    (shape : stack = .call user (.scan op) :: rest) :
    Effect config s thread .advance (s.scanCancel thread user op rest) := by
  subst shape
  unfold State.scanCancel
  split
  · rename_i queue scanned
    exact .withdraw user op queue rest found scanned
  · rename_i queue scanned
    exact .rescan user op queue rest found scanned

private theorem advance_effect (taken : s.advance config thread stack = some t) :
    Effect config s thread .advance t := by
  unfold State.advance at taken
  split at taken
  · exact handle_effect found rfl taken
  · cases taken
    exact .control _ _ _ found (.dispatched _ _ _)
  · cases taken
    exact .start _ _ _ found
  · exact park_effect found rfl taken
  · cases taken
    exact drain_effect found rfl
  · cases taken
    exact scan_effect found rfl
  · cases taken
    exact .control _ _ _ found (.left _ _)
  · cases taken

private theorem cancel_effect {op : Nat} {accepted : Bool} (user : inUserCode stack = true)
    (taken : s.userCall config thread stack (.cancel op accepted) = some t) :
    Effect config s thread (.cancel op accepted) t := by
  simp only [State.userCall] at taken
  cases lookup : s.posts[op]? with
  | none => simp [lookup] at taken
  | some post =>
    simp only [lookup] at taken
    split at taken
    · cases taken
    · rename_i permitted
      split at taken
      · cases taken
        exact .refuse op accepted
      · rename_i proceeds
        cases taken
        push Not at permitted proceeds
        obtain ⟨waits, accept⟩ := proceeds
        obtain rfl : accepted = true := by simpa using accept
        obtain ⟨made, receive, usable⟩ := permitted
        refine .beginCancel op post stack found user lookup (by simpa using made) receive ?_
          (by simpa using waits)
        intro received
        simpa using usable received

private theorem userCall_effect {act : Act} (user : inUserCode stack = true)
    (taken : s.userCall config thread stack act = some t) : Effect config s thread act t := by
  cases act with
  | getCommunicator => cases taken; exact .getCommunicator
  | send comm dst tag size =>
    simp only [State.userCall, Option.ite_none_right_eq_some] at taken
    obtain ⟨usable, taken⟩ := taken
    split at taken
    · cases taken
      exact .control _ _ _ found (.inject comm size dst tag stack user usable)
    · cases taken
      exact .post _ comm .send dst tag stack found user usable
  | recv comm src tag =>
    simp only [State.userCall, Option.ite_none_right_eq_some] at taken
    obtain ⟨usable, taken⟩ := taken
    cases taken
    exact .post _ comm .recv src tag stack found user usable
  | sharedRecv comm src tag =>
    simp only [State.userCall, Option.ite_none_right_eq_some] at taken
    obtain ⟨usable, taken⟩ := taken
    cases taken
    exact .post _ comm .sharedRecv src tag stack found user usable
  | progress comm =>
    simp only [State.userCall, Option.ite_none_right_eq_some] at taken
    obtain ⟨usable, taken⟩ := taken
    cases taken
    exact .control _ _ _ found (.progress comm stack user usable)
  | contextProgress =>
    cases taken
    exact .control _ _ _ found (.contextProgress stack user)
  | cancel op accepted => exact cancel_effect found user taken
  | destroy comm =>
    simp only [State.userCall, Option.ite_none_right_eq_some] at taken
    obtain ⟨usable, taken⟩ := taken
    split at taken
    · cases taken
      exact .fail _ _
    · cases taken
      exact .control _ _ _ found (.destroy comm stack user usable)
  | _ => cases taken

end

theorem step_effect {action : Action} (taken : step config s action = some t) :
    Effect config s action.thread action.act t := by
  unfold step at taken
  split at taken
  · cases taken
  · cases found : s.threads[action.thread]? with
    | none => simp [found] at taken
    | some stack =>
      simp only [found] at taken
      split at taken
      · rename_i answer act
        rw [act]
        exact executeFi_effect found taken
      · rename_i answer act
        rw [act]
        exact readCq_effect found taken
      · rename_i act
        rw [act]
        exact advance_effect found taken
      · rename_i act
        rw [act]
        split at taken
        · cases taken
          exact .returnCallback _ _ _ found
        · cases taken
      · split at taken
        · exact userCall_effect found ‹_› taken
        · cases taken

end Oomph.Libfabric
