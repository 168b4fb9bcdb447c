import Oomph.Ucx.Effects
import Oomph.Machine.Run
import Oomph.Machine.Stacks

namespace Oomph.Ucx

open Machine State

def Code.posting : Code → Bool
  | .send _ _ => true
  | .lock _ _ _ => true
  | .post _ _ _ => true
  | .early _ _ _ _ => true
  | .run _ _ _ => true
  | .defer _ _ _ _ => true
  | _ => false

/-- The communicator inside whose call a callback runs, if that is known. -/
def Via.caller : Via → Option Nat
  | .immediate comm => some comm
  | .early user => user
  | .sent comm => some comm
  | .received _ => none
  | .queue user => user

inductive Restack (config : Config) (s : State) (thread : Nat) (act : Act) :
    List Frame → List Frame → Prop
  | control (stack moved : List Frame) : Control config s thread act stack moved →
      Restack config s thread act stack moved
  | lock (stack moved : List Frame) : Locks config stack moved →
      Restack config s thread act stack moved
  | unlock (user : Option Nat) (tries : Nat) (more : Bool) (rest : List Frame) :
      Restack config s thread act (.call user (.recvLoop tries) :: rest)
        (.call user (if more then .tryLock tries else .clear (.first user)) :: rest)
  | posted (comm : Nat) (code : Code) (rest : List Frame) : code.posting = true →
      Restack config s thread act (.call (some comm) code :: rest) rest
  | early (comm : Nat) (code next : Code) (rest : List Frame) : code.posting = true →
      next.posting = true →
      Restack config s thread act (.call (some comm) code :: rest) (.call (some comm) next :: rest)
  | inplace (comm op : Nat) (code : Code) (via : Via) (rest : List Frame) : code.posting = true →
      via.inplace = true → (∀ caller, via.caller = some caller → caller = comm) →
      Restack config s thread act (.call (some comm) code :: rest)
        (.callback op via :: .call (some comm) .leave :: rest)
  | sendOk (comm op : Nat) (request : UcxRequest) (rest : List Frame) :
      Restack config s thread act (.call (some comm) .sendLoop :: rest)
        (.invoke op (.sent comm) :: .release request :: .call (some comm) .sendLoop :: rest)
  | sendFailed (comm : Nat) (request : UcxRequest) (rest : List Frame) :
      Restack config s thread act (.call (some comm) .sendLoop :: rest)
        (.release request :: .call (some comm) .sendLoop :: rest)
  | recvDirect (user : Option Nat) (code : Code) (op comm : Nat) (rest : List Frame) :
      code.receives = true → config.threadSafe = false →
      Restack config s thread act (.call user code :: rest)
        (.invoke op (.received comm) :: .call user code :: rest)
  | recvFailed (user : Option Nat) (code : Code) (request : UcxRequest) (rest : List Frame) :
      code.receives = true → act = .ucx (.callback request .failed) → request.worker = none →
      Restack config s thread act (.call user code :: rest) rest
  | start (op : Nat) (via : Via) (rest : List Frame) :
      Restack config s thread act (.invoke op via :: rest) (.callback op via :: rest)
  | returnCallback (op : Nat) (via : Via) (rest : List Frame) :
      Restack config s thread act (.callback op via :: rest) rest
  | release (request : UcxRequest) (rest : List Frame) :
      Restack config s thread act (.release request :: rest) rest
  | pop (user : Option Nat) (stage : Drain) (op : Nat) (rest : List Frame) :
      Restack config s thread act (.call user (.clear stage) :: rest)
        (.invoke op (.queue stage.user) :: .call user (.clear stage) :: rest)

variable {config : Config} {s t : State} {thread : Nat} {stack moved rest : List Frame}
  {act : Act} {frame : Frame} {op comm : Nat} {user : Option Nat}

theorem effect_moves (effect : Effect config s thread act t) :
    Moves (Restack config s thread act) thread s.threads t.threads := by
  cases effect with
  | stale => exact .same
  | nullSend => exact .same
  | badFree => exact .same
  | getCommunicator => exact .same
  | control act stack moved found control => exact .move stack moved found (.control _ _ control)
  | lock stack moved found free locks => exact .move stack moved found (.lock _ _ locks)
  | unlock user tries more rest found => exact .move _ _ found (.unlock user tries more rest)
  | runSend comm dst tag c rest found =>
    refine .move _ _ found (.inplace comm _ _ _ rest rfl rfl fun caller same => ?_)
    exact (Option.some.inj same).symm
  | queueSend comm dst tag c rest found => exact .move _ _ found (.posted comm _ rest rfl)
  | submitSend comm dst tag ptr rest found => exact .move _ _ found (.posted comm _ rest rfl)
  | submitRecv comm kind src tag ptr rest found => exact .move _ _ found (.posted comm _ rest rfl)
  | early comm kind src tag ptr rest found => exact .move _ _ found (.early comm _ _ rest rfl rfl)
  | truncated comm kind src tag ptr rest found => exact .move _ _ found (.posted comm _ rest rfl)
  | runEarly comm kind src tag rest found =>
    refine .move _ _ found (.inplace comm _ _ _ rest rfl rfl fun caller same => ?_)
    cases kind with
    | sharedRecv => cases same
    | _ => exact (Option.some.inj same).symm
  | deferEarly comm kind src tag ptr rest found =>
    exact .move _ _ found (.posted comm _ rest rfl)
  | sendOk comm request op rest found => exact .move _ _ found (.sendOk comm op request rest)
  | sendFailed comm request rest found => exact .move _ _ found (.sendFailed comm request rest)
  | recvOwn => exact .same
  | recvDirect user code request op shared rest found receives _ _ _ single =>
    exact .move _ _ found (.recvDirect user code op _ rest receives single)
  | recvShared => exact .same
  | recvEmpty => exact .same
  | recvFailed user code request rest found receives member worker =>
    exact .move _ _ found (.recvFailed user code request rest receives rfl worker)
  | start op via rest found => exact .move _ _ found (.start op via rest)
  | returnCallback op via rest found =>
    have threads : (s.returnCallback thread op via rest).threads = s.threads.set thread rest := by
      unfold State.returnCallback
      split <;> rfl
    rw [threads]
    exact .move _ _ found (.returnCallback op via rest)
  | release request rest found => exact .move _ _ found (.release request rest)
  | pop user stage op queue rest found =>
    exact .move _ _ found (.pop user stage op rest)

theorem Restack.tops (restack : Restack config s thread act stack moved) : Tops stack moved := by
  cases restack with
  | control stack moved control =>
    cases control with
    | send => exact .push [_] _
    | recv => exact .push [_] _
    | progress => exact .push [_] _
    | contextProgress => exact .push [_] _
    | sendError => exact .replace _ [] _
    | recvError => exact .replace _ [] _
    | left => exact .replace _ [] _
    | cleared => exact .replace _ [] _
    | _ => exact .replace _ [_] _
  | lock stack moved locks => cases locks <;> exact .replace _ [_] _
  | unlock => exact .replace _ [_] _
  | posted => exact .replace _ [] _
  | early => exact .replace _ [_] _
  | inplace => exact .replace _ [_, _] _
  | sendOk => exact .push [_, _] _
  | sendFailed => exact .push [_] _
  | recvDirect => exact .push [_] _
  | recvFailed => exact .replace _ [] _
  | start => exact .replace _ [_] _
  | returnCallback => exact .replace _ [] _
  | release => exact .replace _ [] _
  | pop => exact .push [_] _

def NoCancel (_ : State) (action : Action) : Prop :=
  action.act.isCancel = false

instance (s : State) (action : Action) : Decidable (NoCancel s action) :=
  inferInstanceAs (Decidable (action.act.isCancel = false))

theorem Restack.uncanceled (restack : Restack config s thread act stack moved)
    (plain : ∀ frame ∈ stack, frame.isCancel = false) : ∀ frame ∈ moved, frame.isCancel = false := by
  cases restack with
  | control stack moved control =>
    cases control with
    | sendProgressed comm more rest =>
      have others := (List.forall_mem_cons.mp plain).2
      refine List.forall_mem_cons.mpr ⟨?_, others⟩
      cases more with
      | true => rfl
      | false =>
        simp only [Bool.false_eq_true, if_false, State.afterSendLoop]
        split <;> rfl
    | recvProgressed comm tries more rest =>
      have others := (List.forall_mem_cons.mp plain).2
      cases more <;> exact List.forall_mem_cons.mpr ⟨rfl, others⟩
    | _ => simp_all [Frame.isCancel]
  | lock stack moved locks => cases locks <;> simp_all [Frame.isCancel]
  | unlock user tries more rest =>
    have others := (List.forall_mem_cons.mp plain).2
    cases more <;> exact List.forall_mem_cons.mpr ⟨rfl, others⟩
  | early comm code next rest posting follows =>
    have others := (List.forall_mem_cons.mp plain).2
    refine List.forall_mem_cons.mpr ⟨?_, others⟩
    cases next <;> trivial
  | _ => simp_all [Frame.isCancel]

theorem State.Uncanceled.effect (uncanceled : s.Uncanceled)
    (effect : Effect config s thread act t) : t.Uncanceled where
  frames := (effect_moves effect).forall_mem (fun _ _ restack => restack.uncanceled) uncanceled.frames
  canceling := by
    have none := uncanceled.canceling
    cases effect with
    | returnCallback op via =>
      unfold State.returnCallback
      split <;> exact none
    | sendOk => simp [none]
    | sendFailed => simp [none]
    | recvOwn => simp [none]
    | recvDirect => simp [none]
    | recvShared => simp [none]
    | recvEmpty => simp [none]
    | recvFailed => simp [none]
    | _ => exact none

theorem State.Uncanceled.initial (threads : Nat) : (State.initial threads).Uncanceled where
  frames stack member frame inside := by
    rw [List.eq_of_mem_replicate member] at inside
    cases inside
  canceling := rfl

namespace Frame

/-- The communicator inside whose call a frame works, if there has to be one. -/
def needs : Frame → Option Nat
  | .callback _ via => via.caller
  | .invoke _ via => via.caller
  | _ => none

def serves : Frame → Option Nat
  | .call user _ => user
  | _ => none

def Coherent : Frame → Prop
  | .call user (.clear stage) => stage.user = none ∨ stage.user = user
  | _ => True

end Frame

structure Inside (stack : List Frame) : Prop where
  sheltered : Sheltered Frame.needs Frame.serves stack
  coherent : ∀ frame ∈ stack, frame.Coherent

theorem Drain.next_user {stage next : Drain} (follows : stage.next config = some next) :
    next.user = none ∨ next.user = stage.user := by
  cases stage with
  | sends comm =>
    simp only [Drain.next] at follows
    split at follows <;> cases follows
    · exact .inr rfl
    · exact .inl rfl
  | recvs comm => cases follows; exact .inl rfl
  | shared => cases follows

namespace Inside

theorem tail (inside : Inside (frame :: rest)) : Inside rest where
  sheltered := inside.sheltered.2
  coherent := (List.forall_mem_cons.mp inside.coherent).2

theorem call {code : Code} (inside : Inside rest) (coherent : (Frame.call user code).Coherent) :
    Inside (.call user code :: rest) where
  sheltered := inside.sheltered.push rfl
  coherent := List.forall_mem_cons.mpr ⟨coherent, inside.coherent⟩

theorem release (inside : Inside rest) (request : UcxRequest) :
    Inside (.release request :: rest) where
  sheltered := inside.sheltered.push rfl
  coherent := List.forall_mem_cons.mpr ⟨trivial, inside.coherent⟩

theorem callback {via : Via} (inside : Inside rest)
    (served : ∀ caller, via.caller = some caller → Serves Frame.serves rest caller) :
    Inside (.callback op via :: rest) where
  sheltered := ⟨served, inside.sheltered⟩
  coherent := List.forall_mem_cons.mpr ⟨trivial, inside.coherent⟩

theorem invoke {via : Via} (inside : Inside rest)
    (served : ∀ caller, via.caller = some caller → Serves Frame.serves rest caller) :
    Inside (.invoke op via :: rest) where
  sheltered := ⟨served, inside.sheltered⟩
  coherent := List.forall_mem_cons.mpr ⟨trivial, inside.coherent⟩

end Inside

private theorem coherent_first (user : Option Nat) :
    (Frame.call user (.clear (.first user))).Coherent := by
  cases user <;> exact .inr rfl

theorem inside_control (control : Control config s thread act stack moved)
    (inside : Inside stack) : Inside moved := by
  cases control with
  | send => exact inside.call trivial
  | recv => exact inside.call trivial
  | progress => exact inside.call trivial
  | contextProgress => exact inside.call trivial
  | sendError => exact inside.tail
  | recvError => exact inside.tail
  | unguarded => exact inside.tail.call trivial
  | beyondDepth => exact inside.tail.call trivial
  | withinDepth => exact inside.tail.call trivial
  | sendProgressed comm more rest =>
    refine inside.tail.call ?_
    cases more with
    | true => trivial
    | false =>
      simp only [Bool.false_eq_true, if_false, State.afterSendLoop]
      split <;> trivial
  | recvProgressed comm tries more rest =>
    refine inside.tail.call ?_
    cases more with
    | true => trivial
    | false => exact coherent_first (some comm)
  | busy => exact inside.tail.call trivial
  | noMoreTries user => exact inside.tail.call (coherent_first user)
  | left => exact inside.tail
  | nextQueue user stage next rest empty follows =>
    refine inside.tail.call ?_
    have before : stage.user = none ∨ stage.user = user := inside.coherent _ List.mem_cons_self
    rcases Drain.next_user follows with free | same
    · exact .inl free
    · exact before.imp same.trans same.trans
  | cleared => exact inside.tail

theorem Restack.inside (restack : Restack config s thread act stack moved) (inside : Inside stack) :
    Inside moved := by
  cases restack with
  | control stack moved control => exact inside_control control inside
  | lock stack moved locks => cases locks <;> exact inside.tail.call trivial
  | unlock user tries more rest =>
    refine inside.tail.call ?_
    cases more with
    | true => trivial
    | false => exact coherent_first user
  | posted => exact inside.tail
  | early comm code next rest _ posting =>
    refine inside.tail.call ?_
    cases next <;> trivial
  | inplace comm op code via rest _ _ caller =>
    have called : Inside (.call (some comm) .leave :: rest) := inside.tail.call trivial
    refine called.callback fun party calls => ?_
    rw [caller party calls]
    exact .head rfl
  | sendOk comm op request rest =>
    refine (inside.release request).invoke fun party calls => ?_
    cases calls
    have called : Serves Frame.serves (.call (some comm) .sendLoop :: rest) comm := .head rfl
    exact called.cons
  | sendFailed comm request rest => exact inside.release request
  | recvDirect => exact inside.invoke fun party calls => by cases calls
  | recvFailed => exact inside.tail
  | start => exact inside.tail.callback inside.sheltered.1
  | returnCallback => exact inside.tail
  | release => exact inside.tail
  | pop user stage op rest =>
    refine inside.invoke fun party calls => ?_
    have coherent : stage.user = none ∨ stage.user = user := inside.coherent _ List.mem_cons_self
    have owned : stage.user = some party := calls
    rcases coherent with free | same
    · rw [free] at owned
      cases owned
    · exact .head (same.symm.trans owned)

inductive CommsStep (before : List CommunicatorImpl) : List CommunicatorImpl → Prop
  | same : CommsStep before before
  | add (c : CommunicatorImpl) : CommsStep before (before ++ [c])
  | change (comm : Nat) (change : CommunicatorImpl → CommunicatorImpl) :
      (∀ c, (change c).owner = c.owner) → CommsStep before (before.modify comm change)

namespace State

theorem commsStep_incRecursion (via : Via) : CommsStep s.comms (s.incRecursion via).comms := by
  rw [incRecursion_comms]
  split
  · exact .change _ _ fun _ => by rfl
  · exact .change _ _ fun _ => by rfl
  · exact .same

theorem commsStep_decRecursion (via : Via) : CommsStep s.comms (s.decRecursion via).comms := by
  rw [decRecursion_comms]
  split
  · exact .change _ _ fun _ => by rfl
  · exact .change _ _ fun _ => by rfl
  · exact .same

theorem commsStep_onComm (user : Option Nat) {change : CommunicatorImpl → CommunicatorImpl}
    (same : ∀ c, (change c).owner = c.owner) : CommsStep s.comms (onComm user change s.comms) := by
  cases user with
  | none => exact .same
  | some comm => exact .change _ _ same

end State

theorem effect_comms (effect : Effect config s thread act t) : CommsStep s.comms t.comms := by
  cases effect with
  | getCommunicator => exact .add _
  | runSend comm => exact commsStep_incRecursion (s := s.addPost _) (.immediate comm)
  | queueSend => exact .change _ _ fun _ => by rfl
  | runEarly comm kind => exact commsStep_incRecursion (s := (s.addPost _).complete _) _
  | deferEarly => exact commsStep_onComm _ fun _ => by rfl
  | recvOwn => exact .change _ _ fun _ => by rfl
  | returnCallback op via =>
    unfold State.returnCallback
    split
    · exact commsStep_decRecursion (s := s.log _) via
    · exact .same
  | pop user stage =>
    cases stage with
    | sends => exact .change _ _ fun _ => by rfl
    | recvs => exact .change _ _ fun _ => by rfl
    | shared => exact .same
  | _ => exact .same

theorem cancelEffect_comms (effect : CancelEffect config s thread act t) (sound : t.fault = none) :
    CommsStep s.comms t.comms := by
  cases effect with
  | bad user code op rest t found code gone fault => simp [sound] at fault
  | canceledOwn => exact .change _ _ fun _ => by rfl
  | missed => exact commsStep_onComm _ fun _ => by rfl
  | withdraw => exact commsStep_onComm _ fun _ => by rfl
  | looped user => cases user <;> exact .same
  | _ => exact .same

def State.ownerOf (s : State) (comm : Nat) : Option Nat :=
  s.comms[comm]?.map CommunicatorImpl.owner

theorem State.ownerOf_of_usable (usable : s.usable thread comm = true) :
    s.ownerOf comm = some thread := by
  unfold State.usable at usable
  split at usable
  · rename_i c found
    simpa [ownerOf, found] using usable
  · cases usable

theorem effect_owner {owner : Nat} (effect : Effect config s thread act t)
    (owned : s.ownerOf comm = some owner) : t.ownerOf comm = some owner := by
  obtain ⟨c, found, rfl⟩ := Option.map_eq_some_iff.mp owned
  have changes := effect_comms effect
  unfold State.ownerOf
  generalize t.comms = after at changes ⊢
  cases changes with
  | same => rw [found]; rfl
  | add new =>
    rw [List.getElem?_append_left (List.getElem?_eq_some_iff.mp found).1, found]
    rfl
  | change changed change same =>
    rw [List.getElem?_modify, found]
    by_cases here : changed = comm
    · simp [here, same]
    · simp [here]

theorem Restack.serves (restack : Restack config s thread act stack moved)
    (serves : Serves Frame.serves moved comm) :
    Serves Frame.serves stack comm ∨ s.usable thread comm = true := by
  have called : ∀ {called : Nat} {code : Code}, s.usable thread called = true →
      Serves Frame.serves (.call (some called) code :: stack) comm →
      Serves Frame.serves stack comm ∨ s.usable thread comm = true := by
    intro called code usable serves
    rcases serves_cons.mp serves with here | before
    · cases here
      exact .inr usable
    · exact .inl before
  cases restack with
  | control stack moved control =>
    cases control with
    | send _ _ _ _ _ usable => exact called usable serves
    | recv _ _ _ _ _ _ _ usable => exact called usable serves
    | progress _ _ _ usable => exact called usable serves
    | sendError => exact .inl serves.cons
    | recvError => exact .inl serves.cons
    | left => exact .inl serves.cons
    | cleared => exact .inl serves.cons
    | _ =>
      left
      simpa [serves_cons, Frame.serves] using serves
  | lock stack moved locks =>
    left
    cases locks <;> simpa [serves_cons, Frame.serves] using serves
  | posted => exact .inl serves.cons
  | recvFailed => exact .inl serves.cons
  | _ =>
    left
    simpa [serves_cons, Frame.serves] using serves

def State.Owned (s : State) : Prop :=
  ∀ thread stack comm, s.threads[thread]? = some stack → Serves Frame.serves stack comm →
    s.ownerOf comm = some thread

theorem State.Owned.initial (threads : Nat) : (State.initial threads).Owned := by
  intro thread stack comm found serves
  have empty : stack = [] := List.eq_of_mem_replicate (List.mem_of_getElem? found)
  subst empty
  obtain ⟨frame, member, _⟩ := serves
  cases member

theorem State.Owned.effect (owned : s.Owned) (effect : Effect config s thread act t) : t.Owned := by
  intro other stack comm found serves
  apply effect_owner effect
  rcases (effect_moves effect).getElem? other with same | ⟨rfl, old, moved, was, now, restack⟩
  · exact owned other stack comm (same ▸ found) serves
  · rw [found] at now
    cases now
    rcases restack.serves serves with served | usable
    · exact owned _ old comm was served
    · exact ownerOf_of_usable usable

/-- Receives of a thread safe context are never called from `recv_callback`. -/
def Frame.isDirect : Frame → Bool
  | .callback _ (.received _) => true
  | .invoke _ (.received _) => true
  | _ => false

theorem Restack.indirect (restack : Restack config s thread act stack moved)
    (safe : config.threadSafe = true) (plain : ∀ frame ∈ stack, frame.isDirect = false) :
    ∀ frame ∈ moved, frame.isDirect = false := by
  cases restack with
  | control stack moved control => cases control <;> simp_all [Frame.isDirect]
  | lock stack moved locks => cases locks <;> simp_all [Frame.isDirect]
  | inplace comm op code via rest posting inplace =>
    have others := (List.forall_mem_cons.mp plain).2
    refine List.forall_mem_cons.mpr ⟨?_, List.forall_mem_cons.mpr ⟨rfl, others⟩⟩
    cases via with
    | received => cases inplace
    | _ => rfl
  | recvDirect user code op comm rest receives single =>
    rw [safe] at single
    cases single
  | start op via rest =>
    obtain ⟨first, others⟩ := List.forall_mem_cons.mp plain
    refine List.forall_mem_cons.mpr ⟨?_, others⟩
    cases via with
    | received => cases first
    | _ => rfl
  | _ => simp_all [Frame.isDirect]

end Oomph.Ucx
