import Oomph.Libfabric.Settled
import Oomph.Machine.Stacks

namespace Oomph.Libfabric

open Machine State

inductive Restack (config : Config) (s : State) (thread : Nat) :
    Act → List Frame → List Frame → Prop
  | control (act : Act) (stack moved : List Frame) :
      Control config s thread act stack moved → Restack config s thread act stack moved
  | post (act : Act) (comm : Nat) (stack : List Frame) : inUserCode stack = true →
      s.usable thread comm = true →
      Restack config s thread act stack (.call (some comm) (.post s.posts.length) :: stack)
  | cancel (user : Option Nat) (op : Nat) (stack : List Frame) : inUserCode stack = true →
      (∀ comm, user = some comm → s.usable thread comm = true) →
      Restack config s thread (.cancel op true) stack (.call user (.cancel op) :: stack)
  | inject (act : Act) (comm op : Nat) (dst : RankType) (tag : TagType) (rest : List Frame) :
      Restack config s thread act (.call (some comm) (.inject dst tag) :: rest)
        (.callback op (.inject comm) :: .call (some comm) .leave :: rest)
  | queueInject (act : Act) (comm : Nat) (dst : RankType) (tag : TagType) (rest : List Frame) :
      Restack config s thread act (.call (some comm) (.inject dst tag) :: rest) rest
  | give (act : Act) (user : Option Nat) (op : Nat) (kind : Kind) (rest : List Frame) :
      Restack config s thread act (.call user (.post op) :: rest) (afterPost user kind ++ rest)
  | take (act : Act) (frame : Frame) (user : Option Nat) (side : Side) (ops : List Nat)
      (rest : List Frame) :
      frame.poll = some (user, side) → Restack config s thread act (frame :: rest)
        (.dispatch user side ops :: (frame.afterPoll config ops.length ++ rest))
  | canceled (act : Act) (frame : Frame) (user : Option Nat) (side : Side) (rest : List Frame) :
      frame.poll = some (user, side) →
      Restack config s thread act (frame :: rest) (frame.afterPoll config 0 ++ rest)
  | park (act : Act) (op : Nat) (side : Side) (rest : List Frame) :
      Restack config s thread act (.park op side :: rest) rest
  | start (act : Act) (op : Nat) (via : Via) (rest : List Frame) :
      Restack config s thread act (.invoke op via :: rest) (.callback op via :: rest)
  | returnCallback (act : Act) (op : Nat) (via : Via) (rest : List Frame) :
      Restack config s thread act (.callback op via :: rest) rest
  | pop (act : Act) (comm op : Nat) (stage : Drain) (destroying : Bool) (rest : List Frame) :
      Restack config s thread act (.call (some comm) (.clear stage destroying) :: rest)
        (.invoke op (.queue (drainUser comm stage)) ::
          .call (some comm) (.clear stage destroying) :: rest)
  | destroyed (act : Act) (comm : Nat) (rest : List Frame) :
      Restack config s thread act (.call (some comm) (.clear .shared true) :: rest) rest
  | withdraw (act : Act) (user : Option Nat) (op : Nat) (rest : List Frame) :
      op ∈ s.cancelQueue user →
      Restack config s thread act (.call user (.scan op) :: rest) rest
  | rescan (act : Act) (user : Option Nat) (op : Nat) (rest : List Frame) :
      Restack config s thread act (.call user (.scan op) :: rest)
        (.call user (.cancel op) :: rest)

variable {config : Config} {s t : State} {thread : Nat} {stack moved rest : List Frame}
  {act : Act} {frame : Frame} {op comm : Nat} {user : Option Nat}

theorem effect_moves (effect : Effect config s thread act t) :
    Moves (Restack config s thread act) thread s.threads t.threads := by
  have moves : ∀ {stack moved : List Frame}, s.threads[thread]? = some stack →
      t.threads = s.threads.set thread moved → Restack config s thread act stack moved →
      Moves (Restack config s thread act) thread s.threads t.threads := by
    intro stack moved found changed restack
    rw [changed]
    exact .move stack moved found restack
  cases effect with
  | refuse => exact .same
  | fail => exact .same
  | getCommunicator => exact .same
  | control act stack moved found control => exact moves found rfl (.control act stack moved control)
  | post act comm kind rank tag stack found user usable =>
    exact moves found rfl (.post act comm stack user usable)
  | runInject comm dst tag c rest found => exact moves found (by rfl) (.inject _ comm _ dst tag rest)
  | queueInject comm dst tag c rest found =>
    exact moves found (by rfl) (.queueInject _ comm dst tag rest)
  | give user op post rest found =>
    refine moves found ?_ (.give _ user op post.kind rest)
    cases post.kind <;> rfl
  | take frame user side ops rest found polls =>
    refine moves found ?_ (.take _ frame user side ops rest polls)
    cases side <;> rfl
  | canceled frame user op post rest found polls =>
    refine moves found ?_ (.canceled _ frame user .recvs rest polls)
    unfold handleCancelled pushCancel
    split <;> rfl
  | park op side post rest found =>
    refine moves found ?_ (.park _ op side rest)
    unfold pushCb
    split <;> rfl
  | start op via rest found =>
    refine moves found ?_ (.start _ op via rest)
    cases via <;> rfl
  | returnCallback op via rest found =>
    refine moves found ?_ (.returnCallback _ op via rest)
    cases via <;> rfl
  | pop comm stage destroying op queue rest found =>
    refine moves found ?_ (.pop _ comm op stage destroying rest)
    cases stage <;> rfl
  | destroyed comm rest found => exact moves found (by rfl) (.destroyed _ comm rest)
  | withdraw user op queue rest found scanned =>
    refine moves found ?_ (.withdraw _ user op rest ?_)
    · cases user <;> rfl
    · rw [← popUntil_found op _ [], scanned]
  | rescan user op queue rest found =>
    refine moves found ?_ (.rescan _ user op rest)
    cases user <;> rfl
  | beginCancel op post stack found user posted made notSend usable =>
    refine moves found rfl (.cancel (userOf post) op stack user ?_)
    intro comm owned
    cases kind : post.kind with
    | send => exact absurd kind notSend
    | sharedRecv => simp [userOf, kind] at owned
    | recv =>
      have own : post.comm = comm := by simpa [userOf, kind] using owned
      rw [← own]
      exact usable kind

theorem Restack.tops (restack : Restack config s thread act stack moved) : Tops stack moved := by
  cases restack with
  | control act stack moved control =>
    cases control with
    | inject => exact .push [_] _
    | progress => exact .push [_, _] _
    | contextProgress => exact .push [_, _] _
    | destroy => exact .push [_] _
    | again => exact .push [_] _
    | nothing => exact .replace _ _ _
    | inplace => exact .replace _ [_, _] _
    | queued => exact .replace _ [_, _] _
    | dispatched => exact .replace _ [] _
    | left => exact .replace _ [] _
    | nextQueue => exact .replace _ [_] _
    | cleared => exact .replace _ [] _
  | post => exact .push [_] _
  | cancel => exact .push [_] _
  | inject => exact .replace _ [_, _] _
  | queueInject => exact .replace _ [] _
  | give => exact .replace _ _ _
  | take => exact .replace _ (_ :: _) _
  | canceled => exact .replace _ _ _
  | park => exact .replace _ [] _
  | start => exact .replace _ [_] _
  | returnCallback => exact .replace _ [] _
  | pop => exact .push [_] _
  | destroyed => exact .replace _ [] _
  | withdraw => exact .replace _ [] _
  | rescan => exact .replace _ [_] _

namespace Frame

/-- The user inside whose call a frame works, if there has to be one. -/
def needs : Frame → Option (Option Nat)
  | .callback _ via => via.user.map some
  | .invoke _ via => via.user.map some
  | .dispatch user _ _ => some user
  | .work user _ _ => some user
  | _ => none

def serves : Frame → Option (Option Nat)
  | .call user _ => some user
  | _ => none

end Frame

abbrev Inside (stack : List Frame) : Prop :=
  Sheltered Frame.needs Frame.serves stack

private theorem inside_call (code : Code) (inside : Inside rest) :
    Inside (.call user code :: rest) :=
  inside.push rfl

private theorem inside_cons (inside : Inside rest)
    (served : ∀ user, frame.needs = some user → Serves Frame.serves rest user) :
    Inside (frame :: rest) :=
  ⟨served, inside⟩

theorem inside_afterPoll {side : Side} (config : Config) (count : Nat)
    (polls : frame.poll = some (user, side)) (inside : Inside (frame :: rest)) :
    Inside (frame.afterPoll config count ++ rest) ∧
      Serves Frame.serves (frame.afterPoll config count ++ rest) user := by
  obtain ⟨served, outer⟩ := inside
  unfold Frame.poll at polls
  split at polls
  · rename_i side retry
    cases polls
    have called := served user rfl
    cases side with
    | sends => exact ⟨⟨fun _ needed => by cases needed; exact called, outer⟩, called.cons⟩
    | recvs =>
      simp only [Frame.afterPoll]
      split
      · exact ⟨⟨fun _ needed => by cases needed; exact called, outer⟩, called.cons⟩
      · exact ⟨outer, called⟩
  · cases polls
    exact ⟨inside_call .leave outer, .head rfl⟩
  · cases polls
    exact ⟨inside_call _ outer, .head rfl⟩
  · cases polls

theorem inside_control (control : Control config s thread act stack moved)
    (inside : Inside stack) : Inside moved := by
  cases control with
  | inject => exact inside_call _ inside
  | progress comm stack =>
    refine inside_cons (inside_call _ inside) fun user needed => ?_
    cases needed
    exact .head rfl
  | contextProgress stack =>
    refine inside_cons (inside_call _ inside) fun user needed => ?_
    cases needed
    exact .head rfl
  | destroy => exact inside_call _ inside
  | again user code rest =>
    refine inside_cons inside fun other needed => ?_
    cases needed
    exact .head rfl
  | nothing frame user side rest polls => exact (inside_afterPoll config 0 polls inside).1
  | inplace user side op entries post c via rest posted owner alive path =>
    obtain ⟨served, outer⟩ := inside
    have dispatching : Inside (.dispatch user side entries :: rest) := ⟨served, outer⟩
    refine inside_cons dispatching fun other needed => ?_
    obtain ⟨_, _, free | same⟩ := Settled.inplaceVia_some path
    · simp [Frame.needs, free] at needed
    · obtain ⟨comm, own, rfl⟩ := Option.map_eq_some_iff.mp needed
      exact (served (some comm) (by rw [← own, same]; rfl)).cons
  | queued user side op entries post c rest =>
    obtain ⟨served, outer⟩ := inside
    have dispatching : Inside (.dispatch user side entries :: rest) := ⟨served, outer⟩
    exact dispatching.push rfl
  | dispatched => exact inside.2
  | left => exact inside.2
  | nextQueue => exact inside_call _ inside.2
  | cleared => exact inside.2

theorem Restack.inside (restack : Restack config s thread act stack moved) (inside : Inside stack) :
    Inside moved := by
  cases restack with
  | control act stack moved control => exact inside_control control inside
  | post => exact inside_call _ inside
  | cancel => exact inside_call _ inside
  | inject act comm op dst tag rest =>
    refine inside_cons (inside_call _ inside.2) fun user needed => ?_
    cases needed
    exact .head rfl
  | queueInject => exact inside.2
  | give act user op kind rest =>
    cases kind with
    | sharedRecv => exact inside_call _ inside.2
    | _ => exact inside.2
  | take act frame user side ops rest polls =>
    obtain ⟨outer, served⟩ := inside_afterPoll config ops.length polls inside
    refine inside_cons outer fun other needed => ?_
    cases needed
    exact served
  | canceled act frame user side rest polls => exact (inside_afterPoll config 0 polls inside).1
  | park => exact inside.2
  | start => exact inside
  | returnCallback => exact inside.2
  | pop act comm op stage destroying rest =>
    refine inside_cons inside fun user needed => ?_
    obtain ⟨other, own, rfl⟩ := Option.map_eq_some_iff.mp needed
    cases stage with
    | shared => cases own
    | sends => cases own; exact .head rfl
    | recvs => cases own; exact .head rfl
  | destroyed => exact inside.2
  | withdraw => exact inside.2
  | rescan => exact inside_call _ inside.2

inductive CommsStep (before : List CommunicatorImpl) : List CommunicatorImpl → Prop
  | same : CommsStep before before
  | add (c : CommunicatorImpl) : CommsStep before (before ++ [c])
  | change (comm : Nat) (change : CommunicatorImpl → CommunicatorImpl) :
      (∀ c, (change c).owner = c.owner) → CommsStep before (before.modify comm change)

theorem effect_comms (effect : Effect config s thread act t) : CommsStep s.comms t.comms := by
  cases effect with
  | getCommunicator => exact .add _
  | runInject => exact .change _ _ fun _ => by rfl
  | queueInject => exact .change _ _ fun _ => by rfl
  | give user op post => cases post.kind <;> exact .same
  | take frame user side => cases side <;> exact .same
  | canceled =>
    unfold handleCancelled pushCancel
    split
    · exact .change _ _ fun _ => by rfl
    · exact .same
  | park =>
    unfold pushCb
    split
    · exact .same
    · exact .change _ _ fun _ => by rfl
    · exact .change _ _ fun _ => by rfl
  | start op via =>
    cases via with
    | inject => exact .change _ _ fun _ => by rfl
    | inplace => exact .change _ _ fun _ => by rfl
    | context => exact .same
    | queue => exact .same
  | returnCallback op via =>
    cases via with
    | inject => exact .change _ _ fun _ => by rfl
    | inplace => exact .change _ _ fun _ => by rfl
    | context => exact .same
    | queue => exact .same
  | pop comm stage =>
    cases stage with
    | sends => exact .change _ _ fun _ => by rfl
    | recvs => exact .change _ _ fun _ => by rfl
    | shared => exact .same
  | destroyed => exact .change _ _ fun _ => by rfl
  | withdraw user =>
    cases user with
    | none => exact .same
    | some => exact .change _ _ fun _ => by rfl
  | rescan user =>
    cases user with
    | none => exact .same
    | some => exact .change _ _ fun _ => by rfl
  | _ => exact .same

def State.ownerOf (s : State) (comm : Nat) : Option Nat :=
  s.comms[comm]?.map CommunicatorImpl.owner

theorem State.ownerOf_of_usable (usable : s.usable thread comm = true) :
    s.ownerOf comm = some thread := by
  unfold State.usable at usable
  split at usable
  · rename_i c found
    obtain ⟨_, owner⟩ := (Bool.and_eq_true _ _).mp usable
    simpa [ownerOf, found] using owner
  · cases usable

theorem effect_owner {owner : Nat} (effect : Effect config s thread act t)
    (owned : s.ownerOf comm = some owner) : t.ownerOf comm = some owner := by
  obtain ⟨c, found, rfl⟩ := Option.map_eq_some_iff.mp owned
  have changes := effect_comms effect
  unfold State.ownerOf
  generalize t.comms = after at changes ⊢
  cases changes with
  | same => rw [found]; rfl
  | add new =>
    rw [List.getElem?_append_left (List.getElem?_eq_some_iff.mp found).1, found]
    rfl
  | change changed change same =>
    rw [List.getElem?_modify, found]
    by_cases here : changed = comm
    · simp [here, same]
    · simp [here]

theorem serves_afterPoll {side : Side} {served : Option Nat} (config : Config) (count : Nat)
    (polls : frame.poll = some (user, side))
    (serves : Serves Frame.serves (frame.afterPoll config count ++ rest) served) :
    Serves Frame.serves (frame :: rest) served := by
  unfold Frame.poll at polls
  split at polls
  · rename_i side retry
    cases side with
    | sends => simpa [Frame.afterPoll, serves_cons, Frame.serves] using serves
    | recvs =>
      simp only [Frame.afterPoll] at serves
      split at serves
      · simpa [serves_cons, Frame.serves] using serves
      · exact serves.cons
  · simpa [Frame.afterPoll, serves_cons, Frame.serves] using serves
  · simpa [Frame.afterPoll, serves_cons, Frame.serves] using serves
  · cases polls

theorem Restack.serves (restack : Restack config s thread act stack moved)
    (serves : Serves Frame.serves moved (some comm)) :
    Serves Frame.serves stack (some comm) ∨ s.usable thread comm = true := by
  cases restack with
  | control act stack moved control =>
    cases control with
    | inject called size dst tag stack user usable =>
      rcases serves_cons.mp serves with here | before
      · cases here
        exact .inr usable
      · exact .inl before
    | progress called stack user usable =>
      rcases serves_cons.mp serves with here | inner
      · cases here
      · rcases serves_cons.mp inner with here | before
        · cases here
          exact .inr usable
        · exact .inl before
    | destroy called stack user usable =>
      rcases serves_cons.mp serves with here | before
      · cases here
        exact .inr usable
      · exact .inl before
    | nothing frame user side rest polls => exact .inl (serves_afterPoll config 0 polls serves)
    | dispatched => exact .inl serves.cons
    | left => exact .inl serves.cons
    | cleared => exact .inl serves.cons
    | _ =>
      left
      simpa [serves_cons, Frame.serves] using serves
  | post act called stack user usable =>
    rcases serves_cons.mp serves with here | before
    · cases here
      exact .inr usable
    · exact .inl before
  | cancel user op stack userCode usable =>
    rcases serves_cons.mp serves with here | before
    · cases here
      exact .inr (usable comm rfl)
    · exact .inl before
  | give act user op kind rest =>
    left
    cases kind with
    | sharedRecv => simpa [afterPost, serves_cons, Frame.serves] using serves
    | _ => exact serves.cons
  | take act frame user side ops rest polls =>
    rcases serves_cons.mp serves with here | before
    · cases here
    · exact .inl (serves_afterPoll config _ polls before)
  | canceled act frame user side rest polls => exact .inl (serves_afterPoll config 0 polls serves)
  | queueInject => exact .inl serves.cons
  | destroyed => exact .inl serves.cons
  | withdraw => exact .inl serves.cons
  | _ =>
    left
    simpa [serves_cons, Frame.serves] using serves

def State.Owned (s : State) : Prop :=
  ∀ thread stack comm, s.threads[thread]? = some stack →
    Serves Frame.serves stack (some comm) → s.ownerOf comm = some thread

theorem State.Owned.of_reaches {allowed : State → Action → Prop} {threads : Nat}
    (reached : Reaches (step config) allowed (State.initial threads) s) : s.Owned := by
  refine reached.invariant State.Owned ?_ ?_
  · intro thread stack comm found serves
    have empty : stack = [] := List.eq_of_mem_replicate (List.mem_of_getElem? found)
    subst empty
    obtain ⟨frame, member, _⟩ := serves
    cases member
  · intro before action after owned _ taken thread stack comm found serves
    have effect := step_effect taken
    apply effect_owner effect
    rcases (effect_moves effect).getElem? thread with same | ⟨rfl, old, moved, was, now, restack⟩
    · exact owned thread stack comm (same ▸ found) serves
    · rw [found] at now
      cases now
      rcases restack.serves serves with served | usable
      · exact owned _ old comm was served
      · exact ownerOf_of_usable usable

def Frame.isInvoke : Frame → Bool
  | .invoke _ _ => true
  | _ => false

/-- Nothing is done between taking a request and calling it. -/
def Prompt (stack : List Frame) : Prop :=
  ∀ frame ∈ stack.tail, frame.isInvoke = false

private theorem prompt_of_plain (plain : ∀ frame ∈ stack, frame.isInvoke = false) :
    Prompt stack :=
  fun frame member => plain frame (List.mem_of_mem_tail member)

private theorem prompt_userCode (user : inUserCode stack = true) (prompt : Prompt stack) :
    ∀ frame ∈ stack, frame.isInvoke = false := by
  cases stack with
  | nil => simp
  | cons first rest =>
    refine List.forall_mem_cons.mpr ⟨?_, prompt⟩
    cases first with
    | invoke => cases user
    | _ => rfl

private theorem plain_afterPoll {side : Side} (config : Config) (count : Nat)
    (polls : frame.poll = some (user, side)) (prompt : Prompt (frame :: rest)) :
    ∀ other ∈ frame.afterPoll config count ++ rest, other.isInvoke = false := by
  refine List.forall_mem_append.mpr ⟨?_, prompt⟩
  unfold Frame.poll at polls
  split at polls
  · rename_i side retry
    cases side with
    | sends => simp [Frame.afterPoll, Frame.isInvoke]
    | recvs =>
      simp only [Frame.afterPoll]
      split <;> simp [Frame.isInvoke]
  · simp [Frame.afterPoll, Frame.isInvoke]
  · simp [Frame.afterPoll, Frame.isInvoke]
  · cases polls

theorem Restack.prompt (restack : Restack config s thread act stack moved) (prompt : Prompt stack) :
    Prompt moved := by
  cases restack with
  | control act stack moved control =>
    cases control with
    | inject _ _ _ _ _ user => exact prompt_userCode user prompt
    | progress _ _ user =>
      exact List.forall_mem_cons.mpr ⟨rfl, prompt_userCode user prompt⟩
    | contextProgress _ user =>
      exact List.forall_mem_cons.mpr ⟨rfl, prompt_userCode user prompt⟩
    | destroy _ _ user => exact prompt_userCode user prompt
    | again => exact List.forall_mem_cons.mpr ⟨rfl, prompt⟩
    | nothing frame user side rest polls =>
      exact prompt_of_plain (plain_afterPoll config 0 polls prompt)
    | inplace => exact List.forall_mem_cons.mpr ⟨rfl, prompt⟩
    | queued => exact List.forall_mem_cons.mpr ⟨rfl, prompt⟩
    | dispatched => exact prompt_of_plain prompt
    | left => exact prompt_of_plain prompt
    | nextQueue => exact prompt
    | cleared => exact prompt_of_plain prompt
  | post _ _ _ user => exact prompt_userCode user prompt
  | cancel _ _ _ user => exact prompt_userCode user prompt
  | inject => exact List.forall_mem_cons.mpr ⟨rfl, prompt⟩
  | give act user op kind rest =>
    cases kind with
    | sharedRecv => exact prompt
    | _ => exact prompt_of_plain prompt
  | take act frame user side ops rest polls => exact plain_afterPoll config _ polls prompt
  | canceled act frame user side rest polls =>
    exact prompt_of_plain (plain_afterPoll config 0 polls prompt)
  | start => exact prompt
  | pop => exact List.forall_mem_cons.mpr ⟨rfl, prompt⟩
  | rescan => exact prompt
  | _ => exact prompt_of_plain prompt

theorem stacks_of_reaches {allowed : State → Action → Prop} {threads : Nat}
    (Holds : List Frame → Prop) (empty : Holds [])
    (keeps : ∀ s thread act stack moved, Restack config s thread act stack moved → Holds stack →
      Holds moved)
    (reached : Reaches (step config) allowed (State.initial threads) s) :
    ∀ stack ∈ s.threads, Holds stack := by
  refine reached.invariant (fun s => ∀ stack ∈ s.threads, Holds stack) ?_ ?_
  · intro stack member
    rw [List.eq_of_mem_replicate member]
    exact empty
  · intro before action after holds _ taken
    exact (effect_moves (step_effect taken)).forall_mem (fun _ _ => keeps before _ _ _ _) holds

theorem inside_of_reaches {allowed : State → Action → Prop} {threads : Nat}
    (reached : Reaches (step config) allowed (State.initial threads) s) :
    ∀ stack ∈ s.threads, Inside stack :=
  stacks_of_reaches Inside trivial (fun _ _ _ _ _ restack => restack.inside) reached

theorem prompt_of_reaches {allowed : State → Action → Prop} {threads : Nat}
    (reached : Reaches (step config) allowed (State.initial threads) s) :
    ∀ stack ∈ s.threads, Prompt stack :=
  stacks_of_reaches Prompt (by simp [Prompt]) (fun _ _ _ _ _ restack => restack.prompt) reached

end Oomph.Libfabric
