import Oomph.Request
import Oomph.Machine.Pool
import Oomph.Machine.Run

namespace Oomph.SendMulti

open Machine

/-! `send_multi` posts one send for each neighbour.  The sends share a `multi_request_state`,
whose counter each of them takes down when it completes, inside `send` or later; the one that
takes it to zero calls the user's callback and moves the message and the vectors out of the
shared state, over which the posting loop runs.

The user passes the message as an r-value, which moves it into the shared state, or by
reference, and then the shared state keeps its address.
-/

inductive Passing
  | rvalue
  | reference
  | constReference
deriving DecidableEq, Repr

inductive Tags
  | one (tag : TagType)
  | each (tags : List TagType)
deriving DecidableEq, Repr

/-- `message_buffer<T>`; the buffer is null after a move. -/
structure MessageBuffer (Buffer : Type) where
  m : Option Buffer
  size : Nat
deriving DecidableEq, Repr

/-- A call of `send_multi`.  `object` is the address of the user's message, and `elementSize`
is `sizeof(T)`. -/
structure Call (Buffer : Type) where
  passing : Passing
  object : Nat
  msg : MessageBuffer Buffer
  elementSize : Nat
  neighs : List RankType
  tags : Tags
deriving DecidableEq, Repr

inductive Message (Buffer : Type)
  | owned (msg : MessageBuffer Buffer)
  | refersTo (object : Nat)
deriving DecidableEq, Repr

structure Received (Buffer : Type) where
  message : Message Buffer
  neighs : List RankType
  tags : Tags
deriving DecidableEq, Repr

structure MultiRequestState (Buffer : Type) where
  counter : Nat
  neighs : List RankType
  tags : List TagType
  msgSize : Nat
  msgPtr : Option Nat
  msg : Option Buffer
deriving DecidableEq, Repr

structure MessagePointer where
  object : Nat
  const : Bool
deriving DecidableEq, Repr

/-- `m_msg_ptr` is a `void*`.  A pointer to a constant object does not convert to it, and code
that asks for the conversion is ill-formed. -/
def MessagePointer.toVoid (pointer : MessagePointer) : Option Nat :=
  if pointer.const then none else some pointer.object

structure Send (Buffer : Type) where
  ptr : Option Buffer
  bytes : Nat
  dst : RankType
  tag : TagType
  done : Bool
deriving DecidableEq, Repr

/-- `next` is the variable of the posting loop and `finish` its end.  `fault` is set when the
loop reads a vector outside its bounds.  No step reads `received`. -/
structure State (Buffer : Type) where
  mrs : MultiRequestState Buffer
  next : Nat
  finish : Nat
  sends : List (Send Buffer)
  inCallback : Bool
  returned : Bool
  received : List (Received Buffer)
  fault : Bool
deriving DecidableEq, Repr

variable {Buffer : Type}

namespace Tags

def stored : Tags → List TagType
  | .one _ => []
  | .each tags => tags

def read (tags : Tags) (stored : List TagType) (position : Nat) : Option TagType :=
  match tags with
  | .one tag => some tag
  | .each _ => stored[position]?

end Tags

namespace MultiRequestState

def byReference (pointer : MessagePointer) (neighs : List RankType) (tags : List TagType)
    (size : Nat) : Option (MultiRequestState Buffer) :=
  pointer.toVoid.map fun object =>
    { counter := neighs.length, neighs, tags, msgSize := size, msgPtr := some object, msg := none }

def byValue (neighs : List RankType) (tags : List TagType) (msg : MessageBuffer Buffer) :
    MultiRequestState Buffer :=
  { counter := neighs.length, neighs, tags, msgSize := msg.size, msgPtr := none, msg := msg.m }

end MultiRequestState

/-- There is none when the overload is ill-formed. -/
def Call.makeMultiRequestState (call : Call Buffer) : Option (MultiRequestState Buffer) :=
  match call.passing with
  | .rvalue => some (.byValue call.neighs call.tags.stored call.msg)
  | .reference =>
    MultiRequestState.byReference ⟨call.object, false⟩ call.neighs call.tags.stored call.msg.size
  | .constReference =>
    MultiRequestState.byReference ⟨call.object, true⟩ call.neighs call.tags.stored call.msg.size

def Call.start (call : Call Buffer) : Option (State Buffer) :=
  call.makeMultiRequestState.map fun mrs =>
    { mrs, next := 0, finish := mrs.neighs.length, sends := [], inCallback := false,
      returned := false, received := [], fault := false }

def decrement (counter : Nat) : Nat :=
  if counter = 0 then 2 ^ 64 - 1 else counter - 1

namespace MultiRequestState

def message (mrs : MultiRequestState Buffer) (passing : Passing) : Option (Message Buffer) :=
  match passing with
  | .rvalue => some (.owned ⟨mrs.msg, mrs.msgSize⟩)
  | _ => mrs.msgPtr.map .refersTo

/-- The last argument; `tag` is the one that the send passes to its callback. -/
def passedTags (mrs : MultiRequestState Buffer) (tags : Tags) (tag : TagType) : Tags :=
  match tags with
  | .one _ => .one tag
  | .each _ => .each mrs.tags

/-- What the arguments of the user's callback leave behind.  `takes` tells whether its
parameters are initialised from the vectors that are moved to it; the overload for r-values
passes `m_tags` without a move. -/
def moveOut (mrs : MultiRequestState Buffer) (passing : Passing) (takes : Bool) :
    MultiRequestState Buffer :=
  { mrs with
    neighs := if takes then [] else mrs.neighs
    tags := if takes ∧ passing ≠ .rvalue then [] else mrs.tags
    msg := none }

end MultiRequestState

@[simps -fullyApplied]
def MultiRequestState.countDown (mrs : MultiRequestState Buffer) : MultiRequestState Buffer :=
  { mrs with counter := decrement mrs.counter }

@[simps -fullyApplied]
def State.countDown (s : State Buffer) : State Buffer :=
  { s with mrs := s.mrs.countDown }

@[simps -fullyApplied]
def State.callBack (passing : Passing) (takes : Bool) (received : Received Buffer)
    (s : State Buffer) : State Buffer :=
  { s with
    mrs := s.mrs.moveOut passing takes
    inCallback := true
    received := received :: s.received }

@[simps -fullyApplied]
def State.fail (s : State Buffer) : State Buffer :=
  { s with fault := true }

/-- The callback that every send is given. -/
def State.complete (call : Call Buffer) (tag : TagType) (takes : Bool) (s : State Buffer) :
    State Buffer :=
  let counted := s.countDown
  if counted.mrs.counter = 0 then
    match counted.mrs.message call.passing with
    | some message => counted.callBack call.passing takes
        ⟨message, counted.mrs.neighs, counted.mrs.passedTags call.tags tag⟩
    | none => counted.fail
  else counted

inductive Action
  /-- The next turn of the loop; the send completes inside `send` if `now`. -/
  | issue (now takes : Bool)
  /-- A send that was posted before completes, in a call of `progress` or of a later `send`. -/
  | complete (position : Nat) (takes : Bool)
  | callbackReturns
  | leave
deriving DecidableEq, Repr

@[simps -fullyApplied]
def State.addSend (send : Send Buffer) (s : State Buffer) : State Buffer :=
  { s with next := s.next + 1, sends := s.sends ++ [send] }

@[simps -fullyApplied]
def State.finishSend (position : Nat) (send : Send Buffer) (s : State Buffer) : State Buffer :=
  { s with sends := s.sends.set position { send with done := true } }

def Call.sendTo (call : Call Buffer) (dst : RankType) (tag : TagType) (done : Bool) : Send Buffer :=
  { ptr := call.msg.m, bytes := call.msg.size * call.elementSize, dst, tag, done }

/-- One turn of the loop, which reads the vectors of the shared state. -/
def State.issue (call : Call Buffer) (now takes : Bool) (s : State Buffer) : State Buffer :=
  match s.mrs.neighs[s.next]?, call.tags.read s.mrs.tags s.next with
  | some dst, some tag =>
    let posted := s.addSend (call.sendTo dst tag now)
    if now then posted.complete call tag takes else posted
  | _, _ => s.fail

def step (call : Call Buffer) (s : State Buffer) (action : Action) : Option (State Buffer) :=
  if s.fault then none
  else
    match action with
    | .issue now takes =>
      if s.inCallback ∨ s.returned ∨ s.finish ≤ s.next then none
      else some (s.issue call now takes)
    | .complete position takes =>
      match s.sends[position]? with
      | some send =>
        if send.done then none
        else some ((s.finishSend position send).complete call send.tag takes)
      | none => none
    | .callbackReturns => if s.inCallback then some { s with inCallback := false } else none
    | .leave =>
      if s.inCallback ∨ s.returned ∨ s.next < s.finish then none
      else some { s with returned := true }

/-- `send_multi_request::is_ready` -/
def State.isReady (s : State Buffer) : Bool :=
  s.mrs.counter = 0

inductive Effect (call : Call Buffer) (s : State Buffer) : State Buffer → Prop
  | post (dst : RankType) (tag : TagType) (more : s.next < s.finish)
      (neigh : s.mrs.neighs[s.next]? = some dst) (tagged : call.tags.read s.mrs.tags s.next = some tag) :
      Effect call s (s.addSend (call.sendTo dst tag false))
  | postNow (dst : RankType) (tag : TagType) (takes : Bool) (more : s.next < s.finish)
      (neigh : s.mrs.neighs[s.next]? = some dst) (tagged : call.tags.read s.mrs.tags s.next = some tag) :
      Effect call s ((s.addSend (call.sendTo dst tag true)).complete call tag takes)
  | outside (more : s.next < s.finish)
      (missing : s.mrs.neighs[s.next]? = none ∨ call.tags.read s.mrs.tags s.next = none) :
      Effect call s s.fail
  | complete (position : Nat) (send : Send Buffer) (takes : Bool)
      (found : s.sends[position]? = some send) (waits : send.done = false) :
      Effect call s ((s.finishSend position send).complete call send.tag takes)
  | callbackReturns : Effect call s { s with inCallback := false }
  | leave (done : s.finish ≤ s.next) : Effect call s { s with returned := true }

variable {call : Call Buffer} {s t : State Buffer} {action : Action}

private theorem issue_effect (now takes : Bool) (more : s.next < s.finish) :
    Effect call s (s.issue call now takes) := by
  unfold State.issue
  cases neigh : s.mrs.neighs[s.next]? with
  | none => exact .outside more (.inl neigh)
  | some dst =>
    cases tagged : call.tags.read s.mrs.tags s.next with
    | none => exact .outside more (.inr tagged)
    | some tag =>
      cases now with
      | false => exact .post dst tag more neigh tagged
      | true => exact .postNow dst tag takes more neigh tagged

theorem step_effect (taken : step call s action = some t) : Effect call s t := by
  unfold step at taken
  split at taken
  · cases taken
  · cases action with
    | issue now takes =>
      dsimp only at taken
      split at taken
      · cases taken
      · cases taken
        exact issue_effect now takes (by omega)
    | complete position takes =>
      dsimp only at taken
      split at taken
      · rename_i send found
        split at taken
        · cases taken
        · rename_i waits
          cases taken
          exact .complete position send takes found (by simpa using waits)
      · cases taken
    | callbackReturns =>
      dsimp only at taken
      split at taken
      · cases taken
        exact .callbackReturns
      · cases taken
    | leave =>
      dsimp only at taken
      split at taken
      · cases taken
      · cases taken
        exact .leave (by omega)

def Call.targets (call : Call Buffer) : List (RankType × TagType) :=
  match call.tags with
  | .one tag => call.neighs.map fun dst => (dst, tag)
  | .each tags => call.neighs.zip tags

def Send.target (send : Send Buffer) : RankType × TagType :=
  (send.dst, send.tag)

def Send.Carries (call : Call Buffer) (send : Send Buffer) : Prop :=
  send.ptr = call.msg.m ∧ send.bytes = call.msg.size * call.elementSize

def Call.original (call : Call Buffer) : Received Buffer where
  message := match call.passing with
    | .rvalue => .owned call.msg
    | _ => .refersTo call.object
  neighs := call.neighs
  tags := call.tags

def Call.Matched (call : Call Buffer) : Prop :=
  ∀ tags, call.tags = .each tags → tags.length = call.neighs.length

def State.completed (s : State Buffer) : Nat :=
  s.sends.countP Send.done

theorem targets_length (matched : call.Matched) : call.targets.length = call.neighs.length := by
  unfold Call.targets
  split
  · exact List.length_map ..
  · rename_i tags same
    rw [List.length_zip, matched tags same, Nat.min_self]

/-- While a send is outstanding the shared state is as it was made. -/
structure MultiRequestState.Intact (call : Call Buffer) (mrs : MultiRequestState Buffer) : Prop where
  neighs : mrs.neighs = call.neighs
  tags : mrs.tags = call.tags.stored
  message : mrs.message call.passing = some call.original.message

theorem MultiRequestState.Intact.read {mrs : MultiRequestState Buffer} (intact : mrs.Intact call)
    (matched : call.Matched) {position : Nat} (inside : position < call.neighs.length) :
    ∃ dst tag, mrs.neighs[position]? = some dst ∧
      call.tags.read mrs.tags position = some tag ∧ call.targets[position]? = some (dst, tag) := by
  rw [intact.neighs, intact.tags, List.getElem?_eq_getElem inside]
  unfold Call.targets
  cases same : call.tags with
  | one tag => exact ⟨_, tag, rfl, rfl, by simp [inside]⟩
  | each tags =>
    have within : position < tags.length := by rw [matched tags same]; exact inside
    exact ⟨_, _, rfl, List.getElem?_eq_getElem within, by simp [inside, within]⟩

/-- `uncounted` sends have completed and are about to take the counter down. -/
structure State.Sending (call : Call Buffer) (uncounted : Nat) (s : State Buffer) : Prop where
  finish : s.finish = call.neighs.length
  position : s.sends.length = s.next
  upto : s.next ≤ s.finish
  targets : s.sends.map Send.target = call.targets.take s.next
  carries : ∀ send ∈ s.sends, send.Carries call
  counter : s.mrs.counter + s.completed = call.neighs.length + uncounted
  outstanding : 0 < s.mrs.counter → s.mrs.Intact call ∧ s.received = []
  called : s.mrs.counter = 0 → call.neighs ≠ [] → s.received = [call.original]
  returned : s.returned = true → s.next = s.finish
  sound : s.fault = false

theorem completed_le (s : State Buffer) : s.completed ≤ s.sends.length :=
  List.countP_le_length

theorem complete_more (more : 1 < s.mrs.counter) (tag : TagType) (takes : Bool) :
    s.complete call tag takes = s.countDown := by
  have left : decrement s.mrs.counter ≠ 0 := by
    unfold decrement
    split <;> omega
  simp only [State.complete, State.countDown_mrs, MultiRequestState.countDown_counter, left, if_false]

/-- The last send to complete hands everything to the user's callback. -/
theorem complete_last (intact : s.mrs.Intact call) (last : s.mrs.counter = 1) {tag : TagType}
    (tagged : ∀ given, call.tags = .one given → tag = given) (takes : Bool) :
    s.complete call tag takes = s.countDown.callBack call.passing takes call.original := by
  have zero : decrement s.mrs.counter = 0 := by rw [last]; rfl
  have message : s.mrs.countDown.message call.passing = some call.original.message := intact.message
  have tags : s.mrs.countDown.passedTags call.tags tag = call.tags := by
    unfold MultiRequestState.passedTags
    cases same : call.tags with
    | one given => rw [tagged given same]
    | each tags => rw [MultiRequestState.countDown_tags, intact.tags, same]; rfl
  simp only [State.complete, State.countDown_mrs, MultiRequestState.countDown_counter, zero, if_true,
    message, tags, MultiRequestState.countDown_neighs, intact.neighs]
  rfl

theorem State.Sending.count (sending : s.Sending call 1) {tag : TagType}
    (tagged : ∀ given, call.tags = .one given → tag = given) (takes : Bool) :
    (s.complete call tag takes).Sending call 0 := by
  have counter := sending.counter
  have bound := completed_le s
  have upto := sending.upto
  have positive : 0 < s.mrs.counter := by
    rw [sending.position] at bound
    rw [sending.finish] at upto
    omega
  have down : decrement s.mrs.counter + 1 = s.mrs.counter := by
    unfold decrement
    split <;> omega
  have left : decrement s.mrs.counter + s.completed = call.neighs.length := by omega
  obtain ⟨intact, unspoken⟩ := sending.outstanding positive
  rcases Nat.lt_or_ge 1 s.mrs.counter with more | last
  · rw [complete_more more]
    exact {
      finish := sending.finish
      position := sending.position
      upto := sending.upto
      targets := sending.targets
      carries := sending.carries
      counter := left
      outstanding := fun _ => ⟨⟨intact.neighs, intact.tags, intact.message⟩, unspoken⟩
      called := fun zero => by
        simp only [State.countDown_mrs, MultiRequestState.countDown_counter] at zero
        omega
      returned := sending.returned
      sound := sending.sound }
  · rw [complete_last intact (by omega) tagged]
    exact {
      finish := sending.finish
      position := sending.position
      upto := sending.upto
      targets := sending.targets
      carries := sending.carries
      counter := left
      outstanding := fun positive => by
        simp only [State.callBack_mrs, MultiRequestState.moveOut, State.countDown_mrs,
          MultiRequestState.countDown_counter] at positive
        omega
      called := fun _ _ => by
        rw [State.callBack_received, State.countDown_received, unspoken]
      returned := sending.returned
      sound := sending.sound }

theorem State.Sending.post (sending : s.Sending call 0) (matched : call.Matched)
    (more : s.next < s.finish) {dst : RankType} {tag : TagType}
    (neigh : s.mrs.neighs[s.next]? = some dst) (tagged : call.tags.read s.mrs.tags s.next = some tag)
    (done : Bool) : (s.addSend (call.sendTo dst tag done)).Sending call done.toNat := by
  have counter := sending.counter
  have bound := completed_le s
  have positive : 0 < s.mrs.counter := by
    rw [sending.position] at bound
    rw [sending.finish] at more
    omega
  obtain ⟨intact, unspoken⟩ := sending.outstanding positive
  obtain ⟨dst', tag', first, second, target⟩ := intact.read matched (sending.finish ▸ more)
  cases first.symm.trans neigh
  cases second.symm.trans tagged
  exact {
    finish := sending.finish
    position := by simp [sending.position]
    upto := more
    targets := by
      rw [State.addSend_sends, State.addSend_next, List.map_append, sending.targets, List.take_add_one,
        target]
      rfl
    carries := by
      simp only [State.addSend_sends, List.mem_append, List.mem_singleton]
      rintro send (old | rfl)
      · exact sending.carries send old
      · exact ⟨rfl, rfl⟩
    counter := by
      simp only [State.addSend_mrs, State.completed, State.addSend_sends, List.countP_append,
        List.countP_singleton]
      cases done <;> simp [State.completed, Call.sendTo] at counter ⊢ <;> omega
    outstanding := fun _ => ⟨intact, unspoken⟩
    called := fun zero => absurd zero (by simp only [State.addSend_mrs]; omega)
    returned := fun left => absurd (sending.returned left) (Nat.ne_of_lt more)
    sound := sending.sound }

theorem State.Sending.finishSend (sending : s.Sending call 0) {position : Nat} {send : Send Buffer}
    (found : s.sends[position]? = some send) (waits : send.done = false) :
    (s.finishSend position send).Sending call 1 := by
  have member := List.mem_of_getElem? found
  have counted := countP_set_add Send.done found { send with done := true }
  simp only [waits, Bool.toNat_false, Bool.toNat_true, add_zero] at counted
  have counter := sending.counter
  exact {
    finish := sending.finish
    position := by simp [sending.position]
    upto := sending.upto
    targets := by
      have same : send.target = ({ send with done := true } : Send Buffer).target := rfl
      obtain ⟨inside, rfl⟩ := List.getElem?_eq_some_iff.mp found
      rw [State.finishSend_sends, State.finishSend_next, ← sending.targets, List.map_set, ← same,
        ← List.map_set, List.set_getElem_self]
    carries := fun other inside => by
      rcases List.mem_or_eq_of_mem_set inside with old | rfl
      · exact sending.carries other old
      · exact sending.carries send member
    counter := by
      simp only [State.finishSend_mrs, State.completed, State.finishSend_sends] at counter ⊢
      omega
    outstanding := sending.outstanding
    called := sending.called
    returned := sending.returned
    sound := sending.sound }

theorem State.Sending.tagged (sending : s.Sending call 0) {send : Send Buffer}
    (member : send ∈ s.sends) (given : TagType) (same : call.tags = .one given) :
    send.tag = given := by
  have target : send.target ∈ call.targets := by
    refine List.mem_of_mem_take (i := s.next) ?_
    rw [← sending.targets]
    exact List.mem_map_of_mem member
  simp only [Call.targets, same, List.mem_map] at target
  obtain ⟨dst, -, equal⟩ := target
  exact (congrArg Prod.snd equal).symm

theorem State.Sending.effect (sending : s.Sending call 0) (matched : call.Matched)
    (effect : Effect call s t) : t.Sending call 0 := by
  cases effect with
  | post dst tag more neigh tagged => exact sending.post matched more neigh tagged false
  | postNow dst tag takes more neigh tagged =>
    refine (sending.post matched more neigh tagged true).count (fun given same => ?_) takes
    rw [same] at tagged
    exact (Option.some.inj tagged).symm
  | outside more missing =>
    -- as long as the loop runs, a send is outstanding and the vectors are in place
    have counter := sending.counter
    have bound := completed_le s
    rw [sending.position] at bound
    rw [sending.finish] at more
    obtain ⟨intact, -⟩ := sending.outstanding (by omega)
    obtain ⟨dst, tag, neigh, tagged, -⟩ := intact.read matched more
    simp [neigh, tagged] at missing
  | complete position send takes found waits =>
    exact (sending.finishSend found waits).count
      (sending.tagged (List.mem_of_getElem? found)) takes
  | callbackReturns =>
    exact ⟨sending.finish, sending.position, sending.upto, sending.targets, sending.carries,
      sending.counter, sending.outstanding, sending.called, sending.returned, sending.sound⟩
  | leave done =>
    exact ⟨sending.finish, sending.position, sending.upto, sending.targets, sending.carries,
      sending.counter, sending.outstanding, sending.called,
      fun _ => Nat.le_antisymm sending.upto done, sending.sound⟩

theorem start_intact {mrs : MultiRequestState Buffer}
    (made : call.makeMultiRequestState = some mrs) :
    mrs.Intact call ∧ mrs.counter = call.neighs.length := by
  unfold Call.makeMultiRequestState at made
  cases passing : call.passing with
  | rvalue =>
    simp only [passing, Option.some.injEq] at made
    subst made
    exact ⟨⟨rfl, rfl, by simp [MultiRequestState.message, MultiRequestState.byValue,
      Call.original, passing]⟩, rfl⟩
  | reference =>
    simp only [passing, MultiRequestState.byReference, MessagePointer.toVoid,
      Bool.false_eq_true, if_false, Option.map_some, Option.some.injEq] at made
    subst made
    exact ⟨⟨rfl, rfl, by simp [MultiRequestState.message, Call.original, passing]⟩, rfl⟩
  | constReference =>
    simp [passing, MultiRequestState.byReference, MessagePointer.toVoid] at made

theorem State.Sending.start {start : State Buffer} (started : call.start = some start) :
    start.Sending call 0 := by
  obtain ⟨mrs, made, rfl⟩ := Option.map_eq_some_iff.mp started
  obtain ⟨intact, counter⟩ := start_intact made
  exact {
    finish := congrArg List.length intact.neighs
    position := rfl
    upto := Nat.zero_le _
    targets := rfl
    carries := nofun
    counter := counter
    outstanding := fun _ => ⟨intact, rfl⟩
    called := fun zero nonempty =>
      absurd (List.eq_nil_of_length_eq_zero (counter.symm.trans zero)) nonempty
    returned := nofun
    sound := rfl }

theorem sending_of_reaches {start : State Buffer} (started : call.start = some start)
    (matched : call.Matched) (reached : Reaches (step call) (fun _ _ => True) start s) :
    s.Sending call 0 :=
  reached.invariant (State.Sending call 0) (.start started)
    fun _ _ _ sending _ taken => sending.effect matched (step_effect taken)

structure State.SendMultiLaw (call : Call Buffer) (s : State Buffer) : Prop where
  /-- The counter is the number of sends that have not completed, so it never wraps. -/
  counter : s.mrs.counter + s.completed = call.neighs.length
  ready : s.isReady = true ↔ s.completed = call.neighs.length
  called : s.received = if s.completed = call.neighs.length then [call.original] else []
  posted : s.sends.map Send.target = call.targets.take s.sends.length
  carries : ∀ send ∈ s.sends, send.Carries call
  /-- The loop goes on whatever has completed, and is over when the request is returned. -/
  continues : s.sends.length < call.neighs.length → s.inCallback = false → s.returned = false →
    ∀ now takes, ∃ t, step call s (.issue now takes) = some t ∧
      t.sends.length = s.sends.length + 1
  all : s.returned = true → s.sends.map Send.target = call.targets

theorem State.Sending.continues (sending : s.Sending call 0) (matched : call.Matched)
    (more : s.sends.length < call.neighs.length) (outside : s.inCallback = false)
    (posting : s.returned = false) (now takes : Bool) :
    ∃ t, step call s (.issue now takes) = some t ∧ t.sends.length = s.sends.length + 1 := by
  rw [sending.position] at more
  have here : ¬ s.finish ≤ s.next := by rw [sending.finish]; omega
  have taken : step call s (.issue now takes) = some (s.issue call now takes) := by
    simp [step, sending.sound, outside, posting, here]
  refine ⟨_, taken, ?_⟩
  have after := sending.effect matched (step_effect taken)
  have before := sending.counter
  have bound := completed_le s
  rw [sending.position] at bound
  obtain ⟨intact, -⟩ := sending.outstanding (by omega)
  obtain ⟨dst, tag, neigh, tagged, -⟩ := intact.read matched more
  rw [after.position, sending.position]
  simp only [State.issue, neigh, tagged]
  cases now with
  | false => rfl
  | true =>
    simp only [if_true, State.complete]
    split
    · split <;> rfl
    · rfl

theorem State.Sending.lawful (sending : s.Sending call 0) (nonempty : call.neighs ≠ [])
    (matched : call.Matched) : s.SendMultiLaw call where
  counter := sending.counter
  ready := by
    have counter := sending.counter
    simp only [State.isReady, decide_eq_true_eq]
    omega
  called := by
    have counter := sending.counter
    split
    · exact sending.called (by omega) nonempty
    · exact (sending.outstanding (by omega)).2
  posted := by rw [sending.position]; exact sending.targets
  carries := sending.carries
  continues := fun more outside posting => sending.continues matched more outside posting
  all := fun returned => by
    rw [sending.targets, sending.returned returned, sending.finish, ← targets_length matched,
      List.take_length]

/-- The call can be made, and the law holds in every state of every run of it. -/
def Call.Lawful (call : Call Buffer) : Prop :=
  ∃ start, call.start = some start ∧
    ∀ s, Reaches (step call) (fun _ _ => True) start s → s.SendMultiLaw call

/-- The overloads for a message by r-value and by reference do what they should; those for a
constant reference cannot be instantiated. -/
theorem send_multi_lawful_iff (call : Call Buffer) (nonempty : call.neighs ≠ [])
    (matched : call.Matched) : call.Lawful ↔ call.passing ≠ .constReference := by
  constructor
  · rintro ⟨start, started, -⟩ const
    simp [Call.start, Call.makeMultiRequestState, const, MultiRequestState.byReference,
      MessagePointer.toVoid] at started
  · intro usable
    have made : ∃ start, call.start = some start := by
      unfold Call.start Call.makeMultiRequestState
      cases passing : call.passing with
      | rvalue => exact ⟨_, rfl⟩
      | reference => exact ⟨_, rfl⟩
      | constReference => exact absurd passing usable
    obtain ⟨start, started⟩ := made
    exact ⟨start, started, fun s reached =>
      (sending_of_reaches started matched reached).lawful nonempty matched⟩

/-- Two neighbours with a tag each. -/
theorem send_multi_lawful_two :
    ∃ call : Call Unit, call.passing = .rvalue ∧ call.neighs = [1, 2] ∧ call.tags = .each [7, 8] ∧
      call.Lawful := by
  refine ⟨⟨.rvalue, 0, ⟨some (), 3⟩, 4, [1, 2], .each [7, 8]⟩, rfl, rfl, rfl, ?_⟩
  refine (send_multi_lawful_iff _ (by decide) ?_).mpr (by decide)
  intro tags same
  cases same
  rfl

/-- A message by constant reference: `make_multi_request_state` initialises the `void*` of the
shared state with a pointer to a constant message. -/
theorem const_reference_ill_formed :
    ∃ call : Call Unit, call.passing = .constReference ∧ call.neighs = [1, 2] ∧
      call.tags = .one 7 ∧ call.start = none ∧ ¬ call.Lawful := by
  refine ⟨⟨.constReference, 0, ⟨some (), 3⟩, 4, [1, 2], .one 7⟩, rfl, rfl, rfl, rfl, ?_⟩
  rintro ⟨start, started, -⟩
  cases started

/-- A returned request that is ready, with no callback running, was called back once. -/
def State.ReadyLaw (s : State Buffer) : Prop :=
  s.returned = true → s.isReady = true → s.inCallback = false → s.received.length = 1

theorem State.Sending.ready_called (sending : s.Sending call 0) (nonempty : call.neighs ≠ []) :
    s.ReadyLaw := by
  intro _ ready _
  have zero : s.mrs.counter = 0 := of_decide_eq_true ready
  rw [sending.called zero nonempty, List.length_singleton]

/-- With no neighbour the request is returned at once, and it is ready. -/
theorem readyLaw_iff {start : State Buffer} (started : call.start = some start)
    (matched : call.Matched) :
    (∀ s, Reaches (step call) (fun _ _ => True) start s → s.ReadyLaw) ↔ call.neighs ≠ [] := by
  constructor
  · intro lawful empty
    have sending := State.Sending.start started
    obtain ⟨outside, posting, uncalled⟩ :
        start.inCallback = false ∧ start.returned = false ∧ start.received = [] := by
      obtain ⟨mrs, -, rfl⟩ := Option.map_eq_some_iff.mp started
      exact ⟨rfl, rfl, rfl⟩
    have ends : start.finish = 0 := by rw [sending.finish, empty, List.length_nil]
    have zero : start.mrs.counter = 0 := by
      have counter := sending.counter
      rw [empty, List.length_nil] at counter
      omega
    have taken : step call start .leave = some { start with returned := true } := by
      simp [step, sending.sound, outside, posting, ends]
    have once := lawful _ (.tail .refl ⟨.leave, trivial, taken⟩) rfl (decide_eq_true zero) outside
    simp [uncalled] at once
  · intro nonempty s reached
    exact (sending_of_reaches started matched reached).ready_called nonempty

end Oomph.SendMulti
