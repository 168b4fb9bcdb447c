import Oomph.Machine.Run
import Mathlib.Algebra.Order.Group.Multiset
import Mathlib.Data.List.TakeWhile
import Mathlib.Tactic.Abel

namespace Oomph.Libfabric.Polling

open Machine

/-! How many completions are read at a time comes from the environment, as text.  The number passes
from `int` to `uint32_t`, bounds the read into an array of fixed size, and decides whether the loop
goes on.
-/

def isSpace (c : Char) : Bool :=
  c = ' ' || (9 ≤ c.toNat && c.toNat ≤ 13)

def digitsValue (digits : List Char) : Nat :=
  (digits.takeWhile Char.isDigit).foldl (fun value c => 10 * value + (c.toNat - 48)) 0

/-- `std::atoi`.  For a number that is no `int` the behaviour is undefined, and `overflow` is what
comes out. -/
def atoi (overflow : Int32) (text : String) : Int32 :=
  let value : Int := match text.toList.dropWhile isSpace with
    | [] => 0
    | c :: rest =>
      if c = '-' then -digitsValue rest
      else if c = '+' then digitsValue rest
      else digitsValue (c :: rest)
  if -2 ^ 31 ≤ value ∧ value < 2 ^ 31 then Int32.ofInt value else overflow

def libfabricCompletionsPerPoll (overflow : Int32) (env : Option String) : Int32 :=
  match env with
  | some text => atoi overflow text
  | none => 4

def maxCompletionsPerPoll (overflow : Int32) (env : Option String) : UInt32 :=
  (libfabricCompletionsPerPoll overflow env).toUInt32

def maxCompletionsArrayLimit : UInt32 := 256

/-- What is in a completion queue.  An error has to be read on its own. -/
inductive Entry
  | completion (context : Nat)
  | unknown (context : Nat)
  | canceled (context : Nat)
  | failed (context : Nat)
deriving DecidableEq, Repr

namespace Entry

def context : Entry → Nat
  | .completion context => context
  | .unknown context => context
  | .canceled context => context
  | .failed context => context

def isError : Entry → Bool
  | .completion _ => false
  | .unknown _ => false
  | .canceled _ => true
  | .failed _ => true

def isCompletion : Entry → Bool
  | .completion _ => true
  | _ => false

def isCanceled : Entry → Bool
  | .canceled _ => true
  | _ => false

end Entry

/-- What a poll meets: another thread has the lock, or `fi_cq_read` returns this many entries. -/
inductive Answer
  | busy
  | entries (count : Nat)
deriving DecidableEq, Repr

structure Poll where
  /-- The number of entries that `fi_cq_read` was asked for, if it was called. -/
  asked : List Nat
  handled : List Nat
  left : List Entry
  /-- What is returned, unless the process ends here. -/
  returned : Option UInt32
deriving DecidableEq, Repr

/-- What `fi_cq_read` may read: no more than it was asked for, and nothing behind an error. -/
def Readable (max : UInt32) (queue : List Entry) (count : Nat) : Prop :=
  count ≤ max.toNat ∧ count ≤ (queue.takeWhile fun entry => !entry.isError).length

instance (max : UInt32) (queue : List Entry) (count : Nat) : Decidable (Readable max queue count) :=
  inferInstanceAs (Decidable (_ ∧ _))

/-- The loop over the entries that were read; an unknown one ends the process. -/
def process (max : UInt32) (queue : List Entry) (count : Nat) : Poll :=
  if (queue.take count).all Entry.isCompletion then
    { asked := [max.toNat]
      handled := (queue.take count).map Entry.context
      left := queue.drop count
      returned := some (UInt32.ofNat count) }
  else { asked := [max.toNat], handled := [], left := queue, returned := none }

def Poll.abort (asked : List Nat) (queue : List Entry) : Poll :=
  { asked, handled := [], left := queue, returned := none }

/-- `poll_send_queue`; `assertions` says whether `assert` is compiled. -/
def pollSendQueue (assertions : Bool) (max : UInt32) (queue : List Entry) (answer : Answer) :
    Option Poll :=
  if assertions ∧ maxCompletionsArrayLimit < max then some (.abort [] queue)
  else
    match answer with
    | .busy => some { asked := [], handled := [], left := queue, returned := some (-1) }
    | .entries count =>
      match queue with
      | .canceled _ :: _ => if count = 0 then some (.abort [max.toNat] queue) else none
      | .failed _ :: _ => if count = 0 then some (.abort [max.toNat] queue) else none
      | _ => if Readable max queue count then some (process max queue count) else none

/-- `poll_recv_queue`, which waits for the lock. -/
def pollRecvQueue (assertions : Bool) (max : UInt32) (queue : List Entry) (answer : Answer) :
    Option Poll :=
  if assertions ∧ maxCompletionsArrayLimit < max then some (.abort [] queue)
  else
    match answer with
    | .busy => none
    | .entries count =>
      match queue with
      | .canceled context :: rest =>
        if count = 0 then
          some { asked := [max.toNat], handled := [context], left := rest, returned := some 0 }
        else none
      | .failed _ :: _ => if count = 0 then some (.abort [max.toNat] queue) else none
      | _ => if Readable max queue count then some (process max queue count) else none

inductive Phase
  | sends
  | recvs (retry : Bool)
  | returned
  | aborted
deriving DecidableEq, Repr

structure State where
  phase : Phase
  sends : List Entry
  recvs : List Entry
  numSends : UInt32
  numRecvs : UInt32
  asked : List Nat
  handled : List Nat
deriving DecidableEq, Repr

def State.start (sends recvs : List Entry) : State :=
  { phase := .sends, sends, recvs, numSends := 0, numRecvs := 0, asked := [], handled := [] }

def State.sendsPolled (max : UInt32) (poll : Poll) (s : State) : State :=
  { s with
    phase := match poll.returned with
      | some nsend => .recvs (nsend = max)
      | none => .aborted
    sends := poll.left
    numSends := s.numSends + poll.returned.getD 0
    asked := poll.asked ++ s.asked
    handled := poll.handled.reverse ++ s.handled }

def State.recvsPolled (max : UInt32) (retry : Bool) (poll : Poll) (s : State) : State :=
  { s with
    phase := match poll.returned with
      | some nrecv => if retry || nrecv = max then .sends else .returned
      | none => .aborted
    recvs := poll.left
    numRecvs := s.numRecvs + poll.returned.getD 0
    asked := poll.asked ++ s.asked
    handled := poll.handled.reverse ++ s.handled }

def step (assertions : Bool) (max : UInt32) (s : State) (answer : Answer) : Option State :=
  match s.phase with
  | .sends => (pollSendQueue assertions max s.sends answer).map (s.sendsPolled max)
  | .recvs retry => (pollRecvQueue assertions max s.recvs answer).map (s.recvsPolled max retry)
  | .returned => none
  | .aborted => none

structure Backlog (sends recvs : List Entry) : Prop where
  sends : ∀ entry ∈ sends, entry.isCompletion = true
  recvs : ∀ entry ∈ recvs, (entry.isCompletion || entry.isCanceled) = true

def contexts (queue : List Entry) : Multiset Nat :=
  queue.map Entry.context

/-- What is expected of the loop: it never asks for more than fits into the array, has handled what
has left the queues and nothing else, and returns after finitely many polls. -/
structure Polls (assertions : Bool) (max : UInt32) (sends recvs : List Entry) : Prop where
  bounded : ∀ s, Leads (step assertions max) (.start sends recvs) s →
    ∀ count ∈ s.asked, count ≤ maxCompletionsArrayLimit.toNat
  handled : ∀ s, Leads (step assertions max) (.start sends recvs) s →
    (s.handled : Multiset Nat) + contexts s.sends + contexts s.recvs =
      contexts sends + contexts recvs
  finite : ∃ bound, ∀ answers s,
    run (step assertions max) (fun _ _ => True) (.start sends recvs) answers = some s →
      answers.length ≤ bound
  proceeds : ∀ s, Leads (step assertions max) (.start sends recvs) s → s.phase ≠ .returned →
    ∃ answer t, step assertions max s answer = some t

section Poll

variable {assertions : Bool} {max : UInt32} {queue : List Entry} {answer : Answer} {poll : Poll}
  {count : Nat}

structure Poll.Sound (max : UInt32) (queue : List Entry) (poll : Poll) : Prop where
  asked : ∀ asked ∈ poll.asked, asked = max.toNat
  returned : ∃ number, poll.returned = some number ∧
    (number = max → poll.left.length < queue.length)
  handled : (poll.handled : Multiset Nat) + contexts poll.left = contexts queue
  left : poll.left <:+ queue

theorem contexts_split (queue : List Entry) (count : Nat) :
    contexts (queue.take count) + contexts (queue.drop count) = contexts queue := by
  rw [contexts, contexts, contexts, Multiset.coe_add, ← List.map_append, List.take_append_drop]

theorem not_error_of_readable {entry : Entry} (readable : Readable max queue count)
    (member : entry ∈ queue.take count) : entry.isError = false := by
  obtain ⟨back, split⟩ := List.takeWhile_prefix (l := queue) fun entry => !entry.isError
  rw [← split, List.take_append_of_le_length readable.2] at member
  simpa using List.mem_takeWhile_imp (List.mem_of_mem_take member)

theorem process_sound (positive : 0 < max) (readable : Readable max queue count)
    (plain : ∀ entry ∈ queue.take count, entry.isCompletion = true) :
    (process max queue count).Sound max queue := by
  have all : (queue.take count).all Entry.isCompletion = true := by simpa using plain
  rw [process, if_pos all]
  refine ⟨by simp, ⟨_, rfl, fun full => ?_⟩, contexts_split queue count, List.drop_suffix _ _⟩
  have nonzero : 0 < max.toNat := UInt32.lt_iff_toNat_lt.mp positive
  have number : count = max.toNat := by
    have same := congrArg UInt32.toNat full
    have most : count < UInt32.size := readable.1.trans_lt (UInt32.toNat_lt max)
    rwa [UInt32.toNat_ofNat_of_lt' most] at same
  have within : count ≤ queue.length :=
    readable.2.trans (List.takeWhile_sublist _).length_le
  rw [List.length_drop]
  omega

theorem pollSendQueue_sound (positive : 0 < max) (fits : max ≤ maxCompletionsArrayLimit)
    (plain : ∀ entry ∈ queue, entry.isCompletion = true)
    (polled : pollSendQueue assertions max queue answer = some poll) : poll.Sound max queue := by
  have small : ¬ (assertions = true ∧ maxCompletionsArrayLimit < max) :=
    fun ⟨_, large⟩ => absurd fits (UInt32.not_le.mpr large)
  unfold pollSendQueue at polled
  rw [if_neg small] at polled
  cases answer with
  | busy =>
    cases polled
    refine ⟨nofun, ⟨-1, rfl, fun full => ?_⟩, by simp, List.suffix_refl _⟩
    rw [← full] at fits
    exact absurd fits (by decide)
  | entries count =>
    simp only at polled
    split at polled
    · exact absurd (plain _ List.mem_cons_self) (by simp [Entry.isCompletion])
    · exact absurd (plain _ List.mem_cons_self) (by simp [Entry.isCompletion])
    · split at polled
      · cases polled
        exact process_sound positive ‹_› fun entry member =>
          plain entry (List.mem_of_mem_take member)
      · cases polled

theorem pollRecvQueue_sound (positive : 0 < max) (fits : max ≤ maxCompletionsArrayLimit)
    (plain : ∀ entry ∈ queue, (entry.isCompletion || entry.isCanceled) = true)
    (polled : pollRecvQueue assertions max queue answer = some poll) : poll.Sound max queue := by
  have small : ¬ (assertions = true ∧ maxCompletionsArrayLimit < max) :=
    fun ⟨_, large⟩ => absurd fits (UInt32.not_le.mpr large)
  unfold pollRecvQueue at polled
  rw [if_neg small] at polled
  cases answer with
  | busy => cases polled
  | entries count =>
    simp only at polled
    split at polled
    · rename_i context rest
      split at polled
      · cases polled
        refine ⟨by simp, ⟨0, rfl, fun _ => by simp⟩, ?_, List.suffix_cons _ _⟩
        simp [contexts, Entry.context]
      · cases polled
    · exact absurd (plain _ List.mem_cons_self) (by simp [Entry.isCompletion, Entry.isCanceled])
    · split at polled
      · rename_i readable
        cases polled
        refine process_sound positive readable fun entry member => ?_
        have correct := not_error_of_readable readable member
        have kind := plain entry (List.mem_of_mem_take member)
        cases entry <;> simp_all [Entry.isCompletion, Entry.isCanceled, Entry.isError]
      · cases polled

end Poll

section Runs

variable {assertions : Bool} {max : UInt32} {sends recvs : List Entry} {s t : State}
  {answer : Answer}

structure State.Sound (max : UInt32) (sends recvs : List Entry) (s : State) : Prop where
  running : s.phase ≠ .aborted
  backlog : Backlog s.sends s.recvs
  asked : ∀ count ∈ s.asked, count = max.toNat
  handled : (s.handled : Multiset Nat) + contexts s.sends + contexts s.recvs =
    contexts sends + contexts recvs

/-- Each entry is worth a round, and so is a round that was asked for. -/
def State.toDo (s : State) : Nat :=
  match s.phase with
  | .sends => 3 * (s.sends.length + s.recvs.length) + 2
  | .recvs retry => 3 * (s.sends.length + s.recvs.length) + if retry then 4 else 1
  | .returned => 0
  | .aborted => 0

theorem State.Sound.step (sound : s.Sound max sends recvs) (positive : 0 < max)
    (fits : max ≤ maxCompletionsArrayLimit) (taken : step assertions max s answer = some t) :
    t.Sound max sends recvs ∧ t.toDo < s.toDo := by
  obtain ⟨running, backlog, asked, handled⟩ := sound
  unfold Polling.step at taken
  split at taken
  · rename_i phase
    obtain ⟨poll, polled, rfl⟩ := Option.map_eq_some_iff.mp taken
    have polls := pollSendQueue_sound positive fits backlog.sends polled
    obtain ⟨number, returned, took⟩ := polls.returned
    have shorter := polls.left.length_le
    constructor
    · refine ⟨by simp [State.sendsPolled, returned], ⟨fun entry member =>
        backlog.sends entry (polls.left.subset member), backlog.recvs⟩, ?_, ?_⟩
      · intro count member
        rcases List.mem_append.mp member with new | old
        · exact polls.asked count new
        · exact asked count old
      · rw [← handled, ← polls.handled]
        simp only [State.sendsPolled, ← Multiset.coe_add, Multiset.coe_reverse]
        abel
    · simp only [State.toDo, State.sendsPolled, phase, returned]
      by_cases full : number = max
      · have := took full
        simp only [full, decide_true, if_true]
        omega
      · simp only [full, decide_false, Bool.false_eq_true, if_false]
        omega
  · rename_i retry phase
    obtain ⟨poll, polled, rfl⟩ := Option.map_eq_some_iff.mp taken
    have polls := pollRecvQueue_sound positive fits backlog.recvs polled
    obtain ⟨number, returned, took⟩ := polls.returned
    have shorter := polls.left.length_le
    constructor
    · refine ⟨?_, ⟨backlog.sends, fun entry member =>
        backlog.recvs entry (polls.left.subset member)⟩, ?_, ?_⟩
      · simp only [State.recvsPolled, returned]
        split <;> simp
      · intro count member
        rcases List.mem_append.mp member with new | old
        · exact polls.asked count new
        · exact asked count old
      · rw [← handled, ← polls.handled]
        simp only [State.recvsPolled, ← Multiset.coe_add, Multiset.coe_reverse]
        abel
    · simp only [State.toDo, State.recvsPolled, phase, returned]
      cases retry with
      | true =>
        simp only [Bool.true_or, if_true]
        omega
      | false =>
        by_cases full : number = max
        · have := took full
          simp only [full, decide_true, Bool.or_true, if_true, Bool.false_eq_true, if_false]
          omega
        · simp only [full, decide_false, Bool.or_false, Bool.false_eq_true, if_false]
          omega
  · cases taken
  · cases taken

theorem State.Sound.start (backlog : Backlog sends recvs) :
    (State.start sends recvs).Sound max sends recvs where
  running := nofun
  backlog := backlog
  asked := nofun
  handled := by simp [State.start]

theorem State.Sound.of_leads (positive : 0 < max) (fits : max ≤ maxCompletionsArrayLimit)
    (backlog : Backlog sends recvs)
    (reached : Leads (Polling.step assertions max) (.start sends recvs) s) :
    s.Sound max sends recvs :=
  Reaches.invariant (State.Sound max sends recvs) (.start backlog)
    (fun _ _ _ sound _ taken => (sound.step positive fits taken).1) reached

theorem exists_poll (fits : max ≤ maxCompletionsArrayLimit) (running : s.phase ≠ .aborted)
    (unfinished : s.phase ≠ .returned) :
    ∃ t, Polling.step assertions max s (.entries 0) = some t := by
  have small : ¬ (assertions = true ∧ maxCompletionsArrayLimit < max) :=
    fun ⟨_, large⟩ => absurd fits (UInt32.not_le.mpr large)
  unfold Polling.step
  split
  · unfold pollSendQueue
    rw [if_neg small]
    simp only
    split <;> simp [Readable]
  · unfold pollRecvQueue
    rw [if_neg small]
    simp only
    split <;> simp [Readable]
  · exact absurd ‹_› unfinished
  · exact absurd ‹_› running

theorem polls_of_fits (positive : 0 < max) (fits : max ≤ maxCompletionsArrayLimit)
    (backlog : Backlog sends recvs) : Polls assertions max sends recvs where
  bounded s reached count asked := by
    have sound := State.Sound.of_leads positive fits backlog reached
    rw [sound.asked count asked]
    exact UInt32.le_iff_toNat_le.mp fits
  handled s reached := (State.Sound.of_leads positive fits backlog reached).handled
  finite := by
    refine ⟨(State.start sends recvs).toDo, fun answers s ran => ?_⟩
    have keeps : ∀ before answer after, before.Sound max sends recvs → True →
        Polling.step assertions max before answer = some after → after.Sound max sends recvs :=
      fun _ _ _ sound _ taken => (sound.step positive fits taken).1
    have short := length_le_of_run State.toDo keeps
      (fun _ _ _ sound _ taken => (sound.step positive fits taken).2) (.start backlog) ran
    omega
  proceeds s reached unfinished := by
    have sound := State.Sound.of_leads positive fits backlog reached
    obtain ⟨t, taken⟩ := exists_poll fits sound.running unfinished
    exact ⟨_, t, taken⟩

/-- With batches of size zero a round that finds nothing asks for another one. -/
theorem endless_rounds (assertions : Bool) (rounds : Nat) (phase : s.phase = .sends)
    (noSends : s.sends = []) (noRecvs : s.recvs = []) :
    ∃ t, run (Polling.step assertions 0) (fun _ _ => True) s
      (List.replicate (2 * rounds) (.entries 0)) = some t := by
  induction rounds generalizing s with
  | zero => exact ⟨s, rfl⟩
  | succ rounds ih =>
    let between := s.sendsPolled 0 (process 0 [] 0)
    let after := between.recvsPolled 0 true (process 0 [] 0)
    have first : Polling.step assertions 0 s (.entries 0) = some between := by
      simp [Polling.step, phase, noSends, pollSendQueue, Readable, between]
    have second : Polling.step assertions 0 between (.entries 0) = some after := by
      simp [Polling.step, State.sendsPolled, process, noRecvs, pollRecvQueue, Readable,
        between, after]
    obtain ⟨t, ran⟩ := ih (s := after) rfl rfl rfl
    refine ⟨t, ?_⟩
    rw [Nat.mul_succ, List.replicate_succ, List.replicate_succ]
    simpa [run, first, second] using ran

theorem first_poll (max : UInt32) :
    Polling.step false max (.start [] []) (.entries 0) =
      some ((State.start [] []).sendsPolled max (process max [] 0)) := by
  simp [Polling.step, State.start, pollSendQueue, Readable]

/-- A batch that is larger than the array ends the process or is asked for. -/
theorem not_polls_of_large (large : maxCompletionsArrayLimit < max) :
    ¬ Polls assertions max [] [] := by
  intro polls
  cases assertions with
  | true =>
    have taken : Polling.step true max (.start [] []) (.entries 0) =
        some ((State.start [] []).sendsPolled max (.abort [] [])) := by
      simp [Polling.step, State.start, pollSendQueue, large]
    obtain ⟨answer, t, next⟩ := polls.proceeds _ (leads_one taken)
      (by simp [State.sendsPolled, Poll.abort])
    simp [Polling.step, State.sendsPolled, Poll.abort] at next
  | false =>
    have bound := polls.bounded _ (leads_one (first_poll max)) max.toNat
      (by simp [State.sendsPolled, process])
    exact absurd (UInt32.le_iff_toNat_le.mpr bound) (UInt32.not_le.mpr large)

end Runs

/-- The loop does what is expected for every backlog exactly when a batch is neither empty nor
larger than the array. -/
theorem polls_iff_fits (assertions : Bool) (overflow : Int32) (env : Option String) :
    (∀ sends recvs, Backlog sends recvs →
      Polls assertions (maxCompletionsPerPoll overflow env) sends recvs) ↔
    0 < maxCompletionsPerPoll overflow env ∧
      maxCompletionsPerPoll overflow env ≤ maxCompletionsArrayLimit := by
  constructor
  · intro law
    have polls := law [] [] ⟨nofun, nofun⟩
    constructor
    · by_contra zero
      have none : maxCompletionsPerPoll overflow env = 0 :=
        UInt32.le_zero_iff.mp (UInt32.not_lt.mp zero)
      rw [none] at polls
      obtain ⟨bound, finite⟩ := polls.finite
      obtain ⟨t, ran⟩ := endless_rounds (s := .start [] []) assertions (bound + 1) rfl rfl rfl
      have short := finite _ t ran
      rw [List.length_replicate] at short
      omega
    · by_contra large
      exact not_polls_of_large (UInt32.not_le.mp large) polls
  · rintro ⟨positive, fits⟩ sends recvs backlog
    exact polls_of_fits positive fits backlog

/-- A text without a number gives an empty batch, with which the loop never ends, and a number that
is too large or negative gives a batch that is larger than the array. -/
theorem unusable_poll_sizes :
    maxCompletionsPerPoll 0 (some "many") = 0 ∧
      (∀ rounds, ∃ s, run (step false (maxCompletionsPerPoll 0 (some "many"))) (fun _ _ => True)
        (.start [] []) (List.replicate (2 * rounds) (.entries 0)) = some s) ∧
      (∃ s, Leads (step false (maxCompletionsPerPoll 0 (some "300"))) (.start [] []) s ∧
        s.asked = [300]) ∧
      ∃ s, Leads (step false (maxCompletionsPerPoll 0 (some "-1"))) (.start [] []) s ∧
        s.asked = [4294967295] := by
  have empty : maxCompletionsPerPoll 0 (some "many") = 0 := by decide +kernel
  have large : maxCompletionsPerPoll 0 (some "300") = 300 := by decide +kernel
  have negative : maxCompletionsPerPoll 0 (some "-1") = 4294967295 := by decide +kernel
  rw [empty, large, negative]
  exact ⟨rfl, fun rounds => endless_rounds false rounds rfl rfl rfl,
    ⟨_, leads_one (first_poll 300), rfl⟩, ⟨_, leads_one (first_poll 4294967295), rfl⟩⟩

end Oomph.Libfabric.Polling
