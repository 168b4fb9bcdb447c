import Oomph.Machine.Matching
import Oomph.Libfabric.Tag

namespace Oomph.Libfabric

open Machine

/-! `recv` and `shared_recv` hand `fi_trecv` a source address and a 64-bit tag.  The provider
looks at the source address only when `FI_DIRECTED_RECV` was requested.
-/

inductive Capability
  | hmem
  | msg
  | tagged
  | rma
  | read
  | write
  | recv
  | send
  | transmit
  | remoteRead
  | remoteWrite
  | directedRecv
deriving DecidableEq, Repr

/-- `caps_flags` of the controller; `device` is `OOMPH_ENABLE_DEVICE` without TCP. -/
def capsFlags (device : Bool) : List Capability :=
  (if device then [.hmem] else []) ++
    [.msg, .tagged, .rma, .read, .write, .recv, .send, .transmit, .remoteRead, .remoteWrite]

def anySource : RankType := -1

def fiAddr (rank : RankType) : UInt64 := rank.toInt64.toUInt64

def addrUnspec : UInt64 := 0xFFFFFFFFFFFFFFFF

structure TaggedRecv where
  srcAddr : UInt64
  tag : UInt64
  ignore : UInt64
deriving DecidableEq, Repr

structure TaggedMsg where
  srcAddr : UInt64
  tag : UInt64
deriving DecidableEq, Repr

def accepts (caps : List Capability) (recv : TaggedRecv) (msg : TaggedMsg) : Bool :=
  decide (recv.tag ||| recv.ignore = msg.tag ||| recv.ignore) &&
    (!caps.contains .directedRecv || decide (recv.srcAddr = addrUnspec) ||
      decide (recv.srcAddr = msg.srcAddr))

structure Receive where
  src : RankType
  tag : TagType
deriving DecidableEq, Repr

structure Message where
  sender : RankType
  tag : TagType
deriving DecidableEq, Repr

def recvTaggedRegion (ctxt : UInt64) (receive : Receive) : TaggedRecv where
  srcAddr := fiAddr receive.src
  tag := stag receive.tag ctxt
  ignore := 0

def sendTaggedRegion (ctxt : UInt64) (message : Message) : TaggedMsg where
  srcAddr := fiAddr message.sender
  tag := stag message.tag ctxt

/-- What the fabric does with the receives and messages of one context. -/
def fabricAccepts (device : Bool) (ctxt : UInt64) (receive : Receive) (message : Message) : Bool :=
  accepts (capsFlags device) (recvTaggedRegion ctxt receive) (sendTaggedRegion ctxt message)

theorem not_directed (device : Bool) : (capsFlags device).contains .directedRecv = false := by
  cases device <;> decide

theorem fabricAccepts_iff {device : Bool} {ctxt : UInt64} {receive : Receive}
    {message : Message} :
    fabricAccepts device ctxt receive message = true ↔
      stag receive.tag ctxt = stag message.tag ctxt := by
  simp only [fabricAccepts, accepts, recvTaggedRegion, sendTaggedRegion, not_directed device]
  simp

abbrev Schedule := List (Arrival Receive Message)

/-- The schedule posts these receives and delivers these messages, in any order. -/
def Schedules (recvs : List Receive) (msgs : List Message) (schedule : Schedule) : Prop :=
  (schedule.filterMap Arrival.recv?).Perm recvs ∧ (schedule.filterMap Arrival.msg?).Perm msgs

/-- Whatever the order, a receive for a source gets a message from that source only. -/
def OnlyFromSource (device : Bool) (ctxt : UInt64) (recvs : List Receive) (msgs : List Message) :
    Prop :=
  ∀ schedule, Schedules recvs msgs schedule →
    ∀ pair ∈ (Endpoint.empty.takeAll (fabricAccepts device ctxt) schedule).matched,
      pair.1.src ≠ anySource → pair.2.sender = pair.1.src

variable {recvs : List Receive} {msgs : List Message} {schedule : Schedule}

theorem mem_recvs (schedules : Schedules recvs msgs schedule) {receive : Receive}
    (member : .post receive ∈ schedule) : receive ∈ recvs := by
  rw [← schedules.1.mem_iff, List.mem_filterMap]
  exact ⟨_, member, rfl⟩

theorem mem_msgs (schedules : Schedules recvs msgs schedule) {message : Message}
    (member : .arrive message ∈ schedule) : message ∈ msgs := by
  rw [← schedules.2.mem_iff, List.mem_filterMap]
  exact ⟨_, member, rfl⟩

theorem schedule_first {receive : Receive} {message : Message} (posted : receive ∈ recvs)
    (sent : message ∈ msgs) :
    ∃ rest, Schedules recvs msgs (.post receive :: .arrive message :: rest) := by
  have recvsLeft := Arrival.recvs_append (recvs.erase receive) (msgs.erase message)
  have msgsLeft := Arrival.msgs_append (recvs.erase receive) (msgs.erase message)
  refine ⟨(recvs.erase receive).map .post ++ (msgs.erase message).map .arrive, ?_, ?_⟩
  · exact (List.Perm.of_eq (congrArg (receive :: ·) recvsLeft)).trans
      (List.perm_cons_erase posted).symm
  · exact (List.Perm.of_eq (congrArg (message :: ·) msgsLeft)).trans
      (List.perm_cons_erase sent).symm

/-- Receives are matched by their source exactly when no other rank sends with a tag that
has the same low 24 bits. -/
theorem onlyFromSource_iff (device : Bool) (ctxt : UInt64) (recvs : List Receive)
    (msgs : List Message) :
    OnlyFromSource device ctxt recvs msgs ↔
      ∀ receive ∈ recvs, receive.src ≠ anySource → ∀ message ∈ msgs,
        stag receive.tag ctxt = stag message.tag ctxt → message.sender = receive.src := by
  constructor
  · intro separated receive posted directed message sent same
    obtain ⟨rest, schedules⟩ := schedule_first posted sent
    exact separated _ schedules (receive, message)
      (Endpoint.matched_first (fabricAccepts_iff.mpr same) rest) directed
  · intro separated schedule schedules pair member directed
    have empty : Endpoint.From (fabricAccepts device ctxt) (· ∈ recvs) (· ∈ msgs)
        Endpoint.empty := ⟨nofun, nofun, nofun⟩
    have origin := empty.takeAll (fun _ => mem_recvs schedules) (fun _ => mem_msgs schedules)
    obtain ⟨posted, sent, accepted⟩ := origin.matched pair member
    exact separated pair.1 posted directed pair.2 sent (fabricAccepts_iff.mp accepted)

/-- A receive for rank 1 and a message with its tag from rank 2. -/
theorem receive_matched_with_other_source :
    ¬ OnlyFromSource false 0x7f00a0000010 [{ src := 1, tag := 7 }] [{ sender := 2, tag := 7 }] := by
  intro separated
  have matched := separated [.post { src := 1, tag := 7 }, .arrive { sender := 2, tag := 7 }]
    ⟨.refl _, .refl _⟩ ({ src := 1, tag := 7 }, { sender := 2, tag := 7 }) (by decide) (by decide)
  exact absurd matched (by decide)

end Oomph.Libfabric
