import Oomph.Ucx.Records
import Oomph.Machine.Pool
import Mathlib.Tactic.Abel

namespace Oomph.Ucx

open Machine State

/-! UCX reuses the memory of a request that was freed.  A request is active while UCX has it
in progress, while `send_callback` or a cancel is about to free it, and while it waits in a
queue of cancelled receives.  Apart from a cancel that comes too late, nobody uses the
pointer of a request that is not active, so the data that a callback finds is the data that
was constructed for its own operation.
-/

namespace Frame

def requests : Frame → Multiset UcxRequest
  | .release request => {request}
  | _ => 0

def freeing : Frame → Multiset Nat
  | .call _ (.cancelFree op) => {op}
  | _ => 0

end Frame

attribute [simp] Frame.requests Frame.freeing

def CommunicatorImpl.canceled (c : CommunicatorImpl) : Multiset Nat :=
  c.cancelRecvReqQueue

structure Memory where
  inFlight : List UcxRequest
  releasing : Multiset UcxRequest
  canceled : Multiset Nat
  freeing : Multiset Nat
  inUse : List Nat
  ptrEvents : List PtrEvent
  requestData : Nat → RequestData

namespace State

def releasing (s : State) : Multiset UcxRequest :=
  total (total Frame.requests) s.threads

def canceled (s : State) : Multiset Nat :=
  total CommunicatorImpl.canceled s.comms + s.cancelRecvReqQueue

def freeing (s : State) : Multiset Nat :=
  total (total Frame.freeing) s.threads

def memory (s : State) : Memory where
  inFlight := s.inFlight
  releasing := s.releasing
  canceled := s.canceled
  freeing := s.freeing
  inUse := s.inUse
  ptrEvents := s.ptrEvents
  requestData := s.requestData

end State

def Memory.active (m : Memory) : Multiset Nat :=
  (m.inFlight.map UcxRequest.op : Multiset Nat) +
    (m.releasing.map UcxRequest.op + m.canceled + m.freeing)

/-- What a step does to the memory of requests, where `ptrOf` is the pointer that a request
state keeps.  Only errors leave a request allocated that nobody needs. -/
inductive MemoryStep (error : Prop) (posts : List Post) (ptrOf : Nat → Option Nat) (m : Memory) :
    Memory → Prop
  | keep : MemoryStep error posts ptrOf m m
  | early (ptr : Nat) : ptr ∉ m.inUse → MemoryStep error posts ptrOf m { m with
      ptrEvents := .freed ptr none :: .used ptr none :: .lent ptr none :: m.ptrEvents }
  | leak (ptr : Nat) : error → ptr ∉ m.inUse → MemoryStep error posts ptrOf m { m with
      inUse := ptr :: m.inUse
      ptrEvents := .used ptr none :: .lent ptr none :: m.ptrEvents }
  | attach (request : UcxRequest) (post : Post) : request.ptr ∉ m.inUse →
      posts[request.op]? = some post → request.op ∉ m.active → post.inplace = false →
      (∀ comm, request.worker = some comm → post.kind = .send ∧ post.comm = comm) →
      ptrOf request.op = some request.ptr → MemoryStep error posts ptrOf m { m with
        inFlight := m.inFlight ++ [request]
        inUse := request.ptr :: m.inUse
        ptrEvents := .lent request.ptr (some request.op) :: m.ptrEvents
        requestData := Function.update m.requestData request.ptr (.construct post.kind request.op) }
  | sent (request : UcxRequest) : request ∈ m.inFlight → MemoryStep error posts ptrOf m { m with
      inFlight := m.inFlight.erase request
      releasing := request ::ₘ m.releasing
      ptrEvents := .used request.ptr (some request.op) :: m.ptrEvents }
  | abandon (request : UcxRequest) : error → request ∈ m.inFlight →
      MemoryStep error posts ptrOf m { m with
      inFlight := m.inFlight.erase request
      ptrEvents := .used request.ptr (some request.op) :: m.ptrEvents }
  | finish (request : UcxRequest) : request ∈ m.inFlight → MemoryStep error posts ptrOf m { m with
      inFlight := m.inFlight.erase request
      inUse := m.inUse.erase request.ptr
      ptrEvents := .freed request.ptr (some request.op) ::
        .used request.ptr (some request.op) :: m.ptrEvents
      requestData := Function.update m.requestData request.ptr .empty }
  | release (request : UcxRequest) (others : Multiset UcxRequest) :
      m.releasing = request ::ₘ others → MemoryStep error posts ptrOf m { m with
        releasing := others
        inUse := m.inUse.erase request.ptr
        ptrEvents := .freed request.ptr (some request.op) :: m.ptrEvents
        requestData := Function.update m.requestData request.ptr .empty }
  | cancel (request : UcxRequest) : request ∈ m.inFlight → MemoryStep error posts ptrOf m { m with
      inFlight := m.inFlight.erase request
      canceled := request.op ::ₘ m.canceled
      ptrEvents := .used request.ptr (some request.op) :: m.ptrEvents }
  | ask (op ptr : Nat) : op ∈ m.active → ptrOf op = some ptr → MemoryStep error posts ptrOf m { m with
      ptrEvents := .used ptr (some op) :: m.ptrEvents }
  | withdraw (op ptr : Nat) (others : Multiset Nat) : m.canceled = op ::ₘ others →
      ptrOf op = some ptr → MemoryStep error posts ptrOf m { m with
        canceled := others
        freeing := op ::ₘ m.freeing
        ptrEvents := .used ptr (some op) :: m.ptrEvents
        requestData := Function.update m.requestData ptr .empty }
  | free (op ptr : Nat) (others : Multiset Nat) : m.freeing = op ::ₘ others →
      ptrOf op = some ptr → MemoryStep error posts ptrOf m { m with
        freeing := others
        inUse := m.inUse.erase ptr
        ptrEvents := .freed ptr (some op) :: m.ptrEvents }

namespace Memory

structure Pinned (posts : List Post) (ptrOf : Nat → Option Nat) (m : Memory) : Prop where
  ledger : Lease.Ledger m.ptrEvents m.inUse
  nodup : m.active.Nodup
  known : ∀ op ∈ m.active, op < posts.length
  kept : Lease.Kept m.ptrEvents ptrOf m.active
  inFlight : ∀ request ∈ m.inFlight, ptrOf request.op = some request.ptr
  releasing : ∀ request ∈ m.releasing, ptrOf request.op = some request.ptr

/-- What UCX has in progress is a request with a request state, its data is attached,
and a send is on the worker of its communicator.  Memory that is free or will be freed by
a cancel has no data. -/
structure Attached (posts : List Post) (ptrOf : Nat → Option Nat) (m : Memory) : Prop where
  data : ∀ request ∈ m.inFlight, PostedAs posts request.op fun post => post.inplace = false ∧
    m.requestData request.ptr = .construct post.kind request.op ∧
    ∀ comm, request.worker = some comm → post.kind = .send ∧ post.comm = comm
  freeing : ∀ op ∈ m.freeing, ∀ ptr, ptrOf op = some ptr → m.requestData ptr = .empty
  clean : ∀ ptr, ptr ∉ m.inUse → m.requestData ptr = .empty

variable {posts more : List Post} {ptrOf : Nat → Option Nat} {m after : Memory}
  {request other : UcxRequest} {op ptr : Nat}

theorem active_erase (member : request ∈ m.inFlight) :
    m.active = request.op ::ₘ ({ m with inFlight := m.inFlight.erase request } : Memory).active := by
  have whole : (m.inFlight.map UcxRequest.op : Multiset Nat) =
      request.op ::ₘ ((m.inFlight.erase request).map UcxRequest.op : List Nat) := by
    rw [← Multiset.map_coe, ← Multiset.map_coe, ← Multiset.coe_erase, ← Multiset.map_cons,
      Multiset.cons_erase (Multiset.mem_coe.mpr member)]
  rw [active, whole, Multiset.cons_add]
  rfl

theorem active_attach (request : UcxRequest) :
    ({ m with inFlight := m.inFlight ++ [request] } : Memory).active = request.op ::ₘ m.active := by
  simp only [active, List.map_append, List.map_cons, List.map_nil, ← Multiset.coe_add,
    Multiset.coe_singleton, ← Multiset.singleton_add]
  abel

theorem active_sent (member : request ∈ m.inFlight) :
    ({ m with
      inFlight := m.inFlight.erase request
      releasing := request ::ₘ m.releasing } : Memory).active = m.active := by
  rw [active_erase member]
  simp only [active, Multiset.map_cons]
  simp only [← Multiset.singleton_add]
  abel

theorem active_cancel (member : request ∈ m.inFlight) :
    ({ m with
      inFlight := m.inFlight.erase request
      canceled := request.op ::ₘ m.canceled } : Memory).active = m.active := by
  rw [active_erase member]
  simp only [active, ← Multiset.singleton_add]
  abel

theorem active_withdraw {others : Multiset Nat} (whole : m.canceled = op ::ₘ others) :
    ({ m with canceled := others, freeing := op ::ₘ m.freeing } : Memory).active = m.active := by
  simp only [active, whole, ← Multiset.singleton_add]
  abel

theorem active_release {others : Multiset UcxRequest} (whole : m.releasing = request ::ₘ others) :
    m.active = request.op ::ₘ ({ m with releasing := others } : Memory).active := by
  simp only [active, whole, Multiset.map_cons]
  simp only [← Multiset.singleton_add]
  abel

theorem active_free {others : Multiset Nat} (whole : m.freeing = op ::ₘ others) :
    m.active = op ::ₘ ({ m with freeing := others } : Memory).active := by
  simp only [active, whole, ← Multiset.singleton_add]
  abel

theorem mem_active_of_inFlight (member : request ∈ m.inFlight) : request.op ∈ m.active := by
  rw [active_erase member]
  exact Multiset.mem_cons_self _ _

theorem mem_active_of_releasing (member : request ∈ m.releasing) : request.op ∈ m.active := by
  simp only [active, Multiset.mem_add]
  exact .inr (.inl (.inl (Multiset.mem_map_of_mem _ member)))

theorem mem_active_of_canceled (member : op ∈ m.canceled) : op ∈ m.active := by
  simp only [active, Multiset.mem_add]
  exact .inr (.inl (.inr member))

theorem mem_active_of_freeing (member : op ∈ m.freeing) : op ∈ m.active := by
  simp only [active, Multiset.mem_add]
  exact .inr (.inr member)

namespace Pinned

theorem mem_inUse (pinned : m.Pinned posts ptrOf) (member : op ∈ m.active)
    (known : ptrOf op = some ptr) : ptr ∈ m.inUse :=
  pinned.ledger.mem_of_holder (pinned.kept.holder member known)

theorem op_ne (pinned : m.Pinned posts ptrOf) (inside : request ∈ m.inFlight)
    (member : op ∈ m.releasing.map UcxRequest.op + m.canceled + m.freeing) : request.op ≠ op := by
  have apart := (Multiset.nodup_add.mp pinned.nodup).2.2
  rintro rfl
  exact Multiset.disjoint_left.mp apart (Multiset.mem_coe.mpr (List.mem_map_of_mem inside)) member

theorem op_ne_of_erase (pinned : m.Pinned posts ptrOf) (member : request ∈ m.inFlight)
    (inside : other ∈ m.inFlight.erase request) : other.op ≠ request.op := by
  have nodup := pinned.nodup
  rw [active_erase member, Multiset.nodup_cons] at nodup
  intro same
  exact nodup.1 (same ▸ mem_active_of_inFlight inside)

theorem grow {learned : Nat → Option Nat} (pinned : m.Pinned posts ptrOf) (grown : posts <+: more)
    (same : ∀ op < posts.length, learned op = ptrOf op) : m.Pinned more learned where
  ledger := pinned.ledger
  nodup := pinned.nodup
  known op member := (pinned.known op member).trans_le grown.length_le
  kept := pinned.kept.congr fun op member => same op (pinned.known op member)
  inFlight request member := by
    rw [same _ (pinned.known _ (mem_active_of_inFlight member)), pinned.inFlight request member]
  releasing request member := by
    rw [same _ (pinned.known _ (mem_active_of_releasing member)), pinned.releasing request member]

private theorem give (pinned : m.Pinned posts ptrOf) (known : ptrOf op = some ptr)
    (fewer : m.active = op ::ₘ after.active) (inUse : after.inUse = m.inUse.erase ptr)
    (events : after.ptrEvents = .freed ptr (some op) :: m.ptrEvents)
    (inFlight : ∀ request ∈ after.inFlight, request ∈ m.inFlight)
    (releasing : ∀ request ∈ after.releasing, request ∈ m.releasing) : after.Pinned posts ptrOf := by
  have member : op ∈ m.active := by
    rw [fewer]
    exact Multiset.mem_cons_self _ _
  have held := pinned.kept.holder member known
  have nodup := pinned.nodup
  rw [fewer] at nodup
  have within : after.active ⊆ m.active := by
    rw [fewer]
    exact Multiset.subset_cons _ _
  refine ⟨?_, (Multiset.nodup_cons.mp nodup).2, fun other member => pinned.known other (within member),
    ?_, fun request member => pinned.inFlight request (inFlight request member),
    fun request member => pinned.releasing request (releasing request member)⟩
  · rw [events, inUse]
    exact pinned.ledger.free held
  · rw [events]
    refine (pinned.kept.mono within).free held fun other member same => ?_
    cases same
    exact (Multiset.nodup_cons.mp nodup).1 member

private theorem use (pinned : m.Pinned posts ptrOf) (member : op ∈ m.active)
    (known : ptrOf op = some ptr) :
    ({ m with ptrEvents := .used ptr (some op) :: m.ptrEvents } : Memory).Pinned posts ptrOf where
  ledger := pinned.ledger.use (pinned.kept.holder member known)
  nodup := pinned.nodup
  known := pinned.known
  kept := pinned.kept.use ptr (some op)
  inFlight := pinned.inFlight
  releasing := pinned.releasing

private theorem lend (pinned : m.Pinned posts ptrOf) (free : ptr ∉ m.inUse) :
    ({ m with
      inUse := ptr :: m.inUse
      ptrEvents := .used ptr none :: .lent ptr none :: m.ptrEvents } : Memory).Pinned posts ptrOf where
  ledger := (pinned.ledger.lend none free).use Lease.holder_lent
  nodup := pinned.nodup
  known := pinned.known
  kept := (pinned.kept.lend none (pinned.ledger.free_of_not_mem free)).use ptr none
  inFlight := pinned.inFlight
  releasing := pinned.releasing

theorem step {error : Prop} (pinned : m.Pinned posts ptrOf)
    (step : MemoryStep error posts ptrOf m after) : after.Pinned posts ptrOf := by
  cases step with
  | keep => exact pinned
  | early ptr free =>
    refine ⟨?_, pinned.nodup, pinned.known, ?_, pinned.inFlight, pinned.releasing⟩
    · have ledger := ((pinned.ledger.lend none free).use Lease.holder_lent).free Lease.holder_lent
      rwa [List.erase_cons_head] at ledger
    · refine Lease.Kept.free ?_ Lease.holder_lent fun op member same => by cases same
      exact (pinned.kept.lend none (pinned.ledger.free_of_not_mem free)).use ptr none
  | leak ptr failed free => exact pinned.lend free
  | attach request post free posted fresh made worker learned =>
    have more := active_attach (m := m) request
    have lent := pinned.kept.lend (some request.op) (pinned.ledger.free_of_not_mem free)
    refine ⟨pinned.ledger.lend _ free, ?_, ?_, ?_, ?_, pinned.releasing⟩
    · exact more ▸ Multiset.nodup_cons.mpr ⟨fresh, pinned.nodup⟩
    · intro op member
      rcases Multiset.mem_cons.mp (more ▸ member) with rfl | old
      · exact (List.getElem?_eq_some_iff.mp posted).1
      · exact pinned.known op old
    · exact more ▸ lent.cons learned Lease.holder_lent
    · intro other member
      rcases List.mem_append.mp member with old | new
      · exact pinned.inFlight other old
      · rw [List.mem_singleton] at new
        rw [new, learned]
  | sent request member =>
    have used := pinned.use (mem_active_of_inFlight member) (pinned.inFlight request member)
    have same := active_sent member
    refine ⟨used.ledger, same ▸ pinned.nodup, fun op inside => pinned.known op (same ▸ inside),
      same ▸ used.kept, ?_, ?_⟩
    · exact fun other inside => pinned.inFlight other (List.mem_of_mem_erase inside)
    · intro other inside
      rcases Multiset.mem_cons.mp inside with rfl | old
      · exact pinned.inFlight other member
      · exact pinned.releasing other old
  | abandon request failed member =>
    have used := pinned.use (mem_active_of_inFlight member) (pinned.inFlight request member)
    have fewer := active_erase member
    have nodup := pinned.nodup
    rw [fewer] at nodup
    have within : ∀ op ∈ ({ m with inFlight := m.inFlight.erase request } : Memory).active,
        op ∈ m.active := by
      intro op inside
      rw [fewer]
      exact Multiset.mem_cons_of_mem inside
    refine ⟨used.ledger, (Multiset.nodup_cons.mp nodup).2, ?_,
      used.kept.mono fun op inside => within op inside, ?_, pinned.releasing⟩
    · exact fun op inside => pinned.known op (within op inside)
    · exact fun other inside => pinned.inFlight other (List.mem_of_mem_erase inside)
  | finish request member =>
    have known := pinned.inFlight request member
    have used := pinned.use (mem_active_of_inFlight member) known
    exact used.give known (active_erase member) rfl rfl
      (fun other inside => List.mem_of_mem_erase inside) fun other inside => inside
  | release request others whole =>
    have member : request ∈ m.releasing := by
      rw [whole]
      exact Multiset.mem_cons_self _ _
    refine pinned.give (pinned.releasing request member) (active_release whole) rfl rfl
      (fun _ inside => inside) fun other inside => ?_
    rw [whole]
    exact Multiset.mem_cons_of_mem inside
  | cancel request member =>
    have used := pinned.use (mem_active_of_inFlight member) (pinned.inFlight request member)
    have same := active_cancel member
    exact ⟨used.ledger, same ▸ pinned.nodup, fun op inside => pinned.known op (same ▸ inside),
      same ▸ used.kept, fun other inside => pinned.inFlight other (List.mem_of_mem_erase inside),
      pinned.releasing⟩
  | ask op ptr member known => exact pinned.use member known
  | withdraw op ptr others whole known =>
    have member : op ∈ m.canceled := by
      rw [whole]
      exact Multiset.mem_cons_self _ _
    have used := pinned.use (mem_active_of_canceled member) known
    have same := active_withdraw whole
    exact ⟨used.ledger, same ▸ pinned.nodup, fun op inside => pinned.known op (same ▸ inside),
      same ▸ used.kept, pinned.inFlight, pinned.releasing⟩
  | free op ptr others whole known =>
    exact pinned.give known (active_free whole) rfl rfl (fun _ inside => inside) fun _ inside => inside

end Pinned

namespace Attached

theorem grow {learned : Nat → Option Nat} (attached : m.Attached posts ptrOf)
    (pinned : m.Pinned posts ptrOf) (grown : posts <+: more)
    (same : ∀ op < posts.length, learned op = ptrOf op) : m.Attached more learned where
  data request member := by
    obtain ⟨new, rfl⟩ := grown
    exact (attached.data request member).append new
  freeing op member ptr known := by
    rw [same op (pinned.known op (mem_active_of_freeing member))] at known
    exact attached.freeing op member ptr known
  clean := attached.clean

private theorem mono (attached : m.Attached posts ptrOf)
    (stays : ∀ request ∈ after.inFlight, request ∈ m.inFlight ∧
      after.requestData request.ptr = m.requestData request.ptr)
    (freeing : ∀ op ∈ after.freeing, ∀ ptr, ptrOf op = some ptr →
      after.requestData ptr = .empty)
    (clean : ∀ ptr, ptr ∉ after.inUse → after.requestData ptr = .empty) :
    after.Attached posts ptrOf where
  data request member := by
    obtain ⟨before, same⟩ := stays request member
    rw [same]
    exact attached.data request before
  freeing := freeing
  clean := clean

private theorem take (attached : m.Attached posts ptrOf)
    (inFlight : ∀ request ∈ after.inFlight, request ∈ m.inFlight)
    (freeing : after.freeing = m.freeing) (inUse : after.inUse = m.inUse)
    (data : after.requestData = m.requestData) : after.Attached posts ptrOf := by
  refine attached.mono (fun request inside => ⟨inFlight request inside, by rw [data]⟩) ?_ ?_
  · rw [freeing, data]
    exact attached.freeing
  · rw [inUse, data]
    exact attached.clean

private theorem destroy (attached : m.Attached posts ptrOf) (pinned : m.Pinned posts ptrOf)
    (known : ptrOf op = some ptr) (member : op ∈ m.active)
    (inFlight : ∀ request ∈ after.inFlight, request ∈ m.inFlight ∧ request.op ≠ op)
    (freeing : ∀ other ∈ after.freeing, other ∈ m.freeing ∨ other = op)
    (inUse : ∀ other, other ∉ after.inUse → other ∉ m.inUse ∨ other = ptr)
    (data : after.requestData = Function.update m.requestData ptr .empty) :
    after.Attached posts ptrOf := by
  have emptied : ∀ other, m.requestData other = .empty ∨ other = ptr →
      after.requestData other = .empty := by
    rintro other empty
    rw [data]
    by_cases same : other = ptr
    · rw [same, Function.update_self]
    · rw [Function.update_of_ne same]
      exact empty.resolve_right same
  refine attached.mono (fun request inside => ?_) ?_ ?_
  · obtain ⟨before, different⟩ := inFlight request inside
    refine ⟨before, ?_⟩
    rw [data, Function.update_of_ne]
    exact pinned.kept.ne (mem_active_of_inFlight before) member (pinned.inFlight request before)
      known different
  · intro other inside another same
    apply emptied
    rcases freeing other inside with old | rfl
    · exact .inl (attached.freeing other old another same)
    · exact .inr (Option.some.inj (same.symm.trans known))
  · exact fun other outside => emptied other ((inUse other outside).imp_left (attached.clean other))

theorem step {error : Prop} (attached : m.Attached posts ptrOf) (pinned : m.Pinned posts ptrOf)
    (step : MemoryStep error posts ptrOf m after) : after.Attached posts ptrOf := by
  cases step with
  | keep => exact attached
  | early ptr free => exact attached.take (fun _ inside => inside) rfl rfl rfl
  | leak ptr failed free =>
    refine ⟨attached.data, attached.freeing, fun other free => attached.clean other ?_⟩
    exact fun inside => free (List.mem_cons_of_mem _ inside)
  | attach request post free posted fresh made worker learned =>
    have different : ∀ op ∈ m.active, ∀ ptr, ptrOf op = some ptr → ptr ≠ request.ptr := by
      rintro op member _ known rfl
      exact free (pinned.mem_inUse member known)
    refine ⟨?_, ?_, ?_⟩
    · intro other member
      rcases List.mem_append.mp member with old | new
      · have apart := different _ (mem_active_of_inFlight old) _ (pinned.inFlight other old)
        simp only [Function.update_of_ne apart]
        exact attached.data other old
      · rw [List.mem_singleton] at new
        subst new
        exact ⟨post, posted, made, by simp, worker⟩
    · intro op member ptr known
      have apart := different _ (mem_active_of_freeing member) _ known
      simp only [Function.update_of_ne apart]
      exact attached.freeing op member ptr known
    · intro ptr outside
      obtain ⟨apart, outside⟩ := not_or.mp (List.mem_cons.not.mp outside)
      simp only [Function.update_of_ne apart]
      exact attached.clean ptr outside
  | sent request member =>
    exact attached.take (fun _ inside => List.mem_of_mem_erase inside) rfl rfl rfl
  | abandon request failed member =>
    exact attached.take (fun _ inside => List.mem_of_mem_erase inside) rfl rfl rfl
  | cancel request member =>
    exact attached.take (fun _ inside => List.mem_of_mem_erase inside) rfl rfl rfl
  | ask op ptr => exact attached.take (fun _ inside => inside) rfl rfl rfl
  | finish request member =>
    refine attached.destroy pinned (pinned.inFlight request member) (mem_active_of_inFlight member)
      (fun other inside => ⟨List.mem_of_mem_erase inside, pinned.op_ne_of_erase member inside⟩)
      (fun _ inside => .inl inside) (fun other outside => ?_) rfl
    exact or_iff_not_imp_right.mpr fun different inside =>
      outside ((List.mem_erase_of_ne different).mpr inside)
  | release request others whole =>
    have member : request ∈ m.releasing := by
      rw [whole]
      exact Multiset.mem_cons_self _ _
    refine attached.destroy pinned (pinned.releasing request member)
      (mem_active_of_releasing member) (fun other inside => ⟨inside, ?_⟩)
      (fun _ inside => .inl inside) (fun other outside => ?_) rfl
    · exact pinned.op_ne inside (Multiset.mem_add.mpr (.inl (Multiset.mem_add.mpr
        (.inl (Multiset.mem_map_of_mem _ member)))))
    · exact or_iff_not_imp_right.mpr fun different inside =>
        outside ((List.mem_erase_of_ne different).mpr inside)
  | withdraw op ptr others whole known =>
    have member : op ∈ m.canceled := by
      rw [whole]
      exact Multiset.mem_cons_self _ _
    refine attached.destroy pinned known (mem_active_of_canceled member)
      (fun other inside => ⟨inside, ?_⟩) (fun other inside => ?_) (fun _ outside => .inl outside) rfl
    · exact pinned.op_ne inside (Multiset.mem_add.mpr (.inl (Multiset.mem_add.mpr (.inr member))))
    · exact (Multiset.mem_cons.mp inside).symm
  | free op ptr others whole known =>
    have member : op ∈ m.freeing := by
      rw [whole]
      exact Multiset.mem_cons_self _ _
    refine ⟨attached.data, fun other inside => ?_, fun other outside => ?_⟩
    · exact attached.freeing other (whole ▸ Multiset.mem_cons_of_mem inside)
    · by_cases same : other = ptr
      · rw [same]
        exact attached.freeing op member ptr known
      · exact attached.clean other fun inside => outside ((List.mem_erase_of_ne same).mpr inside)

end Attached

end Memory

namespace State

def ptrOf (s : State) (op : Nat) : Option Nat :=
  (s.heap op).ucxPtr

abbrev Pinned (s : State) : Prop :=
  s.memory.Pinned s.posts s.ptrOf

abbrev Attached (s : State) : Prop :=
  s.memory.Attached s.posts s.ptrOf

end State

end Oomph.Ucx
