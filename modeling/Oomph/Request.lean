import Oomph.Machine.Books

namespace Oomph

open Machine

/-! `request_state_base` is the part of a request that all backends share.  A callback
is known by the number of the operation it was passed to, and `scheduled` names the
counter that the request's `m_scheduled` points to.
-/

abbrev RankType := Int32

abbrev TagType := Int32

inductive Kind
  | send
  | recv
  | sharedRecv
deriving DecidableEq, Repr

/-- The counters `scheduled_sends` and `scheduled_recvs` of a communicator, and the
one counter for shared receives that all communicators of a context share. -/
inductive Counter
  | sends (comm : Nat)
  | recvs (comm : Nat)
  | sharedRecvs
deriving DecidableEq, Repr

/-- An operation as the user posted it.  It is `inplace` when the posting call ran
the callback itself and created no request state. -/
structure Post where
  comm : Nat
  kind : Kind
  rank : RankType
  tag : TagType
  inplace : Bool
deriving DecidableEq, Repr

def Kind.counter (comm : Nat) : Kind → Counter
  | .send => .sends comm
  | .recv => .recvs comm
  | .sharedRecv => .sharedRecvs

def Post.counter (post : Post) : Option Counter :=
  if post.inplace then none else some (post.kind.counter post.comm)

structure RequestStateBase where
  comm : Nat
  scheduled : Counter
  rank : RankType
  tag : TagType
  cb : Nat
  ready : Bool
  canceled : Bool
deriving DecidableEq, Repr

/-- The constructor of `request_state_base`; the caller counts the request. -/
def RequestStateBase.create (comm : Nat) (kind : Kind) (rank : RankType) (tag : TagType)
    (cb : Nat) : RequestStateBase :=
  { comm, scheduled := kind.counter comm, rank, tag, cb, ready := false, canceled := false }

/-- What the constructor put into a request state and nothing changes later. -/
def RequestStateBase.identity (request : RequestStateBase) : RequestStateBase :=
  { request with ready := false, canceled := false }

theorem attr_update {Request Attr : Type} (attr : Request → Attr) {heap : Nat → Request} {e : Nat}
    {request : Request} (same : attr request = attr (heap e)) (other : Nat) :
    attr (Function.update heap e request other) = attr (heap other) := by
  by_cases here : other = e
  · rw [here, Function.update_self, same]
  · rw [Function.update_of_ne here]

def PostedAs (posts : List Post) (op : Nat) (holds : Post → Prop) : Prop :=
  ∃ post, posts[op]? = some post ∧ holds post

namespace PostedAs

variable {posts : List Post} {op : Nat} {holds other : Post → Prop} {post : Post}

theorem append (posted : PostedAs posts op holds) (more : List Post) :
    PostedAs (posts ++ more) op holds := by
  obtain ⟨post, found, holds⟩ := posted
  have inside := (List.getElem?_eq_some_iff.mp found).1
  exact ⟨post, by rw [List.getElem?_append_left inside, found], holds⟩

theorem last (made : holds post) : PostedAs (posts ++ [post]) posts.length holds :=
  ⟨post, by simp, made⟩

theorem imp (posted : PostedAs posts op holds) (weaker : ∀ post, holds post → other post) :
    PostedAs posts op other := by
  obtain ⟨post, found, holds⟩ := posted
  exact ⟨post, found, weaker post holds⟩

theorem of_found (posted : PostedAs posts op holds) (found : posts[op]? = some post) :
    holds post := by
  obtain ⟨other, first, holds⟩ := posted
  rw [first] at found
  cases found
  exact holds

end PostedAs

def requestOf (posts : List Post) (op : Nat) : Option (Nat × Kind) :=
  posts[op]?.bind fun post => if post.inplace then none else some (post.comm, post.kind)

theorem requestOf_eq_some {posts : List Post} {op comm : Nat} {kind : Kind} :
    requestOf posts op = some (comm, kind) ↔
      ∃ post, posts[op]? = some post ∧ post.inplace = false ∧ post.comm = comm ∧ post.kind = kind := by
  unfold requestOf
  cases posts[op]? with
  | none => simp
  | some post => simp

theorem keyOf_counter_eq {posts : List Post} {op comm : Nat} {kind : Kind}
    (own : kind ≠ .sharedRecv) :
    Books.keyOf Post.counter posts op = some (kind.counter comm) ↔
      requestOf posts op = some (comm, kind) := by
  unfold Books.keyOf requestOf
  cases posts[op]? with
  | none => simp
  | some post =>
    obtain ⟨other, postKind, rank, tag, inplace⟩ := post
    cases inplace <;> cases postKind <;> cases kind <;>
      simp_all [Post.counter, Kind.counter]

theorem concat_cases {Item : Type} {items : List Item} {new item : Item} {i : Nat}
    (found : (items ++ [new])[i]? = some item) :
    i < items.length ∧ items[i]? = some item ∨ i = items.length ∧ item = new := by
  rw [List.getElem?_append] at found
  split at found
  · exact .inl ⟨‹_›, found⟩
  · obtain ⟨index, equal⟩ := List.getElem?_eq_some_iff.mp found
    have same : i = items.length := by
      simp only [List.length_singleton] at index
      omega
    subst i
    exact .inr ⟨rfl, by simpa using equal.symm⟩

inductive Event
  | called (op : Nat) (rank : RankType) (tag : TagType)
  | returned (op : Nat)
  | canceled (op : Nat)
deriving DecidableEq, Repr

namespace Event

def op : Event → Nat
  | .called op _ _ => op
  | .returned op => op
  | .canceled op => op

def calledOps : List Event → Multiset Nat
  | [] => 0
  | .called op _ _ :: rest => op ::ₘ calledOps rest
  | .returned _ :: rest => calledOps rest
  | .canceled _ :: rest => calledOps rest

def returnedOps : List Event → Multiset Nat
  | [] => 0
  | .called _ _ _ :: rest => returnedOps rest
  | .returned op :: rest => op ::ₘ returnedOps rest
  | .canceled _ :: rest => returnedOps rest

def canceledOps : List Event → Multiset Nat
  | [] => 0
  | .called _ _ _ :: rest => canceledOps rest
  | .returned _ :: rest => canceledOps rest
  | .canceled op :: rest => op ::ₘ canceledOps rest

def calls : List Event → List Nat
  | [] => []
  | .called op _ _ :: rest => op :: calls rest
  | .returned _ :: rest => calls rest
  | .canceled _ :: rest => calls rest

theorem coe_calls (history : List Event) : (calls history : Multiset Nat) = calledOps history := by
  induction history with
  | nil => rfl
  | cons event rest ih => cases event <;> simp [calls, calledOps, ← ih]

/-- A step adds at most one event to the history. -/
inductive Extends (history : List Event) : List Event → Prop
  | same : Extends history history
  | one (event : Event) : Extends history (event :: history)

variable {history later : List Event} {op : Nat}

theorem Extends.called (grown : Extends history later) (called : op ∈ calledOps history) :
    op ∈ calledOps later := by
  cases grown with
  | same => exact called
  | one event => cases event <;> simp [calledOps, called]

theorem Extends.canceled (grown : Extends history later) (canceled : op ∈ canceledOps history) :
    op ∈ canceledOps later := by
  cases grown with
  | same => exact canceled
  | one event => cases event <;> simp [canceledOps, canceled]

theorem Extends.calls (grown : Extends history later) :
    Event.calls later = Event.calls history ∨ ∃ op, Event.calls later = op :: Event.calls history := by
  cases grown with
  | same => exact .inl rfl
  | one event =>
    cases event with
    | called op => exact .inr ⟨op, rfl⟩
    | returned => exact .inl rfl
    | canceled => exact .inl rfl

theorem mem_calledOps :
    op ∈ calledOps history ↔ ∃ rank tag, Event.called op rank tag ∈ history := by
  induction history with
  | nil => simp [calledOps]
  | cons event rest ih => cases event <;> simp [calledOps, ih, exists_or]

theorem mem_canceledOps :
    op ∈ canceledOps history ↔ Event.canceled op ∈ history := by
  induction history with
  | nil => simp [canceledOps]
  | cons event rest ih => cases event <;> simp [canceledOps, ih]

end Event

attribute [simp] Event.calledOps Event.returnedOps Event.canceledOps

def countUp (scheduled : Counter → Int) (counter : Counter) : Counter → Int :=
  Function.update scheduled counter (scheduled counter + 1)

def countDown (scheduled : Counter → Int) (counter : Counter) : Counter → Int :=
  Function.update scheduled counter (scheduled counter - 1)

end Oomph
