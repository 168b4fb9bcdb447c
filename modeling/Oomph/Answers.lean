import Oomph.Request
import Oomph.Machine.Marks

namespace Oomph

open Machine

def isReady (post : Post) (request : RequestStateBase) : Bool :=
  post.inplace || request.ready

/-- `is_canceled` of a request, which is true of an empty one. -/
def isCanceled (post : Post) (request : RequestStateBase) : Bool :=
  post.inplace || request.canceled

def RequestStateBase.flags (request : RequestStateBase) : Bool × Bool :=
  (request.ready, request.canceled)

def marksOf (posts : List Post) (request : Nat → RequestStateBase) (history : List Event) :
    Marks where
  issued := posts.length
  request e := PostedAs posts e fun post => post.inplace = false
  done e := (request e).ready
  gone e := (request e).canceled
  called e := e ∈ Event.calledOps history
  returned e := e ∈ Event.returnedOps history
  withdrawn e := e ∈ Event.canceledOps history

def CalledBack (request : RequestStateBase) (history : List Event) (op : Nat) : Prop :=
  request.ready = true ∧ op ∈ Event.calledOps history

instance (request : RequestStateBase) (history : List Event) (op : Nat) :
    Decidable (CalledBack request history op) :=
  inferInstanceAs (Decidable (_ ∧ _))

variable {posts : List Post} {post : Post} {before after : Nat → RequestStateBase}
  {history later : List Event} {e : Nat}

theorem CalledBack.step {more : List Post} (back : CalledBack (before e) history e)
    (made : PostedAs posts e fun post => post.inplace = false)
    (step : Marks.Step (marksOf posts before history) (marksOf more after later)) :
    CalledBack (after e) later e := by
  have known : e < posts.length := by
    obtain ⟨post, found, -⟩ := made
    exact (List.getElem?_eq_some_iff.mp found).1
  exact ⟨step.done_mono made known back.1, step.called_mono back.2⟩

private theorem postedAs_append (more : List Post)
    (made : PostedAs posts e fun post => post.inplace = false) :
    PostedAs (posts ++ more) e fun post => post.inplace = false := by
  obtain ⟨found, posted, request⟩ := made
  exact ⟨found, by rw [List.getElem?_append_left (List.getElem?_eq_some_iff.mp posted).1, posted],
    request⟩

theorem marks_same (flags : ∀ e, (after e).flags = (before e).flags)
    (called : ∀ e ∈ Event.calledOps history, e ∈ Event.calledOps later)
    (returned : Event.returnedOps later = Event.returnedOps history)
    (canceled : Event.canceledOps later = Event.canceledOps history) :
    Marks.Step (marksOf posts before history) (marksOf posts after later) := by
  refine .keep (Nat.le_refl _) (fun e => id) (fun e made => .inl ⟨made, ?_, ?_⟩) called
    (fun e inside new _ => absurd inside (Nat.not_lt.mpr new)) (fun e => ?_) (fun e back => ?_)
    fun e => ?_
  · exact congrArg Prod.fst (flags e)
  · exact congrArg Prod.snd (flags e)
  · simp only [marksOf, returned, imp_self]
  · exact .inl (by simpa only [marksOf, returned] using back)
  · simp only [marksOf, canceled]

theorem marks_post (own : post.inplace = false → (after posts.length).flags = (false, false))
    (bare : post.inplace = true → posts.length ∈ Event.calledOps later)
    (others : ∀ e, e ≠ posts.length → (after e).flags = (before e).flags)
    (called : ∀ e ∈ Event.calledOps history, e ∈ Event.calledOps later)
    (returned : Event.returnedOps later = Event.returnedOps history)
    (canceled : Event.canceledOps later = Event.canceledOps history) :
    Marks.Step (marksOf posts before history) (marksOf (posts ++ [post]) after later) := by
  refine .keep (by simp [marksOf]) (fun e => postedAs_append [post]) (fun e made => ?_) called
    (fun e inside new none => ?_) (fun e => ?_) (fun e back => ?_) fun e => ?_
  · obtain ⟨found, posted, request⟩ := made
    rcases concat_cases posted with ⟨inside, old⟩ | ⟨rfl, rfl⟩
    · have same := others e (Nat.ne_of_lt inside)
      exact .inl ⟨⟨found, old, request⟩, congrArg Prod.fst same, congrArg Prod.snd same⟩
    · have unset := own request
      exact .inr ⟨Nat.le_refl _, congrArg Prod.fst unset, congrArg Prod.snd unset⟩
  · have last : e = posts.length := by
      simp only [marksOf, List.length_append, List.length_singleton] at inside new
      omega
    subst last
    cases made : post.inplace with
    | true => exact bare made
    | false => exact absurd ⟨post, by simp, made⟩ none
  · simp only [marksOf, returned, imp_self]
  · exact .inl (by simpa only [marksOf, returned] using back)
  · simp only [marksOf, canceled]

theorem marks_return (found : posts[e]? = some post) (bare : post.inplace = true)
    (flags : ∀ e, (after e).flags = (before e).flags) :
    Marks.Step (marksOf posts before history) (marksOf posts after (.returned e :: history)) := by
  refine .keep (Nat.le_refl _) (fun e => id) (fun e made => .inl ⟨made, ?_, ?_⟩) (fun x => id)
    (fun e inside new _ => absurd inside (Nat.not_lt.mpr new)) (fun x back => ?_)
    (fun x back => ?_) fun x => by simp [marksOf]
  · exact congrArg Prod.fst (flags e)
  · exact congrArg Prod.snd (flags e)
  · exact Multiset.mem_cons_of_mem back
  · rcases Multiset.mem_cons.mp back with rfl | old
    · refine .inr ⟨(List.getElem?_eq_some_iff.mp found).1, fun made => ?_⟩
      rw [PostedAs.of_found made found] at bare
      cases bare
    · exact .inl old

private theorem read_update (before : Nat → RequestStateBase) (read : Bool × Bool → Bool)
    (own : read (after e).flags = true)
    (others : ∀ x, x ≠ e → read (after x).flags = read (before x).flags) :
    (fun x => read (after x).flags) = Function.update (fun x => read (before x).flags) e true := by
  funext x
  by_cases same : x = e
  · subst same
    rw [Function.update_self, own]
  · rw [Function.update_of_ne same, others x same]

theorem marks_finish (known : e < posts.length) (runs : e ∈ Event.calledOps history)
    (own : (after e).flags = (true, (before e).canceled))
    (others : ∀ x, x ≠ e → (after x).flags = (before x).flags) :
    Marks.Step (marksOf posts before history) (marksOf posts after (.returned e :: history)) := by
  have canceled (x : Nat) : (after x).canceled = (before x).canceled := by
    by_cases same : x = e
    · subst same
      exact congrArg Prod.snd own
    · exact congrArg Prod.snd (others x same)
  have ready := read_update before Prod.fst (congrArg Prod.fst own) fun x different =>
    congrArg Prod.fst (others x different)
  exact .finish e known runs rfl rfl ready (funext canceled) rfl (fun x => by simp [marksOf])
    fun x => Iff.rfl

theorem marks_withdraw (known : e < posts.length) (own : (after e).flags = (true, true))
    (others : ∀ x, x ≠ e → (after x).flags = (before x).flags) :
    Marks.Step (marksOf posts before history) (marksOf posts after (.canceled e :: history)) := by
  have flag (read : Bool × Bool → Bool) (set : read (true, true) = true) :=
    read_update before read (own ▸ set) fun x different =>
      congrArg read (others x different)
  exact .withdraw e known rfl rfl (flag Prod.fst rfl) (flag Prod.snd rfl) rfl (fun x => Iff.rfl)
    fun x => by simp [marksOf]

/-- A request that reports ready, was not cancelled and whose callback is not running has been
called back once. -/
def ReadyLaw (posts : List Post) (request : Nat → RequestStateBase) (history : List Event)
    (running : Multiset Nat) : Prop :=
  ∀ op post, posts[op]? = some post → isReady post (request op) = true →
    op ∉ Event.canceledOps history → op ∉ running → (Event.calledOps history).count op = 1

theorem readyLaw_of_sound {request : Nat → RequestStateBase}
    (sound : (marksOf posts request history).Sound) (once : (Event.calledOps history).Nodup)
    (running : Multiset Nat) : ReadyLaw posts request history running := by
  intro op post found ready uncanceled _
  refine Multiset.count_eq_one_of_mem once ?_
  cases made : post.inplace with
  | true =>
    refine sound.bare op (List.getElem?_eq_some_iff.mp found).1 fun request => ?_
    rw [PostedAs.of_found request found] at made
    cases made
  | false =>
    have marked : (request op).ready = true := by simpa [isReady, made] using ready
    have logged := (sound.done op ⟨post, found, made⟩).mp marked
    exact sound.returned op (logged.resolve_right uncanceled)

/-- `is_canceled` of the request is true just when a cancel of it has returned true. -/
def CanceledLaw (post : Post) (request : RequestStateBase) (returnedTrue : Prop) : Prop :=
  isCanceled post request = true ↔ returnedTrue

/-- A receive answers right: it is cancelled just when a cancel of it has returned true, and not
when its callback was called. -/
structure CanceledAnswer (post : Post) (request : RequestStateBase) (returnedTrue called : Prop) :
    Prop where
  told : CanceledLaw post request returnedTrue
  uncalled : called → isCanceled post request = false

def opsAnswered {Result : Type} [DecidableEq Result] (result : Result)
    (results : List (Nat × Result)) : Multiset Nat :=
  ((results.filter (·.2 = result)).map Prod.fst : List Nat)

section Answered

variable {Result : Type} [DecidableEq Result] {result other : Result}
  {results : List (Nat × Result)}

@[simp] theorem opsAnswered_nil : opsAnswered result [] = 0 := rfl

@[simp] theorem opsAnswered_cons_self (op : Nat) :
    opsAnswered result ((op, result) :: results) = op ::ₘ opsAnswered result results := by
  simp [opsAnswered]

theorem opsAnswered_cons_of_ne (op : Nat) (different : other ≠ result) :
    opsAnswered result ((op, other) :: results) = opsAnswered result results := by
  simp [opsAnswered, different]

theorem opsAnswered_append (front back : List (Nat × Result)) :
    opsAnswered result (front ++ back) = opsAnswered result front + opsAnswered result back := by
  simp [opsAnswered]

theorem mem_opsAnswered {op : Nat} : op ∈ opsAnswered result results ↔ (op, result) ∈ results := by
  simp [opsAnswered]

end Answered

/-- `withdrawing` are the receives that are marked by a cancel which has not returned yet, and
`confirmed` those whose cancel has returned true. -/
theorem canceledAnswer_iff {request : RequestStateBase} {op : Nat}
    {withdrawing confirmed called : Multiset Nat} (bare : post.inplace = true → op ∈ called)
    (marked : post.inplace = false → (request.canceled = true ↔ op ∈ withdrawing + confirmed))
    (once : (withdrawing + confirmed).Nodup) (apart : op ∈ called → op ∉ withdrawing + confirmed) :
    CanceledAnswer post request (op ∈ confirmed) (op ∈ called) ↔
      post.inplace = false ∧ op ∉ withdrawing := by
  constructor
  · intro answer
    have request : post.inplace = false := by
      by_contra empty
      have empty : post.inplace = true := by simpa using empty
      have unmarked := answer.uncalled (bare empty)
      simp [isCanceled, empty] at unmarked
    refine ⟨request, fun marking => ?_⟩
    have canceled := (marked request).mpr (Multiset.mem_add.mpr (.inl marking))
    have returned := answer.told.mp (by simp [isCanceled, canceled])
    exact (Multiset.disjoint_left.mp (Multiset.nodup_add.mp once).2.2) marking returned
  · rintro ⟨request, settled⟩
    have marks := marked request
    rw [Multiset.mem_add, or_iff_right settled] at marks
    refine ⟨?_, fun runs => ?_⟩
    · simpa [CanceledLaw, isCanceled, request] using marks
    · have absent : op ∉ confirmed := fun returned =>
        apart runs (Multiset.mem_add.mpr (.inr returned))
      simpa [isCanceled, request] using (not_congr marks).mpr absent

theorem canceledAnswer_of_sound {Result : Type} [DecidableEq Result] {yes : Result}
    {results : List (Nat × Result)} {withdrawing : Multiset Nat} {request : Nat → RequestStateBase}
    (sound : (marksOf posts request history).Sound) (once : (Event.canceledOps history).Nodup)
    (apart : e ∈ Event.calledOps history → e ∉ Event.canceledOps history)
    (reported : Event.canceledOps history = withdrawing + opsAnswered yes results)
    (found : posts[e]? = some post) :
    CanceledAnswer post (request e) ((e, yes) ∈ results) (e ∈ Event.calledOps history) ↔
      post.inplace = false ∧ e ∉ withdrawing := by
  rw [reported] at once apart
  rw [← mem_opsAnswered]
  refine canceledAnswer_iff (fun empty => ?_) (fun made => ?_) once apart
  · refine sound.bare e (List.getElem?_eq_some_iff.mp found).1 fun request => ?_
    rw [PostedAs.of_found request found] at empty
    cases empty
  · rw [← reported]
    exact sound.gone e ⟨post, found, made⟩

end Oomph
