import Oomph.Request
import Oomph.Machine.Pool
import Mathlib.Tactic.Abel

namespace Oomph

open Machine

/-! An operation that waits is stored somewhere or is on the stack of a thread, and one that
runs is on the stack of a thread.  A step moves one stack, so it is an entry in the books
when it is one for what is stored and for that stack.
-/

theorem countDown_eq_adjust (scheduled : Counter → Int) (counter : Counter) :
    countDown scheduled counter = Books.adjust scheduled (-1) (some counter) := rfl

structure Ledger (Frame : Type) where
  posts : List Post
  threads : List (List Frame)
  stored : Multiset Nat
  history : List Event
  scheduled : Counter → Int

namespace Ledger

variable {Frame : Type}

def waiting (waits : Frame → Multiset Nat) (s : Ledger Frame) : Multiset Nat :=
  s.stored + total (total waits) s.threads

def running (runs : Frame → Multiset Nat) (s : Ledger Frame) : Multiset Nat :=
  total (total runs) s.threads

def books (waits runs : Frame → Multiset Nat) (s : Ledger Frame) : Books Post Counter where
  attrs := s.posts
  waiting := s.waiting waits
  running := s.running runs
  called := Event.calledOps s.history
  returned := Event.returnedOps s.history
  withdrawn := Event.canceledOps s.history
  outstanding := s.scheduled

theorem consistent_initial (waits runs : Frame → Multiset Nat) (threads : Nat) :
    Books.Consistent Post.counter
      (books waits runs ⟨[], List.replicate threads [], 0, [], fun _ => 0⟩) := by
  have nothing (share : Frame → Multiset Nat) :
      total (total share) (List.replicate threads []) = 0 := total_replicate threads rfl
  refine ⟨?_, ?_, fun counter => ?_⟩ <;> simp [books, waiting, running, nothing]

variable {waits runs : Frame → Multiset Nat} {s t : Ledger Frame} {thread : Nat}
  {stack moved : List Frame}

theorem wait_of_stored {arrived : Multiset Nat} (stored : t.stored = arrived + s.stored)
    (same : total waits moved = total waits stack) :
    t.stored + total waits moved = arrived + (s.stored + total waits stack) := by
  rw [stored, same, add_assoc]

variable (found : s.threads[thread]? = some stack)
  (threads : t.threads = s.threads.set thread moved)

include found threads

theorem waiting_moved (left arrived : Multiset Nat)
    (move : left + (t.stored + total waits moved) = arrived + (s.stored + total waits stack)) :
    left + t.waiting waits = arrived + s.waiting waits := by
  obtain ⟨others, whole, moves⟩ := total_split (total waits) found
  calc left + t.waiting waits
      = left + (t.stored + total waits moved) + others := by
        rw [waiting, threads, moves]; abel
    _ = arrived + s.waiting waits := by
        rw [move, waiting, whole]; abel

theorem running_moved (left arrived : Multiset Nat)
    (move : left + total runs moved = arrived + total runs stack) :
    left + t.running runs = arrived + s.running runs := by
  obtain ⟨others, whole, moves⟩ := total_split (total runs) found
  rw [running, running, threads, moves, whole, ← add_assoc, move, add_assoc]

theorem waiting_same (move : t.stored + total waits moved = s.stored + total waits stack) :
    t.waiting waits = s.waiting waits := by
  simpa using waiting_moved found threads 0 0 (by rw [move])

theorem running_same (move : total runs moved = total runs stack) :
    t.running runs = s.running runs := by
  simpa using running_moved found threads 0 0 (by rw [move])

theorem waiting_leaves {op : Nat}
    (move : s.stored + total waits stack = {op} + (t.stored + total waits moved)) :
    s.waiting waits = op ::ₘ t.waiting waits := by
  simpa using (waiting_moved found threads {op} 0 (by rw [move, zero_add])).symm

theorem running_joins {op : Nat} (move : total runs moved = {op} + total runs stack) :
    t.running runs = op ::ₘ s.running runs := by
  simpa using running_moved found threads 0 {op} (by rw [move, zero_add])

theorem books_same (posts : t.posts = s.posts) (scheduled : t.scheduled = s.scheduled)
    (history : t.history = s.history)
    (wait : t.stored + total waits moved = s.stored + total waits stack)
    (run : total runs moved = total runs stack) : t.books waits runs = s.books waits runs := by
  simp only [books, waiting_same found threads wait, running_same found threads run, posts,
    history, scheduled]

theorem issue (post : Post) (posts : t.posts = s.posts ++ [post])
    (scheduled : t.scheduled = Books.adjust s.scheduled 1 post.counter)
    (history : t.history = s.history)
    (wait : t.stored + total waits moved = {s.posts.length} + (s.stored + total waits stack))
    (run : total runs moved = total runs stack) :
    Books.Entry Post.counter (s.books waits runs) (t.books waits runs) := by
  have joins := waiting_moved found threads 0 {s.posts.length} (by rw [wait, zero_add])
  rw [zero_add, Multiset.singleton_add] at joins
  apply Books.Entry.issue post posts joins (running_same found threads run) _ _ _ scheduled <;>
    simp only [books, history]

theorem issueRunning (post : Post) (posts : t.posts = s.posts ++ [post])
    (scheduled : t.scheduled = Books.adjust s.scheduled 1 post.counter) (rank : RankType)
    (tag : TagType) (history : t.history = .called s.posts.length rank tag :: s.history)
    (wait : t.stored + total waits moved = s.stored + total waits stack)
    (run : total runs moved = {s.posts.length} + total runs stack) :
    Books.Entry Post.counter (s.books waits runs) (t.books waits runs) := by
  apply Books.Entry.issueRunning post posts (waiting_same found threads wait)
    (running_joins found threads run) _ _ _ scheduled <;> simp [books, history]

theorem start (op : Nat) (rank : RankType) (tag : TagType) (posts : t.posts = s.posts)
    (scheduled : t.scheduled = s.scheduled) (history : t.history = .called op rank tag :: s.history)
    (wait : s.stored + total waits stack = {op} + (t.stored + total waits moved))
    (run : total runs moved = {op} + total runs stack) :
    Books.Entry Post.counter (s.books waits runs) (t.books waits runs) := by
  apply Books.Entry.start op posts (waiting_leaves found threads wait)
    (running_joins found threads run) _ _ _ scheduled <;> simp [books, history]

theorem finish (op : Nat) (posts : t.posts = s.posts)
    (scheduled : t.scheduled = Books.adjust s.scheduled (-1) (Books.keyOf Post.counter s.posts op))
    (history : t.history = .returned op :: s.history)
    (wait : t.stored + total waits moved = s.stored + total waits stack)
    (run : total runs stack = {op} + total runs moved) :
    Books.Entry Post.counter (s.books waits runs) (t.books waits runs) := by
  have leaves := running_moved found threads {op} 0 (by rw [run, zero_add])
  rw [zero_add, Multiset.singleton_add] at leaves
  apply Books.Entry.finish op posts (waiting_same found threads wait) leaves.symm _ _ _ scheduled <;>
    simp [books, history]

theorem withdraw (op : Nat) (posts : t.posts = s.posts)
    (scheduled : t.scheduled = Books.adjust s.scheduled (-1) (Books.keyOf Post.counter s.posts op))
    (history : t.history = .canceled op :: s.history)
    (wait : s.stored + total waits stack = {op} + (t.stored + total waits moved))
    (run : total runs moved = total runs stack) :
    Books.Entry Post.counter (s.books waits runs) (t.books waits runs) := by
  apply Books.Entry.withdraw op posts (waiting_leaves found threads wait)
    (running_same found threads run) _ _ _ scheduled <;> simp [books, history]

end Ledger

end Oomph
