import Mathlib.Logic.Function.Basic
import Mathlib.Data.Multiset.Count
import Mathlib.Algebra.Order.Group.Multiset

namespace Machine

/-! A token may have a request with two marks, one for being done and one for having been withdrawn;
a token without one is called as soon as it is issued.  A log records which tokens were called,
which have returned and which were withdrawn.  When every step sets a mark only together with its
entry in the log, the marks say what the log says.  A system may lose tokens, so `Calls` bounds
the calls without saying where every token is.
-/

/-- The last three are read off the log. -/
structure Marks where
  issued : Nat
  request : Nat → Prop
  done : Nat → Bool
  gone : Nat → Bool
  called : Nat → Prop
  returned : Nat → Prop
  withdrawn : Nat → Prop

namespace Marks

variable {before after : Marks} {token : Nat}

inductive Step (before after : Marks) : Prop
  /-- No mark changes, and a new request has none.  Tokens without a request may return. -/
  | keep (grown : before.issued ≤ after.issued)
      (requests : ∀ token, before.request token → after.request token)
      (marks : ∀ token, after.request token →
        before.request token ∧ after.done token = before.done token ∧
            after.gone token = before.gone token ∨
          before.issued ≤ token ∧ after.done token = false ∧ after.gone token = false)
      (called : ∀ token, before.called token → after.called token)
      (bare : ∀ token < after.issued, before.issued ≤ token → ¬ after.request token →
        after.called token)
      (kept : ∀ token, before.returned token → after.returned token)
      (returned : ∀ token, after.returned token →
        before.returned token ∨ token < after.issued ∧ ¬ after.request token)
      (withdrawn : ∀ token, after.withdrawn token ↔ before.withdrawn token)
  | finish (token : Nat) (known : token < before.issued) (runs : before.called token)
      (issued : after.issued = before.issued) (request : after.request = before.request)
      (done : after.done = Function.update before.done token true)
      (gone : after.gone = before.gone) (called : after.called = before.called)
      (returned : ∀ other, after.returned other ↔ other = token ∨ before.returned other)
      (withdrawn : ∀ other, after.withdrawn other ↔ before.withdrawn other)
  | withdraw (token : Nat) (known : token < before.issued) (issued : after.issued = before.issued)
      (request : after.request = before.request)
      (done : after.done = Function.update before.done token true)
      (gone : after.gone = Function.update before.gone token true)
      (called : after.called = before.called)
      (returned : ∀ other, after.returned other ↔ before.returned other)
      (withdrawn : ∀ other, after.withdrawn other ↔ other = token ∨ before.withdrawn other)

structure Sound (marks : Marks) : Prop where
  done : ∀ token, marks.request token →
    (marks.done token = true ↔ marks.returned token ∨ marks.withdrawn token)
  gone : ∀ token, marks.request token → (marks.gone token = true ↔ marks.withdrawn token)
  known : ∀ token, marks.returned token ∨ marks.withdrawn token → token < marks.issued
  bare : ∀ token < marks.issued, ¬ marks.request token → marks.called token
  returned : ∀ token, marks.returned token → marks.called token

theorem Sound.step (sound : before.Sound) (step : Step before after) : after.Sound := by
  cases step with
  | keep grown requests marks called bare kept returned withdrawn =>
    have same (token : Nat) (request : after.request token) :
        after.returned token ↔ before.returned token :=
      ⟨fun back => (returned token back).resolve_right fun bare => bare.2 request, kept token⟩
    have calls (token : Nat) (inside : token < after.issued) (none : ¬ after.request token) :
        after.called token := by
      by_cases old : token < before.issued
      · exact called token (sound.bare token old fun request => none (requests token request))
      · exact bare token inside (Nat.not_lt.mp old) none
    refine ⟨fun token request => ?_, fun token request => ?_, fun token logged => ?_, calls,
      fun token back => ?_⟩
    · rw [same token request, withdrawn]
      rcases marks token request with ⟨old, done, -⟩ | ⟨new, unmarked, -⟩
      · rw [done]
        exact sound.done token old
      · rw [unmarked]
        exact ⟨nofun, fun logged => absurd (sound.known token logged) (Nat.not_lt.mpr new)⟩
    · rw [withdrawn]
      rcases marks token request with ⟨old, -, gone⟩ | ⟨new, -, unmarked⟩
      · rw [gone]
        exact sound.gone token old
      · rw [unmarked]
        exact ⟨nofun, fun old => absurd (sound.known token (.inr old)) (Nat.not_lt.mpr new)⟩
    · rcases logged with back | away
      · rcases returned token back with old | ⟨issued, -⟩
        · exact Nat.lt_of_lt_of_le (sound.known token (.inl old)) grown
        · exact issued
      · exact Nat.lt_of_lt_of_le (sound.known token (.inr ((withdrawn token).mp away))) grown
    · rcases returned token back with old | ⟨inside, none⟩
      · exact called token (sound.returned token old)
      · exact calls token inside none
  | finish finished known runs issued request done gone called returned withdrawn =>
    refine ⟨fun token made => ?_, fun token made => ?_, fun token logged => ?_, ?_,
      fun token back => ?_⟩
    · rw [done, returned, withdrawn]
      rw [request] at made
      by_cases same : token = finished
      · simp [same]
      · simp [same, sound.done token made]
    · rw [gone, withdrawn]
      rw [request] at made
      exact sound.gone token made
    · rw [issued]
      rw [returned, withdrawn] at logged
      rcases logged with (rfl | back) | away
      · exact known
      · exact sound.known token (.inl back)
      · exact sound.known token (.inr away)
    · rw [issued, request, called]
      exact sound.bare
    · rw [called]
      rcases (returned token).mp back with rfl | old
      · exact runs
      · exact sound.returned token old
  | withdraw lost known issued request done gone called returned withdrawn =>
    refine ⟨fun token made => ?_, fun token made => ?_, fun token logged => ?_, ?_,
      fun token back => ?_⟩
    · rw [done, returned, withdrawn]
      rw [request] at made
      by_cases same : token = lost
      · simp [same]
      · simp [same, sound.done token made]
    · rw [gone, withdrawn]
      rw [request] at made
      by_cases same : token = lost
      · simp [same]
      · simp [same, sound.gone token made]
    · rw [issued]
      rw [returned, withdrawn] at logged
      rcases logged with back | rfl | away
      · exact sound.known token (.inl back)
      · exact known
      · exact sound.known token (.inr away)
    · rw [issued, request, called]
      exact sound.bare
    · rw [called]
      exact sound.returned token ((returned token).mp back)

theorem Step.called_mono (step : Step before after) (called : before.called token) :
    after.called token := by
  cases step with
  | keep _ _ _ kept => exact kept token called
  | finish _ _ _ _ _ _ _ same => exact same ▸ called
  | withdraw _ _ _ _ _ _ same => exact same ▸ called

theorem Step.done_mono (step : Step before after) (request : before.request token)
    (known : token < before.issued) (done : before.done token = true) :
    after.done token = true := by
  have set {other : Nat} {marks : Nat → Bool}
      (updated : marks = Function.update before.done other true) : marks token = true := by
    by_cases same : token = other
    · rw [updated, same, Function.update_self]
    · rw [updated, Function.update_of_ne same, done]
  cases step with
  | keep _ requests marks =>
    rcases marks token (requests token request) with ⟨-, same, -⟩ | ⟨new, -⟩
    · rw [same, done]
    · exact absurd known (Nat.not_lt.mpr new)
  | finish _ _ _ _ _ updated => exact set updated
  | withdraw _ _ _ _ updated => exact set updated

end Marks

/-- The tokens that may still be called, and the calls made. -/
structure Calls where
  issued : Nat
  pending : Multiset Nat
  called : Multiset Nat

namespace Calls

variable {before after : Calls}

inductive Step (before after : Calls) : Prop
  | keep (issued : after.issued = before.issued) (pending : after.pending ≤ before.pending)
      (called : after.called = before.called)
  | issue (issued : after.issued = before.issued + 1)
      (pending : after.pending = before.issued ::ₘ before.pending)
      (called : after.called = before.called)
  | issueCalled (issued : after.issued = before.issued + 1)
      (pending : after.pending = before.pending)
      (called : after.called = before.issued ::ₘ before.called)
  | call (token : Nat) (issued : after.issued = before.issued)
      (pending : token ::ₘ after.pending ≤ before.pending)
      (called : after.called = token ::ₘ before.called)

structure Sound (calls : Calls) : Prop where
  once : (calls.pending + calls.called).Nodup
  known : ∀ token ∈ calls.pending + calls.called, token < calls.issued

private theorem Sound.fewer (sound : before.Sound) (issued : after.issued = before.issued)
    (fewer : after.pending + after.called ≤ before.pending + before.called) : after.Sound where
  once := Multiset.nodup_of_le fewer sound.once
  known := fun token member => by
    rw [issued]
    exact sound.known token (Multiset.mem_of_le fewer member)

private theorem Sound.oneMore (sound : before.Sound) (issued : after.issued = before.issued + 1)
    (whole : after.pending + after.called = before.issued ::ₘ (before.pending + before.called)) :
    after.Sound where
  once := by
    rw [whole, Multiset.nodup_cons]
    exact ⟨fun member => Nat.lt_irrefl _ (sound.known _ member), sound.once⟩
  known := fun token member => by
    rw [whole, Multiset.mem_cons] at member
    rw [issued]
    rcases member with rfl | old
    · exact Nat.lt_succ_self _
    · exact Nat.lt_succ_of_lt (sound.known token old)

theorem Sound.step (sound : before.Sound) (step : Step before after) : after.Sound := by
  cases step with
  | keep issued pending called =>
    refine sound.fewer issued ?_
    rw [called]
    exact add_le_add_left pending _
  | issue issued pending called =>
    refine sound.oneMore issued ?_
    rw [pending, called, Multiset.cons_add]
  | issueCalled issued pending called =>
    refine sound.oneMore issued ?_
    rw [pending, called, Multiset.add_cons]
  | call token issued pending called =>
    refine sound.fewer issued ?_
    rw [called, Multiset.add_cons, ← Multiset.cons_add]
    exact add_le_add_left pending _

end Calls

end Machine
