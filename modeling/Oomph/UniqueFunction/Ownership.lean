import Oomph.Machine.Owners
import Oomph.UniqueFunction.Wrappers

namespace Oomph.UniqueFunction

open Machine

/-- Each wrapper owns a callable, or none. -/
structure Owners where
  wrappers : List (Option (Option Nat))
  handed : Nat
  destroyed : List Nat
  calls : List (Nat × Nat)
deriving DecidableEq, Repr

def Owners.step (s : Owners) (action : Action) : Option Owners :=
  match action with
  | .constructEmpty => some { s with wrappers := s.wrappers ++ [some none] }
  | .construct _ _ => some { s with
      wrappers := s.wrappers ++ [some (some s.handed)]
      handed := s.handed + 1 }
  | .moveConstruct source =>
    match s.wrappers[source]? with
    | some (some owned) => some { s with
        wrappers := s.wrappers.set source (some none) ++ [some owned] }
    | _ => none
  | .moveAssign target source =>
    match s.wrappers[target]?, s.wrappers[source]? with
    | some (some old), some (some owned) =>
      if target = source then none
      else some { s with
        wrappers := (s.wrappers.set target (some owned)).set source (some none)
        destroyed := old.toList ++ s.destroyed }
    | _, _ => none
  | .assign target _ _ =>
    match s.wrappers[target]? with
    | some (some old) => some { s with
        wrappers := s.wrappers.set target (some (some s.handed))
        handed := s.handed + 1
        destroyed := old.toList ++ s.destroyed }
    | _ => none
  | .invoke wrapper =>
    match s.wrappers[wrapper]? with
    | some (some (some callable)) => some { s with calls := (wrapper, callable) :: s.calls }
    | _ => none
  | .destroy wrapper =>
    match s.wrappers[wrapper]? with
    | some (some old) => some { s with
        wrappers := s.wrappers.set wrapper none
        destroyed := old.toList ++ s.destroyed }
    | _ => none

def State.owners (s : State) : Owners where
  wrappers := s.wrappers.map (Option.map (Wrapper.owns s.heap))
  handed := s.handed
  destroyed := s.destroyed
  calls := s.calls

inductive Place
  | heap (address : Nat)
  | buffer (wrapper : Nat)
deriving DecidableEq, Repr

def State.at (s : State) : Place → Option Instance
  | .heap address => s.heap address
  | .buffer wrapper => s.wrappers[wrapper]?.join.bind Wrapper.buffer

def State.place (s : State) (wrapper : Nat) : Option Place :=
  s.wrappers[wrapper]?.join.bind fun this =>
    match this.holder with
    | .monostate => none
    | .pointer address => some (.heap address)
    | .buffer => some (.buffer wrapper)

/-- The callable has one live instance, which one wrapper owns. -/
structure State.Lives (s : State) (callable wrapper : Nat) (place : Place) : Prop where
  here : s.at place = some ⟨callable, false⟩
  only : ∀ other i, s.at other = some i → i.callable = callable → other = place
  owned : s.place wrapper = some place
  alone : ∀ other, s.place other = some place → other = wrapper

/-- Each callable handed in has one live instance with one owner, or was destroyed once. -/
structure State.Law (s : State) : Prop where
  sound : s.broken = false
  once : ∀ callable < s.handed,
    (callable ∉ s.destroyed ∧ ∃ wrapper place, s.Lives callable wrapper place) ∨
    (s.destroyed.count callable = 1 ∧ ∀ place i, s.at place = some i → i.callable ≠ callable)

/-- A callable that goes into the buffer fits there. -/
def Fitting (S : Nat) : Action → Prop
  | .construct f _ => f.small S = true → f.Fits S
  | .assign _ f _ => f.small S = true → f.Fits S
  | _ => True

instance (S : Nat) (action : Action) : Decidable (Fitting S action) := by
  unfold Fitting
  split <;> infer_instance

variable {S : Nat} {s t : State} {action : Action} {this other : Wrapper}
  {index address target source : Nat} {heap : Nat → Option Instance}

namespace State

theorem owners_found (found : s.wrappers[index]? = some (some this)) :
    s.owners.wrappers[index]? = some (some (this.owns s.heap)) := by
  simp [owners, found]

theorem owners_setWrapper (wrapper : Option Wrapper) :
    (s.setWrapper index wrapper).owners = { s.owners with
      wrappers := s.owners.wrappers.set index (wrapper.map (Wrapper.owns s.heap)) } := by
  simp [owners, setWrapper, List.map_set]

theorem map_set_owns (wrapper : Option Wrapper)
    (same : ∀ (other : Nat) this, other ≠ index → s.wrappers[other]? = some (some this) →
      this.owns heap = this.owns s.heap) :
    (s.wrappers.set index wrapper).map (Option.map (Wrapper.owns heap)) =
      (s.wrappers.map (Option.map (Wrapper.owns s.heap))).set index
        (wrapper.map (Wrapper.owns heap)) := by
  rw [List.map_set]
  refine List.ext_getElem? fun other => ?_
  by_cases here : other = index
  · subst other
    simp [List.getElem?_set]
  · rw [List.getElem?_set_ne (Ne.symm here), List.getElem?_set_ne (Ne.symm here),
      List.getElem?_map, List.getElem?_map]
    cases found : s.wrappers[other]? with
    | none => rfl
    | some wrapper =>
      cases wrapper with
      | none => rfl
      | some this => simp [same other this here found]

theorem Sound.owners_vacate (sound : s.Sound) (found : s.wrappers[index]? = some (some this)) :
    ((s.destroy this).setWrapper index none).owners = { s.owners with
      wrappers := s.owners.wrappers.set index none
      destroyed := (this.owns s.heap).toList ++ s.destroyed } := by
  rw [(sound.whole index this found).destroy]
  simp only [owners, setWrapper]
  rw [map_set_owns]
  · rfl
  · intro other wrapper away at_other
    refine Wrapper.owns_vacated fun address same refers => away ?_
    exact sound.apart _ _ _ ⟨wrapper, at_other, refers⟩ ⟨this, found, same⟩

theorem Sound.emplace (sound : s.Sound) (vacant : s.wrappers[index]? = some none)
    {f : Callable} (fits : f.small S = true → f.Fits S)
    (free : f.small S = false → s.heap address = none) (clean : this.buffer = none) :
    ((s.emplace S f address this).2.setWrapper index (some (s.emplace S f address this).1)).Sound ∧
    ((s.emplace S f address this).2.setWrapper index (some (s.emplace S f address this).1)).owners =
      { s.owners with
        wrappers := s.owners.wrappers.set index (some (some s.handed))
        handed := s.handed + 1 } := by
  unfold State.emplace
  cases size : f.small S with
  | true =>
    have still : (s.broken || !decide (f.Fits S)) = false := by
      simp [sound.unbroken, fits size]
    rw [if_pos rfl, still]
    have whole : Wrapper.Whole s.heap ⟨.buffer, some ⟨s.handed, false⟩⟩ := ⟨_, rfl⟩
    constructor
    · exact (sound.put vacant whole nofun).of_same rfl rfl sound.unbroken.symm
    · rw [owners_setWrapper]
      rfl
  | false =>
    obtain ⟨holder, buffer⟩ := this
    cases clean
    rw [if_neg Bool.false_ne_true]
    constructor
    · exact (sound.allocate vacant (free size) s.handed).of_same rfl rfl rfl
    · simp only [owners, setWrapper]
      rw [map_set_owns]
      · simp [Wrapper.owns, Wrapper.object]
      · intro other wrapper away at_other
        refine Wrapper.owns_update (fun refers => ?_) _
        obtain ⟨i, lives⟩ := sound.found_of_refers ⟨wrapper, at_other, refers⟩
        rw [free size] at lives
        cases lives

theorem emplace_setWrapper (S address index : Nat) (s : State) (this wrapper : Wrapper)
    (f : Callable) :
    ((s.setWrapper index none).emplace S f address this).2.setWrapper index (some wrapper) =
      (s.emplace S f address this).2.setWrapper index (some wrapper) ∧
    ((s.setWrapper index none).emplace S f address this).1 = (s.emplace S f address this).1 := by
  unfold State.emplace
  split
  · exact ⟨by simp [setWrapper], rfl⟩
  · exact ⟨by simp [setWrapper], rfl⟩

theorem addWrapper_eq (wrapper : Option Wrapper) :
    s.addWrapper wrapper = (s.addWrapper none).setWrapper s.wrappers.length wrapper := by
  simp [addWrapper, setWrapper]

theorem emplace_addWrapper (S address : Nat) (s : State) (this wrapper : Wrapper)
    (f : Callable) :
    ((s.addWrapper none).emplace S f address this).2.setWrapper s.wrappers.length (some wrapper) =
      (s.emplace S f address this).2.addWrapper (some wrapper) ∧
    ((s.addWrapper none).emplace S f address this).1 = (s.emplace S f address this).1 := by
  unfold State.emplace
  split
  · exact ⟨by simp [setWrapper, addWrapper], rfl⟩
  · exact ⟨by simp [setWrapper, addWrapper], rfl⟩

theorem owners_grow (wrapper : Option Wrapper) :
    (s.addWrapper wrapper).owners = { s.owners with
      wrappers := s.owners.wrappers ++ [wrapper.map (Wrapper.owns s.heap)] } := by
  simp [owners, addWrapper]

theorem vacant_grow : (s.addWrapper none).wrappers[s.wrappers.length]? = some none := by
  simp [addWrapper]

namespace Sound

theorem constructEmpty (sound : s.Sound) : (s.addWrapper (some .empty)).Sound := by
  rw [addWrapper_eq]
  exact sound.grow.put vacant_grow rfl nofun

theorem construct (sound : s.Sound) {f : Callable} (fits : f.small S = true → f.Fits S)
    (free : f.small S = false → s.heap address = none) :
    ((s.emplace S f address .empty).2.addWrapper (some (s.emplace S f address .empty).1)).Sound ∧
    ((s.emplace S f address .empty).2.addWrapper (some (s.emplace S f address .empty).1)).owners =
      { s.owners with
        wrappers := s.owners.wrappers ++ [some (some s.handed)]
        handed := s.handed + 1 } := by
  obtain ⟨state, wrapper⟩ := emplace_addWrapper S address s .empty
    (s.emplace S f address .empty).1 f
  rw [← state, ← wrapper]
  have clean : Wrapper.empty.buffer = none := rfl
  obtain ⟨sound, owners⟩ := sound.grow.emplace vacant_grow fits free clean
  refine ⟨sound, owners.trans ?_⟩
  simp [State.owners, addWrapper]

theorem moveConstruct (sound : s.Sound) (found : s.wrappers[source]? = some (some other)) :
    (((s.moveConstruct other).setWrapper source (some other.left)).addWrapper
      (some (Wrapper.empty.take other))).Sound ∧
    (((s.moveConstruct other).setWrapper source (some other.left)).addWrapper
      (some (Wrapper.empty.take other))).owners = { s.owners with
        wrappers := s.owners.wrappers.set source (some none) ++ [some (other.owns s.heap)] } := by
  have whole := sound.whole source other found
  rw [whole.moveConstruct, whole.left, whole.take rfl]
  have present : (s.addWrapper none).wrappers[source]? = some (some other) := by
    simp [addWrapper, List.getElem?_append_left (inside_of_found found), found]
  have same : (s.setWrapper source (some .empty)).addWrapper (some other) =
      ((s.addWrapper none).setWrapper s.wrappers.length (some other)).setWrapper source
        (some .empty) := by
    rw [← addWrapper_eq]
    simp [addWrapper, setWrapper, List.set_append_left _ _ (inside_of_found found)]
  constructor
  · rw [same]
    exact sound.grow.move vacant_grow present
  · rw [owners_grow, owners_setWrapper]
    rfl

theorem moveAssign (sound : s.Sound) (distinct : target ≠ source)
    (into : s.wrappers[target]? = some (some this))
    (given : s.wrappers[source]? = some (some other)) :
    ((((s.destroy this).moveConstruct other).setWrapper target
      (some (this.afterDestroy.take other))).setWrapper source (some other.left)).Sound ∧
    ((((s.destroy this).moveConstruct other).setWrapper target
      (some (this.afterDestroy.take other))).setWrapper source (some other.left)).owners =
      { s.owners with
        wrappers := (s.owners.wrappers.set target (some (other.owns s.heap))).set source (some none)
        destroyed := (this.owns s.heap).toList ++ s.destroyed } := by
  have whole := sound.whole source other given
  have clean := (sound.whole target this into).afterDestroy
  rw [whole.moveConstruct, whole.left, whole.take clean]
  have vacant : ((s.destroy this).setWrapper target none).wrappers[target]? = some none := by
    rw [(sound.whole target this into).destroy]
    simp [setWrapper, inside_of_found into]
  have present : ((s.destroy this).setWrapper target none).wrappers[source]? =
      some (some other) := by
    rw [(sound.whole target this into).destroy]
    simp [setWrapper, List.getElem?_set_ne distinct, given]
  have same : ((s.destroy this).setWrapper target (some other)).setWrapper source (some .empty) =
      (((s.destroy this).setWrapper target none).setWrapper target (some other)).setWrapper source
        (some .empty) := by
    simp [setWrapper]
  have kept : other.owns ((s.destroy this).setWrapper target none).heap = other.owns s.heap := by
    rw [(sound.whole target this into).destroy]
    refine Wrapper.owns_vacated fun address refers also => distinct ?_
    exact sound.apart _ _ _ ⟨this, into, refers⟩ ⟨other, given, also⟩
  rw [same]
  refine ⟨(sound.vacate into).move vacant present, ?_⟩
  rw [owners_setWrapper, owners_setWrapper, sound.owners_vacate into]
  simp only [Option.map_some, List.set_set, kept]
  rfl

theorem assign (sound : s.Sound) (into : s.wrappers[target]? = some (some this))
    {f : Callable} (fits : f.small S = true → f.Fits S)
    (free : f.small S = false → (s.destroy this).heap address = none) :
    (((s.destroy this).emplace S f address this.afterDestroy).2.setWrapper target
      (some ((s.destroy this).emplace S f address this.afterDestroy).1)).Sound ∧
    (((s.destroy this).emplace S f address this.afterDestroy).2.setWrapper target
      (some ((s.destroy this).emplace S f address this.afterDestroy).1)).owners = { s.owners with
        wrappers := s.owners.wrappers.set target (some (some s.handed))
        handed := s.handed + 1
        destroyed := (this.owns s.heap).toList ++ s.destroyed } := by
  have whole := sound.whole target this into
  have vacant : ((s.destroy this).setWrapper target none).wrappers[target]? = some none := by
    rw [whole.destroy]
    simp [setWrapper, inside_of_found into]
  have counted : ((s.destroy this).setWrapper target none).handed = s.handed := by
    rw [whole.destroy]
    rfl
  obtain ⟨state, wrapper⟩ := emplace_setWrapper S address target (s.destroy this)
    this.afterDestroy ((s.destroy this).emplace S f address this.afterDestroy).1 f
  rw [← state, ← wrapper]
  obtain ⟨placed, owners⟩ := (sound.vacate into).emplace vacant fits free whole.afterDestroy
  refine ⟨placed, owners.trans ?_⟩
  rw [sound.owners_vacate into, counted]
  simp

theorem invoke (sound : s.Sound) (found : s.wrappers[index]? = some (some this))
    (present : this.holder ≠ .monostate) :
    ∃ callable, this.owns s.heap = some callable ∧
      s.invoke index this = { s with calls := (index, callable) :: s.calls } := by
  have whole := sound.whole index this found
  obtain ⟨holder, buffer⟩ := this
  cases holder with
  | monostate => exact absurd rfl present
  | pointer address =>
    obtain ⟨-, callable, lives⟩ := whole
    refine ⟨callable, ?_, ?_⟩
    · simp [Wrapper.owns, Wrapper.object, lives]
    · simp [State.invoke, Wrapper.object, lives]
  | buffer =>
    obtain ⟨callable, rfl⟩ := whole
    exact ⟨callable, rfl, rfl⟩

end Sound

end State

/-- The representation takes every step of the wrappers. -/
theorem refines (sound : s.Sound) (fitting : Fitting S action)
    (taken : step S s action = some t) :
    t.Sound ∧ s.owners.step action = some t.owners := by
  unfold step at taken
  rw [sound.unbroken, if_neg Bool.false_ne_true] at taken
  cases action with
  | constructEmpty =>
    cases taken
    refine ⟨sound.constructEmpty, ?_⟩
    rw [State.owners_grow]
    rfl
  | construct f address =>
    simp only at taken
    split at taken
    · cases taken
    · rename_i free
      cases taken
      obtain ⟨placed, owners⟩ := sound.construct fitting
        (fun large => by simpa [large] using free)
      exact ⟨placed, by rw [owners]; rfl⟩
  | moveConstruct source =>
    simp only at taken
    split at taken
    · rename_i other found
      cases taken
      obtain ⟨moved, owners⟩ := sound.moveConstruct found
      refine ⟨moved, ?_⟩
      rw [owners, Owners.step, State.owners_found found]
    · cases taken
  | moveAssign target source =>
    simp only at taken
    split at taken
    · rename_i this other into given
      split at taken
      · cases taken
      · rename_i distinct
        cases taken
        obtain ⟨moved, owners⟩ := sound.moveAssign distinct into given
        refine ⟨moved, ?_⟩
        rw [owners, Owners.step, State.owners_found into, State.owners_found given]
        exact if_neg distinct
    · cases taken
  | assign target f address =>
    simp only at taken
    split at taken
    · rename_i this into
      split at taken
      · cases taken
      · rename_i free
        cases taken
        obtain ⟨placed, owners⟩ := sound.assign into fitting
          (fun large => by simpa [large] using free)
        refine ⟨placed, ?_⟩
        rw [owners, Owners.step, State.owners_found into]
        rfl
    · cases taken
  | invoke wrapper =>
    simp only at taken
    split at taken
    · rename_i this found
      split at taken
      · cases taken
      · rename_i present
        cases taken
        obtain ⟨callable, owns, invoked⟩ := sound.invoke found present
        rw [invoked]
        refine ⟨sound.of_same rfl rfl rfl, ?_⟩
        rw [Owners.step, State.owners_found found, owns]
        rfl
    · cases taken
  | destroy wrapper =>
    simp only at taken
    split at taken
    · rename_i this found
      cases taken
      refine ⟨sound.vacate found, ?_⟩
      rw [sound.owners_vacate found, Owners.step, State.owners_found found]
      rfl
    · cases taken

namespace Owners

variable {s t : Owners}

def share (wrapper : Option (Option Nat)) : Multiset Nat :=
  wrapper.join.toList

@[simp] theorem share_some (owned : Option Nat) : share (some owned) = owned.toList := rfl

def holdings (s : Owners) : Holdings where
  acquired := s.handed
  held := total share s.wrappers
  released := s.destroyed

theorem trade_replace {old : Option Nat} (found : s.wrappers[index]? = some (some old))
    (now : Option (Option Nat)) :
    ∃ rest, Trade s.holdings ⟨s.handed, rest, (old.toList ++ s.destroyed : List Nat)⟩ ∧
      total share (s.wrappers.set index now) = share now + rest := by
  obtain ⟨rest, whole, moves⟩ := total_split share found
  refine ⟨rest, ?_, moves now⟩
  unfold holdings
  rw [whole, share_some, ← Multiset.coe_add]
  exact .releaseAll _

theorem trade (taken : s.step action = some t) : Trade s.holdings t.holdings := by
  cases action with
  | constructEmpty =>
    cases taken
    simp only [holdings, total_append, total_cons, total_nil, share_some, Option.toList_none,
      Multiset.coe_nil, add_zero]
    exact .keep _
  | construct f address =>
    cases taken
    simp only [holdings, total_append, total_cons, total_nil, share_some, Option.toList_some,
      Multiset.coe_singleton, add_zero]
    rw [add_comm (total share s.wrappers), Multiset.singleton_add]
    exact .acquire
  | moveConstruct source =>
    simp only [step] at taken
    split at taken
    · rename_i owned found
      cases taken
      obtain ⟨rest, whole, moves⟩ := total_split share found
      simp only [holdings, total_append, total_cons, total_nil, moves, whole, share_some,
        Option.toList_none, Multiset.coe_nil, zero_add, add_zero]
      rw [add_comm]
      exact .keep _
    · cases taken
  | moveAssign target source =>
    simp only [step] at taken
    split at taken
    · rename_i old owned into given
      split at taken
      · cases taken
      · rename_i distinct
        cases taken
        obtain ⟨rest, destroys, moved⟩ := trade_replace into (some owned)
        have second : (s.wrappers.set target (some owned))[source]? = some (some owned) := by
          rw [List.getElem?_set_ne distinct, given]
        obtain ⟨others, whole, moves⟩ := total_split share second
        rw [moved] at whole
        refine destroys.trans ?_
        simp only [holdings, moves, add_left_cancel whole, share_some, Option.toList_none,
          Multiset.coe_nil, zero_add]
        exact .keep _
    · cases taken
  | assign target f address =>
    simp only [step] at taken
    split at taken
    · rename_i old into
      cases taken
      obtain ⟨rest, destroys, moved⟩ := trade_replace into (some (some s.handed))
      refine destroys.trans ?_
      simp only [holdings, moved, share_some, Option.toList_some, Multiset.coe_singleton,
        Multiset.singleton_add]
      exact .acquire
    · cases taken
  | invoke wrapper =>
    simp only [step] at taken
    split at taken
    · cases taken
      exact .keep _
    · cases taken
  | destroy wrapper =>
    simp only [step] at taken
    split at taken
    · rename_i old found
      cases taken
      obtain ⟨rest, destroys, moved⟩ := trade_replace found none
      refine destroys.trans ?_
      simp only [holdings, moved]
      exact (zero_add rest).symm ▸ .keep _
    · cases taken

end Owners

namespace State.Sound

theorem at_of_place (sound : s.Sound) {place : Place} (refers : s.place index = some place) :
    ∃ callable, s.at place = some ⟨callable, false⟩ ∧
      s.owners.wrappers[index]? = some (some (some callable)) := by
  unfold State.place at refers
  obtain ⟨this, found, refers⟩ := Option.bind_eq_some_iff.mp refers
  rw [Option.join_eq_some_iff] at found
  have whole := sound.whole index this found
  have owners := owners_found found
  obtain ⟨holder, buffer⟩ := this
  cases holder with
  | monostate => cases refers
  | pointer address =>
    cases refers
    obtain ⟨-, callable, lives⟩ := whole
    refine ⟨callable, lives, ?_⟩
    rw [owners]
    simp [Wrapper.owns, Wrapper.object, lives]
  | buffer =>
    cases refers
    obtain ⟨callable, rfl⟩ := whole
    refine ⟨callable, ?_, owners⟩
    simp [State.at, found]

/-- Every live object has a wrapper that refers to it. -/
theorem place_of_at (sound : s.Sound) {place : Place} {i : Instance} (lives : s.at place = some i) :
    ∃ index, s.place index = some place := by
  cases place with
  | heap address =>
    obtain ⟨index, this, found, refers⟩ := sound.pointed address i lives
    exact ⟨index, by simp [State.place, found, refers]⟩
  | buffer index =>
    obtain ⟨this, found, lives⟩ := Option.bind_eq_some_iff.mp lives
    rw [Option.join_eq_some_iff] at found
    have whole := sound.whole index this found
    obtain ⟨holder, buffer⟩ := this
    refine ⟨index, ?_⟩
    cases holder with
    | monostate => exact absurd (whole.symm.trans lives) nofun
    | pointer address => exact absurd (whole.1.symm.trans lives) nofun
    | buffer => simp [State.place, found]

theorem place_of_owns {callable : Nat}
    (owns : s.owners.wrappers[index]? = some (some (some callable))) :
    ∃ place, s.place index = some place := by
  simp only [owners, List.getElem?_map, Option.map_eq_some_iff] at owns
  obtain ⟨_, found, this, rfl, owns⟩ := owns
  obtain ⟨holder, buffer⟩ := this
  cases holder with
  | monostate => cases owns
  | pointer address => exact ⟨.heap address, by simp [State.place, found]⟩
  | buffer => exact ⟨.buffer index, by simp [State.place, found]⟩

theorem law (sound : s.Sound) (conserved : s.owners.holdings.Conserved) : s.Law := by
  refine ⟨sound.unbroken, fun callable valid => ?_⟩
  have one := conserved.count valid
  -- Two wrappers that own the callable are the same.
  have unique : ∀ {first second : Nat}, s.owners.wrappers[first]? = some (some (some callable)) →
      s.owners.wrappers[second]? = some (some (some callable)) → first = second := by
    intro first second here there
    have few : (total Owners.share s.owners.wrappers).count callable ≤ 1 := by
      have bound := conserved.exclusive.count_le callable
      simp only [Owners.holdings] at bound
      omega
    exact index_eq_of_count_le_one few here (by simp) there (by simp)
  have released : s.owners.holdings.released.count callable = s.destroyed.count callable := by
    simp [Owners.holdings, owners]
  rw [released] at one
  by_cases held : callable ∈ s.owners.holdings.held
  · left
    have count := Multiset.count_pos.mpr held
    refine ⟨List.count_eq_zero.mp (by omega), ?_⟩
    obtain ⟨wrapper, member, owns⟩ := mem_total.mp held
    obtain ⟨index, found⟩ := List.mem_iff_getElem?.mp member
    have owns : s.owners.wrappers[index]? = some (some (some callable)) := by
      rw [found]
      simpa [Owners.share, Option.join_eq_some_iff] using owns
    obtain ⟨place, refers⟩ := place_of_owns owns
    obtain ⟨same, lives, owned⟩ := sound.at_of_place refers
    rw [owns] at owned
    cases owned
    refine ⟨index, place, lives, ?_, refers, ?_⟩
    · rintro other ⟨_, _⟩ elsewhere rfl
      obtain ⟨second, there⟩ := sound.place_of_at elsewhere
      obtain ⟨_, also, owned⟩ := sound.at_of_place there
      rw [elsewhere] at also
      cases also
      cases unique owns owned
      exact Option.some.inj (there.symm.trans refers)
    · intro other there
      obtain ⟨_, also, owned⟩ := sound.at_of_place there
      rw [lives] at also
      cases also
      exact (unique owns owned).symm
  · right
    rw [Multiset.count_eq_zero_of_notMem held] at one
    refine ⟨by omega, ?_⟩
    rintro place ⟨_, _⟩ lives rfl
    obtain ⟨index, refers⟩ := sound.place_of_at lives
    obtain ⟨_, also, owned⟩ := sound.at_of_place refers
    rw [lives] at also
    cases also
    exact held (mem_total.mpr ⟨_, List.mem_of_getElem? owned, by simp⟩)

end State.Sound

structure State.Owned (s : State) : Prop where
  sound : s.Sound
  conserved : s.owners.holdings.Conserved

theorem State.Owned.initial : State.initial.Owned where
  sound := ⟨rfl, nofun, fun _ _ _ ⟨_, found, _⟩ => (nomatch found), nofun⟩
  conserved := rfl

theorem State.Owned.step (owned : s.Owned) (fitting : Fitting S action)
    (taken : UniqueFunction.step S s action = some t) : t.Owned := by
  obtain ⟨sound, refined⟩ := refines owned.sound fitting taken
  exact ⟨sound, (Owners.trade refined).conserved owned.conserved⟩

theorem owned_of_reaches (reached : Reaches (step S) (fun _ => Fitting S) .initial s) : s.Owned :=
  Reaches.invariant State.Owned .initial
    (fun _ _ _ owned fitting taken => owned.step fitting taken) reached

/-- An object that does not fit is placed outside of the buffer. -/
theorem broken_of_not_fitting (other : ¬ Fitting S action) (taken : step S s action = some t) :
    t.broken = true := by
  unfold step at taken
  split at taken
  · cases taken
  cases action with
  | construct f address =>
    obtain ⟨small, large⟩ := Classical.not_imp.mp other
    simp only [small, Bool.true_eq_false, false_and, if_false] at taken
    cases taken
    simp [State.emplace, State.addWrapper, small, large]
  | assign target f address =>
    obtain ⟨small, large⟩ := Classical.not_imp.mp other
    simp only [small, Bool.true_eq_false, false_and, if_false] at taken
    split at taken
    · cases taken
      simp [State.emplace, State.setWrapper, small, large]
    · cases taken
  | _ => exact absurd trivial other

/-- Where what goes into a buffer fits there, each callable has one instance with one owner until
it is destroyed once, and each operation does what the owners should do.  Any other operation
writes outside of the buffer.  With the default size, only callables of extended alignment do not
fit. -/
theorem owned_iff_fitting (S : Nat) :
    (∀ s, Reaches (step S) (fun _ => Fitting S) .initial s → s.Law) ∧
    (∀ s t action, Reaches (step S) (fun _ => Fitting S) .initial s → step S s action = some t →
      (t.Law ∧ s.owners.step action = some t.owners ↔ Fitting S action)) ∧
    ∀ f : Callable, f.small 40 = true → (f.Fits 40 ↔ f.align ≤ 16) := by
  refine ⟨?_, ?_, fun f small => fits_default small⟩
  · intro s reached
    have owned := owned_of_reaches reached
    exact owned.sound.law owned.conserved
  · intro s t action reached taken
    have owned := owned_of_reaches reached
    constructor
    · rintro ⟨law, -⟩
      by_contra other
      have broken := broken_of_not_fitting other taken
      rw [law.sound] at broken
      cases broken
    · intro fitting
      have after := owned.step fitting taken
      exact ⟨after.sound.law after.conserved, (refines owned.sound fitting taken).2⟩

/-- A small and a large callable are assigned to each other's wrappers, called and destroyed. -/
theorem law_after_moves :
    ∃ s, Reaches (step 40) (fun _ => Fitting 40) .initial s ∧ s.wrappers = [none, none, none] ∧
      s.calls = [(1, 1), (2, 0)] ∧ s.destroyed = [1, 0] ∧ s.Law := by
  obtain ⟨s, reached, wrappers, calls, destroyed⟩ := exists_of_run (step 40) (fun _ => Fitting 40)
      .initial
    [.construct ⟨16, 8, by decide, ⟨3, rfl⟩, by decide⟩ 0,
      .construct ⟨256, 8, by decide, ⟨3, rfl⟩, by decide⟩ 4096, .moveConstruct 0, .invoke 2,
      .moveAssign 0 1, .moveAssign 1 0, .invoke 1, .destroy 2, .destroy 1, .destroy 0]
    (fun s => s.wrappers = [none, none, none] ∧ s.calls = [(1, 1), (2, 0)] ∧ s.destroyed = [1, 0])
      (by decide +kernel)
  exact ⟨s, reached, wrappers, calls, destroyed, (owned_iff_fitting 40).1 s reached⟩

/-- A callable of 48 bytes is small for a buffer of 48 bytes, but with its table it needs 56; one of
32 bytes that is aligned to 32 is small for the default buffer, but with its table it needs 64. -/
theorem small_callable_overflows :
    (∃ f : Callable, f.size = 48 ∧ f.align = 8 ∧ f.concreteSize = 56 ∧ roundUp 48 16 = 48 ∧
      ∃ t, step 48 .initial (.construct f 0) = some t ∧ ¬ t.Law) ∧
    ∃ f : Callable, f.size = 32 ∧ f.align = 32 ∧ f.concreteSize = 64 ∧ roundUp 40 16 = 48 ∧
      ∃ t, step 40 .initial (.construct f 0) = some t ∧ ¬ t.Law := by
  constructor
  · refine ⟨⟨48, 8, by decide, ⟨3, rfl⟩, by decide⟩, rfl, rfl, by decide, by decide, _, rfl, ?_⟩
    intro law
    exact absurd law.sound (by decide)
  · refine ⟨⟨32, 32, by decide, ⟨5, rfl⟩, by decide⟩, rfl, rfl, by decide, by decide, _, rfl, ?_⟩
    intro law
    exact absurd law.sound (by decide)

end Oomph.UniqueFunction
