import Oomph.Ucx.AddressDb

namespace Oomph.Ucx.AddressDb

structure Endpoint where
  rank : Int
  address : Bytes
  created : Bool
deriving DecidableEq, Repr

/-- `worker_t::connect`: the endpoint, unless an exception is thrown, and `m_endpoint_cache`. -/
def connect (debug : Bool) (db : Rank) (cache : List Endpoint) (rank : Int) (creates : Bool) :
    Option Endpoint × List Endpoint :=
  match cache.find? (·.rank = rank), db.find rank with
  | some endpoint, _ => (some endpoint, cache)
  | none, .error _ => (none, cache)
  | none, .ok address =>
    if debug && !creates then (none, cache)
    else (some ⟨rank, address, creates⟩, ⟨rank, address, creates⟩ :: cache)

/-- The cache after some calls, the last of which comes first. -/
def connects (debug : Bool) (db : Rank) : List (Int × Bool) → List Endpoint
  | [] => []
  | (rank, creates) :: earlier => (connect debug db (connects debug db earlier) rank creates).2

/-- A rank has one endpoint at most, with its address; in a debug build it was created. -/
structure Job.Connected (job : Job) (debug : Bool) (cache : List Endpoint) : Prop where
  once : (cache.map (·.rank)).Nodup
  address : ∀ e ∈ cache, ∃ r < job.size, e.rank = r ∧ e.address = job.addr r
  created : debug = true → ∀ e ∈ cache, e.created = true

variable {job : Job} {q : Nat} {s : State} {cache : List Endpoint}

theorem Job.Connected.call {debug : Bool} (exchanged : job.Exchanged s) (inside : q < job.size)
    (ended : (s q).location = .done) (connected : job.Connected debug cache) (rank : Int)
    (creates : Bool) : job.Connected debug (connect debug (s q) cache rank creates).2 := by
  fun_cases connect debug (s q) cache rank creates with
  | case4 address found absent made =>
    have ranked : 0 ≤ rank ∧ rank < job.size := by
      by_contra outside
      rw [exchanged.missing q inside ended rank outside] at found
      cases found
    obtain ⟨r, rfl⟩ := Int.eq_ofNat_of_zero_le ranked.1
    have below : r < job.size := by omega
    rw [exchanged.found q inside ended r below] at found
    cases found
    refine ⟨?_, List.forall_mem_cons.mpr ⟨⟨r, below, rfl, rfl⟩, connected.address⟩, ?_⟩
    · simp_all [connected.once]
    · simp_all [connected.created]
  | _ => exact connected

theorem returned_connect (debug : Bool) (db : Rank) (rank : Int) (creates : Bool) :
    cache <:+ (connect debug db cache rank creates).2 ∧
      ∀ e, (connect debug db cache rank creates).1 = some e →
        e.rank = rank ∧ e ∈ (connect debug db cache rank creates).2 := by
  fun_cases connect debug db cache rank creates with
  | case1 _ found =>
    refine ⟨List.suffix_rfl, ?_⟩
    rintro _ ⟨⟩
    exact ⟨by simpa using List.find?_some found, List.mem_of_find?_eq_some found⟩
  | case4 => exact ⟨List.suffix_cons _ _, by rintro _ ⟨⟩; simp⟩
  | _ => exact ⟨List.suffix_rfl, nofun⟩

/-- After the exchange, in whatever order the broadcasts were made, `connect` returns the endpoint
of the process that has the rank, and always the same one. -/
theorem endpoints_connected (debug : Bool) (short : ∀ r < job.size, (job.addr r).length < 2 ^ 31)
    (reached : Reachable job s) (inside : q < job.size) (ended : (s q).location = .done)
    (calls : List (Int × Bool)) :
    job.Connected debug (connects debug (s q) calls) ∧ ∀ rank creates,
      connects debug (s q) calls <:+ connects debug (s q) ((rank, creates) :: calls) ∧
      ∀ e, (connect debug (s q) (connects debug (s q) calls) rank creates).1 = some e →
        e.rank = rank ∧ e ∈ connects debug (s q) ((rank, creates) :: calls) := by
  refine ⟨?_, returned_connect debug (s q)⟩
  have exchanged := (running_of_reachable (count_nonneg short) reached).exchanged short
  induction calls with
  | nil => exact ⟨List.nodup_nil, nofun, nofun⟩
  | cons call earlier connected => exact connected.call exchanged inside ended call.1 call.2

/-- The endpoint of rank 1 cannot be created at first. -/
theorem two_endpoints : ∃ s, Reachable twoRanks s ∧
    twoRanks.Connected true (connects true (s 0) [(1, true), (0, true), (1, false)]) := by
  have short : ∀ r < twoRanks.size, (twoRanks.addr r).length < 2 ^ 31 := by decide
  obtain ⟨s, reached, ended⟩ := exists_done (count_nonneg short)
  exact ⟨s, reached, (endpoints_connected true short reached (by decide) (ended 0 (by decide)) _).1⟩

end Oomph.Ucx.AddressDb
