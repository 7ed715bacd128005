import IcReplay.Player

/-!
# ic-replay - What the Player assumes of the state manager

The Player never checks what the state manager keeps; it relies on two facts,
which the comment in `wait_for_state` spells out: the latest state height never
decreases, and a state hash is handed out only for a height the state manager
has reached.  This module states that contract and proves, for each method that
reads the state manager, what a run of it then knows: after `get_state_hash`
returns a hash or `wait_for_state` returns, the state manager has reached the
height; after `verify_latest_cup` returns, it has reached the pool's catch-up
package.

These methods change nothing but the clock, so their specifications hold for
every invariant that does not mention the clock.
-/

namespace IcReplay

/-! ## The contract -/

/-- The state manager's contract that the Player relies on. -/
structure StateManager.Contract (sm : StateManager) : Prop where
  /-- The latest state height never decreases. -/
  latest_mono : Monotone sm.latestHeight
  /-- A hash is available only at a height that has been reached. -/
  hash_reached : ∀ t h x, sm.hashAt t h = .ok x → h ≤ sm.latestHeight t

/-- The state manager has reached `h` by the current time of `w`. -/
def StateManager.Reached (sm : StateManager) (h : Height) (w : World) : Prop :=
  h ≤ sm.latestHeight w.clock

section Specs

variable {α : Type} {sm : StateManager} {p : Player} {I : World → Prop}

theorem StateManager.Reached.of_clock_le (hc : sm.Contract) {h : Height} {w w' : World}
    (hr : sm.Reached h w) (hle : w.clock ≤ w'.clock) : sm.Reached h w' :=
  le_trans hr (hc.latest_mono hle)

/-- Once reached, a height stays reached for the rest of a run. -/
theorem Triple.frame_reached (hc : sm.Contract) {P : World → Prop} {m : PlayerM α}
    {Q : α → World → Prop} (h : Height) (hm : Triple I P m Q) :
    Triple I (fun w => P w ∧ sm.Reached h w) m (fun a w => Q a w ∧ sm.Reached h w) := by
  intro w hI ⟨hP, hR⟩
  have := hm w hI hP
  split at this
  · exact ⟨this.1, this.2.1, this.2.2, hR.of_clock_le hc this.1⟩
  · exact this

/-- A call that changes nothing keeps a reached height reached. -/
theorem ask_reached (hc : sm.Contract) (hI : ClockFree I) (h : Height) {answer : Nat → α} :
    Triple I (sm.Reached h) (ask answer) fun _ => sm.Reached h :=
  Triple.ask_of_clockFree hI fun _ hR => hR.of_clock_le hc (Nat.le_succ _)

/-- Reading the latest height: the state manager has reached what it answered. -/
theorem latestStateHeight_spec (hc : sm.Contract) (hI : ClockFree I) :
    Triple I (fun _ => True) sm.latestStateHeight fun l w => sm.Reached l w :=
  Triple.ask_of_clockFree hI fun _ _ => hc.latest_mono (Nat.le_succ _)

/-- `get_state_hash` returns only a hash that the state manager answered during the run. -/
theorem getStateHash_answered (hI : ClockFree I) (h : Height) :
    Triple I (fun _ => True) (getStateHash sm h) fun r w =>
      ∀ x, r = some x → ∃ t < w.clock, sm.hashAt t h = .ok x := by
  refine Triple.loop (Triple.bind (Triple.ask_of_clockFree hI
    (Q := fun r w => ∀ x, r = .ok x → ∃ t < w.clock, sm.hashAt t h = .ok x)
    fun w _ _ hx => ⟨w.clock, Nat.lt_succ_self _, hx⟩) fun r => ?_)
  split
  · exact Triple.pure _ fun _ hx _ hsome => by cases hsome; exact hx _ rfl
  · exact Triple.pure _ fun _ _ => trivial
  · split
    · exact Triple.pure _ fun _ _ _ hx => nomatch hx
    · exact Triple.abort _
  · exact Triple.abort _

/-- `get_state_hash` returns a hash only for a height that has been reached. -/
theorem getStateHash_spec (hc : sm.Contract) (hI : ClockFree I) (h : Height) :
    Triple I (fun _ => True) (getStateHash sm h) fun r w => ∀ x, r = some x → sm.Reached h w :=
  (getStateHash_answered hI h).mono (fun _ _ => trivial) fun _ _ hr x hx =>
    let ⟨_, ht, hx⟩ := hr x hx
    (hc.hash_reached _ _ _ hx).trans (hc.latest_mono ht.le)

/-- After `wait_for_state h` returns, the state manager has reached `h`. -/
theorem waitForState_spec (hc : p.stateManager.Contract) (hI : ClockFree I) (h : Height) :
    Triple I (fun _ => True) (p.waitForState h) fun _ w => p.stateManager.Reached h w := by
  refine Triple.bind (Q := fun _ _ => True) (Triple.loop ?_) fun _ =>
    Triple.bind (latestStateHeight_spec hc hI) fun l => ?_
  · refine Triple.bind (Triple.ask_of_clockFree hI (Q := fun _ _ => True) fun _ _ => trivial)
      fun l => ?_
    dsimp only
    split
    · exact Triple.bind
        ((getStateHash_spec hc hI h).mono (fun _ _ => trivial) fun _ _ _ => trivial)
        fun _ => Triple.pure _ fun _ _ => trivial
    · simp only [pure_bind]
      exact Triple.pure _ fun _ _ => trivial
  · split
    · exact Triple.abort _
    · exact Triple.pure _ fun w hl => by simp_all

/-- `get_latest_cup` reads the catch-up package of the pool and changes nothing. -/
theorem getLatestCup_spec {P : World → Prop} :
    Triple I P p.getLatestCup fun c w =>
      P w ∧ ∃ pool, w.consensusPool = some pool ∧ c = pool.cup := by
  refine Triple.bind
    (Triple.getPool (Q := fun o w => P w ∧ w.consensusPool = o) fun _ h => ⟨h, rfl⟩)
    fun o => ?_
  split
  · exact Triple.pure _ fun _ h => ⟨h.1, _, h.2, rfl⟩
  · exact Triple.abort _

/-- `get_latest_state_height_and_hash` changes nothing but the clock. -/
theorem getLatestStateHeightAndHash_spec (hc : p.stateManager.Contract) (hI : ClockFree I) :
    Triple I (fun _ => True) p.getLatestStateHeightAndHash fun _ _ => True := by
  refine Triple.bind ((latestStateHeight_spec hc hI).mono (fun _ _ => trivial) fun _ _ _ => trivial)
    fun h => Triple.bind ((waitForState_spec hc hI h).mono (fun _ _ => trivial)
      fun _ _ _ => trivial) fun _ => Triple.bind
        (Triple.ask_of_clockFree hI (Q := fun _ _ => True) fun _ _ => trivial) fun r => ?_
  split
  · exact Triple.pure _ fun _ _ => trivial
  · exact Triple.bind (getLatestCup_spec.mono (fun _ _ => trivial) fun _ _ _ => trivial)
      fun _ => Triple.pure _ fun _ _ => trivial

/-- After `verify_latest_cup` returns, the state manager has reached the height of
the pool's catch-up package: it is the genesis package, or the latest state is
above it, or its state hash was available. -/
theorem verifyLatestCup_spec (hc : p.stateManager.Contract) (hI : ClockFree I)
    (pool : ConsensusPool) :
    Triple I (fun w => w.consensusPool = some pool) p.verifyLatestCup
      fun _ w => p.stateManager.Reached pool.cup.cup.height w := by
  refine Triple.bind getLatestCup_spec fun c => Triple.intro_pre (φ := c = pool.cup)
    (fun _ h => by obtain ⟨h1, _, h2, rfl⟩ := h; simp_all) fun hcup => ?_
  subst hcup
  simp only [pure_bind, abort_bind, throw_bind]
  split
  · exact Triple.pure _ fun _ _ => by simp_all [StateManager.Reached]
  refine Triple.bind (Triple.ask_of_clockFree hI (Q := fun _ _ => True) fun _ _ => trivial)
    fun r => ?_
  split
  · refine Triple.bind ((latestStateHeight_spec hc hI).mono (fun _ _ => trivial) fun _ _ h => h)
      fun l => ?_
    split
    · exact Triple.pure _ fun _ hl => (Nat.le_of_lt ‹_›).trans hl
    refine Triple.bind ((getStateHash_spec hc hI _).mono (fun _ _ => trivial) fun _ _ h => h)
      fun r => ?_
    split
    · exact Triple.abort _
    refine Triple.mono (fun w h => h _ rfl) (fun _ _ h => h) ?_
    split
    · exact Triple.throw _
    refine Triple.bind (ask_reached hc hI _) fun v => ?_
    split
    · split
      · exact Triple.bind ((getLatestStateHeightAndHash_spec hc hI).mono (fun _ _ => trivial)
          fun _ _ _ => trivial) fun _ => Triple.throw _
      · exact Triple.pure _ fun _ h => h
    · exact Triple.pure _ fun _ h => h
  · exact Triple.abort _

/-- Without a pool there is no catch-up package to check: `verify_latest_cup` panics
at once. -/
theorem verifyLatestCup_of_pool_none {w : World} (hp : w.consensusPool = none) :
    p.verifyLatestCup w = .error (.panic "no consensus_pool") w := by
  simp only [Player.verifyLatestCup, Player.getLatestCup, bind_assoc, getPool_bind_apply, hp,
    abort_bind]
  rfl

theorem verifyLatestCup_of_none {Q : Unit → World → Prop} :
    Triple I (fun w => w.consensusPool = none) p.verifyLatestCup Q := fun _ hI hp => by
  rw [verifyLatestCup_of_pool_none hp]
  exact ⟨le_rfl, hI⟩

/-- `verify_latest_cup` changes nothing but the clock. -/
theorem verifyLatestCup_keeps (hc : p.stateManager.Contract) (hI : ClockFree I) :
    Triple I (fun _ => True) p.verifyLatestCup fun _ _ => True := by
  refine Triple.of_pool fun o => ?_
  cases o with
  | none => exact verifyLatestCup_of_none.mono (fun _ h => h.2) fun _ _ h => h
  | some pool => exact (verifyLatestCup_spec hc hI pool).mono (fun _ h => h.2) fun _ _ _ => trivial

end Specs

/-! ## A Player over given services -/

/-- The genesis catch-up package of an empty spool. -/
def genesisCup : CUPWithOriginalProtobuf where
  cup := ⟨⟨⟨0, ⟨0, 0⟩⟩, ⟨[]⟩, 0⟩⟩
  protobuf := ⟨[], []⟩

/-- A Player of build `"replica"` over the given state manager, registry and
crypto component, whose other services accept every call at once. -/
def Player.ofServices (sm : StateManager) (registry : RegistryClient) (crypto : Crypto) :
    Player where
  stateManager := sm
  messageRouting := { expectedHeight := fun _ => 0, deliverAnswer := fun _ _ => .ok () }
  consensusDeliverBatches := fun _ _ => .ok 0
  crypto := crypto
  queryAnswer := fun _ _ => .error "no registry canister"
  latestStatus := fun _ _ => .unknown
  certificationPool := none
  registry := registry
  codec :=
    { encodeChangesSince := fun _ => .ok []
      decodeChangesSince := fun _ => .ok []
      decodeLatestVersion := fun _ => .ok 0
      serializeGetValueRequest := fun _ => .ok []
      deserializeGetValueResponse := .ok
      decodeBlessedReplicaVersions := fun _ => .ok none
      decodeSubnetRecord := fun _ => .ok none
      blessedReplicaVersionKey := "blessed_replica_versions"
      subnetRecordKey := fun _ => "subnet_record" }
  localStorePath := none
  storeAnswer := fun _ _ _ _ => .ok ()
  replicaVersion := "replica"
  subnetId := 0
  backupDir := none
  backup := ⟨fun _ _ _ => .ok (), fun _ _ => (.done, 0, none), fun _ _ _ => genesisCup⟩
  replayTargetHeight := none
  systemTime := fun t => t
  cryptoHashableToSeed := fun _ => []

/-- A registry client at version 0 that records no replica build. -/
def emptyRegistry : RegistryClient where
  latestVersion := fun _ => 0
  pollAnswer := fun _ => .ok ()
  replicaVersionAt := fun _ _ _ => none

/-- A crypto component that accepts every signature. -/
def acceptingCrypto : Crypto where
  verifyAnswer := fun _ _ _ _ _ => .ok ()

/-- A state manager whose latest state is `h` at all times and whose hash at
`h`, and only there, is `hash`. -/
def steadyStateManager (h : Height) (hash : CryptoHashOfState) : StateManager where
  latestHeight := fun _ => h
  hashAt := fun _ h' => if h' = h then .ok hash else .error (.permanent (.stateRemoved h'))

theorem steadyStateManager_contract (h : Height) (hash : CryptoHashOfState) :
    (steadyStateManager h hash).Contract where
  latest_mono := fun _ _ _ => le_rfl
  hash_reached := fun _ h' x hx => by
    simp only [steadyStateManager] at hx
    split at hx
    · exact le_of_eq ‹h' = h›
    · cases hx

end IcReplay
