import IcReplay.Progress
import IcReplay.Contract

/-!
# ic-replay - `replay` and `restore` end

Every loop of the Player waits for a service: `get_state_hash` polls until a
hash is computed, `deliver_batches` and the extra batch retry while the queue
is full, `wait_for_state` polls until the state manager has executed a
delivered batch, and the rounds of `restore` go on until the spool is done.
This module proves that these loops end, and with them the runs of `replay` and
`restore`, when the services answer within a bound `D` ({lit}`Player.Responsive`,
{lit}`Player.ExtraResponsive`) and the backup spool runs out.

A run that ends may still panic or return an `Err`: what is proved is that no
wait is endless, for every behaviour of the services within the bound.

Main results:

- Theorem {lit}`waitForState_total`: `wait_for_state h` ends once the state
  manager reaches `h` within `D` steps.
- Theorem {lit}`restoreRound_total`: a round of `restore` ends, and one that goes
  round again started before the spool was done.
- Theorem {lit}`restore_ends`: with a spool done from time `T` on and loops that
  may iterate more than `D` and `T` times, `restore` ends.
- Theorem {lit}`replay_ends`: `replay` ends.
-/

namespace IcReplay

/-! ## What the waits need of the services -/

/-- An answer of `get_state_hash_at` that `get_state_hash` polls again. -/
def isTransient : Except StateHashError CryptoHashOfState → Bool
  | .error (.transient _) => true
  | _ => false

/-- An answer of a delivery that found the queue full, which the Player retries. -/
def isQueueFull {α : Type} : Except MessageRoutingError α → Bool
  | .error .queueIsFull => true
  | _ => false

/-- What the waits of the Player need of the state manager and of consensus, with
`D` bounding every wait: the state manager keeps its contract, computes a state
hash within `D` polls, and executes delivered batches within `D` steps of their
delivery; consensus finds the queue free within `D` polls. -/
structure Player.Responsive (p : Player) (D : Nat) : Prop where
  contract : p.stateManager.Contract
  hash_computed : ∀ h, AnswersWithin D (p.stateManager.hashAt · h) isTransient
  batches_queued : ∀ target, AnswersWithin D (p.consensusDeliverBatches · target) isQueueFull
  batches_executed : ∀ t target h, p.consensusDeliverBatches t target = .ok h →
    h ≤ p.stateManager.latestHeight (t + D)

/-- What the wait for the extra batch of `replay` needs of message routing: a batch
is queued within `D` polls and executed within `D` steps of its delivery. -/
structure Player.ExtraResponsive (p : Player) (D : Nat) : Prop where
  batch_queued : ∀ b, AnswersWithin D (p.messageRouting.deliverAnswer · b) isQueueFull
  batch_executed : ∀ t b, p.messageRouting.deliverAnswer t b = .ok () →
    b.batchNumber ≤ p.stateManager.latestHeight (t + D)

/-- A bound on waits that some poll meets is positive. -/
theorem Player.Responsive.pos {p : Player} {D : Nat} (hr : p.Responsive D) : 0 < D :=
  let ⟨_, hi, _⟩ := hr.hash_computed 0 0
  Nat.lt_of_le_of_lt (Nat.zero_le _) hi

/-- The state manager reaches `h` within `D` steps of the current time. -/
def StateManager.ReachesWithin (sm : StateManager) (D : Nat) (h : Height) (w : World) : Prop :=
  ∃ T, h ≤ sm.latestHeight T ∧ T < w.clock + D

/-! ## Calls keep the budget -/

section Budget

variable {α : Type} {F : Nat} {P : World → Prop} {Q : α → World → Prop}

theorem budget_le {D : Nat} (hD : D ≤ F) (w : World) (hw : Budget F w) : D ≤ w.fuel :=
  hw ▸ hD

theorem Total.ask_budget {answer : Nat → α}
    (h : ∀ w, P w → Q (answer w.clock) { w with clock := w.clock + 1 }) :
    Total (Budget F) P (IcReplay.ask answer) Q :=
  Total.ask fun w hI hP => ⟨hI, h w hP⟩

theorem Total.call_budget {answer : Nat → α} {changes : Nat → α → List Event}
    (h : ∀ w, P w → Q (answer w.clock)
      { w with clock := w.clock + 1, log := w.log ++ changes w.clock (answer w.clock) }) :
    Total (Budget F) P (IcReplay.call answer changes) Q :=
  Total.call fun w hI hP => ⟨hI, h w hP⟩

theorem ask_total {answer : Nat → α} : Total (Budget F) P (ask answer) fun _ _ => True :=
  Total.ask_budget fun _ _ => trivial

theorem call_total {answer : Nat → α} {changes : Nat → α → List Event} :
    Total (Budget F) P (call answer changes) fun _ _ => True :=
  Total.call_budget fun _ _ => trivial

end Budget

/-! ## The waits -/

section Waits

variable {p : Player} {D F : Nat}

/-- `get_state_hash` ends: it polls again only on a transient error. -/
theorem getStateHash_total (hr : p.Responsive D) (hD : D ≤ F) (h : Height) :
    Total (Budget F) (fun _ => True) (getStateHash p.stateManager h) fun _ _ => True :=
  Total.poll (hr.hash_computed h) (budget_le hD) fun c => by
    refine Total.bind (Total.ask_budget (P := fun w => w.clock = c) (Q := fun r w =>
      w.clock = c + 1 ∧ r = p.stateManager.hashAt c h) fun _ hc => ⟨by rw [hc], by rw [hc]⟩)
      fun r => ?_
    split
    · exact Total.pure _ fun _ _ => trivial
    · exact Total.pure _ fun _ hw => ⟨hw.1, by rw [← hw.2]; rfl⟩
    · split
      · exact Total.pure _ fun _ _ => trivial
      · exact Total.abort _
    · exact Total.abort _

/-- `deliver_batches` ends, with a height that consensus delivered during the call. -/
theorem deliverBatches_total (hr : p.Responsive D) (hD : D ≤ F) (target : Option Height) :
    Total (Budget F) (fun _ => True) (p.deliverBatches target) fun h w =>
      ∃ t < w.clock, p.consensusDeliverBatches t target = .ok h :=
  Total.poll (hr.batches_queued target) (budget_le hD) fun c => by
    refine Total.bind (Total.call_budget (P := fun w => w.clock = c) (Q := fun r w =>
      w.clock = c + 1 ∧ r = p.consensusDeliverBatches c target) fun _ hc =>
        ⟨by rw [hc], by rw [hc]⟩) fun r => ?_
    rcases r with (_ | _) | h
    · exact Total.pure _ fun _ hw => ⟨hw.1, by rw [← hw.2]; rfl⟩
    · exact Total.abort _
    · exact Total.pure _ fun _ hw => ⟨c, hw.1 ▸ Nat.lt_succ_self c, hw.2.symm⟩

/-- A height that consensus delivered is reached within `D` steps. -/
theorem reachesWithin_of_delivered (hr : p.Responsive D) {target : Option Height} {h : Height}
    {w : World} (hw : ∃ t < w.clock, p.consensusDeliverBatches t target = .ok h) :
    p.stateManager.ReachesWithin D h w :=
  let ⟨t, ht, hok⟩ := hw
  ⟨t + D, hr.batches_executed t target h hok, Nat.add_lt_add_right ht D⟩

/-- `wait_for_state h` ends once the state manager reaches `h` within `D` steps:
each poll below `h` comes before that time. -/
theorem waitForState_total (hr : p.Responsive D) (hD : D ≤ F) (h : Height) :
    Total (Budget F) (p.stateManager.ReachesWithin D h) (p.waitForState h) fun _ _ => True := by
  refine Total.of_exists fun T => Total.intro_pre (φ := h ≤ p.stateManager.latestHeight T)
    (fun _ hT => hT.1) fun hT => ?_
  refine Total.bind ((Total.loop (Q := fun _ _ => True) (J := fun _ => True)
    (fun w => T - w.clock) (budget_le hD) fun n => ?_).mono
      (fun w hw => ⟨trivial, show T - w.clock < D by have := hw.2; have := hr.pos; omega⟩)
      fun _ _ h => h) fun _ => ?_
  · refine Total.bind (Total.ask_budget (Q := fun l w => ∃ c, w.clock = c + 1 ∧
      l = p.stateManager.latestHeight c ∧ T - c = n) fun w hw => ⟨w.clock, rfl, rfl, hw.2⟩)
      fun l => ?_
    dsimp only
    split
    · exact Total.bind ((getStateHash_total hr hD h).mono (fun _ _ => trivial) fun _ _ h => h)
        fun _ => Total.pure _ fun _ _ => trivial
    · rename_i hbelow
      simp only [pure_bind]
      refine Total.pure _ fun w ⟨c, hc, hl, hn⟩ => ⟨trivial, ?_⟩
      have hcT : c < T := Nat.lt_of_not_le fun hle =>
        hbelow (hl ▸ le_trans hT (hr.contract.latest_mono hle))
      omega
  · refine Total.bind ask_total fun _ => ?_
    split
    · exact Total.abort _
    · exact Total.pure _ fun _ _ => trivial

theorem getLatestCup_total : Total (Budget F) (fun _ => True) p.getLatestCup fun _ _ => True := by
  refine Total.bind (Total.getPool (Q := fun _ _ => True) fun _ _ => trivial) fun o => ?_
  split
  · exact Total.pure _ fun _ _ => trivial
  · exact Total.abort _

/-- `get_latest_state_height_and_hash` ends: it waits for a height the state manager
has already reached. -/
theorem getLatestStateHeightAndHash_total (hr : p.Responsive D) (hD : D ≤ F) :
    Total (Budget F) (fun _ => True) p.getLatestStateHeightAndHash fun _ _ => True := by
  refine Total.bind (Total.ask_budget (Q := fun l => p.stateManager.ReachesWithin D l)
    fun w _ => ⟨w.clock, le_rfl, by dsimp only; omega⟩) fun l => ?_
  refine Total.bind (waitForState_total hr hD l) fun _ => Total.bind ask_total fun r => ?_
  split
  · exact Total.pure _ fun _ _ => trivial
  · exact Total.bind getLatestCup_total fun _ => Total.pure _ fun _ _ => trivial

theorem verifyLatestCup_total (hr : p.Responsive D) (hD : D ≤ F) :
    Total (Budget F) (fun _ => True) p.verifyLatestCup fun _ _ => True := by
  refine Total.bind getLatestCup_total fun c => ?_
  simp only [pure_bind, abort_bind, throw_bind]
  split
  · exact Total.pure _ fun _ _ => trivial
  refine Total.bind ask_total fun r => ?_
  split
  · refine Total.bind ask_total fun l => ?_
    split
    · exact Total.pure _ fun _ _ => trivial
    refine Total.bind (getStateHash_total hr hD _) fun r => ?_
    split
    · exact Total.abort _
    split
    · exact Total.throw nofun
    refine Total.bind ask_total fun v => ?_
    split
    · split
      · exact Total.bind (getLatestStateHeightAndHash_total hr hD) fun _ => Total.throw nofun
      · exact Total.pure _ fun _ _ => trivial
    · exact Total.pure _ fun _ _ => trivial
  · exact Total.abort _

end Waits

/-! ## `restore` -/

section Restore

variable {p : Player} {D F : Nat}

theorem assertConsistencyAndCleanUp_total (hr : p.Responsive D) (hD : D ≤ F) :
    Total (Budget F) (fun _ => True) p.assertConsistencyAndCleanUp fun _ _ => True := by
  refine Total.bind (verifyLatestCup_total hr hD) fun _ =>
    Total.bind (getLatestStateHeightAndHash_total hr hD) fun _ =>
      Total.bind (Total.getPool (Q := fun _ _ => True) fun _ _ => trivial) fun o => ?_
  split
  · exact Total.bind call_total fun _ => Total.bind call_total fun _ =>
      Total.pure _ fun _ _ => trivial
  · exact Total.abort _

theorem insertCupAtHeight_total (backupDir : String) (height : Height) :
    Total (Budget F) (fun _ => True) (p.insertCupAtHeight backupDir height) fun _ _ => True := by
  refine Total.bind (Total.getPool (Q := fun _ _ => True) fun _ _ => trivial) fun o => ?_
  split
  · exact Total.bind call_total fun _ => Total.setPool fun _ hI _ => ⟨hI, trivial⟩
  · exact Total.abort _

theorem queryRegistry_total {β : Type} (methodName : String) (payload : List UInt8)
    (ingressExpiry : Time) (decode : List UInt8 → Except String β) :
    Total (Budget F) (fun _ => True) (p.queryRegistry methodName payload ingressExpiry decode)
      fun _ _ => True :=
  Total.bind ask_total fun _ => by split <;> exact Total.pure _ fun _ _ => trivial

theorem getChangesSince_total (version : RegistryVersion) (ingressExpiry : Time) :
    Total (Budget F) (fun _ => True) (p.getChangesSince version ingressExpiry) fun _ _ => True := by
  unfold Player.getChangesSince
  split
  · exact Total.abort _
  · exact queryRegistry_total _ _ _ _

theorem updateRegistryLocalStore_total :
    Total (Budget F) (fun _ => True) p.updateRegistryLocalStore fun _ _ => True := by
  unfold Player.updateRegistryLocalStore Player.writeRecordsToLocalStore
  split
  · refine Total.bind ask_total fun _ => Total.bind ask_total fun _ =>
      Total.bind (getChangesSince_total _ _) fun r => ?_
    split
    · split
      · refine Total.forM fun _ _ => Total.bind call_total fun _ => ?_
        split
        · exact Total.pure _ fun _ _ => trivial
        · exact Total.abort _
      · exact Total.abort _
    · exact Total.abort _
  · exact Total.abort _

/-- `deserialize_consensus_artifacts` ends with the spool's exit point at a time of
the call. -/
theorem deserializeConsensusArtifacts_total (c : Nat) :
    Total (Budget F) (fun w => c ≤ w.clock) p.deserializeConsensusArtifacts fun r w =>
      ∃ t latest, c ≤ t ∧ t < w.clock ∧ r = (p.backup.deserialize t latest).1 := by
  refine Total.bind (Total.getPool (Q := fun _ w => c ≤ w.clock) fun _ h => h) fun o => ?_
  split
  · refine Total.bind (Total.ask_budget (Q := fun _ w => c < w.clock) fun _ h =>
      Nat.lt_succ_of_le h) fun latest => ?_
    refine Total.bind (Total.call_budget (Q := fun r w => ∃ t, c ≤ t ∧ t < w.clock ∧
      r = p.backup.deserialize t latest) fun w h =>
        ⟨w.clock, Nat.le_of_lt h, Nat.lt_succ_self _, rfl⟩) fun r => ?_
    refine Total.bind (Total.setPool (Q := fun _ w => ∃ t, c ≤ t ∧ t < w.clock ∧
      r = p.backup.deserialize t latest) fun _ hI h => ⟨hI, h⟩) fun _ =>
      Total.pure _ fun _ ⟨t, hct, htw, hr⟩ => ⟨t, latest, hct, htw, by rw [hr]⟩
  · exact Total.abort _

/-- A round of `restore` ends; one that goes round again had the spool report an
exit point other than `Done`, so it started before the spool was done, at `T`. -/
theorem restoreRound_total (hr : p.Responsive D) (hD : D ≤ F) {T : Nat}
    (hspool : ∀ t ≥ T, ∀ latest, (p.backup.deserialize t latest).1 = .done)
    (backupDir : String) (target : Option Height) (n : Nat) :
    Total (Budget F) (fun w => T - w.clock = n) (p.restoreRound backupDir target)
      fun r w => r = none → T - w.clock < n := by
  refine Total.of_forall fun w0 hn => Total.bind ((deserializeConsensusArtifacts_total
    w0.clock).mono (fun _ e => e ▸ le_rfl) fun _ _ h => h) fun result => ?_
  refine Total.of_exists fun t => Total.of_exists fun latest =>
    Total.intro_pre (φ := w0.clock ≤ t ∧ result = (p.backup.deserialize t latest).1)
      (fun _ h => ⟨h.1, h.2.2⟩) fun ⟨hct, hres⟩ => ?_
  -- What follows the ingestion goes round again only on an exit point other than `Done`.
  refine (Total.frame_clock (R := fun x => t < x) (fun _ _ hab h => lt_of_lt_of_le h hab)
    (P := fun _ => True) (Q := fun r _ => r = none → result ≠ .done) ?_).mono
      (fun _ h => ⟨trivial, h.2.1⟩) fun r w h hnone => ?_
  · refine Total.bind (Total.getPool (Q := fun _ _ => True) fun _ _ => trivial) fun o => ?_
    split
    · refine Total.bind ((deliverBatches_total hr hD _).mono (fun _ _ => trivial)
        fun _ _ => reachesWithin_of_delivered hr) fun last => ?_
      refine Total.bind (waitForState_total hr hD last) fun _ => ?_
      split
      · exact Total.bind (getLatestStateHeightAndHash_total hr hD) fun _ =>
          Total.pure _ fun _ _ h => nomatch h
      split
      · exact Total.bind (insertCupAtHeight_total _ _) fun _ =>
          Total.bind (assertConsistencyAndCleanUp_total hr hD) fun _ =>
            Total.pure _ fun _ _ _ => nofun
      · refine Total.bind updateRegistryLocalStore_total fun _ => Total.bind ask_total fun _ => ?_
        simp only [abort_bind, pure_bind]
        split
        · exact Total.abort _
        · refine Total.bind ask_total fun _ => ?_
          split
          · exact Total.abort _
          · exact Total.pure _ fun _ _ _ => nofun
      · refine Total.bind ask_total fun _ => ?_
        simp only [abort_bind, pure_bind]
        split
        · exact Total.abort _
        · exact Total.bind call_total fun _ => Total.pure _ fun _ _ _ => nofun
      · exact Total.bind (getLatestStateHeightAndHash_total hr hD) fun _ =>
          Total.pure _ fun _ _ h => nomatch h
    · exact Total.abort _
  · have htT : t < T := Nat.lt_of_not_le fun hle => h.1 hnone (hres ▸ hspool t hle latest)
    have := h.2
    omega

/-- `restore` ends when the spool is done from time `T` on and `T` is within the
budget: every round that goes round again starts before `T` and moves the clock. -/
theorem restore_total (hr : p.Responsive D) (hD : D ≤ F) {T : Nat}
    (hspool : ∀ t ≥ T, ∀ latest, (p.backup.deserialize t latest).1 = .done) (hT : T < F)
    (startHeight : Nat) :
    Total (Budget F) (fun _ => True) (p.restore startHeight) fun _ _ => True := by
  unfold Player.restore
  split
  · refine Total.bind ask_total fun _ => ?_
    simp only [abort_bind, pure_bind]
    split
    · exact Total.abort _
    · exact Total.bind (verifyLatestCup_total hr hD) fun _ =>
        (Total.loop (J := fun _ => True) (fun w => T - w.clock) (B := F) (fun _ hI => hI.ge)
          fun n => (restoreRound_total hr hD hspool _ _ n).mono (fun _ h => h.2)
            fun r _ h => by cases r <;> first | exact ⟨trivial, h rfl⟩ | trivial).mono
            (fun w _ => ⟨trivial, show T - w.clock < F by omega⟩) fun _ _ h => h
  · exact Total.abort _

end Restore

/-! ## `replay` -/

section Replay

variable {p : Player} {D F : Nat}

/-- `deliver_extra_batch` ends; the extra batch it reports is reached within `D`
steps. -/
theorem deliverExtraBatch_total (hx : p.ExtraResponsive D) (hD : D ≤ F)
    (pool : Option ConsensusPool) (extra : Player → Time → List SignedIngress) :
    Total (Budget F) (fun _ => True) (p.deliverExtraBatch pool extra) fun r w =>
      ∀ n ids, r.2 = some (n, ids) → p.stateManager.ReachesWithin D n w := by
  refine Total.bind (Q := fun _ _ => True) ?_ fun ⟨registryVersion, time, randomness⟩ => ?_
  · split
    · exact Total.bind ask_total fun _ => Total.bind ask_total fun _ =>
        Total.pure _ fun _ _ => trivial
    · split
      · exact Total.abort _
      · exact Total.pure _ fun _ _ => trivial
  · refine Total.bind ask_total fun batchNumber => ?_
    simp only [pure_bind]
    split
    · exact Total.pure _ fun _ _ _ _ h => nomatch h
    refine Total.bind (Total.poll (Q := fun _ w => ∃ t < w.clock, ∃ b : Batch,
      b.batchNumber = batchNumber ∧ p.messageRouting.deliverAnswer t b = .ok ())
      (hx.batch_queued ⟨batchNumber, true, extra p time, randomness, registryVersion, time⟩)
      (budget_le hD) fun c => ?_) fun _ =>
        Total.pure _ fun _ ⟨t, ht, b, hb, hok⟩ n ids hs => ?_
    · refine Total.bind (Total.call_budget (P := fun w => w.clock = c) (Q := fun r w =>
        w.clock = c + 1 ∧ r = p.messageRouting.deliverAnswer c _) fun _ hc =>
          ⟨by rw [hc], by rw [hc]⟩) fun r => ?_
      rcases r with (_ | _) | _
      · exact Total.pure _ fun _ hw => ⟨hw.1, by rw [← hw.2]; rfl⟩
      · exact Total.abort _
      · exact Total.pure _ fun _ hw => ⟨c, hw.1 ▸ Nat.lt_succ_self c, _, rfl, hw.2.symm⟩
    · cases hs
      have hexec := hx.batch_executed t b hok
      rw [hb] at hexec
      exact ⟨t + D, hexec, Nat.add_lt_add_right ht D⟩

theorem replay_total (hr : p.Responsive D) (hx : p.ExtraResponsive D) (hD : D ≤ F)
    (extra : Player → Time → List SignedIngress) :
    Total (Budget F) (fun _ => True) (p.replay extra) fun _ _ => True := by
  refine Total.bind (Total.getPool (Q := fun _ _ => True) fun _ _ => trivial) fun o =>
    Total.bind (Q := fun _ _ => True) ?_ fun _ => ?_
  · -- The part on a live pool.
    split
    · refine Total.bind (Total.tryCatch (verifyLatestCup_total hr hD) fun s hs => ?_) fun _ => ?_
      · split
        · exact Total.pure _ fun _ _ => trivial
        · exact Total.throw hs
      refine Total.bind ((deliverBatches_total hr hD _).mono (fun _ _ => trivial)
        fun _ _ => reachesWithin_of_delivered hr) fun last => ?_
      refine Total.bind (waitForState_total hr hD last) fun _ =>
        Total.bind call_total fun _ => Total.forM fun _ _ => ?_
      split
      · exact call_total
      · exact Total.abort _
    · exact Total.pure _ fun _ _ => trivial
  -- The extra batch.
  refine Total.bind (Total.getPool (Q := fun _ _ => True) fun _ _ => trivial) fun o =>
    Total.bind (deliverExtraBatch_total hx hD o extra) fun ⟨time, d⟩ =>
      Total.bind (Q := fun _ _ => True) ?_ fun _ => ?_
  · rcases d with _ | ⟨n, ids⟩
    · exact Total.pure _ fun _ _ => trivial
    refine Total.bind ((waitForState_total hr hD n).mono (fun _ h => h n ids rfl)
      fun _ _ h => h) fun _ => Total.bind call_total fun _ => Total.bind ask_total fun _ =>
        Total.forM fun _ _ => ?_
    split
    · exact Total.pure _ fun _ _ => trivial
    · exact Total.abort _
  -- The registry version and the final state.
  refine Total.bind (Total.bind (queryRegistry_total _ _ _ _) fun r => ?_) fun _ =>
    getLatestStateHeightAndHash_total hr hD
  split
  · exact Total.pure _ fun _ _ => trivial
  · exact ask_total

end Replay

/-! ## Runs that end -/

/-- **`restore` ends.**  With services that answer within `D` polls and a backup
spool done from time `T` on, a run of `restore` whose loops may iterate at least
`D` times and more than `T` times never stops out of fuel: every wait ends, and
the rounds stop once the spool is done.  The run may still panic or return an
`Err`. -/
theorem restore_ends {p : Player} {D T : Nat} (hr : p.Responsive D)
    (hspool : ∀ t ≥ T, ∀ latest, (p.backup.deserialize t latest).1 = .done)
    (startHeight : Nat) {w : World} (hD : D ≤ w.fuel) (hT : T < w.fuel) (w' : World) :
    p.restore startHeight w ≠ .error .outOfFuel w' :=
  (restore_total hr hD hspool hT startHeight).ends w rfl trivial w'

/-- **`replay` ends.**  With services that answer within `D` polls, message routing
included, a run of `replay` whose loops may iterate `D` times never stops out of
fuel, whatever messages its caller injects. -/
theorem replay_ends {p : Player} {D : Nat} (hr : p.Responsive D) (hx : p.ExtraResponsive D)
    (extra : Player → Time → List SignedIngress) {w : World} (hD : D ≤ w.fuel) (w' : World) :
    p.replay extra w ≠ .error .outOfFuel w' :=
  (replay_total hr hx hD extra).ends w rfl trivial w'

/-- A Player on a live pool whose services answer at once, over a state manager at
height 0 and a certification pool that certifies height 0; message routing accepts
a batch at the expected height 0 and ignores any other, and every message completes
with a reply. -/
def promptPlayer : Player :=
  { Player.ofServices (steadyStateManager 0 ⟨[]⟩) emptyRegistry acceptingCrypto with
    messageRouting := { expectedHeight := fun _ => 0, deliverAnswer := fun _ b =>
      if b.batchNumber = 0 then .ok () else .error (.ignored 0 b.batchNumber) }
    latestStatus := fun _ _ => .known (.completed (.reply []))
    certificationPool := some ⟨[0], fun h => some ⟨h, []⟩⟩ }

theorem promptPlayer_responsive : promptPlayer.Responsive 1 where
  contract := steadyStateManager_contract 0 ⟨[]⟩
  hash_computed h t := ⟨0, Nat.one_pos, by
    show isTransient (if h = 0 then _ else _) = false
    split <;> rfl⟩
  batches_queued _ _ := ⟨0, Nat.one_pos, rfl⟩
  batches_executed _ _ _ hok := by cases hok; exact le_rfl

theorem promptPlayer_extraResponsive : promptPlayer.ExtraResponsive 1 where
  batch_queued b _ := ⟨0, Nat.one_pos, by
    show isQueueFull (if b.batchNumber = 0 then _ else _) = false
    split <;> rfl⟩
  batch_executed _ b hok := by
    change (if b.batchNumber = 0 then _ else _) = _ at hok
    split at hok
    · exact Nat.le_of_eq ‹_›
    · cases hok

/-- `replay` by the prompt Player of a pool finalized up to its genesis block,
injecting one message, ends: it delivers the pool's batches and its certification,
then the extra batch, and waits for each. -/
theorem replay_ends_prompt :
    promptPlayer.Responsive 1 ∧ promptPlayer.ExtraResponsive 1 ∧ 1 ≤ 2 ∧
      ∀ w', promptPlayer.replay (fun _ _ => [⟨[7]⟩])
        ⟨0, 2, some ⟨genesisCup, 0, some ⟨0, ⟨0, 0⟩⟩⟩, []⟩ ≠ .error .outOfFuel w' :=
  ⟨promptPlayer_responsive, promptPlayer_extraResponsive, by decide,
    replay_ends promptPlayer_responsive promptPlayer_extraResponsive _ (by decide)⟩

/-- A Player whose state manager, at height 0, has the hash of its state computed
only from time 8 on, over a spool that reports the state manager behind the
certified height 0 until time 3 and is done from then on. -/
def pollingPlayer : Player :=
  { Player.ofServices
      ⟨fun _ => 0, fun t h => if t < 8 then .error (.transient (.hashNotComputedYet h))
        else (steadyStateManager 0 ⟨[]⟩).hashAt t h⟩
      emptyRegistry acceptingCrypto with
    backupDir := some "backup"
    backup := ⟨fun _ _ _ => .ok (), fun t _ => (if t < 3 then .stateBehind 0 else .done, 0, none),
      fun _ _ _ => genesisCup⟩ }

/-- Every wait of the polling Player ends within 9 polls: the state hash is computed
by time 8. -/
theorem pollingPlayer_responsive : pollingPlayer.Responsive 9 where
  contract :=
    { latest_mono := fun _ _ _ => le_rfl
      hash_reached := fun t h x hx => by
        change (if t < 8 then _ else (steadyStateManager 0 ⟨[]⟩).hashAt t h) = _ at hx
        split at hx
        · cases hx
        · exact (steadyStateManager_contract 0 ⟨[]⟩).hash_reached t h x hx }
  hash_computed h t := ⟨8 - t, by omega, by
    show isTransient (if t + (8 - t) < 8 then _ else _) = false
    rw [if_neg (by omega)]
    show isTransient (if h = 0 then _ else _) = false
    split <;> rfl⟩
  batches_queued _ _ := ⟨0, by omega, rfl⟩
  batches_executed _ _ _ hok := by cases hok; exact le_rfl

theorem pollingPlayer_done : ∀ t ≥ 3, ∀ latest,
    (pollingPlayer.backup.deserialize t latest).1 = .done :=
  fun _ ht _ => if_neg (Nat.not_lt.2 ht)

/-- `restore` of the genesis pool by the polling Player ends: the wait of its first
round polls the state hash until it is computed, that round goes round again at
the `StateBehind` exit point, and the spool is done by the next. -/
theorem restore_ends_polling :
    pollingPlayer.Responsive 9 ∧
      (∀ t ≥ 3, ∀ latest, (pollingPlayer.backup.deserialize t latest).1 = .done) ∧
      9 ≤ 9 ∧ 3 < 9 ∧
      ∀ w', pollingPlayer.restore 0 ⟨0, 9, some ⟨genesisCup, 0, none⟩, []⟩ ≠
        .error .outOfFuel w' :=
  ⟨pollingPlayer_responsive, pollingPlayer_done, by decide, by decide,
    restore_ends pollingPlayer_responsive pollingPlayer_done 0 (by decide) (by decide)⟩

end IcReplay
