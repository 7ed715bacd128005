import IcReplay.Round
import IcReplay.Checks

/-!
# ic-replay - Catch-up packages enter the pool after their batches

At a `CUPHeightWasFinalized` exit point `restore` inserts the next catch-up
package into the consensus pool.  The source states the order it keeps: the pool
cache assumes at most one catch-up package inside the pool, so all batches are
delivered before a new package is inserted.  A round ingests the spool's
artifacts, delivers the batches they finalize, and only then acts on its exit
point, so no package goes into the pool while batches of ingested artifacts are
still undelivered.

The order is a property of the log.  {lit}`cupsAfterDelivery` reads the log once,
keeping whether the batches of the artifacts ingested last were delivered, and
checks every insertion against it.

Main results:

- Definition {lit}`cupsAfterDelivery`: every insertion of a catch-up package in
  the log follows the delivery of the batches of the artifacts ingested before it.
- Theorem {lit}`restore_inserts_cup_after_delivery`: every run of `restore` logs
  only such insertions, wherever it ends.
-/

namespace IcReplay

/-! ## The order of a log -/

/-- Whether the batches of the artifacts ingested last are delivered, after `e`. -/
def Event.deliveredAfter (delivered : Bool) : Event → Bool
  | .ingestArtifacts => false
  | .deliverFinalizedBatches _ => true
  | _ => delivered

/-- The insertion of a catch-up package into the pool. -/
def Event.isInsertCup : Event → Bool
  | .insertCup _ => true
  | _ => false

/-- Every catch-up package inserted in `log` follows the delivery of the batches of
the artifacts ingested before it; `delivered` says whether the batches of the
artifacts ingested before `log` were delivered. -/
def cupsAfterDelivery : Bool → List Event → Bool
  | _, [] => true
  | delivered, e :: log =>
    (!e.isInsertCup || delivered) && cupsAfterDelivery (e.deliveredAfter delivered) log

/-- An insertion right after an ingestion breaks the order. -/
example : cupsAfterDelivery true [.ingestArtifacts, .insertCup 3] = false := rfl

theorem cupsAfterDelivery_append (delivered : Bool) (log new : List Event) :
    cupsAfterDelivery delivered (log ++ new) =
      (cupsAfterDelivery delivered log &&
        cupsAfterDelivery (log.foldl Event.deliveredAfter delivered) new) := by
  induction log generalizing delivered with
  | nil => simp [cupsAfterDelivery]
  | cons e log ih => simp [cupsAfterDelivery, ih, Bool.and_assoc]

section Rounds

variable {p : Player}

/-- The upkeep of an exit point, after a delivery, keeps the order. -/
theorem cupsAfterDelivery_upkeep {rest : List Event} (h : ∀ e ∈ rest, e.Upkeep p) :
    cupsAfterDelivery true rest = true := by
  induction rest with
  | nil => rfl
  | cons e rest ih =>
    have hd : e.deliveredAfter true = true := by
      cases e <;> first | rfl | exact (h _ (List.mem_cons_self _ _)).elim
    simp only [cupsAfterDelivery, hd, Bool.or_true, Bool.true_and]
    exact ih fun e' he' => h e' (List.mem_cons_of_mem _ he')

/-- What a round logs keeps the order, whatever the log held before it: the round
delivers before its upkeep inserts anything. -/
theorem RoundFrom.cups_after_delivery {l log : List Event} (h : RoundFrom p l log) :
    ∃ new, log = l ++ new ∧ ∀ delivered, cupsAfterDelivery delivered new = true := by
  rcases h with rfl | rfl | ⟨h, rest, rfl, hrest⟩
  · exact ⟨[], (List.append_nil _).symm, fun _ => rfl⟩
  · exact ⟨[.ingestArtifacts], rfl, fun _ => rfl⟩
  · refine ⟨.ingestArtifacts :: .deliverFinalizedBatches h :: rest, by simp, fun _ => ?_⟩
    simp [cupsAfterDelivery, Event.isInsertCup, Event.deliveredAfter,
      cupsAfterDelivery_upkeep hrest]

/-- Every insertion that a run logged after the log `l` follows a delivery of that
run. -/
def CupsAfterDeliveryFrom (l : List Event) (w : World) : Prop :=
  ∃ new, w.log = l ++ new ∧ cupsAfterDelivery false new = true

theorem restoreRound_cups (hc : p.stateManager.Contract) (backupDir : String)
    (target : Option Height) (l : List Event) :
    Triple (CupsAfterDeliveryFrom l) (fun _ => True) (p.restoreRound backupDir target)
      fun _ _ => True :=
  Triple.of_logFrom (fun l' => (restoreRound_logs hc backupDir target l').mono (fun _ h => h.2)
    fun _ _ _ => trivial) (fun _ _ => .inl rfl) fun w w' ⟨new, hl, hnew⟩ _ hr => by
      obtain ⟨round, hround, hcups⟩ := hr.cups_after_delivery
      refine ⟨new ++ round, by rw [hround, hl, List.append_assoc], ?_⟩
      rw [cupsAfterDelivery_append, hnew, hcups, Bool.true_and]

theorem restore_cups (hc : p.stateManager.Contract) (startHeight : Nat) (l : List Event) :
    Triple (CupsAfterDeliveryFrom l) (fun _ => True) (p.restore startHeight) fun _ _ => True :=
  restore_of_round hc (fun _ _ h => h) (fun _ _ h => h)
    (fun _ => (restoreRound_cups hc _ _ l).mono (fun _ h => h) fun r _ _ => by cases r <;> trivial)
    startHeight

end Rounds

/-- In every run of `restore`, for every behaviour of the services in which the
state manager keeps its contract and wherever the run ends, every catch-up package
that `restore` inserts into the pool follows the delivery of the batches finalized
by the artifacts it ingested before: no ingestion comes between that delivery and
the insertion, and nothing is inserted before the run's first delivery. -/
theorem restore_inserts_cup_after_delivery {p : Player} (hc : p.stateManager.Contract)
    (startHeight : Nat) (w : World) :
    ∃ new, (endWorld (p.restore startHeight w)).log = w.log ++ new ∧
      cupsAfterDelivery false new = true :=
  (restore_cups hc startHeight w.log).endWorld ⟨[], (List.append_nil _).symm, rfl⟩ trivial

/-- A Player without a target height over a spool that reaches a catch-up package
boundary at height 0 until time 5, and is done from then on; the package it reads
back at that height is the genesis package. -/
def cupExitPlayer : Player :=
  { Player.ofServices (steadyStateManager 0 ⟨[]⟩) emptyRegistry acceptingCrypto with
    backupDir := some "backup"
    backup := ⟨fun _ _ _ => .ok (),
      fun t _ => (if t < 5 then .cupHeightWasFinalized 0 else .done, 0, none),
      fun _ _ _ => genesisCup⟩ }

/-- The run of {lit}`cupExitPlayer` from the genesis pool: a round at the
`CUPHeightWasFinalized` exit point, which inserts the package, checks it and
cleans up, and a round at `Done`. -/
theorem cupExitPlayer_restore_genesis :
    cupExitPlayer.restore 0 ⟨0, 2, some ⟨genesisCup, 0, none⟩, []⟩ = .ok (0, "")
      ⟨26, 2, some ⟨genesisCup, 0, none⟩,
        [.ingestArtifacts, .deliverFinalizedBatches 0, .insertCup 0, .removeStatesBelow 13 0,
          .purgeValidatedBelow 0, .ingestArtifacts, .deliverFinalizedBatches 0]⟩ := by
  have hcup : cupExitPlayer.restoreRound "backup" none
      ⟨1, 2, some ⟨genesisCup, 0, none⟩, []⟩ = .ok none
        ⟨15, 2, some ⟨genesisCup, 0, none⟩,
          [.ingestArtifacts, .deliverFinalizedBatches 0, .insertCup 0, .removeStatesBelow 13 0,
            .purgeValidatedBelow 0]⟩ := by
    have hingest : cupExitPlayer.deserializeConsensusArtifacts
        ⟨1, 2, some ⟨genesisCup, 0, none⟩, []⟩ = .ok (.cupHeightWasFinalized 0)
          ⟨3, 2, some ⟨genesisCup, 0, none⟩, [.ingestArtifacts]⟩ := rfl
    have hdeliver : cupExitPlayer.deliverBatches cupExitPlayer.replayTargetHeight
        ⟨3, 2, some ⟨genesisCup, 0, none⟩, [.ingestArtifacts]⟩ = .ok 0
          ⟨4, 2, some ⟨genesisCup, 0, none⟩,
            [.ingestArtifacts, .deliverFinalizedBatches 0]⟩ := rfl
    have hwait : cupExitPlayer.waitForState 0
        ⟨4, 2, some ⟨genesisCup, 0, none⟩, [.ingestArtifacts, .deliverFinalizedBatches 0]⟩ =
          .ok () ⟨7, 2, some ⟨genesisCup, 0, none⟩,
            [.ingestArtifacts, .deliverFinalizedBatches 0]⟩ := rfl
    have hinsert : cupExitPlayer.insertCupAtHeight "backup" 0
        ⟨7, 2, some ⟨genesisCup, 0, none⟩, [.ingestArtifacts, .deliverFinalizedBatches 0]⟩ =
          .ok () ⟨8, 2, some ⟨genesisCup, 0, none⟩,
            [.ingestArtifacts, .deliverFinalizedBatches 0, .insertCup 0]⟩ := rfl
    have hclean : cupExitPlayer.assertConsistencyAndCleanUp
        ⟨8, 2, some ⟨genesisCup, 0, none⟩,
          [.ingestArtifacts, .deliverFinalizedBatches 0, .insertCup 0]⟩ = .ok (0, "")
        ⟨15, 2, some ⟨genesisCup, 0, none⟩,
          [.ingestArtifacts, .deliverFinalizedBatches 0, .insertCup 0, .removeStatesBelow 13 0,
            .purgeValidatedBelow 0]⟩ := rfl
    simp only [Player.restoreRound, bind_ok hingest, getPool_bind_apply]
    rw [bind_ok hdeliver, bind_ok hwait]
    simp only [Option.any_none, Bool.false_eq_true, if_false]
    rw [bind_ok hinsert, bind_ok hclean]
    rfl
  have hdone : cupExitPlayer.restoreRound "backup" none
      ⟨15, 2, some ⟨genesisCup, 0, none⟩,
        [.ingestArtifacts, .deliverFinalizedBatches 0, .insertCup 0, .removeStatesBelow 13 0,
          .purgeValidatedBelow 0]⟩ = .ok (some (0, ""))
      ⟨26, 2, some ⟨genesisCup, 0, none⟩,
        [.ingestArtifacts, .deliverFinalizedBatches 0, .insertCup 0, .removeStatesBelow 13 0,
          .purgeValidatedBelow 0, .ingestArtifacts, .deliverFinalizedBatches 0]⟩ := by
    have hingest : cupExitPlayer.deserializeConsensusArtifacts
        ⟨15, 2, some ⟨genesisCup, 0, none⟩,
          [.ingestArtifacts, .deliverFinalizedBatches 0, .insertCup 0, .removeStatesBelow 13 0,
            .purgeValidatedBelow 0]⟩ = .ok .done
        ⟨17, 2, some ⟨genesisCup, 0, none⟩,
          [.ingestArtifacts, .deliverFinalizedBatches 0, .insertCup 0, .removeStatesBelow 13 0,
            .purgeValidatedBelow 0, .ingestArtifacts]⟩ := rfl
    have hdeliver : cupExitPlayer.deliverBatches cupExitPlayer.replayTargetHeight
        ⟨17, 2, some ⟨genesisCup, 0, none⟩,
          [.ingestArtifacts, .deliverFinalizedBatches 0, .insertCup 0, .removeStatesBelow 13 0,
            .purgeValidatedBelow 0, .ingestArtifacts]⟩ = .ok 0
        ⟨18, 2, some ⟨genesisCup, 0, none⟩,
          [.ingestArtifacts, .deliverFinalizedBatches 0, .insertCup 0, .removeStatesBelow 13 0,
            .purgeValidatedBelow 0, .ingestArtifacts, .deliverFinalizedBatches 0]⟩ := rfl
    have hwait : cupExitPlayer.waitForState 0
        ⟨18, 2, some ⟨genesisCup, 0, none⟩,
          [.ingestArtifacts, .deliverFinalizedBatches 0, .insertCup 0, .removeStatesBelow 13 0,
            .purgeValidatedBelow 0, .ingestArtifacts, .deliverFinalizedBatches 0]⟩ = .ok ()
        ⟨21, 2, some ⟨genesisCup, 0, none⟩,
          [.ingestArtifacts, .deliverFinalizedBatches 0, .insertCup 0, .removeStatesBelow 13 0,
            .purgeValidatedBelow 0, .ingestArtifacts, .deliverFinalizedBatches 0]⟩ := rfl
    simp only [Player.restoreRound, bind_ok hingest, getPool_bind_apply]
    rw [bind_ok hdeliver, bind_ok hwait]
    rfl
  have hverify : cupExitPlayer.verifyLatestCup ⟨1, 2, some ⟨genesisCup, 0, none⟩, []⟩ =
      .ok () ⟨1, 2, some ⟨genesisCup, 0, none⟩, []⟩ := rfl
  rw [restore_eq_loop rfl rfl hverify]
  exact (LoopReaches.next hcup (.here 1 _)).loopFor_eq.trans ((bind_ok hdone).trans rfl)

/-- The run of {lit}`cupExitPlayer`: the package it inserts follows the delivery of
the first round. -/
theorem restore_inserts_cup_after_delivery_cup_exit :
    cupExitPlayer.stateManager.Contract ∧
      cupExitPlayer.restore 0 ⟨0, 2, some ⟨genesisCup, 0, none⟩, []⟩ = .ok (0, "")
        ⟨26, 2, some ⟨genesisCup, 0, none⟩,
          [.ingestArtifacts, .deliverFinalizedBatches 0, .insertCup 0, .removeStatesBelow 13 0,
            .purgeValidatedBelow 0, .ingestArtifacts, .deliverFinalizedBatches 0]⟩ ∧
      ∃ new, (endWorld (cupExitPlayer.restore 0 ⟨0, 2, some ⟨genesisCup, 0, none⟩, []⟩)).log =
          [] ++ new ∧ cupsAfterDelivery false new = true :=
  have hc := steadyStateManager_contract 0 ⟨[]⟩
  ⟨hc, cupExitPlayer_restore_genesis, restore_inserts_cup_after_delivery hc 0 _⟩

end IcReplay
