import IcReplay.Round
import IcReplay.Checks

/-!
# ic-replay - `restore` stops at the target height

`restore` runs in rounds.  A round feeds the next artifacts of the spool into the
pool, delivers the batches they finalize and waits for their state; if the
delivered height reached the target height (`replay_target_height`) it returns
at once, and otherwise it acts on the exit point and goes round again.  So once a
delivery reaches the target, no further artifacts are ingested.  The round that
returns, at the target or at the `Done` exit point, changes nothing after its
delivery: a successful `restore` does not remove the states below the height it
delivered last.

Main results:

- Definition {lit}`IngestStopsAt`: after the first delivery that reaches the
  target, the log holds no ingestion of artifacts.
- Theorem {lit}`restore_stops_at_target`: every run of `restore` keeps
  {lit}`IngestStopsAt`, whatever the exit points and however many rounds.
- Theorem {lit}`restore_ok_log`: a successful run logs rounds that each delivered
  below the target and then did upkeep, and last a round that only ingested
  artifacts and delivered their batches.
- Theorem {lit}`restore_ok_ends_with_delivery`: so a successful run removes no state
  after its last delivery.
-/

namespace IcReplay

/-! ## Deliveries that reach the target -/

/-- A delivery of the finalized batches up to a height at or above the target. -/
def Event.reachesTarget (target : Option Height) : Event → Bool
  | .deliverFinalizedBatches h => target.any (· ≤ h)
  | _ => false

/-- After the first delivery that reaches the target, no artifacts are ingested. -/
def IngestStopsAt (target : Option Height) (log : List Event) : Prop :=
  Event.ingestArtifacts ∉ log.dropWhile fun e => !e.reachesTarget target

/-- No delivery in the log has reached the target yet. -/
def TargetUnreached (target : Option Height) : World → Prop :=
  LogAll fun e => e.reachesTarget target = false

section Target

variable {target : Option Height} {log new : List Event}

theorem ingestStopsAt_of_unreached (h : ∀ e ∈ log, e.reachesTarget target = false) :
    IngestStopsAt target log := by
  rw [IngestStopsAt, List.dropWhile_eq_nil_iff.2 fun e he => by simp [h e he]]
  exact List.not_mem_nil _

/-- Appending events other than an ingestion keeps {lit}`IngestStopsAt`. -/
theorem IngestStopsAt.append (h : IngestStopsAt target log)
    (hnew : Event.ingestArtifacts ∉ new) : IngestStopsAt target (log ++ new) := by
  rw [IngestStopsAt, List.dropWhile_append]
  split
  · exact fun hm => hnew ((List.dropWhile_sublist _).subset hm)
  · exact fun hm => (List.mem_append.1 hm).elim h hnew

theorem ingestStopsAt_clockFree : ClockFree fun w => IngestStopsAt target w.log :=
  fun _ _ h => h

/-- The upkeep of an exit point delivers nothing. -/
theorem Event.Upkeep.unreached {p : Player} {e : Event} (h : e.Upkeep p) :
    e.reachesTarget target = false := by
  cases e <;> first | rfl | exact h.elim

variable {p : Player} {l : List Event}

/-- What a round logs after a log that has not reached the target ingests no
artifacts after a delivery that reaches it. -/
theorem RoundFrom.ingestStopsAt (hl : ∀ e ∈ l, e.reachesTarget target = false)
    (h : RoundFrom p l log) : IngestStopsAt target log := by
  have hingest : ∀ e ∈ l ++ [.ingestArtifacts], e.reachesTarget target = false :=
    fun e he => (List.mem_append.1 he).elim (hl e) fun he => List.mem_singleton.1 he ▸ rfl
  rcases h with rfl | rfl | ⟨_, rest, rfl, hrest⟩
  · exact ingestStopsAt_of_unreached hl
  · exact ingestStopsAt_of_unreached hingest
  · exact ((ingestStopsAt_of_unreached hingest).append (by simp)).append fun h => hrest _ h

/-- A round that goes round again leaves no delivery that reaches the target. -/
theorem RoundResult.unreached {w : World} (hl : ∀ e ∈ l, e.reachesTarget target = false)
    (h : RoundResult p target l none w) : TargetUnreached target w := by
  obtain ⟨_, hbelow, rest, hw, hrest⟩ := h
  intro e he
  rw [hw] at he
  simp only [List.mem_append, List.mem_singleton] at he
  rcases he with ((he | rfl) | rfl) | he
  · exact hl e he
  · rfl
  · exact hbelow
  · exact (hrest e he).unreached

end Target

/-! ## Rounds of `restore` -/

section Rounds

variable {p : Player} {target : Option Height}

/-- One round of `restore` ingests artifacts only before its delivery, and goes
round again only when that delivery did not reach the target. -/
theorem restoreRound_target (hc : p.stateManager.Contract) (backupDir : String) :
    Triple (fun w => IngestStopsAt target w.log) (TargetUnreached target)
      (p.restoreRound backupDir target) fun r w => match r with
        | none => TargetUnreached target w
        | some _ => True :=
  Triple.of_logFrom (fun l => Triple.intro_pre (φ := ∀ e ∈ l, e.reachesTarget target = false)
    (fun _ ⟨hu, hl⟩ => hl ▸ hu) fun hl => (restoreRound_logs hc backupDir target l).mono
      (fun _ h => h.2) fun r _ h => by cases r <;> first | exact h.unreached hl | trivial)
    (fun _ _ => .inl rfl) fun _ _ _ hu hr => hr.ingestStopsAt hu

theorem restore_target (hc : p.stateManager.Contract) (startHeight : Nat) :
    Triple (fun w => IngestStopsAt p.replayTargetHeight w.log)
      (TargetUnreached p.replayTargetHeight) (p.restore startHeight) fun _ _ => True :=
  restore_of_round hc ingestStopsAt_clockFree (fun _ _ h => h)
    (fun _ => (restoreRound_target hc _).mono (fun _ h => h) fun r _ h => by
      cases r <;> exact h) startHeight

end Rounds

/-! ## Every run -/

/-- From a log in which no delivery has reached the target height, every run of
`restore` ingests no artifacts after its first delivery that reaches the target:
the round of that delivery is the last. -/
theorem restore_stops_at_target {p : Player} (hc : p.stateManager.Contract) (startHeight : Nat)
    {w : World} (hw : ∀ e ∈ w.log, e.reachesTarget p.replayTargetHeight = false) :
    IngestStopsAt p.replayTargetHeight (endWorld (p.restore startHeight w)).log :=
  (restore_target hc startHeight).endWorld (ingestStopsAt_of_unreached hw) hw

/-- A Player restoring up to height 0 from a spool whose artifacts end there. -/
def targetZeroPlayer : Player :=
  { Player.ofServices (steadyStateManager 0 ⟨[]⟩) emptyRegistry acceptingCrypto with
    backupDir := some "backup", replayTargetHeight := some 0 }

theorem restore_stops_at_target_zero :
    let w : World := ⟨0, 2, some ⟨genesisCup, 0, none⟩, []⟩
    targetZeroPlayer.stateManager.Contract ∧
      (∀ e ∈ w.log, e.reachesTarget targetZeroPlayer.replayTargetHeight = false) ∧
      IngestStopsAt targetZeroPlayer.replayTargetHeight
        (endWorld (targetZeroPlayer.restore 0 w)).log :=
  have hc := steadyStateManager_contract 0 ⟨[]⟩
  ⟨hc, (fun _ h => nomatch h), restore_stops_at_target hc 0 fun _ h => nomatch h⟩

/-! ## Successful runs -/

/-- A successful run of `restore` logs, after the log it started from, rounds that
went round again, each delivering below the target and then doing only upkeep, and
last the round that returned: one ingestion of artifacts and one delivery of batches. -/
theorem restore_ok_log {p : Player} (hc : p.stateManager.Contract) (startHeight : Nat)
    {w w' : World} {params : StateParams} (h : p.restore startHeight w = .ok params w') :
    ∃ (rounds : List (List Event)) (last : Height), w'.log = w.log ++ rounds.flatten ++
        [.ingestArtifacts, .deliverFinalizedBatches last] ∧
      ∀ r ∈ rounds, UpkeepRound p p.replayTargetHeight r :=
  (restore_logs hc startHeight w.log).post trivial rfl h

/-- The start of a run from the genesis package, with two iterations of each loop. -/
def genesisWorld : World := ⟨0, 2, some ⟨genesisCup, 0, none⟩, []⟩

/-- The run of {lit}`targetZeroPlayer` from {lit}`genesisWorld`: one round, which
reaches the target.  It is evaluated one call at a time. -/
theorem targetZeroPlayer_restore_genesis :
    targetZeroPlayer.restore 0 genesisWorld = .ok (0, "")
      ⟨12, 2, some ⟨genesisCup, 0, none⟩,
        [.ingestArtifacts, .deliverFinalizedBatches 0]⟩ := by
  have hround : targetZeroPlayer.restoreRound "backup" (some 0)
      ⟨1, 2, some ⟨genesisCup, 0, none⟩, []⟩ = .ok (some (0, ""))
        ⟨12, 2, some ⟨genesisCup, 0, none⟩,
          [.ingestArtifacts, .deliverFinalizedBatches 0]⟩ := by
    have hingest : targetZeroPlayer.deserializeConsensusArtifacts
        ⟨1, 2, some ⟨genesisCup, 0, none⟩, []⟩ =
          .ok .done ⟨3, 2, some ⟨genesisCup, 0, none⟩, [.ingestArtifacts]⟩ := rfl
    have hdeliver : targetZeroPlayer.deliverBatches targetZeroPlayer.replayTargetHeight
        ⟨3, 2, some ⟨genesisCup, 0, none⟩, [.ingestArtifacts]⟩ = .ok 0
          ⟨4, 2, some ⟨genesisCup, 0, none⟩,
            [.ingestArtifacts, .deliverFinalizedBatches 0]⟩ := rfl
    have hwait : targetZeroPlayer.waitForState 0
        ⟨4, 2, some ⟨genesisCup, 0, none⟩, [.ingestArtifacts, .deliverFinalizedBatches 0]⟩ =
          .ok () ⟨7, 2, some ⟨genesisCup, 0, none⟩,
            [.ingestArtifacts, .deliverFinalizedBatches 0]⟩ := rfl
    simp only [Player.restoreRound, bind_ok hingest, getPool_bind_apply]
    rw [bind_ok hdeliver, bind_ok hwait]
    rfl
  have hverify : targetZeroPlayer.verifyLatestCup ⟨1, 2, some ⟨genesisCup, 0, none⟩, []⟩ =
      .ok () ⟨1, 2, some ⟨genesisCup, 0, none⟩, []⟩ := rfl
  rw [restore_eq_loop rfl rfl hverify]
  exact loop_of_some (by decide) hround

/-- A Player without a target height over a spool that reports the state manager
behind the certified height 0 until time 5, and is done from then on. -/
def behindPlayer : Player :=
  { Player.ofServices (steadyStateManager 0 ⟨[]⟩) emptyRegistry acceptingCrypto with
    backupDir := some "backup"
    backup := ⟨fun _ _ _ => .ok (), fun t _ => (if t < 5 then .stateBehind 0 else .done, 0, none),
      fun _ _ _ => genesisCup⟩ }

/-- The run of {lit}`behindPlayer` from {lit}`genesisWorld`: a round at the
`StateBehind` exit point, which removes the states below the certified height, and
a round at `Done`. -/
theorem behindPlayer_restore_genesis :
    behindPlayer.restore 0 genesisWorld = .ok (0, "")
      ⟨20, 2, some ⟨genesisCup, 0, none⟩,
        [.ingestArtifacts, .deliverFinalizedBatches 0, .removeStatesBelow 8 0,
          .ingestArtifacts, .deliverFinalizedBatches 0]⟩ := by
  have hbehind : behindPlayer.restoreRound "backup" none
      ⟨1, 2, some ⟨genesisCup, 0, none⟩, []⟩ = .ok none
        ⟨9, 2, some ⟨genesisCup, 0, none⟩,
          [.ingestArtifacts, .deliverFinalizedBatches 0, .removeStatesBelow 8 0]⟩ := by
    have hingest : behindPlayer.deserializeConsensusArtifacts
        ⟨1, 2, some ⟨genesisCup, 0, none⟩, []⟩ =
          .ok (.stateBehind 0) ⟨3, 2, some ⟨genesisCup, 0, none⟩, [.ingestArtifacts]⟩ := rfl
    have hdeliver : behindPlayer.deliverBatches behindPlayer.replayTargetHeight
        ⟨3, 2, some ⟨genesisCup, 0, none⟩, [.ingestArtifacts]⟩ = .ok 0
          ⟨4, 2, some ⟨genesisCup, 0, none⟩,
            [.ingestArtifacts, .deliverFinalizedBatches 0]⟩ := rfl
    have hwait : behindPlayer.waitForState 0
        ⟨4, 2, some ⟨genesisCup, 0, none⟩, [.ingestArtifacts, .deliverFinalizedBatches 0]⟩ =
          .ok () ⟨7, 2, some ⟨genesisCup, 0, none⟩,
            [.ingestArtifacts, .deliverFinalizedBatches 0]⟩ := rfl
    simp only [Player.restoreRound, bind_ok hingest, getPool_bind_apply]
    rw [bind_ok hdeliver, bind_ok hwait]
    rfl
  have hdone : behindPlayer.restoreRound "backup" none
      ⟨9, 2, some ⟨genesisCup, 0, none⟩,
        [.ingestArtifacts, .deliverFinalizedBatches 0, .removeStatesBelow 8 0]⟩ =
      .ok (some (0, "")) ⟨20, 2, some ⟨genesisCup, 0, none⟩,
        [.ingestArtifacts, .deliverFinalizedBatches 0, .removeStatesBelow 8 0,
          .ingestArtifacts, .deliverFinalizedBatches 0]⟩ := by
    have hingest : behindPlayer.deserializeConsensusArtifacts
        ⟨9, 2, some ⟨genesisCup, 0, none⟩,
          [.ingestArtifacts, .deliverFinalizedBatches 0, .removeStatesBelow 8 0]⟩ =
          .ok .done ⟨11, 2, some ⟨genesisCup, 0, none⟩,
            [.ingestArtifacts, .deliverFinalizedBatches 0, .removeStatesBelow 8 0,
              .ingestArtifacts]⟩ := rfl
    have hdeliver : behindPlayer.deliverBatches behindPlayer.replayTargetHeight
        ⟨11, 2, some ⟨genesisCup, 0, none⟩,
          [.ingestArtifacts, .deliverFinalizedBatches 0, .removeStatesBelow 8 0,
            .ingestArtifacts]⟩ = .ok 0
          ⟨12, 2, some ⟨genesisCup, 0, none⟩,
            [.ingestArtifacts, .deliverFinalizedBatches 0, .removeStatesBelow 8 0,
              .ingestArtifacts, .deliverFinalizedBatches 0]⟩ := rfl
    have hwait : behindPlayer.waitForState 0
        ⟨12, 2, some ⟨genesisCup, 0, none⟩,
          [.ingestArtifacts, .deliverFinalizedBatches 0, .removeStatesBelow 8 0,
            .ingestArtifacts, .deliverFinalizedBatches 0]⟩ =
          .ok () ⟨15, 2, some ⟨genesisCup, 0, none⟩,
            [.ingestArtifacts, .deliverFinalizedBatches 0, .removeStatesBelow 8 0,
              .ingestArtifacts, .deliverFinalizedBatches 0]⟩ := rfl
    simp only [Player.restoreRound, bind_ok hingest, getPool_bind_apply]
    rw [bind_ok hdeliver, bind_ok hwait]
    rfl
  have hverify : behindPlayer.verifyLatestCup ⟨1, 2, some ⟨genesisCup, 0, none⟩, []⟩ =
      .ok () ⟨1, 2, some ⟨genesisCup, 0, none⟩, []⟩ := rfl
  rw [restore_eq_loop rfl rfl hverify]
  exact (LoopReaches.next hbehind (.here 1 _)).loopFor_eq.trans ((bind_ok hdone).trans rfl)

/-- The run of {lit}`behindPlayer` from {lit}`genesisWorld`: the round at the
`StateBehind` exit point did upkeep, and the round at `Done` returned. -/
theorem restore_ok_log_behind :
    behindPlayer.stateManager.Contract ∧
      behindPlayer.restore 0 genesisWorld = .ok (0, "")
        ⟨20, 2, some ⟨genesisCup, 0, none⟩,
          [.ingestArtifacts, .deliverFinalizedBatches 0, .removeStatesBelow 8 0,
            .ingestArtifacts, .deliverFinalizedBatches 0]⟩ ∧
      ∃ (rounds : List (List Event)) (last : Height),
        ([.ingestArtifacts, .deliverFinalizedBatches 0, .removeStatesBelow 8 0,
            .ingestArtifacts, .deliverFinalizedBatches 0] : List Event) =
          [] ++ rounds.flatten ++ [.ingestArtifacts, .deliverFinalizedBatches last] ∧
        ∀ r ∈ rounds, UpkeepRound behindPlayer behindPlayer.replayTargetHeight r :=
  have hc := steadyStateManager_contract 0 ⟨[]⟩
  ⟨hc, behindPlayer_restore_genesis, restore_ok_log hc 0 behindPlayer_restore_genesis⟩

/-- A successful run of `restore` ends with a round that ingests artifacts, delivers
the batches they finalize up to some height and changes nothing else: in that
round no state is removed, below the delivered height or elsewhere. -/
theorem restore_ok_ends_with_delivery {p : Player} (hc : p.stateManager.Contract)
    (startHeight : Nat) {w w' : World} {params : StateParams}
    (h : p.restore startHeight w = .ok params w') :
    ∃ l last, w'.log = l ++ [.ingestArtifacts, .deliverFinalizedBatches last] := by
  obtain ⟨rounds, last, hw, -⟩ := (restore_logs hc startHeight w.log).post trivial rfl h
  exact ⟨_, last, hw⟩

/-- The run of {lit}`targetZeroPlayer` from {lit}`genesisWorld`. -/
theorem restore_ok_ends_with_delivery_zero :
    targetZeroPlayer.stateManager.Contract ∧
      targetZeroPlayer.restore 0 genesisWorld = .ok (0, "")
        ⟨12, 2, some ⟨genesisCup, 0, none⟩,
          [.ingestArtifacts, .deliverFinalizedBatches 0]⟩ ∧
      ∃ l last, ([.ingestArtifacts, .deliverFinalizedBatches 0] : List Event) =
        l ++ [.ingestArtifacts, .deliverFinalizedBatches last] :=
  have hc := steadyStateManager_contract 0 ⟨[]⟩
  ⟨hc, targetZeroPlayer_restore_genesis,
    restore_ok_ends_with_delivery hc 0 targetZeroPlayer_restore_genesis⟩

end IcReplay
