import IcReplay.Verify

/-!
# ic-replay - The errors of `replay` and `restore`

`ReplayError` is what `replay` and `restore` return to their caller; every other
failure of the Player is a panic.  Only `verify_latest_cup` builds a
`ReplayError`.  `replay` tolerates the `UpgradeDetected` of its check of the
starting catch-up package, so the `StateDivergence` of that check is its only
`Err`.  `restore` checks the package at its start and at every
`CUPHeightWasFinalized` exit point, and stops at the first check that fails.

Main results:

- Theorem {lit}`replay_error_of_check`: an `Err` of `replay` is the
  `StateDivergence` that the check of the starting package returned.
- Theorem {lit}`restore_error_reached`: an `Err` of `restore` is that of a check
  it reached ({lit}`Player.RestoreCheckAt`).
- Theorem {lit}`restore_error_of_check`: an `Err` of `restore` is that of a failed
  check it reached, a `StateDivergence` at the checked package or an
  `UpgradeDetected`, and `restore` ends in the world the check left.
-/

namespace IcReplay

/-! ## Calls that return no error of their own -/

section NeverErr

variable {p : Player}

theorem queryRegistry_neverErr {α : Type} (methodName : String) (payload : List UInt8)
    (ingressExpiry : Time) (decode : List UInt8 → Except String α) :
    NeverErr (p.queryRegistry methodName payload ingressExpiry decode) :=
  ErrOnly.bind (ErrOnly.ask _) fun _ => by split <;> exact ErrOnly.pure _

theorem getChangesSince_neverErr (version : RegistryVersion) (ingressExpiry : Time) :
    NeverErr (p.getChangesSince version ingressExpiry) := by
  unfold Player.getChangesSince
  split
  · exact ErrOnly.abort _
  · exact queryRegistry_neverErr _ _ _ _

theorem writeRecordsToLocalStore_neverErr (path : String) (latestVersion : RegistryVersion)
    (records : List RegistryTransportRecord) :
    NeverErr (p.writeRecordsToLocalStore path latestVersion records) := by
  unfold Player.writeRecordsToLocalStore
  split
  · exact ErrOnly.forM fun _ => ErrOnly.bind (ErrOnly.call _ _) fun _ => by
      split <;> first | exact ErrOnly.pure _ | exact ErrOnly.abort _
  · exact ErrOnly.abort _

theorem updateRegistryLocalStore_neverErr : NeverErr p.updateRegistryLocalStore := by
  unfold Player.updateRegistryLocalStore
  split
  · exact ErrOnly.bind (ErrOnly.ask _) fun _ => ErrOnly.bind (ErrOnly.ask _) fun _ =>
      ErrOnly.bind (getChangesSince_neverErr _ _) fun _ => by
        split
        · exact writeRecordsToLocalStore_neverErr _ _ _
        · exact ErrOnly.abort _
  · exact ErrOnly.abort _

theorem deliverBatches_neverErr (target : Option Height) : NeverErr (p.deliverBatches target) :=
  ErrOnly.loop <| ErrOnly.bind (ErrOnly.call _ _) fun _ => by
    split <;> first | exact ErrOnly.pure _ | exact ErrOnly.abort _

theorem deliverExtraBatch_neverErr (pool : Option ConsensusPool)
    (extra : Player → Time → List SignedIngress) :
    NeverErr (p.deliverExtraBatch pool extra) := by
  refine ErrOnly.bind ?_ fun ⟨_, _, _⟩ => ErrOnly.bind (ErrOnly.ask _) fun _ => ?_
  · split
    · exact ErrOnly.bind (ErrOnly.ask _) fun _ => ErrOnly.bind (ErrOnly.ask _) fun _ =>
        ErrOnly.pure _
    · split <;> first | exact ErrOnly.pure _ | exact ErrOnly.abort _
  · simp only [pure_bind]
    split
    · exact ErrOnly.pure _
    · exact ErrOnly.bind (ErrOnly.loop <| ErrOnly.bind (ErrOnly.call _ _) fun _ => by
        split <;> first | exact ErrOnly.pure _ | exact ErrOnly.abort _) fun _ => ErrOnly.pure _

theorem deserializeConsensusArtifacts_neverErr : NeverErr p.deserializeConsensusArtifacts :=
  ErrOnly.bind ErrOnly.getPool fun _ => by
    split
    · exact ErrOnly.bind (ErrOnly.ask _) fun _ => ErrOnly.bind (ErrOnly.call _ _) fun _ =>
        ErrOnly.bind (ErrOnly.setPool _) fun _ => ErrOnly.pure _
    · exact ErrOnly.abort _

theorem insertCupAtHeight_neverErr (backupDir : String) (height : Height) :
    NeverErr (p.insertCupAtHeight backupDir height) :=
  ErrOnly.bind ErrOnly.getPool fun _ => by
    split
    · exact ErrOnly.bind (ErrOnly.call _ _) fun _ => ErrOnly.setPool _
    · exact ErrOnly.abort _

end NeverErr

/-! ## Where `restore` returns an `Err` -/

section Reached

variable {p : Player}

/-- A check that returns an `Err` had a catch-up package to check. -/
theorem verifyLatestCup_error_pool {w w' : World} {e : ReplayError}
    (h : p.verifyLatestCup w = .error (.replayError e) w') :
    ∃ pool, w.consensusPool = some pool := by
  cases hpool : w.consensusPool with
  | some pool => exact ⟨pool, rfl⟩
  | none => rw [verifyLatestCup_of_pool_none hpool] at h; cases h

/-- `assert_consistency_and_clean_up` returns an `Err` only as its failed check. -/
theorem assertConsistencyAndCleanUp_error {w w' : World} {e : ReplayError}
    (h : p.assertConsistencyAndCleanUp w = .error (.replayError e) w') :
    p.verifyLatestCup w = .error (.replayError e) w' := by
  refine bind_error_of_neverErr (fun _ => ErrOnly.bind getLatestStateHeightAndHash_neverErr
    fun _ => ErrOnly.bind ErrOnly.getPool fun _ => ?_) h
  split
  · exact ErrOnly.bind (ErrOnly.call _ _) fun _ => ErrOnly.bind (ErrOnly.call _ _) fun _ =>
      ErrOnly.pure _
  · exact ErrOnly.abort _

/-- A round of `restore` returns an `Err` only as the failed check of the package it
inserted at a `CUPHeightWasFinalized` exit point. -/
theorem restoreRound_error_reached {backupDir : String} {target : Option Height}
    {wr w' : World} {e : ReplayError}
    (h : p.restoreRound backupDir target wr = .error (.replayError e) w') :
    ∃ cupHeight w, p.RoundCupCheckAt backupDir target cupHeight wr w ∧
      p.verifyLatestCup w = .error (.replayError e) w' := by
  have hreport : NeverErr (do return some (← p.getLatestStateHeightAndHash)) :=
    ErrOnly.bind getLatestStateHeightAndHash_neverErr fun _ => ErrOnly.pure _
  simp only [Player.restoreRound] at h
  obtain ⟨result, w1, hd, h⟩ := deserializeConsensusArtifacts_neverErr.bind_eq_error h
  simp only [getPool_bind_apply] at h
  cases hpool : w1.consensusPool with
  | none => simp only [hpool, abort_apply] at h; cases h
  | some pool =>
  simp only [hpool] at h
  obtain ⟨last, w2, hb, h⟩ := (deliverBatches_neverErr _).bind_eq_error h
  obtain ⟨_, w3, hw, h⟩ := (waitForState_neverErr _).bind_eq_error h
  cases ht : target.any (· ≤ last) with
  | true =>
    simp only [ht, if_true] at h
    exact (hreport _ _ _ h).elim
  | false =>
  simp only [ht, Bool.false_eq_true, if_false] at h
  cases result with
  | cupHeightWasFinalized cupHeight =>
    obtain ⟨_, w4, hi, h⟩ := (insertCupAtHeight_neverErr _ _).bind_eq_error h
    exact ⟨cupHeight, w4, ⟨w1, w2, w3, last, hd, by rw [hpool]; rfl, hb, hw, ht, hi⟩,
      assertConsistencyAndCleanUp_error (bind_error_of_neverErr (fun _ => ErrOnly.pure _) h)⟩
  | newerRegistryVersion newVersion =>
    refine ((?_ : NeverErr _) _ _ _ h).elim
    refine ErrOnly.bind updateRegistryLocalStore_neverErr fun _ =>
      ErrOnly.bind (ErrOnly.ask _) fun _ => ?_
    simp only [abort_bind, pure_bind]
    split
    · exact ErrOnly.abort _
    · refine ErrOnly.bind (ErrOnly.ask _) fun _ => ?_
      split <;> first | exact ErrOnly.pure _ | exact ErrOnly.abort _
  | stateBehind certifiedHeight =>
    refine ((?_ : NeverErr _) _ _ _ h).elim
    refine ErrOnly.bind (ErrOnly.ask _) fun _ => ?_
    simp only [abort_bind, pure_bind]
    split
    · exact ErrOnly.abort _
    · exact ErrOnly.bind (ErrOnly.call _ _) fun _ => ErrOnly.pure _
  | done => exact (hreport _ _ _ h).elim

/-- `restore` returns an `Err` only as the failed check of a catch-up package that
the run reached: at its start, or at a `CUPHeightWasFinalized` exit point. -/
theorem restore_error_reached {startHeight : Nat} {w0 w' : World} {e : ReplayError}
    (h : p.restore startHeight w0 = .error (.replayError e) w') :
    ∃ w, p.RestoreCheckAt startHeight w0 w ∧ p.verifyLatestCup w = .error (.replayError e) w' := by
  unfold Player.restore at h
  cases hd : p.backupDir with
  | none => simp only [hd, abort_apply] at h; cases h
  | some d =>
  simp only [hd, ask_bind_apply] at h
  cases hscan : p.backup.scan w0.clock d startHeight with
  | error err => simp only [hscan, abort_bind, abort_apply] at h; cases h
  | ok u =>
  simp only [hscan, pure_bind] at h
  rcases bind_eq_error h with hv | ⟨_, w2, hv, hl⟩
  · exact ⟨_, .inl ⟨d, hd, hscan, rfl⟩, hv⟩
  obtain ⟨k, wr, hloop, hr⟩ := (loopFor_eq_error_iff (s := .replayError e) nofun).1 hl
  obtain ⟨cupHeight, w, hround, hv'⟩ := restoreRound_error_reached hr
  exact ⟨w, .inr ⟨cupHeight, d, _, w2, k, wr, hd, ⟨d, hd, hscan, rfl⟩, hv, hloop, hround⟩, hv'⟩

end Reached

/-! ## The errors of `replay` and `restore` -/

section Errors

variable {p : Player} {w w' : World} {e : ReplayError}

/-- An `Err` of `replay` is a `StateDivergence` at the height of the starting
catch-up package, returned by its check: the check's `UpgradeDetected` is
tolerated, nothing after the check returns an `Err`, and `replay` ends in the
world the check left. -/
theorem replay_error_of_check {extra : Player → Time → List SignedIngress}
    (h : p.replay extra w = .error (.replayError e) w') :
    ∃ pool, w.consensusPool = some pool ∧ p.certificationPool.isSome ∧
      p.verifyLatestCup w = .error (.replayError e) w' ∧
      e = .stateDivergence pool.cup.cup.height := by
  simp only [Player.replay, bind_assoc, getPool_bind_apply] at h
  have h1 := bind_error_of_neverErr ?tail h
  case tail =>
    refine fun _ => ErrOnly.bind ErrOnly.getPool fun _ =>
      ErrOnly.bind (deliverExtraBatch_neverErr _ _) fun _ => ErrOnly.bind ?_ fun _ =>
        ErrOnly.bind (queryRegistry_neverErr _ _ _ _) fun _ => ErrOnly.bind ?_ fun _ =>
          getLatestStateHeightAndHash_neverErr
    · split
      · refine ErrOnly.bind (waitForState_neverErr _) fun _ => ErrOnly.bind (ErrOnly.call _ _)
          fun _ => ErrOnly.bind (ErrOnly.ask _) fun _ => ErrOnly.forM fun _ => ?_
        split <;> first | exact ErrOnly.pure _ | exact ErrOnly.abort _
      · exact ErrOnly.pure _
    · split <;> first | exact ErrOnly.pure _ | exact ErrOnly.ask _
  cases hpool : w.consensusPool with
  | none => simp only [hpool] at h1; cases h1
  | some pool =>
    cases hcp : p.certificationPool with
    | none => simp only [hpool, hcp] at h1; cases h1
    | some cp =>
      simp only [hpool, hcp] at h1
      have h2 := bind_error_of_neverErr ?body h1
      case body =>
        refine fun _ => ErrOnly.bind (deliverBatches_neverErr _) fun _ =>
          ErrOnly.bind (waitForState_neverErr _) fun _ => ErrOnly.bind (ErrOnly.call _ _) fun _ =>
            ErrOnly.forM fun _ => ?_
        split <;> first | exact ErrOnly.call _ _ | exact ErrOnly.abort _
      -- The handler passes every stop on but an `UpgradeDetected`.
      obtain ⟨s1, w1, hv, hh⟩ := tryCatch_eq_error h2
      rcases s1 with ((_ | _) | _ | _) <;> cases hh
      refine ⟨pool, rfl, rfl, hv, ?_⟩
      rcases verifyLatestCup_error_cases hpool hv with
        ⟨-, -, -, -, -, he⟩ | ⟨-, -, -, -, _, he⟩
      · exact he
      · cases he

/-- A Player whose state at height 3 has hash {lit}`[2]`, with a certification pool
and a backup spool. -/
def divergedPlayer : Player :=
  { Player.ofServices (steadyStateManager 3 ⟨[2]⟩) emptyRegistry acceptingCrypto with
    certificationPool := some ⟨[], fun _ => none⟩, backupDir := some "backup" }

/-- `replay` of a pool whose catch-up package at height 3 records hash {lit}`[1]`. -/
theorem replay_error_of_check_diverged :
    let w : World := ⟨0, 1, some ⟨cupAt 3 ⟨[1]⟩, 3, none⟩, []⟩
    let e : ReplayError := .stateDivergence 3
    divergedPlayer.replay (fun _ _ => []) w = .error (.replayError e) { w with clock := 3 } ∧
      ∃ pool, w.consensusPool = some pool ∧ divergedPlayer.certificationPool.isSome ∧
        divergedPlayer.verifyLatestCup w = .error (.replayError e) { w with clock := 3 } ∧
        e = .stateDivergence pool.cup.cup.height :=
  ⟨rfl, @replay_error_of_check _ _ _ _ (fun _ _ => []) rfl⟩

/-- `restore` returns an `Err` only where a check of `verify_latest_cup` that the run
reached failed, at its start or at a `CUPHeightWasFinalized` exit point: a
`StateDivergence` at the height of the checked package, or an `UpgradeDetected`;
and `restore` ends in the world the check left. -/
theorem restore_error_of_check {startHeight : Nat}
    (h : p.restore startHeight w = .error (.replayError e) w') :
    ∃ w1 pool, p.RestoreCheckAt startHeight w w1 ∧ w1.consensusPool = some pool ∧
      p.verifyLatestCup w1 = .error (.replayError e) w' ∧
      (e = .stateDivergence pool.cup.cup.height ∨ ∃ params, e = .upgradeDetected params) := by
  obtain ⟨w1, hreach, hv⟩ := restore_error_reached h
  obtain ⟨pool, hpool⟩ := verifyLatestCup_error_pool hv
  refine ⟨w1, pool, hreach, hpool, hv, ?_⟩
  rcases verifyLatestCup_error_cases hpool hv with ⟨-, -, -, -, -, he⟩ | ⟨-, -, -, -, he⟩
  exacts [.inl he, .inr he]

/-- `restore` from the same pool stops at its first check. -/
theorem restore_error_of_check_diverged :
    let w : World := ⟨0, 1, some ⟨cupAt 3 ⟨[1]⟩, 3, none⟩, []⟩
    let e : ReplayError := .stateDivergence 3
    divergedPlayer.restore 0 w = .error (.replayError e) { w with clock := 4 } ∧
      ∃ w1 pool, divergedPlayer.RestoreCheckAt 0 w w1 ∧ w1.consensusPool = some pool ∧
        divergedPlayer.verifyLatestCup w1 = .error (.replayError e) { w with clock := 4 } ∧
        (e = .stateDivergence pool.cup.cup.height ∨ ∃ params, e = .upgradeDetected params) :=
  by intro w _; exact ⟨rfl, @restore_error_of_check _ w _ _ 0 rfl⟩

end Errors

end IcReplay
