import IcReplay.Player

/-!
# ic-replay - Where `restore` checks catch-up packages

`restore` calls `verify_latest_cup` at two places: on the pool's catch-up package
right after scanning the spool, and, through `assert_consistency_and_clean_up`, on
each package it inserts at a `CUPHeightWasFinalized` exit point.  This module
names these program points as points that a run of `restore` reaches
({lit}`Player.RestoreCheckAt`): the code path from the start of the run to the
check, every call on it having returned.

A check that stops, with an `Err` or a panic, stops `restore`: the run ends with
the check's stop, in the world the check left.

Main results:

- Definition {lit}`Player.RestoreCheckAt`: the checks that a run of `restore`
  reaches.
- Theorem {lit}`restore_eq_loop`: past its starting check, `restore` is the loop
  of its rounds.
- Theorem {lit}`restore_of_check_error`: `restore` stops where a check it reaches
  stops.
-/

namespace IcReplay

/-! ## The checks a run reaches -/

/-- A run of `restore` from `w0` reaches the check of the pool's catch-up package at
its start, in `w`: the Player has a backup directory, and the scan of the spool
succeeded. -/
def Player.StartCheckAt (p : Player) (startHeight : Nat) (w0 w : World) : Prop :=
  ∃ backupDir, p.backupDir = some backupDir ∧
    p.backup.scan w0.clock backupDir startHeight = .ok () ∧ w = { w0 with clock := w0.clock + 1 }

/-- A round of `restore` from `w` reaches, in `w'`, the check of the catch-up
package it inserted at a `CUPHeightWasFinalized cupHeight` exit point: it ingested
artifacts with that exit point, delivered and waited for batches below the target,
and inserted the package. -/
def Player.RoundCupCheckAt (p : Player) (backupDir : String) (target : Option Height)
    (cupHeight : Height) (w w' : World) : Prop :=
  ∃ w1 w2 w3 last,
    p.deserializeConsensusArtifacts w = .ok (.cupHeightWasFinalized cupHeight) w1 ∧
    w1.consensusPool.isSome ∧ p.deliverBatches p.replayTargetHeight w1 = .ok last w2 ∧
    p.waitForState last w2 = .ok () w3 ∧ target.any (· ≤ last) = false ∧
    p.insertCupAtHeight backupDir cupHeight w3 = .ok () w'

/-- A run of `restore` from `w0` reaches, in `w`, the check of a catch-up package
inserted at a `CUPHeightWasFinalized cupHeight` exit point: its starting check
passed, some rounds went round again, and the round it came to inserted the
package. -/
def Player.CupCheckAt (p : Player) (startHeight : Nat) (cupHeight : Height) (w0 w : World) :
    Prop :=
  ∃ backupDir w1 w2 k wr, p.backupDir = some backupDir ∧ p.StartCheckAt startHeight w0 w1 ∧
    p.verifyLatestCup w1 = .ok () w2 ∧
    LoopReaches (p.restoreRound backupDir p.replayTargetHeight) w2.fuel w2 (k + 1) wr ∧
    p.RoundCupCheckAt backupDir p.replayTargetHeight cupHeight wr w

/-- The checks of `verify_latest_cup` that a run of `restore` from `w0` reaches: the
one at its start, and those of the packages inserted at exit points. -/
def Player.RestoreCheckAt (p : Player) (startHeight : Nat) (w0 w : World) : Prop :=
  p.StartCheckAt startHeight w0 w ∨ ∃ cupHeight, p.CupCheckAt startHeight cupHeight w0 w

/-! ## A check that stops stops `restore` -/

section Stops

variable {p : Player} {w w' : World} {s : Stop}

/-- A round stops where the check of the package it inserted stops. -/
theorem restoreRound_of_check_error {backupDir : String} {target : Option Height}
    {cupHeight : Height} {wr : World} (hreach : p.RoundCupCheckAt backupDir target cupHeight wr w)
    (hv : p.verifyLatestCup w = .error s w') :
    p.restoreRound backupDir target wr = .error s w' := by
  obtain ⟨w1, w2, w3, last, hd, hp, hb, hw, ht, hi⟩ := hreach
  obtain ⟨pool, hpool⟩ := Option.isSome_iff_exists.1 hp
  simp only [Player.restoreRound, bind_ok hd, getPool_bind_apply, hpool]
  rw [bind_ok hb, bind_ok hw]
  simp only [ht, Bool.false_eq_true, if_false]
  rw [bind_ok hi]
  simp only [Player.assertConsistencyAndCleanUp, bind_assoc]
  exact bind_error hv

/-- Past the scan and its starting check, `restore` is the loop of its rounds. -/
theorem restore_eq_loop {startHeight : Nat} {backupDir : String} {w0 : World}
    (hd : p.backupDir = some backupDir)
    (hscan : p.backup.scan w0.clock backupDir startHeight = .ok ())
    (hv : p.verifyLatestCup { w0 with clock := w0.clock + 1 } = .ok () w) :
    p.restore startHeight w0 = loop (p.restoreRound backupDir p.replayTargetHeight) w := by
  simp only [Player.restore, hd, ask_bind_apply, hscan, pure_bind]
  exact bind_ok hv

/-- `restore` stops where a check it reaches stops. -/
theorem restore_of_check_error {startHeight : Nat} {w0 : World}
    (hreach : p.RestoreCheckAt startHeight w0 w) (hv : p.verifyLatestCup w = .error s w') :
    p.restore startHeight w0 = .error s w' := by
  rcases hreach with ⟨d, hd, hscan, rfl⟩ |
    ⟨cupHeight, d, w1, w2, k, wr, hd, ⟨d', hd', hscan, rfl⟩, hv1, hloop, hround⟩
  · simp only [Player.restore, hd, ask_bind_apply, hscan, pure_bind]
    exact bind_error hv
  · cases hd.symm.trans hd'
    rw [restore_eq_loop hd hscan hv1]
    show loopFor _ w2.fuel w2 = _
    rw [hloop.loopFor_eq, loopFor, bind_error (restoreRound_of_check_error hround hv)]

end Stops

end IcReplay
