import IcReplay.Round
import IcReplay.Checks

/-!
# ic-replay - The Player never discards the latest state

`remove_states_below(h)` discards every state below `h`; issued above the latest
state, it would discard that state too.  The Player issues it at four places:
after `wait_for_state` in `replay` (twice), at a `StateBehind` exit point of
`restore`, and at a catch-up package boundary of `restore`, where
`assert_consistency_and_clean_up` also purges the pool's validated artifacts.

Each site is preceded by a fact about the state manager that, under its
contract, makes the removal safe: `wait_for_state` asserts that the latest state
is the delivered height, the `StateBehind` branch asserts that the certified
height is reached, and `verify_latest_cup` returns only once the state manager
has reached the catch-up package (`verifyLatestCup_spec`).

Main results:

- Definition {lit}`PurgeSafe`: every removal in the log was at or below the
  latest state at the time it was issued.
- Theorems {lit}`restore_safe` and {lit}`replay_safe`: every run of `restore` and
  of `replay` keeps it, whatever the exit points and however many rounds.
- Definition {lit}`CupPurgeGuarded`: the catch-up package purge follows a
  successful check of that same package, and a failed check stops it.
- Definition {lit}`FailedCupCheckStops`: in a run of `restore`, a failed check of a
  package inserted at an exit point ends `restore` with the check's stop, before
  either purge.
-/

namespace IcReplay

/-! ## Safe removals -/

/-- A change is safe when it discards no state above the latest one: a removal
of the states below `h` issued at time `t` needs the latest state at `t` to be
at `h` or above. -/
def Event.Safe (p : Player) : Event → Prop
  | .removeStatesBelow t h => h ≤ p.stateManager.latestHeight t
  | _ => True

/-- Every removal of states in the log was safe when it was issued. -/
def PurgeSafe (p : Player) (w : World) : Prop :=
  ∀ e ∈ w.log, e.Safe p

section Keeps

variable {p : Player}

theorem purgeSafe_logInv (p : Player) : LogInv (Event.Safe p) (PurgeSafe p) :=
  LogInv.logAll _

/-- The upkeep of an exit point is safe: its removals are below a reached height. -/
theorem Event.Upkeep.safe {e : Event} (h : e.Upkeep p) : e.Safe p := by
  cases e <;> first | exact h | trivial

/-- What a round logs after a safe log is safe. -/
theorem RoundFrom.safe {l log : List Event} (hl : ∀ e ∈ l, e.Safe p) (h : RoundFrom p l log) :
    ∀ e ∈ log, e.Safe p := by
  intro e he
  rcases h with rfl | rfl | ⟨_, rest, rfl, hrest⟩
  · exact hl e he
  · rcases List.mem_append.1 he with he | he
    · exact hl e he
    · rw [List.mem_singleton.1 he]
      trivial
  · simp only [List.mem_append, List.mem_singleton] at he
    rcases he with ((he | rfl) | rfl) | he
    · exact hl e he
    · trivial
    · trivial
    · exact (hrest e he).safe

/-- One round of `restore` keeps the log safe, whatever the exit point. -/
theorem restoreRound_safe (hc : p.stateManager.Contract) (backupDir : String)
    (target : Option Height) :
    Triple (PurgeSafe p) (fun _ => True) (p.restoreRound backupDir target) fun _ _ => True :=
  Triple.of_logFrom (fun l => (restoreRound_logs hc backupDir target l).mono (fun _ h => h.2)
    fun _ _ _ => trivial) (fun _ _ => .inl rfl) fun _ _ hw _ hr => RoundFrom.safe hw hr

/-- `restore` keeps the log safe over any number of rounds. -/
theorem restore_safe (hc : p.stateManager.Contract) (startHeight : Nat) :
    Triple (PurgeSafe p) (fun _ => True) (p.restore startHeight) fun _ _ => True :=
  restore_of_round hc (purgeSafe_logInv p).clockFree (fun _ _ h => h)
    (fun _ => (restoreRound_safe hc _ _).mono (fun _ h => h) fun r _ _ => by cases r <;> trivial)
    startHeight

/-- `replay` keeps the log safe: both of its removals follow a `wait_for_state`. -/
theorem replay_safe (hc : p.stateManager.Contract)
    (extra : Player → Time → List SignedIngress) :
    Triple (PurgeSafe p) (fun _ => True) (p.replay extra) fun _ _ => True := by
  have hI := purgeSafe_logInv p
  refine Triple.bind (Triple.getPool (Q := fun _ _ => True) fun _ _ => trivial) fun o =>
    Triple.bind (Q := fun _ _ => True) ?_ fun _ => ?_
  · split
    · refine Triple.bind (Triple.tryCatch (verifyLatestCup_keeps hc hI.clockFree) fun s => ?_)
        fun _ => Triple.bind (deliverBatches_logs hI _ fun _ => trivial) fun last =>
          Triple.bind ((waitForState_spec hc hI.clockFree last).mono (fun _ _ => trivial)
            fun _ _ h => h) fun _ => Triple.bind (removeStatesBelow_logs hI _ fun _ h => h)
              fun _ => Triple.forM fun h _ => ?_
      · split
        · exact Triple.pure _ fun _ _ => trivial
        · exact Triple.throw _
      · split
        · exact deliverStateCertification_logs hI _ trivial
        · exact Triple.abort _
    · exact Triple.pure _ fun _ _ => trivial
  · refine Triple.bind (Triple.getPool (Q := fun _ _ => True) fun _ _ => trivial) fun o =>
      Triple.bind (deliverExtraBatch_logs hI _ _ fun _ => trivial) fun ⟨_, d⟩ =>
        Triple.bind (Q := fun _ _ => True) ?_ fun _ =>
          Triple.bind (Q := fun _ _ => True) ?_ fun _ =>
            getLatestStateHeightAndHash_spec hc hI.clockFree
    · split
      · exact Triple.bind ((waitForState_spec hc hI.clockFree _).mono (fun _ _ => trivial)
          fun _ _ h => h) fun _ => Triple.bind (removeStatesBelow_logs hI _ fun _ h => h)
            fun _ => Triple.bind (ask_logs hI) fun _ => Triple.forM fun _ _ => by
              split
              · exact Triple.pure _ fun _ _ => trivial
              · exact Triple.abort _
      · exact Triple.pure _ fun _ _ => trivial
    · refine Triple.bind (queryRegistry_keeps hI.clockFree _ _ _ _) fun r => ?_
      split
      · exact Triple.pure _ fun _ _ => trivial
      · exact ask_logs hI

end Keeps

/-! ## The catch-up package purge -/

/-- The catch-up package purge of `assert_consistency_and_clean_up`, run from `w`:
a failed check stops it with the check's error before anything is purged, and
every purge it issues follows a successful check and is at the height of the
catch-up package that was checked. -/
def CupPurgeGuarded (p : Player) (w : World) : Prop :=
  (∀ s w1, p.verifyLatestCup w = .error s w1 →
    p.assertConsistencyAndCleanUp w = .error s w1 ∧ w1.log = w.log) ∧
  ∃ new, (endWorld (p.assertConsistencyAndCleanUp w)).log = w.log ++ new ∧
    ∀ e ∈ new, ∃ pool w1, w.consensusPool = some pool ∧ p.verifyLatestCup w = .ok () w1 ∧
      (e = .purgeValidatedBelow pool.cup.cup.height ∨
        ∃ t, w1.clock ≤ t ∧ e = .removeStatesBelow t pool.cup.cup.height)

/-- A check that stops leaves the log as it found it. -/
theorem verifyLatestCup_error_log {p : Player} (hc : p.stateManager.Contract) {w w' : World}
    {s : Stop} (hv : p.verifyLatestCup w = .error s w') : w'.log = w.log := by
  have h := Triple.endWorld_eq_of_clockFree (fun I hI => verifyLatestCup_keeps hc hI) w
  rw [hv, endWorld] at h
  rw [h]

theorem cupPurgeGuarded {p : Player} (hc : p.stateManager.Contract) (w : World) :
    CupPurgeGuarded p w := by
  have hv := Triple.endWorld_eq_of_clockFree (fun I hI => verifyLatestCup_keeps hc hI) w
  unfold CupPurgeGuarded Player.assertConsistencyAndCleanUp
  cases hrun : p.verifyLatestCup w with
  | error s w1 =>
    -- A failed check stops the purge where it stopped, with the log untouched.
    have hlog := verifyLatestCup_error_log hc hrun
    refine ⟨fun _ _ h => ?_, [], by rw [bind_error hrun, endWorld, hlog, List.append_nil],
      fun _ h => nomatch h⟩
    cases h
    exact ⟨bind_error hrun, hlog⟩
  | ok u w1 =>
    rw [hrun, endWorld] at hv
    obtain ⟨pool, hpool⟩ : ∃ pool, w.consensusPool = some pool := by
      cases hp : w.consensusPool with
      | none => rw [verifyLatestCup_of_pool_none hp] at hrun; cases hrun
      | some pool => exact ⟨pool, rfl⟩
    refine ⟨(fun _ _ h => nomatch h), ?_⟩
    have hg := Triple.endWorld_eq_of_clockFree
      (fun I hI => getLatestStateHeightAndHash_spec hc hI) w1
    have hgc := getLatestStateHeightAndHash_spec hc (I := fun _ => True) (fun _ _ _ => trivial)
      w1 trivial trivial
    rw [bind_ok hrun]
    cases hq : p.getLatestStateHeightAndHash w1 with
    | error s w2 =>
      rw [hq, endWorld] at hg
      refine ⟨[], ?_, fun _ h => nomatch h⟩
      rw [bind_error hq, endWorld, hg, hv, List.append_nil]
    | ok params w2 =>
      rw [hq, endWorld] at hg
      rw [hq] at hgc
      have hpool2 : w2.consensusPool = some pool := by rw [hg, hv]; exact hpool
      have hlog2 : w2.log = w.log := by rw [hg, hv]
      -- The removal is issued after the check, at the checked package's height.
      refine ⟨[.removeStatesBelow w2.clock pool.cup.cup.height,
        .purgeValidatedBelow pool.cup.cup.height], ?_, fun e he => ?_⟩
      · simp only [bind_ok hq, getPool_bind_apply, hpool2, StateManager.removeStatesBelow,
          purgeValidatedBelow, call_bind_apply, pure_apply, endWorld, hlog2, List.append_assoc,
          List.singleton_append]
      · rcases List.mem_pair.1 he with rfl | rfl
        · exact ⟨pool, w1, hpool, rfl, .inr ⟨w2.clock, hgc.1, rfl⟩⟩
        · exact ⟨pool, w1, hpool, rfl, .inl rfl⟩

/-- In a run of `restore`, a check of a catch-up package inserted at an exit point
that stops, with an `Err` or otherwise, ends `restore` with the check's stop, in the
world the check left, whose log is the one the check started from: neither purge
is issued. -/
def FailedCupCheckStops (p : Player) : Prop :=
  ∀ startHeight cupHeight w0 w, p.CupCheckAt startHeight cupHeight w0 w → ∀ s w',
    p.verifyLatestCup w = .error s w' → p.restore startHeight w0 = .error s w' ∧ w'.log = w.log

theorem failedCupCheckStops {p : Player} (hc : p.stateManager.Contract) :
    FailedCupCheckStops p := fun _ _ _ _ hreach _ _ hv =>
  ⟨restore_of_check_error (.inr ⟨_, hreach⟩) hv, verifyLatestCup_error_log hc hv⟩

/-! ## Every run -/

/-- In every run of `restore` and of `replay`, from any world whose log is safe
and for every behaviour of the services in which the state manager keeps its
contract, every `remove_states_below(h)` is issued with `h` at or below the
latest state.  The catch-up package purge is guarded by the check of that
package (`CupPurgeGuarded`), and in a run of `restore` a failed check of a package
inserted at an exit point ends `restore` with the check's stop before either
purge (`FailedCupCheckStops`). -/
theorem player_never_removes_above_latest_state (p : Player) (hc : p.stateManager.Contract) :
    (∀ startHeight w, PurgeSafe p w → PurgeSafe p (endWorld (p.restore startHeight w))) ∧
    (∀ extra w, PurgeSafe p w → PurgeSafe p (endWorld (p.replay extra w))) ∧
    (∀ w, CupPurgeGuarded p w) ∧ FailedCupCheckStops p :=
  ⟨fun startHeight _ hw => (restore_safe hc startHeight).endWorld hw trivial,
    fun extra _ hw => (replay_safe hc extra).endWorld hw trivial,
    cupPurgeGuarded hc, failedCupCheckStops hc⟩

theorem player_never_removes_above_latest_state_steady :
    (steadyStateManager 3 ⟨[1]⟩).Contract ∧
    let p := Player.ofServices (steadyStateManager 3 ⟨[1]⟩) emptyRegistry acceptingCrypto
    (∀ startHeight w, PurgeSafe p w → PurgeSafe p (endWorld (p.restore startHeight w))) ∧
    (∀ extra w, PurgeSafe p w → PurgeSafe p (endWorld (p.replay extra w))) ∧
    (∀ w, CupPurgeGuarded p w) ∧ FailedCupCheckStops p :=
  ⟨steadyStateManager_contract 3 ⟨[1]⟩,
    player_never_removes_above_latest_state _ (steadyStateManager_contract 3 ⟨[1]⟩)⟩

end IcReplay
