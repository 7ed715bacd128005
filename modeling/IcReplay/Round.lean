import IcReplay.Log

/-!
# ic-replay - What a round of `restore` logs

`restore` runs in rounds ({lit}`Player.restoreRound`).  A round ingests the next
artifacts of the spool, delivers the batches they finalize up to some height and
waits for that state.  Then it returns, when the delivery reached the target
height or the spool is done, or it does the upkeep of its exit point and goes
round again: it inserts the next catch-up package and purges below it, updates
the registry, or removes the states below a certified height.

This module says once what a round logs, wherever it ends, and how `restore`
keeps what its rounds keep.  The safety of removals, the stop at the target
height and the shape of the last round are all derived from these two results.

Main results:

- Definition {lit}`RoundFrom`: what a round may have logged wherever it ends.
- Theorem {lit}`restoreRound_logs`: a round that returns logs nothing after its
  delivery, and one that goes round again delivered below the target and logged
  only upkeep after it.
- Theorem {lit}`restore_of_round`: `restore` keeps every invariant and
  precondition of its rounds that does not mention the clock.
- Theorem {lit}`restore_logs`: where `restore` returns, it logged rounds that went
  round again ({lit}`UpkeepRound`) and then the round that returned.
-/

namespace IcReplay

/-- The events of the upkeep at an exit point: a catch-up package inserted into the
pool, a removal of the states below a height that the latest state has reached, a
purge of the pool's validated artifacts, a write to the local store. -/
def Event.Upkeep (p : Player) : Event → Prop
  | .insertCup _ => True
  | .removeStatesBelow t h => h ≤ p.stateManager.latestHeight t
  | .purgeValidatedBelow _ => True
  | .store _ _ => True
  | _ => False

/-- After a round from the log `l` delivered up to `h`, it has logged only upkeep. -/
def UpkeepAfter (p : Player) (l : List Event) (h : Height) : World → Prop :=
  LogAfter (l ++ [.ingestArtifacts] ++ [.deliverFinalizedBatches h]) (Event.Upkeep p)

/-- What a round from the log `l` may have logged wherever it ends: nothing, its
ingestion of artifacts, or that ingestion, one delivery and upkeep. -/
def RoundFrom (p : Player) (l log : List Event) : Prop :=
  log = l ∨ log = l ++ [.ingestArtifacts] ∨
    ∃ h rest, log = l ++ [.ingestArtifacts] ++ [.deliverFinalizedBatches h] ++ rest ∧
      ∀ e ∈ rest, e.Upkeep p

/-- How a round from the log `l` that returned `r` left the log: a round that goes
round again delivered below the target and then did upkeep, and a round that
returns a result logged nothing after its delivery. -/
def RoundResult (p : Player) (target : Option Height) (l : List Event) :
    Option StateParams → World → Prop
  | none, w => ∃ h, target.any (· ≤ h) = false ∧ UpkeepAfter p l h w
  | some _, w => ∃ h, w.log = l ++ [.ingestArtifacts] ++ [.deliverFinalizedBatches h]

/-- A round that went round again, as it logged: one ingestion of artifacts, one
delivery below the target, then upkeep. -/
def UpkeepRound (p : Player) (target : Option Height) (round : List Event) : Prop :=
  ∃ h rest, round = [.ingestArtifacts, .deliverFinalizedBatches h] ++ rest ∧
    target.any (· ≤ h) = false ∧ ∀ e ∈ rest, e.Upkeep p

section Round

variable {α : Type} {p : Player} {l : List Event}

/-- Upkeep after the delivery up to `h` keeps the round's log. -/
theorem Triple.upkeep {h : Height} {P : World → Prop} {Q : α → World → Prop} {m : PlayerM α}
    (hm : Triple (UpkeepAfter p l h) P m Q) :
    Triple (fun w => RoundFrom p l w.log) (fun w => UpkeepAfter p l h w ∧ P w) m
      fun a w => UpkeepAfter p l h w ∧ Q a w :=
  Triple.of_stronger (fun _ hw => .inr (.inr ⟨h, hw⟩)) hm

/-- One round of `restore`, from the log `l`. -/
theorem restoreRound_logs (hc : p.stateManager.Contract) (backupDir : String)
    (target : Option Height) (l : List Event) :
    Triple (fun w => RoundFrom p l w.log) (fun w => w.log = l) (p.restoreRound backupDir target)
      (RoundResult p target l) := by
  refine Triple.bind (deserializeConsensusArtifacts_appends l (.inr (.inl rfl))) fun _ =>
    Triple.bind (Triple.getPool (Q := fun _ w => w.log = l ++ [.ingestArtifacts]) fun _ h => h)
      fun o => ?_
  split
  · refine Triple.bind (deliverBatches_appends _ _ fun _ hw _ =>
      ⟨hw, fun h => .inr (.inr ⟨h, [], by simp, fun _ e => nomatch e⟩)⟩) fun last => ?_
    have hI : ClockFree fun w => RoundFrom p l w.log := fun _ _ h => h
    have hJ : ClockFree fun w =>
        w.log = l ++ [.ingestArtifacts] ++ [.deliverFinalizedBatches last] := fun _ _ h => h
    have hU := LogInv.logAfter (l ++ [.ingestArtifacts] ++ [.deliverFinalizedBatches last])
      (Event.Upkeep p)
    have hlatest := Triple.keep_clockFree (fun _ hI' => getLatestStateHeightAndHash_spec hc hI')
      hI hJ
    refine Triple.bind (Triple.keep_clockFree (fun _ hI' => (waitForState_spec hc hI' last).mono
      (fun _ _ => trivial) fun _ _ _ => trivial) hI hJ) fun _ => ?_
    split
    · exact Triple.bind hlatest fun _ => Triple.pure _ fun _ hw => ⟨last, hw⟩
    rename_i hbelow
    have hnone : ∀ w, UpkeepAfter p l last w ∧ True → RoundResult p target l none w :=
      fun _ hw => ⟨last, Bool.eq_false_iff.2 hbelow, hw.1⟩
    split
    · -- A catch-up package: insert it, check it and purge below it.
      exact Triple.bind ((Triple.upkeep (insertCupAtHeight_logs hU _ _ trivial)).mono
        (fun _ hw => ⟨logAfter_of_eq hw, trivial⟩) fun _ _ h => h) fun _ =>
          Triple.bind (Triple.upkeep (assertConsistencyAndCleanUp_logs hc hU (fun _ _ h => h)
            fun _ => trivial)) fun _ => Triple.pure _ hnone
    · -- A newer registry version: update the local store and the registry client.
      refine Triple.bind ((Triple.upkeep (updateRegistryLocalStore_logs hU fun _ _ => trivial)).mono
        (fun _ hw => ⟨logAfter_of_eq hw, trivial⟩) fun _ _ h => h) fun _ =>
          Triple.bind (Triple.upkeep (ask_logs hU)) fun _ => ?_
      simp only [abort_bind, pure_bind]
      split
      · exact Triple.abort _
      · refine Triple.bind (Triple.upkeep (ask_logs hU)) fun _ => ?_
        split
        · exact Triple.abort _
        · exact Triple.pure _ hnone
    · -- The state is behind: remove the states below the certified height.
      refine Triple.bind ((Triple.upkeep (latestStateHeight_spec hc hU.clockFree)).mono
        (fun _ hw => ⟨logAfter_of_eq hw, trivial⟩) fun _ _ h => h) fun _ => ?_
      simp only [abort_bind, pure_bind]
      split
      · exact Triple.abort _
      · exact Triple.bind ((Triple.upkeep (removeStatesBelow_logs hU _ fun _ h => h)).mono
          (fun _ h => ⟨h.1, le_trans (Nat.le_of_not_lt ‹_›) h.2⟩) fun _ _ h => h) fun _ =>
            Triple.pure _ fun _ h => hnone _ ⟨h.1, trivial⟩
    · exact Triple.bind hlatest fun _ => Triple.pure _ fun _ hw => ⟨last, hw⟩
  · exact Triple.abort _

/-- `restore` keeps what each of its rounds keeps: an invariant `I` and a
precondition `J` of the rounds, neither mentioning the clock; it returns what a
round that returns leaves. -/
theorem restore_of_round (hc : p.stateManager.Contract) {I J : World → Prop}
    {Q : StateParams → World → Prop} (hI : ClockFree I) (hJ : ClockFree J)
    (hround : ∀ backupDir, Triple I J (p.restoreRound backupDir p.replayTargetHeight)
      fun r w => match r with
        | none => J w
        | some a => Q a w)
    (startHeight : Nat) : Triple I J (p.restore startHeight) Q := by
  unfold Player.restore
  split
  · refine Triple.bind (Triple.ask_of_clockFree hI (Q := fun _ => J) fun _ hw => hJ _ _ hw)
      fun _ => ?_
    simp only [abort_bind, pure_bind]
    split
    · exact Triple.abort _
    · exact Triple.bind (Triple.keep_clockFree (fun _ hI' => verifyLatestCup_keeps hc hI') hI hJ)
        fun _ => Triple.loop ((hround _).mono (fun _ h => h) fun r _ h => by cases r <;> exact h)
  · exact Triple.abort _

/-- What a run of `restore` from the log `l` logged where it returns: rounds that
went round again, each delivering below the target and doing upkeep, and then the
round that returned, which logged one ingestion and one delivery and nothing after. -/
theorem restore_logs (hc : p.stateManager.Contract) (startHeight : Nat) (l : List Event) :
    Triple (fun _ => True) (fun w => w.log = l) (p.restore startHeight) fun _ w =>
      ∃ (rounds : List (List Event)) (last : Height), w.log = l ++ rounds.flatten ++
          [.ingestArtifacts, .deliverFinalizedBatches last] ∧
        ∀ r ∈ rounds, UpkeepRound p p.replayTargetHeight r := by
  refine (restore_of_round hc (I := fun _ => True)
    (J := fun w => ∃ rounds : List (List Event), w.log = l ++ rounds.flatten ∧
      ∀ r ∈ rounds, UpkeepRound p p.replayTargetHeight r)
    (fun _ _ _ => trivial) (fun _ _ h => h) (fun backupDir => ?_) startHeight).mono
      (fun w (hw : w.log = l) => ⟨[], by simp [hw], fun _ h => nomatch h⟩) fun _ _ h => h
  refine Triple.of_exists fun rounds => Triple.intro_pre
    (φ := ∀ r ∈ rounds, UpkeepRound p p.replayTargetHeight r) (fun _ h => h.2) fun hr =>
      ((restoreRound_logs hc backupDir _ (l ++ rounds.flatten)).forget_inv
        fun _ h => .inl h).mono (fun _ h => h.1) fun r w h => ?_
  cases r with
  | none =>
    obtain ⟨last, hbelow, rest, hw, hrest⟩ := h
    refine ⟨rounds ++ [[.ingestArtifacts, .deliverFinalizedBatches last] ++ rest], by simp [hw],
      fun r hmem => ?_⟩
    rcases List.mem_append.1 hmem with hmem | hmem
    · exact hr r hmem
    · exact List.mem_singleton.1 hmem ▸ ⟨last, rest, rfl, hbelow, hrest⟩
  | some _ =>
    obtain ⟨last, hw⟩ := h
    exact ⟨rounds, last, by simp [hw], hr⟩

end Round

end IcReplay
