import IcReplay.Contract

/-!
# ic-replay - What each method logs

The log records every change the Player asks a service to make.  Most methods
change one kind of thing: `deliver_batches` delivers finalized batches,
`deserialize_consensus_artifacts` ingests artifacts, `update_registry_local_store`
writes changelog entries.  This module says so once per method: a run of the
method keeps every invariant of the log that survives appending the events the
method may log ({lit}`LogInv`).  That every event of the log has a property
({lit}`LogAll`) is such an invariant, and so is that every event logged after a
given prefix has it ({lit}`LogAfter`).

Main results:

- Structure {lit}`LogInv`: an invariant of the log that appending events of a kind
  keeps.
- Theorems {lit}`deliverBatches_logs`, {lit}`updateRegistryLocalStore_logs`,
  {lit}`assertConsistencyAndCleanUp_logs` and their siblings: the events each
  method may append.  A removal of states is logged only below a height that the
  latest state has reached.
- Theorems {lit}`deliverBatches_appends` and
  {lit}`deserializeConsensusArtifacts_appends`: the exact events these two append.
-/

namespace IcReplay

/-- Every event in the log satisfies `S`. -/
def LogAll (S : Event → Prop) (w : World) : Prop :=
  ∀ e ∈ w.log, S e

/-- Every event logged after the prefix `l` satisfies `S`. -/
def LogAfter (l : List Event) (S : Event → Prop) (w : World) : Prop :=
  ∃ rest, w.log = l ++ rest ∧ ∀ e ∈ rest, S e

/-- An invariant of the log that appending events satisfying `S` keeps; it does
not mention the clock or the pool. -/
structure LogInv (S : Event → Prop) (I : World → Prop) : Prop where
  clockFree : ClockFree I
  setPool : ∀ w o, I w → I { w with consensusPool := o }
  append : ∀ w (new : List Event), I w → (∀ e ∈ new, S e) →
    I { w with log := w.log ++ new }

section LogInv

variable {α : Type} {p : Player} {S : Event → Prop} {I P : World → Prop}

theorem LogInv.logAll (S : Event → Prop) : LogInv S (LogAll S) where
  clockFree _ _ h := h
  setPool _ _ h := h
  append _ _ h hnew e he := (List.mem_append.1 he).elim (h e) (hnew e)

theorem LogInv.logAfter (l : List Event) (S : Event → Prop) : LogInv S (LogAfter l S) where
  clockFree _ _ h := h
  setPool _ _ h := h
  append _ new := fun ⟨rest, hl, hr⟩ hnew => ⟨rest ++ new, by simp [hl],
    fun e he => (List.mem_append.1 he).elim (hr e) (hnew e)⟩

theorem logAfter_of_eq {l : List Event} {w : World} (hw : w.log = l) : LogAfter l S w :=
  ⟨[], by simp [hw], fun _ h => nomatch h⟩

/-- A call whose changes all satisfy `S` keeps every {lit}`LogInv S`. -/
theorem call_logs (hI : LogInv S I) {answer : Nat → α} {changes : Nat → α → List Event}
    (hS : ∀ t a, ∀ e ∈ changes t a, S e) :
    Triple I P (call answer changes) fun _ _ => True :=
  Triple.call fun w hw _ => ⟨hI.clockFree _ _ (hI.append w _ hw (hS _ _)), trivial⟩

/-- A call that appends the single event `e`. -/
theorem call_logs_single (hI : LogInv S I) {answer : Nat → α} {e : Event} (hS : S e) :
    Triple I P (call answer fun _ _ => [e]) fun _ _ => True :=
  call_logs hI fun _ _ _ h => List.mem_singleton.1 h ▸ hS

/-- A call that changes nothing keeps every {lit}`LogInv`. -/
theorem ask_logs (hI : LogInv S I) {answer : Nat → α} :
    Triple I P (ask answer) fun _ _ => True :=
  Triple.ask_of_clockFree hI.clockFree fun _ _ => trivial

theorem setPool_logs (hI : LogInv S I) (o : Option ConsensusPool) :
    Triple I P (setPool o) fun _ _ => True :=
  fun w hw _ => ⟨le_rfl, hI.setPool w _ hw, trivial⟩

/-- A removal of the states below a height that the latest state has reached. -/
theorem removeStatesBelow_logs (hI : LogInv S I) (h : Height)
    (hS : ∀ t, h ≤ p.stateManager.latestHeight t → S (.removeStatesBelow t h)) :
    Triple I (p.stateManager.Reached h) (p.stateManager.removeStatesBelow h) fun _ _ => True :=
  Triple.call fun w hw hR => ⟨hI.clockFree _ _ (hI.append w _ hw fun _ he =>
    List.mem_singleton.1 he ▸ hS _ hR), trivial⟩

theorem purgeValidatedBelow_logs (hI : LogInv S I) (h : Height)
    (hS : S (.purgeValidatedBelow h)) :
    Triple I P (purgeValidatedBelow h) fun _ _ => True :=
  call_logs_single hI hS

theorem deliverStateCertification_logs (hI : LogInv S I) (c : Certification)
    (hS : S (.deliverStateCertification c)) :
    Triple I P (p.stateManager.deliverStateCertification c) fun _ _ => True :=
  call_logs_single hI hS

theorem deliverBatches_logs (hI : LogInv S I) (target : Option Height)
    (hS : ∀ h, S (.deliverFinalizedBatches h)) :
    Triple I (fun _ => True) (p.deliverBatches target) fun _ _ => True := by
  refine Triple.loop (Triple.bind (call_logs hI fun _ r e he => ?_) fun r => ?_)
  · cases r with
    | ok h => exact List.mem_singleton.1 he ▸ hS h
    | error => cases he
  · split
    · exact Triple.pure _ fun _ _ => trivial
    · exact Triple.pure _ fun _ _ => trivial
    · exact Triple.abort _

/-- `deliver_batches` appends exactly the delivery up to the height it returns: the
attempts that found the queue full log nothing.  It keeps every invariant that its
calls keep. -/
theorem deliverBatches_appends (target : Option Height) (l : List Event)
    (hI : ∀ w, I w → w.log = l → I { w with clock := w.clock + 1 } ∧
      ∀ h, I { w with clock := w.clock + 1, log := l ++ [.deliverFinalizedBatches h] }) :
    Triple I (fun w => w.log = l) (p.deliverBatches target)
      fun h w => w.log = l ++ [.deliverFinalizedBatches h] := by
  refine Triple.loop (Triple.bind (Triple.call (Q := fun r w => w.log = l ++ match r with
      | .ok h => [.deliverFinalizedBatches h]
      | .error _ => []) fun w hw hl => ⟨?_, by subst hl; rfl⟩) fun r => ?_)
  · split
    · rw [hl]
      exact (hI w hw hl).2 _
    · rw [List.append_nil]
      exact (hI w hw hl).1
  · rcases r with (_ | _) | h
    · exact Triple.pure _ fun _ hl => by rwa [List.append_nil] at hl
    · exact Triple.abort _
    · exact Triple.pure _ fun _ hl => hl

theorem writeRecordsToLocalStore_logs (hI : LogInv S I) (path : String)
    (latestVersion : RegistryVersion) (records : List RegistryTransportRecord)
    (hS : ∀ v e, S (.store v e)) :
    Triple I (fun _ => True) (p.writeRecordsToLocalStore path latestVersion records)
      fun _ _ => True := by
  unfold Player.writeRecordsToLocalStore
  split
  · refine Triple.forM fun _ _ => Triple.bind (call_logs hI fun _ _ e he => ?_) fun r => ?_
    · split at he
      · exact List.mem_singleton.1 he ▸ hS _ _
      · cases he
    · split
      · exact Triple.pure _ fun _ _ => trivial
      · exact Triple.abort _
  · exact Triple.abort _

/-- A query of the registry canister changes nothing. -/
theorem queryRegistry_keeps {β : Type} (hI : ClockFree I) (methodName : String)
    (payload : List UInt8) (ingressExpiry : Time) (decode : List UInt8 → Except String β) :
    Triple I (fun _ => True) (p.queryRegistry methodName payload ingressExpiry decode)
      fun _ _ => True :=
  Triple.bind (Triple.ask_of_clockFree hI (Q := fun _ _ => True) fun _ _ => trivial) fun _ => by
    split <;> exact Triple.pure _ fun _ _ => trivial

/-- `get_changes_since` changes nothing: it panics on a request it cannot encode,
and queries otherwise. -/
theorem getChangesSince_keeps (hI : ClockFree I) (version : RegistryVersion)
    (ingressExpiry : Time) :
    Triple I (fun _ => True) (p.getChangesSince version ingressExpiry) fun _ _ => True := by
  unfold Player.getChangesSince
  split
  · exact Triple.abort _
  · exact queryRegistry_keeps hI _ _ _ _

theorem updateRegistryLocalStore_logs (hI : LogInv S I) (hS : ∀ v e, S (.store v e)) :
    Triple I (fun _ => True) p.updateRegistryLocalStore fun _ _ => True := by
  unfold Player.updateRegistryLocalStore
  split
  · exact Triple.bind (ask_logs hI) fun _ => Triple.bind (ask_logs hI) fun _ =>
      Triple.bind (getChangesSince_keeps hI.clockFree _ _) fun r => by
        split
        · exact writeRecordsToLocalStore_logs hI _ _ _ hS
        · exact Triple.abort _
  · exact Triple.abort _

/-- `deserialize_consensus_artifacts` appends exactly one ingestion of artifacts. -/
theorem deserializeConsensusArtifacts_appends {Ψ : List Event → Prop} (l : List Event)
    (hΨ : Ψ (l ++ [.ingestArtifacts])) :
    Triple (fun w => Ψ w.log) (fun w => w.log = l) p.deserializeConsensusArtifacts
      fun _ w => w.log = l ++ [.ingestArtifacts] := by
  refine Triple.bind (Triple.getPool (Q := fun _ w => w.log = l) fun _ h => h) fun o => ?_
  split
  · exact Triple.bind (Triple.ask (Q := fun _ w => w.log = l) fun _ hI hl => ⟨hI, hl⟩) fun _ =>
      Triple.bind (Triple.call (Q := fun _ w => w.log = l ++ [.ingestArtifacts])
        fun _ _ hl => ⟨by subst hl; exact hΨ, by subst hl; rfl⟩) fun _ =>
        Triple.bind (Triple.setPool fun _ hI hl => ⟨hI, hl⟩) fun _ => Triple.pure _ fun _ h => h
  · exact Triple.abort _

theorem insertCupAtHeight_logs (hI : LogInv S I) (backupDir : String) (height : Height)
    (hS : S (.insertCup height)) :
    Triple I (fun _ => True) (p.insertCupAtHeight backupDir height) fun _ _ => True := by
  refine Triple.bind (Triple.getPool (Q := fun _ _ => True) fun _ _ => trivial) fun o => ?_
  split
  · exact Triple.bind (call_logs_single hI hS) fun _ => setPool_logs hI _
  · exact Triple.abort _

theorem deliverExtraBatch_logs (hI : LogInv S I) (pool : Option ConsensusPool)
    (extra : Player → Time → List SignedIngress) (hS : ∀ b, S (.deliverBatch b)) :
    Triple I (fun _ => True) (p.deliverExtraBatch pool extra) fun _ _ => True := by
  refine Triple.bind (Q := fun _ _ => True) ?_ fun ⟨_, _, _⟩ => ?_
  · split
    · exact Triple.bind (ask_logs hI) fun _ => Triple.bind (ask_logs hI) fun _ =>
        Triple.pure _ fun _ _ => trivial
    · split
      · exact Triple.abort _
      · exact Triple.pure _ fun _ _ => trivial
  · refine Triple.bind (ask_logs hI) fun _ => ?_
    simp only [pure_bind]
    split
    · exact Triple.pure _ fun _ _ => trivial
    · refine Triple.bind (Q := fun _ _ => True) (Triple.loop (Triple.bind
        (call_logs hI fun _ _ e he => ?_) fun r => ?_)) fun _ => Triple.pure _ fun _ _ => trivial
      · split at he
        · exact List.mem_singleton.1 he ▸ hS _
        · cases he
      · split
        · exact Triple.pure _ fun _ _ => trivial
        · exact Triple.pure _ fun _ _ => trivial
        · exact Triple.abort _

/-- The catch-up package purge removes states only below the package that was
just checked, which the latest state has reached, and purges the pool's validated
artifacts. -/
theorem assertConsistencyAndCleanUp_logs (hc : p.stateManager.Contract) (hI : LogInv S I)
    (hremove : ∀ t h, h ≤ p.stateManager.latestHeight t → S (.removeStatesBelow t h))
    (hpurge : ∀ h, S (.purgeValidatedBelow h)) :
    Triple I (fun _ => True) p.assertConsistencyAndCleanUp fun _ _ => True := by
  refine Triple.of_pool fun o => ?_
  cases o with
  | none =>
    exact Triple.bind (verifyLatestCup_of_none.mono (fun _ h => h.2) fun _ _ h => h) fun _ =>
      Triple.of_false
  | some pool =>
    have hJ := hI.clockFree.and_pool (some pool)
    have hv := (verifyLatestCup_spec hc hJ pool).frame_inv
    have hg := (Triple.frame_reached hc pool.cup.cup.height
      (getLatestStateHeightAndHash_spec hc hJ)).frame_inv
    refine Triple.bind (hv.mono (fun _ h => ⟨h.2, h.2⟩) fun _ _ h => h) fun _ =>
      Triple.bind (hg.mono (fun _ h => ⟨⟨trivial, h.1⟩, h.2⟩) fun _ _ h => h) fun _ =>
        Triple.bind Triple.getPool_eq fun o => ?_
    split
    · rename_i pool'
      refine Triple.intro_pre (φ := pool' = pool)
        (fun _ h => Option.some.inj (h.2.symm.trans h.1.2)) fun heq => ?_
      subst heq
      exact Triple.bind ((removeStatesBelow_logs hI _ fun t => hremove t _).mono
        (fun _ h => h.1.1.2) fun _ _ h => h) fun _ =>
          Triple.bind (purgeValidatedBelow_logs hI _ (hpurge _)) fun _ =>
            Triple.pure _ fun _ _ => trivial
    · exact Triple.abort _

end LogInv

end IcReplay
