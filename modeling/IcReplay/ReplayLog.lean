import IcReplay.Log

/-!
# ic-replay - What a successful `replay` logs

`replay` delivers in two parts.  On a live pool, with both a consensus and a
certification pool, it delivers the finalized batches, waits for the state of the
last one and removes the states below it, then redelivers the certifications of
the certified heights.  Then, with or without a pool, it delivers one extra batch
when its caller injects messages, waits for that state and removes the states
below it too.

So a successful `replay`, unlike a successful `restore`
({lit}`restore_ok_ends_with_delivery`), removes the states below every height it
delivered, right after the delivery.

Main results:

- Definitions {lit}`PoolPartLog` and {lit}`ExtraPartLog`: what the two parts log
  when they return.
- Theorem {lit}`replay_ok_log`: a successful `replay` logs the part on a live pool
  and then the extra batch part, and nothing else.
-/

namespace IcReplay

/-- What the part of `replay` on a live pool logs when it returns, started from the
pool `pool`: with both a consensus pool and a certification pool, the delivery of
the finalized batches up to some height `h`, the removal of the states below `h`,
and the certifications of the certified heights in their order; without either,
nothing. -/
def PoolPartLog (p : Player) (pool : Option ConsensusPool) (A : List Event) : Prop :=
  match pool, p.certificationPool with
  | some _, some cp => ∃ h t, A = .deliverFinalizedBatches h :: .removeStatesBelow t h ::
      (cp.certifiedHeights.filterMap cp.certificationAtHeight).map .deliverStateCertification
  | _, _ => A = []

/-- The context time of the extra batch: one nanosecond after the time of the
finalized tip with a pool, and the system time without one. -/
def ExtraBatchTime (p : Player) : Option ConsensusPool → Time → Prop
  | none, time => ∃ t, time = p.systemTime t
  | some pool, time => ∃ b, pool.finalizedTip = some b ∧ time = b.context.time + 1

/-- What the extra batch part of `replay` logs when it returns, started from the
pool `pool`: when `extra` injects messages at the batch's context time, the extra
batch carrying them at that time, and the removal of the states below its number;
when it injects none, nothing. -/
def ExtraPartLog (p : Player) (extra : Player → Time → List SignedIngress)
    (pool : Option ConsensusPool) (B : List Event) : Prop :=
  ∃ time, ExtraBatchTime p pool time ∧
    (extra p time = [] ∧ B = [] ∨
      extra p time ≠ [] ∧ ∃ b t, b.ingress = extra p time ∧ b.time = time ∧
        B = [.deliverBatch b, .removeStatesBelow t b.batchNumber])

/-- The pool of a run that keeps it. -/
def PoolIs (o : Option ConsensusPool) (w : World) : Prop :=
  w.consensusPool = o

section ReplayLog

variable {p : Player} {l : List Event} {o : Option ConsensusPool}

theorem poolIs_clockFree : ClockFree (PoolIs o) :=
  fun _ _ h => h

/-- A call that changes nothing keeps the log. -/
theorem ask_keeps_log {α : Type} {answer : Nat → α} :
    Triple (PoolIs o) (fun w => w.log = l) (ask answer) fun _ w => w.log = l :=
  Triple.ask fun _ hI hl => ⟨hI, hl⟩

/-- `remove_states_below(h)` appends its removal, issued at the time of the call. -/
theorem removeStatesBelow_appends (h : Height) :
    Triple (PoolIs o) (fun w => w.log = l) (p.stateManager.removeStatesBelow h)
      fun _ w => ∃ t, w.log = l ++ [.removeStatesBelow t h] :=
  Triple.call fun w hI hl => ⟨hI, w.clock, by rw [hl]⟩

/-- `deliver_extra_batch` reports the batch's context time, which it derives from
the pool it was given; it appends the extra batch, carrying the messages injected
at that time, exactly when there are such messages, at the number it reports.  The
attempts that found the queue full log nothing. -/
theorem deliverExtraBatch_appends (pool : Option ConsensusPool)
    (extra : Player → Time → List SignedIngress) (l : List Event) :
    Triple (PoolIs o) (fun w => w.log = l) (p.deliverExtraBatch pool extra) fun r w =>
      ExtraBatchTime p pool r.1 ∧ match r.2 with
      | none => extra p r.1 = [] ∧ w.log = l
      | some (n, _) => extra p r.1 ≠ [] ∧ ∃ b : Batch, b.batchNumber = n ∧
          b.ingress = extra p r.1 ∧ b.time = r.1 ∧ w.log = l ++ [.deliverBatch b] := by
  refine Triple.bind (Q := fun x w => w.log = l ∧ ExtraBatchTime p pool x.2.1) ?_
    fun ⟨registryVersion, time, randomness⟩ => ?_
  · split
    · exact Triple.bind ask_keeps_log fun _ => Triple.bind (Triple.ask (Q := fun now w =>
        w.log = l ∧ ∃ t, now = p.systemTime t) fun w hI hl => ⟨hI, hl, w.clock, rfl⟩) fun _ =>
          Triple.pure _ fun _ h => h
    · split
      · exact Triple.abort _
      · exact Triple.pure _ fun _ h => ⟨h, _, ‹_›, rfl⟩
  refine Triple.intro_pre (φ := ExtraBatchTime p pool time) (fun _ h => h.2) fun htime => ?_
  refine Triple.bind (ask_keeps_log.mono (fun _ h => h.1) fun _ _ h => h) fun batchNumber => ?_
  simp only [pure_bind]
  split
  · exact Triple.pure _ fun _ h => ⟨htime, List.isEmpty_iff.1 ‹_›, h⟩
  · rename_i hne
    refine Triple.bind (Triple.loop (Triple.bind (Triple.call (Q := fun r w => match r with
        | .ok _ => w.log = l ++ [.deliverBatch
            ⟨batchNumber, true, extra p time, randomness, registryVersion, time⟩]
        | .error _ => w.log = l) fun _ hI hl => ⟨hI, ?_⟩) fun r => ?_))
      fun _ => Triple.pure _ fun _ h => ⟨htime, fun he => hne (List.isEmpty_iff.2 he),
        ⟨batchNumber, true, extra p time, randomness, registryVersion, time⟩, rfl, rfl, rfl, h⟩
    · generalize p.messageRouting.deliverAnswer _ _ = r
      cases r <;> simp [hl, Except.isOk, Except.toBool]
    · rcases r with (_ | _) | _
      · exact Triple.pure _ fun _ h => h
      · exact Triple.abort _
      · exact Triple.pure _ fun _ h => h

/-- The redelivery of the certifications appends them in the order of the
certified heights. -/
theorem deliverCertifications_appends (cp : CertificationPool) (l : List Event) :
    Triple (PoolIs o) (fun w => w.log = l)
      (cp.certifiedHeights.forM fun h => do
        let some certification := cp.certificationAtHeight h
          | abort s!"Missing certification at height {h}"
        p.stateManager.deliverStateCertification certification)
      fun _ w => w.log = l ++ (cp.certifiedHeights.filterMap cp.certificationAtHeight).map
        .deliverStateCertification := by
  rw [List.map_filterMap, List.filterMap_eq_flatMap_toList]
  refine Triple.forM_appends _ (fun h l => ?_) _ l
  split
  · rename_i c hc
    exact Triple.call fun _ hI hl => ⟨hI, by simp [hl, hc]⟩
  · exact Triple.abort _

/-- A run of `replay` from the log `l` and the pool `o`: where it returns, it logged
the part on a live pool and then the extra batch part, both as the pool `o`
decides, since `replay` keeps the pool. -/
theorem replay_logs (hc : p.stateManager.Contract)
    (extra : Player → Time → List SignedIngress) (l : List Event) (o : Option ConsensusPool) :
    Triple (PoolIs o) (fun w => w.log = l) (p.replay extra) fun _ w =>
      ∃ A B, w.log = l ++ A ++ B ∧ PoolPartLog p o A ∧ ExtraPartLog p extra o B := by
  have hI : ClockFree (PoolIs o) := poolIs_clockFree
  refine Triple.bind (Triple.getPool_of_inv (Q := fun o' w => o' = o ∧ w.log = l)
    (fun _ h => h) fun _ h => ⟨rfl, h⟩) fun o' =>
      Triple.intro_pre (φ := o' = o) (fun _ h => h.1) fun ho => ?_
  subst ho
  refine Triple.bind (Q := fun _ w => ∃ A, w.log = l ++ A ∧ PoolPartLog p o' A)
    ((?_ : Triple _ (fun w => w.log = l) _ _).mono (fun _ h => h.2) fun _ _ h => h) fun _ =>
      Triple.of_exists fun A => Triple.intro_pre (φ := PoolPartLog p o' A) (fun _ h => h.2)
        fun hA => ?_
  · -- The part on a live pool.
    split
    · rename_i _ cp hcp
      refine Triple.bind (Triple.keep_clockFree (J := fun w => w.log = l) (fun _ hI =>
        Triple.tryCatch (verifyLatestCup_keeps hc hI) fun s => ?_) hI fun _ _ h => h) fun _ => ?_
      · split
        · exact Triple.pure _ fun _ _ => trivial
        · exact Triple.throw _
      refine Triple.bind (deliverBatches_appends _ l fun _ hw _ => ⟨hw, fun _ => hw⟩)
        fun last => ?_
      refine Triple.bind (Triple.keep_clockFree
        (J := fun w => w.log = l ++ [.deliverFinalizedBatches last]) (fun _ hI =>
          (waitForState_spec hc hI last).mono (fun _ _ => trivial) fun _ _ _ => trivial)
        hI fun _ _ h => h) fun _ => ?_
      refine Triple.bind (removeStatesBelow_appends last) fun _ => Triple.of_exists fun t => ?_
      refine (deliverCertifications_appends cp _).mono (fun _ h => h) fun _ _ h =>
        ⟨.deliverFinalizedBatches last :: .removeStatesBelow t last ::
          (cp.certifiedHeights.filterMap cp.certificationAtHeight).map .deliverStateCertification,
          by rw [h]; simp, ?_⟩
      simp only [PoolPartLog, hcp]
      exact ⟨last, t, rfl⟩
    · rename_i hnot
      refine Triple.pure _ fun _ hl => ⟨[], by simp [hl], ?_⟩
      unfold PoolPartLog
      split
      · exact (hnot _ _ rfl (by assumption)).elim
      · rfl
  -- The extra batch.
  have hJ : ClockFree fun w => ∃ B, w.log = l ++ A ++ B ∧ ExtraPartLog p extra o' B :=
    fun _ _ h => h
  refine Triple.bind (Triple.getPool_of_inv (Q := fun o'' w => o'' = o' ∧ w.log = l ++ A)
    (fun _ h => h) fun _ h => ⟨rfl, h.1⟩) fun o'' =>
      Triple.intro_pre (φ := o'' = o') (fun _ h => h.1) fun ho => ?_
  subst ho
  refine Triple.bind ((deliverExtraBatch_appends o'' extra (l ++ A)).mono (fun _ h => h.2)
    fun _ _ h => h) fun ⟨time, d⟩ =>
      Triple.bind (Q := fun _ w => ∃ B, w.log = l ++ A ++ B ∧ ExtraPartLog p extra o'' B) ?_
        fun _ => ?_
  · rcases d with _ | ⟨n, ids⟩
    · exact Triple.pure _ fun _ h => ⟨[], by simp [h.2.2], time, h.1, .inl ⟨h.2.1, rfl⟩⟩
    refine Triple.intro_pre (φ := ExtraBatchTime p o'' time ∧ extra p time ≠ [])
      (fun _ h => ⟨h.1, h.2.1⟩) fun ⟨htime, hne⟩ => ?_
    refine (Triple.of_exists fun b => ?_).mono (fun _ h => h.2.2) fun _ _ h => h
    refine Triple.intro_pre (φ := b.batchNumber = n ∧ b.ingress = extra p time ∧ b.time = time)
      (fun _ h => ⟨h.1, h.2.1, h.2.2.1⟩) fun ⟨hn, hin, ht⟩ => ?_
    refine Triple.bind ((Triple.keep_clockFree (J := fun w => w.log = l ++ A ++ [.deliverBatch b])
      (fun _ hI => (waitForState_spec hc hI n).mono (fun _ _ => trivial) fun _ _ _ => trivial)
      hI fun _ _ h => h).mono (fun _ h => h.2.2.2) fun _ _ h => h) fun _ => ?_
    refine Triple.bind (removeStatesBelow_appends n) fun _ => ?_
    refine Triple.bind (Triple.ask_of_clockFree hI (Q := fun _ w =>
      ∃ B, w.log = l ++ A ++ B ∧ ExtraPartLog p extra o'' B) fun _ ⟨t, ht'⟩ =>
        ⟨[.deliverBatch b, .removeStatesBelow t n], by simp [ht'],
          time, htime, .inr ⟨hne, b, t, hin, ht, by rw [hn]⟩⟩) fun _ => Triple.forM fun _ _ => ?_
    split
    · exact Triple.pure _ fun _ h => h
    · exact Triple.abort _
  -- The registry version and the final state change nothing.
  refine Triple.bind (Triple.keep_clockFree (fun _ hI => Triple.bind
    (queryRegistry_keeps hI _ _ _ _) fun r => ?_) hI hJ) fun _ => ?_
  · split
    · exact Triple.pure _ fun _ _ => trivial
    · exact Triple.ask_of_clockFree hI fun _ _ => trivial
  exact (Triple.keep_clockFree (fun _ hI => getLatestStateHeightAndHash_spec hc hI) hI hJ).mono
    (fun _ h => h) fun _ _ ⟨B, hB, hEB⟩ => ⟨A, B, hB, hA, hEB⟩

end ReplayLog

/-- A successful `replay` logs, after the log it started from, the part on a live
pool and then the extra batch part, and nothing else: each delivery is followed at
once by the removal of the states below its height, and the certifications follow
that removal in the order of the certified heights.  Without both pools the first
part logs nothing, and the second logs nothing exactly when no message is
injected at the extra batch's context time. -/
theorem replay_ok_log {p : Player} (hc : p.stateManager.Contract)
    {extra : Player → Time → List SignedIngress} {w w' : World} {params : StateParams}
    (h : p.replay extra w = .ok params w') :
    ∃ A B, w'.log = w.log ++ A ++ B ∧ PoolPartLog p w.consensusPool A ∧
      ExtraPartLog p extra w.consensusPool B :=
  (replay_logs hc extra w.log w.consensusPool).post rfl rfl h

/-- A Player whose injected messages all complete with a reply. -/
def repliedPlayer : Player :=
  { Player.ofServices (steadyStateManager 0 ⟨[]⟩) emptyRegistry acceptingCrypto with
    latestStatus := fun _ _ => .known (.completed (.reply [])) }

/-- The extra batch of the message {lit}`[7]` without a pool, at the registry
client's version and the clock's time, with a zero seed. -/
def oneMessageBatch : Batch := ⟨0, true, [⟨[7]⟩], List.replicate 32 0, 0, 1⟩

/-- A replay without a pool that injects one message: the extra batch, then the
removal of the states below it.  The run is evaluated one part at a time. -/
theorem repliedPlayer_replay_one_message :
    repliedPlayer.replay (fun _ _ => [⟨[7]⟩]) ⟨0, 2, none, []⟩ = .ok (0, "")
      ⟨16, 2, none, [.deliverBatch oneMessageBatch, .removeStatesBelow 7 0]⟩ := by
  have hextra :
      repliedPlayer.deliverExtraBatch none (fun _ _ => [⟨[7]⟩]) ⟨0, 2, none, []⟩ =
        .ok (1, some (0, [[7]])) ⟨4, 2, none, [.deliverBatch oneMessageBatch]⟩ := rfl
  simp only [Player.replay, getPool_bind_apply, pure_bind]
  rw [bind_ok hextra]
  refine (bind_ok (by rfl : _ = EStateM.Result.ok () (⟨9, 2, none,
    [.deliverBatch oneMessageBatch, .removeStatesBelow 7 0]⟩ : World))).trans ?_
  rfl

/-- The replay of {lit}`repliedPlayer_replay_one_message`. -/
theorem replay_ok_log_one_message :
    repliedPlayer.stateManager.Contract ∧
      repliedPlayer.replay (fun _ _ => [⟨[7]⟩]) ⟨0, 2, none, []⟩ = .ok (0, "")
        ⟨16, 2, none, [.deliverBatch oneMessageBatch, .removeStatesBelow 7 0]⟩ ∧
      ∃ A B, [.deliverBatch oneMessageBatch, .removeStatesBelow 7 0] = [] ++ A ++ B ∧
        PoolPartLog repliedPlayer none A ∧ ExtraPartLog repliedPlayer (fun _ _ => [⟨[7]⟩]) none B :=
  have hc := steadyStateManager_contract 0 ⟨[]⟩
  ⟨hc, repliedPlayer_replay_one_message, replay_ok_log hc repliedPlayer_replay_one_message⟩

end IcReplay
