import IcReplay.Contract

/-!
# ic-replay - The extra batch of `replay`

After the finalized blocks, `replay` delivers one more batch, which carries the
messages its caller injects at the batch's context time, waits for its state
and reads the ingress history: a message that did not complete with a reply
panics.  So `replay` returns a result only after every injected message was
read back as replied, and a message that never completes with a reply makes
`replay` never return `Ok`.

Main results:

- Theorem {lit}`deliverExtraBatch_ok`: `deliver_extra_batch` reports no delivery
  exactly when nothing is injected, and otherwise the ids of the injected messages.
- Theorem {lit}`replay_ok_extra_replied`: a result of `replay` means every injected
  message completed with a reply in the ingress history that was read.
- Theorem {lit}`replay_aborts_on_failed_extra`: a message injected at every context
  time that never completes with a reply makes `replay` never return `Ok`.
-/

namespace IcReplay

/-- The ingress history reports that the message completed with a reply. -/
def IngressStatus.isReply : IngressStatus → Bool
  | .known (.completed (.reply _)) => true
  | _ => false

section Extra

variable {p : Player} {extra : Player → Time → List SignedIngress} {w w' : World}

/-- `deliver_extra_batch` returns the context time it built the batch at, and
reports no delivery exactly when the caller injected nothing at that time. -/
theorem deliverExtraBatch_ok {pool : Option ConsensusPool} {time : Time}
    {d : Option (Height × List MessageId)}
    (h : p.deliverExtraBatch pool extra w = .ok (time, d) w') :
    (extra p time = [] ∧ d = none) ∨ ∃ n, d = some (n, (extra p time).map (·.id)) := by
  unfold Player.deliverExtraBatch at h
  obtain ⟨⟨rv, t, rnd⟩, w1, -, h⟩ := bind_eq_ok h
  simp only [MessageRouting.expectedBatchHeight, ask_bind_apply, pure_bind] at h
  by_cases hc : (extra p t).isEmpty = true
  · rw [if_pos hc] at h
    cases h
    exact .inl ⟨List.isEmpty_iff.1 hc, rfl⟩
  · rw [if_neg hc] at h
    obtain ⟨_, _, -, h⟩ := bind_eq_ok h
    cases h
    exact .inr ⟨_, rfl⟩

/-- A result of `replay` means that, in the ingress history read after the extra
batch, every message injected at the batch's context time completed with a reply. -/
theorem replay_ok_extra_replied {params : StateParams} (h : p.replay extra w = .ok params w') :
    ∃ time t, ∀ m ∈ extra p time, (p.latestStatus t m.id).isReply := by
  simp only [Player.replay, bind_assoc, getPool_bind_apply] at h
  obtain ⟨_, w1, -, h⟩ := bind_eq_ok h
  simp only [getPool_bind_apply] at h
  obtain ⟨⟨time, d⟩, w2, hd, h⟩ := bind_eq_ok h
  obtain ⟨_, w3, hm, -⟩ := bind_eq_ok h
  refine ⟨time, ?_⟩
  rcases deliverExtraBatch_ok hd with ⟨hnil, rfl⟩ | ⟨n, rfl⟩
  · exact ⟨0, by simp [hnil]⟩
  · dsimp only at hm
    obtain ⟨_, _, -, hm⟩ := bind_eq_ok hm
    obtain ⟨_, w4, -, hm⟩ := bind_eq_ok hm
    simp only [Player.getLatestStatus, ask_bind_apply] at hm
    refine ⟨w4.clock, fun m hmem => forM_ok_forall
      (R := fun x => (p.latestStatus w4.clock x).isReply) ?_ _ hm m.id
      (List.mem_map_of_mem _ hmem)⟩
    intro x _ _ hx
    generalize p.latestStatus _ x = s at hx ⊢
    rcases s with (_ | (_ | _) | _ | _ | _) | _ <;> first | rfl | cases hx

/-- A message that the caller injects at every context time and that the ingress
history never reports as completed with a reply makes `replay` never return
`Ok`: it may still return the `Err` of its starting check, panic (in the check of
the extra batch or elsewhere), or poll without end. -/
theorem replay_aborts_on_failed_extra (m : SignedIngress) (hinjected : ∀ time, m ∈ extra p time)
    (hfailed : ∀ t, (p.latestStatus t m.id).isReply = false) (params : StateParams) :
    p.replay extra w ≠ .ok params w' := fun h => by
  obtain ⟨time, t, hall⟩ := replay_ok_extra_replied h
  simpa [hfailed t] using hall m (hinjected time)

/-- A message whose status stays unknown, injected into a replay without a pool. -/
theorem replay_aborts_on_failed_extra_unknown :
    let p := Player.ofServices (steadyStateManager 0 ⟨[]⟩) emptyRegistry acceptingCrypto
    ∀ params w', p.replay (fun _ _ => [⟨[7]⟩]) ⟨0, 3, none, []⟩ ≠ .ok params w' := by
  intro p params _
  exact replay_aborts_on_failed_extra (p := p) ⟨[7]⟩ (fun _ => List.mem_singleton_self _)
    (fun _ => rfl) params

end Extra

end IcReplay
