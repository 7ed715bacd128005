import IcReplay.Run

/-!
# ic-replay - Runs that end

A {lit}`Triple` says what holds wherever a run ends, so it says nothing against a
run that polls forever: a loop still polling at the end of its budget stops with
`Stop.outOfFuel`, and every {lit}`Triple` holds of that run.  This module adds the
other half.  A run *ends* when it does not stop out of fuel; it may still return,
panic or return an `Err`.  A {lit}`Triple` of a run that ends is total
correctness ({lit}`Total`).

A loop ends when a measure, below the budget where the loop starts, drops at
every iteration that goes round again ({lit}`Total.loop`).  Most loops of the
Player poll one service per iteration and go round again on one kind of answer
only, so the measure is the number of polls until the service answers otherwise
({lit}`Total.poll`).

No call changes the budget of the loops, so the budget is an invariant of every
run ({lit}`Budget`).

Main results:

- Definition {lit}`Total`: a run from `I` and `P` never stops out of fuel, and
  `Triple I P m Q` holds.
- Theorem {lit}`Total.bind`: total correctness composes.
- Theorem {lit}`Total.loop`: a loop ends when a measure below the budget drops at
  every iteration that goes round again.
- Theorem {lit}`Total.poll`: a loop that polls a service once per iteration ends
  when the service answers something other than a retry within the budget
  ({lit}`AnswersWithin`).
-/

namespace IcReplay

/-- Run from a world that satisfies `I` and `P`, `m` never stops out of fuel:
every loop it enters breaks within its budget. -/
def Ends {α : Type} (I P : World → Prop) (m : PlayerM α) : Prop :=
  ∀ w, I w → P w → ∀ w', m w ≠ .error .outOfFuel w'

/-- Total correctness: run from a world that satisfies `I` and `P`, `m` ends, and
{lit}`Triple I P m Q` holds. -/
structure Total {α : Type} (I P : World → Prop) (m : PlayerM α) (Q : α → World → Prop) :
    Prop where
  triple : Triple I P m Q
  ends : Ends I P m

/-- Every loop of the run may iterate `F` times. -/
def Budget (F : Nat) (w : World) : Prop :=
  w.fuel = F

/-- From any time, `answer` gives something other than a `retry` within `D` polls. -/
def AnswersWithin {β : Type} (D : Nat) (answer : Nat → β) (retry : β → Bool) : Prop :=
  ∀ t, ∃ i < D, retry (answer (t + i)) = false

/-! ## The rules -/

section Total

variable {α β : Type} {I P P' : World → Prop} {Q Q' : α → World → Prop}

theorem Total.pure (a : α) (h : ∀ w, P w → Q a w) : Total I P (Pure.pure a) Q :=
  ⟨Triple.pure a h, fun _ _ _ _ h => nomatch h⟩

theorem Total.throw {s : Stop} (hs : s ≠ .outOfFuel) :
    Total I P (MonadExcept.throw s : PlayerM α) Q :=
  ⟨Triple.throw s, fun _ _ _ _ h => hs (by cases h; rfl)⟩

theorem Total.abort (message : String) : Total I P (IcReplay.abort message : PlayerM α) Q :=
  Total.throw nofun

theorem Total.ask {answer : Nat → α}
    (h : ∀ w, I w → P w →
      I { w with clock := w.clock + 1 } ∧ Q (answer w.clock) { w with clock := w.clock + 1 }) :
    Total I P (IcReplay.ask answer) Q :=
  ⟨Triple.ask h, fun _ _ _ _ h => nomatch h⟩

theorem Total.call {answer : Nat → α} {changes : Nat → α → List Event}
    (h : ∀ w, I w → P w →
      I { w with clock := w.clock + 1, log := w.log ++ changes w.clock (answer w.clock) } ∧
      Q (answer w.clock)
        { w with clock := w.clock + 1, log := w.log ++ changes w.clock (answer w.clock) }) :
    Total I P (IcReplay.call answer changes) Q :=
  ⟨Triple.call h, fun _ _ _ _ h => nomatch h⟩

theorem Total.getPool {Q : Option ConsensusPool → World → Prop}
    (h : ∀ w, P w → Q w.consensusPool w) : Total I P IcReplay.getPool Q :=
  ⟨Triple.getPool h, fun _ _ _ _ h => nomatch h⟩

theorem Total.setPool {pool : Option ConsensusPool} {Q : Unit → World → Prop}
    (h : ∀ w, I w → P w →
      I { w with consensusPool := pool } ∧ Q () { w with consensusPool := pool }) :
    Total I P (IcReplay.setPool pool) Q :=
  ⟨Triple.setPool h, fun _ _ _ _ h => nomatch h⟩

theorem Total.bind {m : PlayerM α} {f : α → PlayerM β} {R : β → World → Prop}
    (hm : Total I P m Q) (hf : ∀ a, Total I (Q a) (f a) R) : Total I P (m >>= f) R := by
  refine ⟨hm.triple.bind fun a => (hf a).triple, fun w hI hP w' h => ?_⟩
  have ht := hm.triple w hI hP
  cases hrun : m w with
  | ok a w1 =>
    rw [hrun] at ht
    rw [bind_ok hrun] at h
    exact (hf a).ends w1 ht.2.1 ht.2.2 w' h
  | error s w1 =>
    rw [bind_error hrun] at h
    cases h
    exact hm.ends w hI hP _ hrun

/-- Consequence: strengthen the precondition, weaken the postcondition. -/
theorem Total.mono {m : PlayerM α} (hP : ∀ w, P' w → P w) (hQ : ∀ a w, Q a w → Q' a w)
    (h : Total I P m Q) : Total I P' m Q' :=
  ⟨h.triple.mono hP hQ, fun w hI hP' => h.ends w hI (hP w hP')⟩

/-- A fact that every world of the precondition entails may be assumed. -/
theorem Total.intro_pre {m : PlayerM α} {φ : Prop} (hφ : ∀ w, P w → φ)
    (h : φ → Total I P m Q) : Total I P m Q :=
  ⟨Triple.intro_pre hφ fun hφ => (h hφ).triple, fun w hI hP => (h (hφ w hP)).ends w hI hP⟩

/-- A witness of an existential precondition may be fixed. -/
theorem Total.of_exists {γ : Type} {P : γ → World → Prop} {m : PlayerM α}
    (h : ∀ x, Total I (P x) m Q) : Total I (fun w => ∃ x, P x w) m Q :=
  ⟨Triple.of_exists fun x => (h x).triple, fun w hI ⟨x, hP⟩ => (h x).ends w hI hP⟩

/-- Total correctness may be proved world by world. -/
theorem Total.of_forall {m : PlayerM α} (h : ∀ w, P w → Total I (fun w' => w' = w) m Q) :
    Total I P m Q :=
  ⟨fun w hI hP => (h w hP).triple w hI rfl, fun w hI hP => (h w hP).ends w hI rfl⟩

/-- A fact about the clock that stays true as the clock moves on is carried from
where a run starts to where it returns. -/
theorem Total.frame_clock {m : PlayerM α} {R : Nat → Prop} (hR : ∀ a b, a ≤ b → R a → R b)
    (h : Total I P m Q) : Total I (fun w => P w ∧ R w.clock) m fun a w => Q a w ∧ R w.clock := by
  refine ⟨fun w hI hP => ?_, fun w hI hP => h.ends w hI hP.1⟩
  have := h.triple w hI hP.1
  split at this
  · exact ⟨this.1, this.2.1, this.2.2, hR _ _ this.1 hP.2⟩
  · exact this

theorem tryCatch_of_ok {m : PlayerM α} {handle : Stop → PlayerM α} {w w1 : World} {a : α}
    (h : m w = .ok a w1) : tryCatch m handle w = .ok a w1 := by
  change EStateM.tryCatch m handle w = _
  simp only [EStateM.tryCatch, h]

theorem tryCatch_of_error {m : PlayerM α} {handle : Stop → PlayerM α} {w w1 : World} {s : Stop}
    (h : m w = .error s w1) : tryCatch m handle w = handle s w1 := by
  change EStateM.tryCatch m handle w = _
  simp only [EStateM.tryCatch, h, EStateM.Backtrackable.restore, EStateM.dummyRestore]

/-- A handler runs from wherever the guarded code stopped, which was not out of
fuel: it owes nothing for an exhausted loop. -/
theorem Total.tryCatch {m : PlayerM α} {handle : Stop → PlayerM α} (hm : Total I P m Q)
    (hh : ∀ s, s ≠ .outOfFuel → Total I (fun _ => True) (handle s) Q) :
    Total I P (tryCatch m handle) Q := by
  have hstop : ∀ w, I w → P w → ∀ s w1, m w = .error s w1 →
      w.clock ≤ w1.clock ∧ I w1 ∧ Total I (fun _ => True) (handle s) Q := fun w hI hP s w1 h => by
    have ht := hm.triple w hI hP
    rw [h] at ht
    exact ⟨ht.1, ht.2, hh s fun hs => hm.ends w hI hP w1 (hs ▸ h)⟩
  refine ⟨fun w hI hP => ?_, fun w hI hP w' h => ?_⟩
  · cases hrun : m w with
    | ok a w1 => simpa only [tryCatch_of_ok hrun, hrun] using hm.triple w hI hP
    | error s w1 =>
      obtain ⟨hle, hI1, hs⟩ := hstop w hI hP s w1 hrun
      have h2 := hs.triple w1 hI1 trivial
      rw [tryCatch_of_error hrun]
      cases hh2 : handle s w1 <;> rw [hh2] at h2 <;> exact ⟨le_trans hle h2.1, h2.2⟩
  · cases hrun : m w with
    | ok a w1 => rw [tryCatch_of_ok hrun] at h; cases h
    | error s w1 =>
      obtain ⟨-, hI1, hs⟩ := hstop w hI hP s w1 hrun
      rw [tryCatch_of_error hrun] at h
      exact hs.ends w1 hI1 trivial w' h

/-- A loop ends when a measure `V`, below a bound `B` of the budget where the loop
starts, drops at every iteration that goes round again. -/
theorem Total.loop {J : World → Prop} {body : PlayerM (Option α)} (V : World → Nat) {B : Nat}
    (hB : ∀ w, I w → B ≤ w.fuel)
    (h : ∀ n, Total I (fun w => J w ∧ V w = n) body fun r w => match r with
      | none => J w ∧ V w < n
      | some a => Q a w) :
    Total I (fun w => J w ∧ V w < B) (IcReplay.loop body) Q := by
  refine ⟨(Triple.loop fun w hI hJ => ?_).mono (fun _ h => h.1) fun _ _ h => h, ?_⟩
  · have := (h (V w)).triple w hI ⟨hJ, rfl⟩
    generalize body w = r at this ⊢
    rcases r with ⟨_ | a, w'⟩ | ⟨s, w'⟩
    exacts [⟨this.1, this.2.1, this.2.2.1⟩, this, this]
  suffices hfor : ∀ k w, I w → J w → V w < k → ∀ w', loopFor body k w ≠ .error .outOfFuel w' from
    fun w hI hP => hfor w.fuel w hI hP.1 (lt_of_lt_of_le hP.2 (hB w hI))
  intro k
  induction k with
  | zero => exact fun _ _ _ hV => absurd hV (Nat.not_lt_zero _)
  | succ k ih =>
    intro w hI hJ hV w' hrun
    have ht := (h (V w)).triple w hI ⟨hJ, rfl⟩
    rcases hb : body w with ⟨_ | a, w1⟩ | ⟨s, w1⟩
    · rw [hb] at ht
      rw [loopFor, bind_ok hb] at hrun
      exact ih w1 ht.2.1 ht.2.2.1 (by omega) w' hrun
    · rw [loopFor, bind_ok hb] at hrun
      cases hrun
    · rw [loopFor, bind_error hb] at hrun
      cases hrun
      exact (h (V w)).ends w hI ⟨hJ, rfl⟩ _ hb

/-- A loop that polls `answer` once per iteration, and goes round again only on a
`retry`, ends when the service answers otherwise within `D` polls and the budget
is at least `D`. -/
theorem Total.poll {body : PlayerM (Option α)} {γ : Type} {answer : Nat → γ}
    {retry : γ → Bool} {D : Nat} (hdue : AnswersWithin D answer retry)
    (hD : ∀ w, I w → D ≤ w.fuel)
    (h : ∀ c, Total I (fun w => w.clock = c) body fun r w => match r with
      | none => w.clock = c + 1 ∧ retry (answer c) = true
      | some a => Q a w) :
    Total I (fun _ => True) (IcReplay.loop body) Q := by
  refine ⟨Triple.loop (J := fun _ => True) fun w hI _ => ?_, fun w hI _ => ?_⟩
  · have := (h w.clock).triple w hI rfl
    generalize body w = r at this ⊢
    rcases r with ⟨_ | a, w'⟩ | ⟨s, w'⟩
    exacts [⟨this.1, this.2.1, trivial⟩, this, this]
  -- The measure is the number of polls until the answer that is no retry.
  obtain ⟨i, hi, hanswer⟩ := hdue w.clock
  refine (Total.loop (Q := Q) (J := fun w' => w'.clock ≤ w.clock + i)
    (fun w' => w.clock + i - w'.clock) hD fun n => Total.of_forall fun w' ⟨hJ, hn⟩ =>
      (h w'.clock).mono (fun _ e => e ▸ rfl) fun r w'' hr => ?_).ends w hI
    ⟨Nat.le_add_right _ _, by omega⟩
  rcases r with _ | a
  · obtain ⟨hc, hretry⟩ := hr
    have hne : w'.clock ≠ w.clock + i := fun e => by rw [e, hanswer] at hretry; cases hretry
    dsimp only at hJ hn ⊢
    exact ⟨by omega, by omega⟩
  · exact hr

theorem Total.forM {J : World → Prop} {xs : List β} {f : β → PlayerM PUnit}
    (h : ∀ x ∈ xs, Total I J (f x) fun _ => J) :
    Total I J (xs.forM f) fun _ => J := by
  induction xs with
  | nil => exact Total.pure _ fun _ hJ => hJ
  | cons x xs ih =>
    exact Total.bind (h x (List.mem_cons_self _ _)) fun _ =>
      ih fun y hy => h y (List.mem_cons_of_mem _ hy)

end Total

end IcReplay
