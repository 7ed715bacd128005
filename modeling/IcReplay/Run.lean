import IcReplay.Types

/-!
# ic-replay - Runs of the Player

The Player is single-threaded; everything asynchronous happens in the services it
calls (state manager, message routing, registry, backup spool).  The model gives
each run a clock that counts the calls made so far: the `t`-th call is answered
by what the called service answers at time `t`.  A service is therefore a
function of the time, and a theorem that holds for every such function holds for
every behaviour of the service, including one that reacts to the Player.

The Player's own mutable state is its consensus pool.  The changes the Player
asks a service to make are logged, oldest first; a removal of states carries the
time it was issued, so that "the latest state at that moment" is a statement
about the log alone.

A `panic!`, `expect` or `assert!` of the source stops the run (`Stop.panic`), as
does a returned `Err` (`Stop.replayError`), so Rust's `?` is the monad's bind.
Rust's `loop` polls a service until it answers; a run is observed for `fuel`
iterations of each loop, and a loop still polling then stops with
`Stop.outOfFuel`.  Since every finite prefix of a real run is the prefix of a
run observed with enough fuel, safety properties proved for every fuel hold of
every run.

Main results:

- Definition {lit}`Triple`: partial correctness with an invariant that also holds
  where a run stops, and a clock that never goes back.
- Theorems {lit}`Triple.bind`, {lit}`Triple.loop` and {lit}`Triple.forM`: the
  rules every specification of the Player is assembled from.
- Definition {lit}`ErrOnly`: which `Err`s code returns, apart from its panics and
  exhausted loops.
-/

namespace IcReplay

/-! ## Worlds and logs -/

/-- The consensus pool the Player owns: the catch-up package its cache returns
and the finalized tip. -/
structure ConsensusPool where
  cup : CUPWithOriginalProtobuf
  finalizedHeight : Height
  /-- The block at `finalizedHeight`, when the pool holds it. -/
  finalizedTip : Option Block

/-- A change the Player asked a service to make. -/
inductive Event
  /-- `state_manager.remove_states_below(height)`, issued at `time`. -/
  | removeStatesBelow (time : Nat) (height : Height)
  /-- `ChangeAction::PurgeValidatedBelow(height)` applied to the consensus pool. -/
  | purgeValidatedBelow (height : Height)
  /-- `backup::insert_cup_at_height`: the spool's catch-up package went into the pool. -/
  | insertCup (height : Height)
  /-- `backup::deserialize_consensus_artifacts` fed artifacts into the pool. -/
  | ingestArtifacts
  /-- Consensus delivered the finalized batches up to this height. -/
  | deliverFinalizedBatches (height : Height)
  /-- `message_routing.deliver_batch(batch)` accepted the batch. -/
  | deliverBatch (batch : Batch)
  /-- `state_manager.deliver_state_certification(certification)`. -/
  | deliverStateCertification (certification : Certification)
  /-- `local_store.store(version, entry)` wrote the entry. -/
  | store (version : RegistryVersion) (entry : ChangelogEntry)

/-- The state of a run: the clock, the observation budget of each loop, the
Player's consensus pool and the log of changes. -/
structure World where
  clock : Nat
  fuel : Nat
  consensusPool : Option ConsensusPool
  log : List Event

/-- How a call of the Player ends without a value. -/
inductive Stop
  /-- An `Err` returned to the caller. -/
  | replayError (err : ReplayError)
  /-- A `panic!`, `expect`, `unwrap`, `assert!` or `unreachable!`: the process aborts. -/
  | panic (message : String)
  /-- A loop is still polling when the observation ends. -/
  | outOfFuel
  deriving DecidableEq, Repr

/-- The monad of the Player's code. -/
abbrev PlayerM := EStateM Stop World

/-- Where a run ends, whether it returned or stopped. -/
def endWorld {α : Type} : EStateM.Result Stop World α → World
  | .ok _ w => w
  | .error _ w => w

/-! ## Primitive steps -/

section Primitives

variable {α β : Type}

/-- A call that changes nothing: the service answers at the current time and the
clock moves on. -/
def ask (answer : Nat → α) : PlayerM α := fun w =>
  .ok (answer w.clock) { w with clock := w.clock + 1 }

/-- A call that changes a service: besides answering, the changes it makes at the
current time are logged. -/
def call (answer : Nat → α) (changes : Nat → α → List Event) : PlayerM α := fun w =>
  .ok (answer w.clock)
    { w with clock := w.clock + 1, log := w.log ++ changes w.clock (answer w.clock) }

/-- `panic!` and its relatives. -/
def abort (message : String) : PlayerM α :=
  throw (.panic message)

/-- The Player's consensus pool. -/
def getPool : PlayerM (Option ConsensusPool) := fun w =>
  .ok w.consensusPool w

/-- Replace the Player's consensus pool. -/
def setPool (pool : Option ConsensusPool) : PlayerM Unit := fun w =>
  .ok () { w with consensusPool := pool }

/-- Rust's `loop`, iterated at most `fuel` times: the body answers `some a` to
break with `a` and `none` to go round again. -/
def loopFor (body : PlayerM (Option α)) : Nat → PlayerM α
  | 0 => throw .outOfFuel
  | fuel + 1 => do
    match ← body with
    | some a => pure a
    | none => loopFor body fuel

/-- Rust's `loop`, observed for the world's budget of iterations. -/
def loop (body : PlayerM (Option α)) : PlayerM α := fun w =>
  loopFor body w.fuel w

@[simp] theorem ask_apply (answer : Nat → α) (w : World) :
    ask answer w = .ok (answer w.clock) { w with clock := w.clock + 1 } := rfl

@[simp] theorem call_apply (answer : Nat → α) (changes : Nat → α → List Event) (w : World) :
    call answer changes w = .ok (answer w.clock)
      { w with clock := w.clock + 1, log := w.log ++ changes w.clock (answer w.clock) } := rfl

@[simp] theorem getPool_apply (w : World) : getPool w = .ok w.consensusPool w := rfl

@[simp] theorem setPool_apply (pool : Option ConsensusPool) (w : World) :
    setPool pool w = .ok () { w with consensusPool := pool } := rfl

@[simp] theorem abort_apply (message : String) (w : World) :
    (abort message : PlayerM α) w = .error (.panic message) w := rfl

@[simp] theorem throw_apply (s : Stop) (w : World) :
    (throw s : PlayerM α) w = .error s w := rfl

@[simp] theorem pure_apply (a : α) (w : World) : (pure a : PlayerM α) w = .ok a w := rfl

@[simp] theorem throw_bind (s : Stop) (f : α → PlayerM β) :
    (throw s : PlayerM α) >>= f = throw s := rfl

@[simp] theorem abort_bind (message : String) (f : α → PlayerM β) :
    (abort message : PlayerM α) >>= f = abort message := rfl

theorem bind_ok {m : PlayerM α} {f : α → PlayerM β} {w w' : World} {a : α}
    (h : m w = .ok a w') : (m >>= f) w = f a w' := by
  show EStateM.bind m f w = _
  simp only [EStateM.bind, h]

theorem bind_error {m : PlayerM α} {f : α → PlayerM β} {w w' : World} {s : Stop}
    (h : m w = .error s w') : (m >>= f) w = .error s w' := by
  show EStateM.bind m f w = _
  simp only [EStateM.bind, h]

/-- A run of `m >>= f` that stops has stopped in `m` or in `f`. -/
theorem bind_eq_error {m : PlayerM α} {f : α → PlayerM β} {w w' : World} {s : Stop}
    (h : (m >>= f) w = .error s w') :
    m w = .error s w' ∨ ∃ a w1, m w = .ok a w1 ∧ f a w1 = .error s w' := by
  cases hrun : m w with
  | ok a w1 => exact .inr ⟨a, w1, rfl, by rwa [bind_ok hrun] at h⟩
  | error s1 w1 => rw [bind_error hrun] at h; cases h; exact .inl rfl

/-- A run of `m >>= f` that returns has returned from `m` and then from `f`. -/
theorem bind_eq_ok {m : PlayerM α} {f : α → PlayerM β} {w w' : World} {b : β}
    (h : (m >>= f) w = .ok b w') : ∃ a w1, m w = .ok a w1 ∧ f a w1 = .ok b w' := by
  cases hrun : m w with
  | ok a w1 => exact ⟨a, w1, rfl, by rwa [bind_ok hrun] at h⟩
  | error s1 w1 => rw [bind_error hrun] at h; cases h

/-- A loop whose first iteration breaks with `a` returns `a`. -/
theorem loop_of_some {body : PlayerM (Option α)} {w w' : World} {a : α} (hfuel : 0 < w.fuel)
    (h : body w = .ok (some a) w') : loop body w = .ok a w' := by
  obtain ⟨n, hn⟩ := Nat.exists_eq_succ_of_ne_zero hfuel.ne'
  simp only [loop, hn, loopFor]
  rw [bind_ok h]
  rfl

/-- `loopFor body k` run from `w` comes to an iteration run from `w'` with `k'`
iterations of its budget left, every iteration before it having gone round again. -/
inductive LoopReaches (body : PlayerM (Option α)) : Nat → World → Nat → World → Prop
  | here (k : Nat) (w : World) : LoopReaches body k w k w
  | next {k k' : Nat} {w w1 w' : World} (hb : body w = .ok none w1)
      (h : LoopReaches body k w1 k' w') : LoopReaches body (k + 1) w k' w'

/-- A loop runs on from an iteration it reaches. -/
theorem LoopReaches.loopFor_eq {body : PlayerM (Option α)} {k k' : Nat} {w w' : World}
    (h : LoopReaches body k w k' w') : loopFor body k w = loopFor body k' w' := by
  induction h with
  | here => rfl
  | next hb _ ih => rw [loopFor, bind_ok hb]; exact ih

/-- A loop stops, other than by running out of fuel, exactly where an iteration it
reaches stops. -/
theorem loopFor_eq_error_iff {body : PlayerM (Option α)} {k : Nat} {w w' : World} {s : Stop}
    (hs : s ≠ .outOfFuel) :
    loopFor body k w = .error s w' ↔
      ∃ k' w1, LoopReaches body k w (k' + 1) w1 ∧ body w1 = .error s w' := by
  refine ⟨fun h => ?_, fun ⟨k', w1, hreach, hb⟩ => by
    rw [hreach.loopFor_eq, loopFor, bind_error hb]⟩
  induction k generalizing w with
  | zero => cases h; exact absurd rfl hs
  | succ k ih =>
    rw [loopFor] at h
    rcases bind_eq_error h with hb | ⟨r, w1, hb, h⟩
    · exact ⟨k, w, .here _ _, hb⟩
    cases r with
    | none =>
      obtain ⟨k', w2, hreach, hb'⟩ := ih h
      exact ⟨k', w2, .next hb hreach, hb'⟩
    | some a => cases h

/-- A `for` loop whose every iteration makes one call, logging `ev x`, makes one
call per element and logs their events in order. -/
theorem forM_ok {f : α → PlayerM PUnit} (ev : α → Event)
    (hf : ∀ x w, f x w = .ok () { w with clock := w.clock + 1, log := w.log ++ [ev x] })
    (xs : List α) (w : World) :
    xs.forM f w = .ok () { w with clock := w.clock + xs.length, log := w.log ++ xs.map ev } := by
  induction xs generalizing w with
  | nil =>
    simp only [List.length_nil, Nat.add_zero, List.map_nil, List.append_nil]
    rfl
  | cons x xs ih =>
    show (f x >>= fun _ => xs.forM f) w = _
    rw [bind_ok (hf x w), ih]
    simp only [List.length_cons, List.map_cons, List.append_assoc, List.singleton_append]
    congr 2
    omega

/-- A `for` loop that returns ran every iteration to its end: each element has
what an iteration that returns establishes. -/
theorem forM_ok_forall {f : α → PlayerM PUnit} {R : α → Prop}
    (hf : ∀ x w w', f x w = .ok () w' → R x) (xs : List α) {w w' : World}
    (h : xs.forM f w = .ok () w') : ∀ x ∈ xs, R x := by
  induction xs generalizing w with
  | nil => exact fun _ hx => nomatch hx
  | cons x xs ih =>
    obtain ⟨_, w1, hx, hrest⟩ := bind_eq_ok h
    exact List.forall_mem_cons.2 ⟨hf x _ _ hx, ih hrest⟩

@[simp] theorem ask_bind_apply (answer : Nat → α) (f : α → PlayerM β) (w : World) :
    (ask answer >>= f) w = f (answer w.clock) { w with clock := w.clock + 1 } :=
  bind_ok (ask_apply answer w)

@[simp] theorem call_bind_apply (answer : Nat → α) (changes : Nat → α → List Event)
    (f : α → PlayerM β) (w : World) :
    (call answer changes >>= f) w = f (answer w.clock)
      { w with clock := w.clock + 1, log := w.log ++ changes w.clock (answer w.clock) } :=
  bind_ok (call_apply answer changes w)

@[simp] theorem getPool_bind_apply (f : Option ConsensusPool → PlayerM β) (w : World) :
    (getPool >>= f) w = f w.consensusPool w :=
  bind_ok (getPool_apply w)

@[simp] theorem setPool_bind_apply (pool : Option ConsensusPool) (f : Unit → PlayerM β)
    (w : World) :
    (setPool pool >>= f) w = f () { w with consensusPool := pool } :=
  bind_ok (setPool_apply pool w)

end Primitives

/-! ## Partial correctness -/

section Triple

variable {α β : Type}

/-- `Triple I P m Q`: run from a world that satisfies the invariant `I` and the
precondition `P`, `m` never moves the clock back and keeps `I`, whether it
returns or stops; when it returns `a`, `Q a` holds.  A run that stops owes
nothing beyond `I`. -/
def Triple (I P : World → Prop) (m : PlayerM α) (Q : α → World → Prop) : Prop :=
  ∀ w, I w → P w → match m w with
    | .ok a w' => w.clock ≤ w'.clock ∧ I w' ∧ Q a w'
    | .error _ w' => w.clock ≤ w'.clock ∧ I w'

variable {I P P' : World → Prop} {Q Q' : α → World → Prop}

/-- The invariant holds wherever a run of `m` ends. -/
theorem Triple.endWorld {m : PlayerM α} (h : Triple I P m Q) {w : World}
    (hI : I w) (hP : P w) : I (IcReplay.endWorld (m w)) := by
  have := h w hI hP
  split at this <;> simp_all [IcReplay.endWorld]

/-- Where a run returns, the postcondition holds. -/
theorem Triple.post {m : PlayerM α} (h : Triple I P m Q) {w w' : World} {a : α} (hI : I w)
    (hP : P w) (hrun : m w = .ok a w') : Q a w' := by
  have := h w hI hP
  rw [hrun] at this
  exact this.2.2

theorem Triple.pure (a : α) (h : ∀ w, P w → Q a w) : Triple I P (Pure.pure a) Q :=
  fun w hI hP => ⟨le_rfl, hI, h w hP⟩

theorem Triple.throw (s : Stop) : Triple I P (MonadExcept.throw s : PlayerM α) Q :=
  fun _ hI _ => ⟨le_rfl, hI⟩

theorem Triple.abort (message : String) : Triple I P (IcReplay.abort message : PlayerM α) Q :=
  Triple.throw _

theorem Triple.bind {m : PlayerM α} {f : α → PlayerM β} {R : β → World → Prop}
    (hm : Triple I P m Q) (hf : ∀ a, Triple I (Q a) (f a) R) : Triple I P (m >>= f) R := by
  intro w hI hP
  have h1 := hm w hI hP
  cases hrun : m w with
  | ok a w1 =>
    rw [hrun] at h1
    rw [bind_ok hrun]
    have h2 := hf a w1 h1.2.1 h1.2.2
    cases hf2 : f a w1 <;> rw [hf2] at h2 <;> exact ⟨le_trans h1.1 h2.1, h2.2⟩
  | error s w1 =>
    rw [hrun] at h1
    rw [bind_error hrun]
    exact h1

/-- A fact that every world of the precondition entails may be assumed. -/
theorem Triple.intro_pre {m : PlayerM α} {φ : Prop} (hφ : ∀ w, P w → φ)
    (h : φ → Triple I P m Q) : Triple I P m Q :=
  fun w hI hP => h (hφ w hP) w hI hP

/-- The pool may be assumed known. -/
theorem Triple.of_pool {m : PlayerM α}
    (h : ∀ o, Triple I (fun w => P w ∧ w.consensusPool = o) m Q) : Triple I P m Q :=
  fun w hI hP => h w.consensusPool w hI ⟨hP, rfl⟩

/-- A witness of an existential precondition may be fixed. -/
theorem Triple.of_exists {γ : Type} {P : γ → World → Prop} {m : PlayerM α}
    (h : ∀ x, Triple I (P x) m Q) : Triple I (fun w => ∃ x, P x w) m Q :=
  fun w hI ⟨x, hP⟩ => h x w hI hP

theorem Triple.of_false {m : PlayerM α} : Triple I (fun _ => False) m Q :=
  fun _ _ h => h.elim

/-- Consequence: strengthen the precondition, weaken the postcondition. -/
theorem Triple.mono {m : PlayerM α} (hP : ∀ w, P' w → P w) (hQ : ∀ a w, Q a w → Q' a w)
    (h : Triple I P m Q) : Triple I P' m Q' := by
  intro w hI hP'
  have := h w hI (hP w hP')
  split at this
  · exact ⟨this.1, this.2.1, hQ _ _ this.2.2⟩
  · exact this

/-- An invariant of a part of the run becomes a frame condition of the whole. -/
theorem Triple.frame_inv {J : World → Prop} {m : PlayerM α}
    (h : Triple (fun w => I w ∧ J w) P m Q) :
    Triple I (fun w => P w ∧ J w) m (fun a w => Q a w ∧ J w) := by
  intro w hI hP
  have := h w ⟨hI, hP.2⟩ hP.1
  split at this
  · exact ⟨this.1, this.2.1.1, this.2.2, this.2.1.2⟩
  · exact ⟨this.1, this.2.1⟩

/-- A run that keeps a stronger invariant `J` keeps `I`, with `J` carried from its
precondition to its postcondition. -/
theorem Triple.of_stronger {J : World → Prop} {m : PlayerM α} (hJI : ∀ w, J w → I w)
    (h : Triple J P m Q) : Triple I (fun w => J w ∧ P w) m fun a w => J w ∧ Q a w := by
  intro w _ ⟨hJ, hP⟩
  have := h w hJ hP
  split at this
  · exact ⟨this.1, hJI _ this.2.1, this.2.1, this.2.2⟩
  · exact ⟨this.1, hJI _ this.2⟩

/-- An invariant that the precondition entails may be forgotten. -/
theorem Triple.forget_inv {m : PlayerM α} (h : Triple I P m Q) (hI : ∀ w, P w → I w) :
    Triple (fun _ => True) P m Q := by
  intro w _ hP
  have := h w (hI w hP) hP
  split at this
  · exact ⟨this.1, trivial, this.2.2⟩
  · exact ⟨this.1, trivial⟩

/-- A run whose every end from a log `l` satisfies `J l` keeps each invariant `K`
that such an end inherits from where the run started. -/
theorem Triple.of_logFrom {J : List Event → World → Prop} {K : World → Prop} {m : PlayerM α}
    (h : ∀ l, Triple (J l) (fun w => P w ∧ w.log = l) m Q) (hJ : ∀ w, P w → J w.log w)
    (hK : ∀ w w', K w → P w → J w.log w' → K w') : Triple K P m Q := by
  intro w hKw hP
  have := h w.log w (hJ w hP) ⟨hP, rfl⟩
  split at this
  · exact ⟨this.1, hK w _ hKw hP this.2.1, this.2.2⟩
  · exact ⟨this.1, hK w _ hKw hP this.2⟩

theorem Triple.ask {answer : Nat → α}
    (h : ∀ w, I w → P w →
      I { w with clock := w.clock + 1 } ∧ Q (answer w.clock) { w with clock := w.clock + 1 }) :
    Triple I P (IcReplay.ask answer) Q :=
  fun w hI hP => ⟨Nat.le_succ _, h w hI hP⟩

theorem Triple.call {answer : Nat → α} {changes : Nat → α → List Event}
    (h : ∀ w, I w → P w →
      I { w with clock := w.clock + 1, log := w.log ++ changes w.clock (answer w.clock) } ∧
      Q (answer w.clock)
        { w with clock := w.clock + 1, log := w.log ++ changes w.clock (answer w.clock) }) :
    Triple I P (IcReplay.call answer changes) Q :=
  fun w hI hP => ⟨Nat.le_succ _, h w hI hP⟩

theorem Triple.setPool {pool : Option ConsensusPool} {Q : Unit → World → Prop}
    (h : ∀ w, I w → P w →
      I { w with consensusPool := pool } ∧ Q () { w with consensusPool := pool }) :
    Triple I P (IcReplay.setPool pool) Q :=
  fun w hI hP => ⟨le_rfl, h w hI hP⟩

/-- An invariant that does not mention the clock. -/
def ClockFree (I : World → Prop) : Prop :=
  ∀ w c, I w → I { w with clock := c }

theorem ClockFree.and_pool (hI : ClockFree I) (o : Option ConsensusPool) :
    ClockFree fun w => I w ∧ w.consensusPool = o :=
  fun w c h => ⟨hI w c h.1, h.2⟩

/-- Code that keeps every invariant not mentioning the clock keeps such a
precondition too. -/
theorem Triple.keep_clockFree {J : World → Prop} {m : PlayerM α}
    (h : ∀ I : World → Prop, ClockFree I → Triple I (fun _ => True) m fun _ _ => True)
    (hI : ClockFree I) (hJ : ClockFree J) : Triple I J m fun _ => J :=
  (h _ fun w c hw => ⟨hI w c hw.1, hJ w c hw.2⟩).frame_inv.mono (fun _ h => ⟨trivial, h⟩)
    fun _ _ h => h.2

/-- A call that changes nothing keeps every invariant that does not mention the clock. -/
theorem Triple.ask_of_clockFree (hI : ClockFree I) {answer : Nat → α}
    (h : ∀ w, P w → Q (answer w.clock) { w with clock := w.clock + 1 }) :
    Triple I P (IcReplay.ask answer) Q :=
  Triple.ask fun w hIw hP => ⟨hI w _ hIw, h w hP⟩

theorem Triple.getPool {Q : Option ConsensusPool → World → Prop}
    (h : ∀ w, P w → Q w.consensusPool w) : Triple I P IcReplay.getPool Q :=
  fun w hI hP => ⟨le_rfl, hI, h w hP⟩

/-- Reading a pool that the invariant fixes returns it. -/
theorem Triple.getPool_of_inv {o : Option ConsensusPool} {Q : Option ConsensusPool → World → Prop}
    (hI : ∀ w, I w → w.consensusPool = o) (h : ∀ w, P w → Q o w) :
    Triple I P IcReplay.getPool Q :=
  fun w hIw hP => ⟨le_rfl, hIw, hI w hIw ▸ h w hP⟩

/-- Reading the pool keeps the precondition and returns the pool. -/
theorem Triple.getPool_eq : Triple I P IcReplay.getPool fun o w => P w ∧ w.consensusPool = o :=
  Triple.getPool fun _ h => ⟨h, rfl⟩

/-- A run that keeps every invariant not mentioning the clock changes nothing but
the clock. -/
theorem Triple.endWorld_eq_of_clockFree {m : PlayerM α}
    (h : ∀ I : World → Prop, ClockFree I → Triple I (fun _ => True) m fun _ _ => True)
    (w : World) :
    IcReplay.endWorld (m w) = { w with clock := (IcReplay.endWorld (m w)).clock } := by
  obtain ⟨c, hc⟩ := (h (fun w' => ∃ c, w' = { w with clock := c })
    (fun _ c' ⟨_, h⟩ => ⟨c', by rw [h]⟩)).endWorld ⟨w.clock, rfl⟩ trivial
  rw [hc]

/-- A handler runs from wherever the guarded code stopped. -/
theorem Triple.tryCatch {m : PlayerM α} {handle : Stop → PlayerM α} (hm : Triple I P m Q)
    (hh : ∀ s, Triple I (fun _ => True) (handle s) Q) : Triple I P (tryCatch m handle) Q := by
  intro w hI hP
  have h1 := hm w hI hP
  show match EStateM.tryCatch m handle w with
    | .ok a w' => w.clock ≤ w'.clock ∧ I w' ∧ Q a w'
    | .error _ w' => w.clock ≤ w'.clock ∧ I w'
  cases hrun : m w with
  | ok a w1 => simpa only [EStateM.tryCatch, hrun] using h1
  | error s w1 =>
    rw [hrun] at h1
    have h2 := hh s w1 h1.2 trivial
    simp only [EStateM.tryCatch, hrun, EStateM.Backtrackable.restore, EStateM.dummyRestore]
    cases hh2 : handle s w1 <;> rw [hh2] at h2 <;> exact ⟨le_trans h1.1 h2.1, h2.2⟩

/-- A loop keeps an invariant `J` of its iterations, and breaks with `Q`. -/
theorem Triple.loop {J : World → Prop} {body : PlayerM (Option α)}
    (h : Triple I J body fun r w => match r with
      | none => J w
      | some a => Q a w) :
    Triple I J (IcReplay.loop body) Q := by
  have hfor : ∀ n, Triple I J (loopFor body n) Q := by
    intro n
    induction n with
    | zero => exact Triple.throw _
    | succ n ih =>
      refine Triple.bind h fun r => ?_
      cases r with
      | none => exact ih
      | some a => exact Triple.pure a fun _ hQ => hQ
  exact fun w hI hJ => hfor w.fuel w hI hJ

/-- A `for` loop over a list keeps an invariant `J` of its iterations. -/
theorem Triple.forM {J : World → Prop} {xs : List β} {f : β → PlayerM PUnit}
    (h : ∀ x ∈ xs, Triple I J (f x) fun _ => J) :
    Triple I J (xs.forM f) fun _ => J := by
  induction xs with
  | nil => exact Triple.pure _ fun _ hJ => hJ
  | cons x xs ih =>
    exact Triple.bind (h x (List.mem_cons_self _ _)) fun _ =>
      ih fun y hy => h y (List.mem_cons_of_mem _ hy)

/-- A `for` loop whose every iteration that returns appends `ev x` appends the
events of its elements in their order. -/
theorem Triple.forM_appends {f : β → PlayerM PUnit} (ev : β → List Event)
    (hf : ∀ x l, Triple I (fun w => w.log = l) (f x) fun _ w => w.log = l ++ ev x) :
    ∀ (xs : List β) (l : List Event),
      Triple I (fun w => w.log = l) (xs.forM f) fun _ w => w.log = l ++ xs.flatMap ev
  | [], l => Triple.pure _ fun _ hl => by simp [hl]
  | x :: xs, l => Triple.bind (hf x l) fun _ =>
      (Triple.forM_appends ev hf xs (l ++ ev x)).mono (fun _ h => h) fun _ _ h => by simp [h]

end Triple

/-! ## Which `Err`s code returns -/

section ErrOnly

variable {α β : Type} {E : ReplayError → World → Prop}

/-- Every `Err` that `m` returns satisfies `E`, together with the world it leaves;
a panic or an exhausted loop is no `Err`. -/
def ErrOnly (E : ReplayError → World → Prop) (m : PlayerM α) : Prop :=
  ∀ w e w', m w = .error (.replayError e) w' → E e w'

/-- `m` returns no `Err` of its own: it returns, panics or runs out of fuel. -/
def NeverErr (m : PlayerM α) : Prop :=
  ErrOnly (fun _ _ => False) m

theorem ErrOnly.pure (a : α) : ErrOnly E (Pure.pure a : PlayerM α) :=
  fun _ _ _ h => nomatch h

theorem ErrOnly.abort (message : String) : ErrOnly E (IcReplay.abort message : PlayerM α) :=
  fun _ _ _ h => nomatch h

theorem ErrOnly.ask (answer : Nat → α) : ErrOnly E (IcReplay.ask answer) :=
  fun _ _ _ h => nomatch h

theorem ErrOnly.call (answer : Nat → α) (changes : Nat → α → List Event) :
    ErrOnly E (IcReplay.call answer changes) :=
  fun _ _ _ h => nomatch h

theorem ErrOnly.getPool : ErrOnly E IcReplay.getPool :=
  fun _ _ _ h => nomatch h

theorem ErrOnly.setPool (pool : Option ConsensusPool) : ErrOnly E (IcReplay.setPool pool) :=
  fun _ _ _ h => nomatch h

theorem ErrOnly.bind {m : PlayerM α} {f : α → PlayerM β} (hm : ErrOnly E m)
    (hf : ∀ a, ErrOnly E (f a)) : ErrOnly E (m >>= f) := by
  intro w e w' h
  cases hrun : m w with
  | ok a w1 => exact hf a w1 e w' (by rwa [bind_ok hrun] at h)
  | error s w1 =>
    rw [bind_error hrun] at h
    cases h
    exact hm w e _ hrun

theorem ErrOnly.loop {body : PlayerM (Option α)} (h : ErrOnly E body) :
    ErrOnly E (IcReplay.loop body) := by
  have hfor : ∀ n, ErrOnly E (loopFor body n) := by
    intro n
    induction n with
    | zero => exact fun _ _ _ h => nomatch h
    | succ n ih =>
      refine ErrOnly.bind h fun r => ?_
      cases r with
      | none => exact ih
      | some a => exact ErrOnly.pure a
  exact fun w => hfor w.fuel w

theorem ErrOnly.forM {xs : List β} {f : β → PlayerM PUnit} (h : ∀ x, ErrOnly E (f x)) :
    ErrOnly E (xs.forM f) := by
  induction xs with
  | nil => exact ErrOnly.pure _
  | cons x xs ih => exact ErrOnly.bind (h x) fun _ => ih

/-- Where the code after `m` returns no `Err`, an `Err` of the whole is one of `m`,
with the same world. -/
theorem bind_error_of_neverErr {m : PlayerM α} {f : α → PlayerM β} {w w' : World}
    {e : ReplayError} (hf : ∀ a, NeverErr (f a)) (h : (m >>= f) w = .error (.replayError e) w') :
    m w = .error (.replayError e) w' := by
  cases hrun : m w with
  | ok a w1 => exact (hf a w1 e w' (by rwa [bind_ok hrun] at h)).elim
  | error s w1 => rw [bind_error hrun] at h; cases h; rfl

/-- Where `m` returns no `Err`, an `Err` of `m >>= f` is one of `f`, run from where
`m` returned. -/
theorem NeverErr.bind_eq_error {m : PlayerM α} {f : α → PlayerM β} {w w' : World}
    {e : ReplayError} (hm : NeverErr m) (h : (m >>= f) w = .error (.replayError e) w') :
    ∃ a w1, m w = .ok a w1 ∧ f a w1 = .error (.replayError e) w' :=
  (IcReplay.bind_eq_error h).resolve_left fun hm' => hm _ _ _ hm'

/-- A stop of {lit}`tryCatch m handle` is one of the handler, run on a stop of `m`
in the world `m` left. -/
theorem tryCatch_eq_error {m : PlayerM α} {handle : Stop → PlayerM α} {w w' : World}
    {s : Stop} (h : tryCatch m handle w = .error s w') :
    ∃ s1 w1, m w = .error s1 w1 ∧ handle s1 w1 = .error s w' := by
  change EStateM.tryCatch m handle w = _ at h
  cases hrun : m w with
  | ok a w1 => simp only [EStateM.tryCatch, hrun] at h; cases h
  | error s1 w1 =>
    simp only [EStateM.tryCatch, hrun, EStateM.Backtrackable.restore, EStateM.dummyRestore] at h
    exact ⟨s1, w1, rfl, h⟩

end ErrOnly

end IcReplay
