import AvaListener.Audio.DecodeHistory
import AvaListener.Kernel.WakeLog
import AvaListener.Matcher.AsciiText

/-!
# The listening loop

`SherpaStreamer` and `WakeEngine` closed into one loop: the worker hands each
hypothesis to `_on_hypothesis`, and a wake ends with `_reset_stream` of the very
streamer that delivered it.  The watchdog may reset the stream between two chunks,
and the streamer may be started again.

So every wake ends its stream, and the generations count the streams.
-/

namespace AvaListener
namespace Kernel

open Library Config Matcher Audio

/-! ## The loop -/

/-- Who asked for a new stream. -/
inductive Renewal where
  | start
  | inactivity
  | wake
  | watchdog
  deriving DecidableEq, Repr

/-- What one step of the loop did. -/
structure LoopReport where
  delivery : Option Delivery
  wake : Option WakeEvent
  renewal : Option Renewal

/-- The streamer's worker and the engine behind its callback. -/
structure Listener (κ : Type*) where
  worker : AudioWorker κ
  engine : WakeEngine

inductive LoopInput (κ : Type*) where
  /-- `SherpaStreamer.start`, up to the loop. -/
  | start (now : ℚ)
  /-- A chunk; `clock` and `resetAt` are read by the callback, if it is called. -/
  | chunk (i : ChunkInput κ) (clock : CallClock) (resetAt : ℚ)
  /-- `_reset_stream`, by the watchdog. -/
  | resetStream (now : ℚ)
  | reconfigure (m : MatcherState)
  | loadProfile (wakePhrases : List PhraseEntry)
  | setPaused (paused : Bool)

namespace Listener

variable {κ : Type*} (lib : TextLib)

def init (m : MatcherState) (now : ℚ) : Listener κ := ⟨.init now, .init m⟩

/-- The `_on_hypothesis` call of a delivery. -/
def callOf (d : Delivery) (clock : CallClock) : Call :=
  ⟨d.text, d.stability, d.peak, d.generationId, clock⟩

/-- The callback on a delivery. -/
def answer (e : WakeEngine) (d : Delivery) (clock : CallClock) :
    WakeEngine × Option CallReport :=
  e.onHypothesis lib (callOf d clock)

/-- A chunk: the iteration, its callback, and the reset that a wake ends with. -/
def hear (l : Listener κ) (i : ChunkInput κ) (clock : CallClock) (resetAt : ℚ) :
    Listener κ × LoopReport :=
  let heard := l.worker.iterate i
  match heard.2 with
  | none =>
      ({ l with worker := heard.1 },
        ⟨none, none, if l.worker.resetsStream i then some .inactivity else none⟩)
  | some d =>
      let answered := answer lib l.engine d clock
      match WakeEngine.wakeOf answered.2 with
      | none => (⟨heard.1, answered.1⟩, ⟨some d, none, none⟩)
      | some w => (⟨heard.1.resetStream resetAt, answered.1⟩, ⟨some d, some w, some .wake⟩)

def step (l : Listener κ) : LoopInput κ → Listener κ × LoopReport
  | .start now =>
      ({ l with worker := { l.worker with provider := l.worker.provider.reset now } },
        ⟨none, none, some .start⟩)
  | .chunk i clock resetAt => l.hear lib i clock resetAt
  | .resetStream now =>
      ({ l with worker := l.worker.resetStream now }, ⟨none, none, some .watchdog⟩)
  | .reconfigure m => ({ l with engine := { l.engine with matcher := m } }, ⟨none, none, none⟩)
  | .loadProfile wakePhrases =>
      ({ l with engine := (l.engine.step lib (.loadProfile wakePhrases)).1 }, ⟨none, none, none⟩)
  | .setPaused paused =>
      ({ l with engine := { l.engine with detectionPaused := paused } }, ⟨none, none, none⟩)

/-- The state and the log of a listener that is started and then runs. -/
def started (m : MatcherState) (created now : ℚ) : Listener κ :=
  ((init m created).step lib (.start now)).1

/-- The wakes of a log, in order. -/
def wakes (log : List (LoopInput κ × LoopReport)) : List WakeEvent :=
  log.filterMap fun entry => entry.2.wake

/-- The renewals of a log, in order. -/
def renewals (log : List (LoopInput κ × LoopReport)) : List Renewal :=
  log.filterMap fun entry => entry.2.renewal

/-! ## Streams -/

/-- The provider still has the stream of `p`. -/
structure SameStream (p q : SherpaProvider κ) : Prop where
  stream : q.stream ≠ none
  generationId : q.generationId = p.generationId
  resetCount : q.resetCount = p.resetCount

/-- The provider has the stream after that of `p`. -/
structure NextStream (p q : SherpaProvider κ) : Prop where
  stream : q.stream ≠ none
  generationId : q.generationId = p.generationId + 1
  resetCount : q.resetCount = p.resetCount + 1

theorem NextStream.reset (p : SherpaProvider κ) (now : ℚ) : NextStream p (p.reset now) :=
  ⟨by simp [SherpaProvider.reset], rfl, rfl⟩

theorem SameStream.next {p q r : SherpaProvider κ} (h : SameStream p q) (hnext : NextStream q r) :
    NextStream p r where
  stream := hnext.stream
  generationId := by rw [hnext.generationId, h.generationId]
  resetCount := by rw [hnext.resetCount, h.resetCount]

theorem SameStream.trans {p q r : SherpaProvider κ} (h : SameStream p q) (hqr : SameStream q r) :
    SameStream p r :=
  ⟨hqr.stream, hqr.generationId.trans h.generationId, hqr.resetCount.trans h.resetCount⟩

theorem SameStream.accept {p : SherpaProvider κ} (h : p.stream ≠ none) (now : ℚ) (chunk : κ) :
    SameStream p (p.accept now chunk) := by
  obtain ⟨fed, hfed⟩ := Option.ne_none_iff_exists'.mp h
  rw [SherpaProvider.accept, hfed]
  exact ⟨by simp, rfl, rfl⟩

theorem SameStream.foldl_accept {p : SherpaProvider κ} (h : p.stream ≠ none) (now : ℚ)
    (chunks : List κ) : SameStream p (chunks.foldl (fun p c => p.accept now c) p) := by
  induction chunks generalizing p with
  | nil => exact ⟨h, rfl, rfl⟩
  | cons c rest ih =>
      have hone := SameStream.accept h now c
      exact hone.trans (ih hone.stream)

section Iteration

variable {w : AudioWorker κ} (h : w.provider.stream ≠ none) (i : ChunkInput κ)

include h

theorem SameStream.prepared : SameStream w.provider (w.prepared i).provider := by
  rcases (AudioWorker.prepared_frame w i).2 with hsame | hflushed
  · rw [hsame]
    exact ⟨h, rfl, rfl⟩
  · rw [hflushed]
    exact SameStream.foldl_accept h _ _

theorem SameStream.feed : SameStream w.provider (w.feed i).provider := by
  unfold AudioWorker.feed
  split
  · exact SameStream.accept h _ _
  · split
    · exact SameStream.accept h _ _
    · exact ⟨h, rfl, rfl⟩

/-- An iteration keeps the stream, unless it ends in the inactivity reset; a delivery
carries the generation of the stream. -/
theorem iterate_stream :
    (if w.resetsStream i then NextStream w.provider (w.iterate i).1.provider
      else SameStream w.provider (w.iterate i).1.provider) ∧
      ∀ d, (w.iterate i).2 = some d →
        w.resetsStream i = false ∧ d.generationId = w.provider.generationId := by
  have hprepared := SameStream.prepared h i
  unfold AudioWorker.iterate
  by_cases htimes : w.timesOut i = true
  · rw [if_pos htimes]
    refine ⟨?_, fun d hd => by cases hd⟩
    by_cases hresets : w.resetsStream i = true
    · rw [if_pos hresets, if_pos hresets]
      exact hprepared.next (NextStream.reset _ i.now)
    · rw [if_neg hresets, if_neg hresets]
      exact hprepared
  · have hkept : w.resetsStream i = false := by simp [AudioWorker.resetsStream, htimes]
    have hfed := hprepared.trans (SameStream.feed hprepared.stream i)
    have hdelivered : ((((w.prepared i).feed i).deliver i).1).provider =
        ((w.prepared i).feed i).provider := by
      obtain ⟨last, stable, peak, hframe⟩ := AudioWorker.deliver_frame ((w.prepared i).feed i) i
      rw [hframe]
    rw [if_neg htimes, hkept, if_neg Bool.false_ne_true, hdelivered]
    refine ⟨hfed, fun d hd => ⟨rfl, ?_⟩⟩
    have hgeneration : d.generationId = ((w.prepared i).feed i).provider.generationId := by
      unfold AudioWorker.deliver at hd
      dsimp only at hd
      split at hd
      · cases hd
      · split at hd
        · obtain rfl := Option.some.inj hd
          rfl
        · cases hd
    rw [hgeneration, hfed.generationId]

end Iteration

/-! ## Gates -/

/-- The engines have the same gates, and woke as often. -/
structure SameGates (e f : WakeEngine) : Prop where
  lastTriggerGeneration : f.lastTriggerGeneration = e.lastTriggerGeneration
  cooldown : f.cooldown = e.cooldown
  wakeCount : f.wakeCount = e.wakeCount

/-- `f` is `e` after the wake `w`. -/
structure Woken (e f : WakeEngine) (w : WakeEvent) : Prop where
  lastTriggerGeneration : f.lastTriggerGeneration = w.generationId
  cooldown : f.cooldown = ⟨w.markedAt⟩
  wakeCount : f.wakeCount = e.wakeCount + 1
  spaced : e.cooldown.lastTrigger + cooldownSeconds ≤ w.markedAt

theorem wakeCount_scored (e : WakeEngine) (c : Call) :
    (e.scored lib c).wakeCount = e.wakeCount := by
  obtain ⟨_, _, _, hframe⟩ := WakeEngine.trackCandidate_frame lib e c (e.observe lib c)
  simp [WakeEngine.scored, hframe]

theorem wakeCount_fire (e : WakeEngine) (c : Call) (w : WakeEvent) :
    (e.fire c w).wakeCount = e.wakeCount + 1 := by
  unfold WakeEngine.fire WakeEngine.confirmCandidate
  dsimp only
  split
  · rfl
  · rfl

/-- What the callback does to the gates. -/
theorem answer_gates (e : WakeEngine) (d : Delivery) (clock : CallClock) :
    (WakeEngine.wakeOf (answer lib e d clock).2 = none ∧ SameGates e (answer lib e d clock).1) ∨
    ∃ w, WakeEngine.wakeOf (answer lib e d clock).2 = some w ∧
      w.generationId = d.generationId ∧ Woken e (answer lib e d clock).1 w := by
  set c := callOf d clock with hc
  cases hpaused : e.detectionPaused with
  | true =>
      left
      rw [answer, WakeEngine.onHypothesis_paused lib e _ hpaused]
      exact ⟨rfl, rfl, rfl, rfl⟩
  | false =>
      by_cases htriggers : e.Triggers lib c
      · right
        have hopen := (CooldownGate.canTrigger_iff _ _).mp htriggers.2.2
        rw [answer, ← hc, WakeEngine.onHypothesis_fired lib e c hpaused htriggers]
        refine ⟨e.wakeEvent lib c, rfl, rfl, ?_, ?_, ?_, ?_⟩
        · exact WakeEngine.fire_lastTriggerGeneration _ _ _
        · exact WakeEngine.fire_cooldown _ _ _
        · rw [wakeCount_fire, wakeCount_scored]
        · exact hopen.trans c.clock.cooldownCheck_le_marked
      · left
        rw [answer, ← hc, WakeEngine.onHypothesis_quiet lib e c hpaused htriggers]
        exact ⟨rfl, WakeEngine.scored_lastTriggerGeneration lib e c,
          WakeEngine.scored_cooldown lib e c, wakeCount_scored lib e c⟩

/-! ## Steps -/

/-- The stream is there, and the engine was never triggered in its generation. -/
structure Fresh (l : Listener κ) : Prop where
  stream : l.worker.provider.stream ≠ none
  untriggered : l.engine.lastTriggerGeneration < l.worker.provider.generationId

/-- Everything one step can do to streams and gates. -/
inductive StepsTo (l t : Listener κ) : LoopReport → Prop where
  | quiet (d : Option Delivery) (stream : SameStream l.worker.provider t.worker.provider)
      (gates : SameGates l.engine t.engine) : StepsTo l t ⟨d, none, none⟩
  | renewed (r : Renewal) (hr : r ≠ .wake)
      (stream : NextStream l.worker.provider t.worker.provider)
      (gates : SameGates l.engine t.engine) : StepsTo l t ⟨none, none, some r⟩
  | woken (d : Delivery) (w : WakeEvent)
      (generationId : w.generationId = l.worker.provider.generationId)
      (stream : NextStream l.worker.provider t.worker.provider)
      (woken : Woken l.engine t.engine w) : StepsTo l t ⟨some d, some w, some .wake⟩

variable {l t : Listener κ}

theorem stepsTo_hear (h : l.worker.provider.stream ≠ none) (i : ChunkInput κ) (clock : CallClock)
    (resetAt : ℚ) : StepsTo l (l.hear lib i clock resetAt).1 (l.hear lib i clock resetAt).2 := by
  obtain ⟨hstream, hdelivered⟩ := iterate_stream h i
  unfold hear
  dsimp only
  split
  · by_cases hresets : l.worker.resetsStream i = true
    · rw [if_pos hresets] at hstream ⊢
      exact .renewed .inactivity (by decide) hstream ⟨rfl, rfl, rfl⟩
    · rw [if_neg hresets] at hstream ⊢
      exact .quiet none hstream ⟨rfl, rfl, rfl⟩
  next d hd =>
    obtain ⟨hkept, hgeneration⟩ := hdelivered d hd
    rw [hkept, if_neg Bool.false_ne_true] at hstream
    rcases answer_gates lib l.engine d clock with ⟨hnone, hgates⟩ | ⟨w, hwake, hlabel, hwoken⟩
    · rw [hnone]
      exact .quiet (some d) hstream hgates
    · rw [hwake]
      exact .woken d w (hlabel.trans hgeneration) (hstream.next (NextStream.reset _ resetAt)) hwoken

theorem stepsTo_step (h : l.worker.provider.stream ≠ none) (input : LoopInput κ) :
    StepsTo l (l.step lib input).1 (l.step lib input).2 := by
  cases input with
  | start now => exact .renewed .start (by decide) (NextStream.reset _ now) ⟨rfl, rfl, rfl⟩
  | chunk i clock resetAt => exact stepsTo_hear lib h i clock resetAt
  | resetStream now =>
      exact .renewed .watchdog (by decide) (NextStream.reset _ now) ⟨rfl, rfl, rfl⟩
  | reconfigure m => exact .quiet none ⟨h, rfl, rfl⟩ ⟨rfl, rfl, rfl⟩
  | loadProfile wakePhrases =>
      refine .quiet none ⟨h, rfl, rfl⟩ ?_
      obtain ⟨m, hm⟩ :=
        WakeEngine.step_reconfigures lib l.engine (.loadProfile wakePhrases) (by simp)
      show SameGates l.engine (l.engine.step lib (.loadProfile wakePhrases)).1
      rw [hm]
      exact ⟨rfl, rfl, rfl⟩
  | setPaused paused => exact .quiet none ⟨h, rfl, rfl⟩ ⟨rfl, rfl, rfl⟩

theorem StepsTo.fresh {report : LoopReport} (h : StepsTo l t report) (hfresh : l.Fresh) :
    t.Fresh := by
  have hbefore := hfresh.untriggered
  cases h with
  | quiet d hstream hgates =>
      refine ⟨hstream.stream, ?_⟩
      rw [hgates.lastTriggerGeneration, hstream.generationId]
      exact hbefore
  | renewed r hr hstream hgates =>
      refine ⟨hstream.stream, ?_⟩
      rw [hgates.lastTriggerGeneration, hstream.generationId]
      push_cast
      omega
  | woken d w hgeneration hstream hwoken =>
      refine ⟨hstream.stream, ?_⟩
      rw [hwoken.lastTriggerGeneration, hstream.generationId, hgeneration]
      push_cast
      omega

theorem fresh_started (m : MatcherState) (created now : ℚ) :
    (started lib m created now : Listener κ).Fresh := by
  refine ⟨(NextStream.reset _ now).stream, ?_⟩
  show (-1 : ℤ) < ((1 : ℕ) : ℤ)
  decide

/-! ## Runs -/

/-- What the log of a started listener says about its state. -/
structure Accounted (log : List (LoopInput κ × LoopReport)) (l : Listener κ) : Prop
    extends Fresh l where
  /-- The first stream is that of the start. -/
  streams : l.worker.provider.generationId = 1 + (renewals log).length
  resets : l.worker.provider.resetCount = l.worker.provider.generationId
  counted : l.engine.wakeCount = (wakes log).length
  renewed : (renewals log).count .wake = (wakes log).length
  ended : ∀ w ∈ wakes log, w.generationId < l.worker.provider.generationId
  increasing : (wakes log).Pairwise fun a b => a.generationId < b.generationId
  marked : ∀ w ∈ wakes log, w.markedAt ≤ l.engine.cooldown.lastTrigger
  spaced : (wakes log).Pairwise fun a b => a.markedAt + cooldownSeconds ≤ b.markedAt

theorem accounted_started (m : MatcherState) (created now : ℚ) :
    Accounted [] (started lib m created now : Listener κ) where
  toFresh := fresh_started lib m created now
  streams := rfl
  resets := rfl
  counted := rfl
  renewed := rfl
  ended := by simp [wakes]
  increasing := .nil
  marked := by simp [wakes]
  spaced := .nil

/-- **One step of the account.** -/
theorem Accounted.step {log : List (LoopInput κ × LoopReport)} (h : Accounted log l)
    (input : LoopInput κ) {report : LoopReport} (hstep : StepsTo l t report) :
    Accounted (log ++ [(input, report)]) t := by
  have hfresh := hstep.fresh h.toFresh
  cases hstep with
  | quiet d hstream hgates =>
      have hwakes : wakes (log ++ [(input, ⟨d, none, none⟩)]) = wakes log := by simp [wakes]
      have hrenewals : renewals (log ++ [(input, ⟨d, none, none⟩)]) = renewals log := by
        simp [renewals]
      refine ⟨hfresh, ?_, ?_, ?_, ?_, ?_, ?_, ?_, ?_⟩
      · rw [hrenewals, hstream.generationId, h.streams]
      · rw [hstream.resetCount, hstream.generationId, h.resets]
      · rw [hwakes, hgates.wakeCount, h.counted]
      · rw [hwakes, hrenewals, h.renewed]
      · rw [hwakes, hstream.generationId]
        exact h.ended
      · rw [hwakes]
        exact h.increasing
      · rw [hwakes, hgates.cooldown]
        exact h.marked
      · rw [hwakes]
        exact h.spaced
  | renewed r hr hstream hgates =>
      have hwakes : wakes (log ++ [(input, ⟨none, none, some r⟩)]) = wakes log := by simp [wakes]
      have hrenewals : renewals (log ++ [(input, ⟨none, none, some r⟩)]) = renewals log ++ [r] := by
        simp [renewals]
      refine ⟨hfresh, ?_, ?_, ?_, ?_, ?_, ?_, ?_, ?_⟩
      · rw [hrenewals, hstream.generationId, h.streams, List.length_append, List.length_singleton,
          Nat.add_assoc]
      · rw [hstream.resetCount, hstream.generationId, h.resets]
      · rw [hwakes, hgates.wakeCount, h.counted]
      · rw [hwakes, hrenewals, List.count_append, List.count_singleton, h.renewed]
        simp [hr]
      · rw [hwakes, hstream.generationId]
        exact fun w hw => Nat.lt_succ_of_lt (h.ended w hw)
      · rw [hwakes]
        exact h.increasing
      · rw [hwakes, hgates.cooldown]
        exact h.marked
      · rw [hwakes]
        exact h.spaced
  | woken d w hgeneration hstream hwoken =>
      have hwakes : wakes (log ++ [(input, ⟨some d, some w, some .wake⟩)]) = wakes log ++ [w] := by
        simp [wakes]
      have hrenewals : renewals (log ++ [(input, ⟨some d, some w, some .wake⟩)]) =
          renewals log ++ [.wake] := by
        simp [renewals]
      have hspacing : ∀ v ∈ wakes log, v.markedAt + cooldownSeconds ≤ w.markedAt :=
        fun v hv => (add_le_add_left (h.marked v hv) _).trans hwoken.spaced
      refine ⟨hfresh, ?_, ?_, ?_, ?_, ?_, ?_, ?_, ?_⟩
      · rw [hrenewals, hstream.generationId, h.streams, List.length_append, List.length_singleton,
          Nat.add_assoc]
      · rw [hstream.resetCount, hstream.generationId, h.resets]
      · rw [hwakes, hwoken.wakeCount, h.counted, List.length_append, List.length_singleton]
      · rw [hwakes, hrenewals, List.count_append, List.count_singleton_self, h.renewed,
          List.length_append, List.length_singleton]
      · rw [hwakes, hstream.generationId]
        intro v hv
        rcases List.mem_append.mp hv with hold | hnew
        · exact Nat.lt_succ_of_lt (h.ended v hold)
        · obtain rfl := List.mem_singleton.mp hnew
          rw [hgeneration]
          exact Nat.lt_succ_self _
      · rw [hwakes, List.pairwise_append]
        refine ⟨h.increasing, List.pairwise_singleton _ _, ?_⟩
        intro a ha b hb
        obtain rfl := List.mem_singleton.mp hb
        rw [hgeneration]
        exact h.ended a ha
      · rw [hwakes, hwoken.cooldown]
        intro v hv
        rcases List.mem_append.mp hv with hold | hnew
        · have hpos : (0 : ℚ) ≤ cooldownSeconds := by decide +kernel
          exact (le_add_of_nonneg_right hpos).trans (hspacing v hold)
        · obtain rfl := List.mem_singleton.mp hnew
          exact le_rfl
      · rw [hwakes, List.pairwise_append]
        refine ⟨h.spaced, List.pairwise_singleton _ _, ?_⟩
        intro a ha b hb
        obtain rfl := List.mem_singleton.mp hb
        exact hspacing a ha

/-- The account holds along every run. -/
theorem accounted_run (m : MatcherState) (created now : ℚ) (inputs : List (LoopInput κ)) :
    Accounted (trace (step lib) (started lib m created now) inputs)
      (finalState (step lib) (started lib m created now) inputs) := by
  refine history_invariant (step lib)
    (fun past l => Accounted (trace (step lib) (started lib m created now) past) l)
    (accounted_started lib m created now) ?_ inputs
  intro past i h
  rw [trace_append]
  exact h.step i (stepsTo_step lib h.stream i)

/-- **Every wake ends its stream.**  Over every run of a started listener, whatever is heard,
reset, reloaded or paused in between: the streams are the first one and one for each
renewal, as many of them due to wakes as `_wake_count` says; the wakes come from streams of
their own, all of them over, and lie a cooldown apart. -/
theorem wakes_end_streams (m : MatcherState) (created now : ℚ) (inputs : List (LoopInput κ)) :
    let l := finalState (step lib) (started lib m created now) inputs
    let log := trace (step lib) (started lib m created now) inputs
    l.worker.provider.generationId = 1 + (renewals log).length ∧
      l.worker.provider.resetCount = l.worker.provider.generationId ∧
      (renewals log).count .wake = l.engine.wakeCount ∧
      (wakes log).length = l.engine.wakeCount ∧
      (∀ w ∈ wakes log, w.generationId < l.worker.provider.generationId) ∧
      ((wakes log).Pairwise fun a b => a.generationId < b.generationId) ∧
      (wakes log).Pairwise fun a b => a.markedAt + cooldownSeconds ≤ b.markedAt := by
  have h := accounted_run lib m created now inputs
  exact ⟨h.streams, h.resets, h.renewed.trans h.counted.symm, h.counted.symm, h.ended,
    h.increasing, h.spaced⟩

/-- The two gates that decide in the loop. -/
def Opens (e : WakeEngine) (d : Delivery) (clock : CallClock) : Prop :=
  let w := e.wakeEvent lib (callOf d clock)
  e.detectionPaused = false ∧
    WakeEngine.confident w.phrase w.rawConfidence w.smoothConfidence = true ∧
    e.cooldown.canTrigger clock.cooldownCheck = true

/-- **The generation gate never decides.**  In the closed loop the gate in front of the cooldown
is open at every call: a delivered hypothesis wakes exactly when detection is not paused, the
confidence suffices and the cooldown is over. -/
theorem delivery_wakes_iff (m : MatcherState) (created now : ℚ) (inputs : List (LoopInput κ)) :
    ∀ v ∈ visits (step lib) (started lib m created now) inputs,
      ∀ i clock resetAt d, v.2 = .chunk i clock resetAt →
        (v.1.worker.iterate i).2 = some d →
          ((v.1.step lib v.2).2.wake.isSome = true ↔ Opens lib v.1.engine d clock) := by
  intro v hv i clock resetAt d hinput hd
  have hfresh := (visits_invariant (step lib) Fresh inputs (fresh_started lib m created now)
    (fun t j _ ht => (stepsTo_step lib ht.stream j).fresh ht) v hv).1
  have hgeneration := ((iterate_stream hfresh.stream i).2 d hd).2
  have hopen : ((callOf d clock).generationId : ℤ) ≠ v.1.engine.lastTriggerGeneration := by
    show (d.generationId : ℤ) ≠ v.1.engine.lastTriggerGeneration
    rw [hgeneration]
    exact hfresh.untriggered.ne'
  have hwake : (v.1.step lib v.2).2.wake =
      WakeEngine.wakeOf (v.1.engine.onHypothesis lib (callOf d clock)).2 := by
    rw [hinput]
    show (v.1.hear lib i clock resetAt).2.wake = _
    unfold hear answer
    simp only [hd]
    split
    · rename_i hnone
      exact hnone.symm
    · rename_i hsome
      exact hsome.symm
  rw [hwake, Option.isSome_iff_exists]
  simp only [WakeEngine.wakeOf_onHypothesis_eq_some_iff]
  constructor
  · rintro ⟨w, hpaused, ⟨hconfident, -, hcooldown⟩, -⟩
    exact ⟨hpaused, hconfident, hcooldown⟩
  · rintro ⟨hpaused, hconfident, hcooldown⟩
    exact ⟨_, hpaused, ⟨hconfident, hopen, hcooldown⟩, rfl⟩

/-- A chunk at which the recogniser reads the configured phrase. -/
def saysPhrase (chunk : ℕ) (t : ℚ) : LoopInput ℕ :=
  .chunk ⟨chunk, true, "hey assistant".toList, t⟩ (.still t) t

/-- The phrase is heard three times. -/
def phraseHeard : List (LoopInput ℕ) :=
  [.loadProfile AsciiText.customWakePhrases, saysPhrase 1 10, saysPhrase 2 10.1,
    saysPhrase 3 10.2]

theorem phraseHeard_wakes :
    wakes (trace (step AsciiText.lib) (started AsciiText.lib .empty 0 0) phraseHeard) ≠ [] ∧
      ((((finalState (step AsciiText.lib) (started AsciiText.lib .empty 0 0)
        (phraseHeard.take 3)).step AsciiText.lib (saysPhrase 3 10.2)).2.wake.isSome = true) ↔
          Opens AsciiText.lib
            (finalState (step AsciiText.lib) (started AsciiText.lib .empty 0 0)
              (phraseHeard.take 3)).engine
            ⟨"hey assistant".toList, 2, "hey assistant".toList, 1⟩ (.still 10.2)) :=
  ⟨by decide +kernel,
    delivery_wakes_iff AsciiText.lib .empty 0 0 phraseHeard (_, saysPhrase 3 10.2)
      (.tail _ (.tail _ (.tail _ (.head _)))) _ _ _ _ rfl (by decide +kernel)⟩

end Listener

end Kernel
end AvaListener
