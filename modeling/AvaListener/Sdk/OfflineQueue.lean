import AvaListener.Library.Outbox
import AvaListener.Library.PyText
import AvaListener.Sdk.ReconnectSeries

/-!
# The offline queue of the SDK's transport

`send`, `_classifyMessage`, `_rawSend` and `_flushOfflineQueue` of `node/transport.js`, over
the reconnect series.  Guaranteed and retry-class envelopes that are sent while there is no
connection wait for the `then` of a reconnect; all others are dropped.

Listeners of an event send before the next callback, those of `connected` and `reconnected`
before the `then` has flushed the queue.  The `then` runs before anything else can happen to
the socket.
-/

namespace AvaListener
namespace Sdk

open Library

variable {π : Type*}

/-! ## Envelopes -/

/-- `GUARANTEED`. -/
def guaranteedTypes : List Text := ["wake".toList, "fatal_error".toList]

/-- `RETRY`. -/
def retryTypes : List Text := ["speech_start".toList, "speech_end".toList, "error".toList]

/-- `BEST_EFFORT`. -/
def bestEffortTypes : List Text := ["partial_transcript".toList, "hypothesis_update".toList]

inductive ReliabilityClass where
  | guaranteed
  | retry
  | bestEffort
  | fireAndForget
  deriving DecidableEq

/-- `_classifyMessage`. -/
def classifyMessage (type : Text) : ReliabilityClass :=
  if type ∈ guaranteedTypes then .guaranteed
  else if type ∈ retryTypes then .retry
  else if type ∈ bestEffortTypes then .bestEffort
  else .fireAndForget

structure OutEnvelope (π : Type*) where
  type : Text
  sessionId : Option Text
  content : π
  deriving DecidableEq

/-- Sent in a class that is queued offline. -/
def OutEnvelope.critical (e : OutEnvelope π) : Bool :=
  classifyMessage e.type = .guaranteed || classifyMessage e.type = .retry

/-- `if (!envelope.sessionId) envelope.sessionId = this.sessionId`. -/
def OutEnvelope.withSession (e : OutEnvelope π) (own : Text) : OutEnvelope π :=
  if e.sessionId = none ∨ e.sessionId = some [] then { e with sessionId := some own } else e

/-! ## The machine -/

/-- An envelope and the number of its `send`. -/
abbrev Numbered (π : Type*) : Type _ := ℕ × OutEnvelope π

structure OfflineSender (π : Type*) where
  series : ReconnectSeries
  /-- `this.ws` is not null. -/
  ws : Bool
  offlineQueue : List (Numbered π)
  /-- What `_rawSend` has handed to the socket, oldest first. -/
  handedOver : List (Numbered π)
  /-- Not in the program: all calls of `send`, oldest first. -/
  sent : List (Numbered π)

inductive SenderLabel (π : Type*) where
  | callback (c : Callback)
  | send (e : OutEnvelope π)

/-- `this.ws` after a callback: `connect` makes a new socket, and `close` sets it to null. -/
def wsAfter (before after : SdkTransport) (ws : Bool) : Callback → Bool
  | .fire _ => true
  | .close => false
  | _ => if after.stopped = true ∧ before.stopped = false then false else ws

namespace OfflineSender

/-- `connect` has made the first socket. -/
def start : OfflineSender π := ⟨.start, true, [], [], []⟩

/-- The callbacks that can run in the state. -/
def Runs (s : OfflineSender π) : Callback → Prop
  | .continued => True
  | .close => True
  -- A `ws` socket that is closed while connecting does not open any more.
  | .opened => s.series.continuation = false ∧ s.ws = true
  | _ => s.series.continuation = false

instance (s : OfflineSender π) : ∀ c, Decidable (s.Runs c)
  | .continued => inferInstanceAs (Decidable True)
  | .close => inferInstanceAs (Decidable True)
  | .opened => inferInstanceAs (Decidable (_ ∧ _))
  | .errored => inferInstanceAs (Decidable (_ = _))
  | .closed _ _ => inferInstanceAs (Decidable (_ = _))
  | .fire _ => inferInstanceAs (Decidable (_ = _))

/-- `send` goes to the socket. -/
def Online (s : OfflineSender π) : Prop := s.series.transport.isConnected = true ∧ s.ws = true

instance (s : OfflineSender π) : Decidable s.Online := inferInstanceAs (Decidable (_ ∧ _))

/-- `_flushOfflineQueue`.  Without a socket `_rawSend` catches the exception, and the envelope
is lost. -/
def flushOfflineQueue (s : OfflineSender π) : OfflineSender π :=
  if s.ws then { s with handedOver := s.handedOver ++ s.offlineQueue, offlineQueue := [] }
  else { s with offlineQueue := [] }

variable (own : Text)

/-- `send`. -/
def send (s : OfflineSender π) (e : OutEnvelope π) : OfflineSender π :=
  let x := (s.sent.length, e.withSession own)
  let s := { s with sent := s.sent ++ [x] }
  if s.Online then { s with handedOver := s.handedOver ++ [x] }
  else if e.critical then { s with offlineQueue := s.offlineQueue ++ [x] }
  else s

def step (s : OfflineSender π) : SenderLabel π → Option (OfflineSender π)
  | .send e => some (s.send own e)
  | .callback c =>
      if s.Runs c then
        match s.series.step c with
        | none => none
        | some series =>
            let s := { s with
              series := series
              ws := wsAfter s.series.transport series.transport s.ws c }
            if c = .continued then some s.flushOfflineQueue else some s
      else none

/-! ## What a step does to the queue -/

/-- The queue and what has been handed over. -/
def outbox (s : OfflineSender π) : Outbox (Numbered π) := ⟨s.handedOver, s.offlineQueue⟩

/-- The same of the envelopes that are queued offline. -/
def criticalOutbox (s : OfflineSender π) : Outbox (Numbered π) :=
  ⟨s.handedOver.filter fun x => x.2.critical, s.offlineQueue⟩

/-- The next call of `send`. -/
def nextSent (s : OfflineSender π) (e : OutEnvelope π) : Numbered π :=
  (s.sent.length, e.withSession own)

variable {own}

@[simp] theorem critical_nextSent (s : OfflineSender π) (e : OutEnvelope π) :
    (s.nextSent own e).2.critical = e.critical := by
  show (e.withSession own).critical = e.critical
  unfold OutEnvelope.withSession
  split
  · rfl
  · rfl

/-- All that a `send` can do. -/
inductive Sends (s t : OfflineSender π) (x : Numbered π) : Prop where
  | handsOver (online : s.Online) (h : t.outbox = s.outbox.pass x)
  | queues (offline : ¬ s.Online) (critical : x.2.critical = true) (h : t.outbox = s.outbox.hold x)
  | drops (offline : ¬ s.Online) (critical : x.2.critical = false) (h : t.outbox = s.outbox)

theorem send_spec (own : Text) (s : OfflineSender π) (e : OutEnvelope π) :
    (s.send own e).series = s.series ∧ (s.send own e).ws = s.ws ∧
      (s.send own e).sent = s.sent ++ [s.nextSent own e] ∧
      Sends s (s.send own e) (s.nextSent own e) := by
  by_cases honline : s.Online
  · have hsend : s.send own e =
        { s with
          sent := s.sent ++ [s.nextSent own e]
          handedOver := s.handedOver ++ [s.nextSent own e] } := if_pos honline
    rw [hsend]
    exact ⟨rfl, rfl, rfl, .handsOver honline rfl⟩
  · by_cases hcritical : e.critical = true
    · have hsend : s.send own e =
          { s with
            sent := s.sent ++ [s.nextSent own e]
            offlineQueue := s.offlineQueue ++ [s.nextSent own e] } :=
        (if_neg honline).trans (if_pos hcritical)
      rw [hsend]
      refine ⟨rfl, rfl, rfl, .queues honline ?_ rfl⟩
      rw [critical_nextSent, hcritical]
    · have hsend : s.send own e = { s with sent := s.sent ++ [s.nextSent own e] } :=
        (if_neg honline).trans (if_neg hcritical)
      rw [hsend]
      refine ⟨rfl, rfl, rfl, .drops honline ?_ rfl⟩
      rw [critical_nextSent]
      exact Bool.eq_false_iff.mpr hcritical

theorem flushOfflineQueue_spec (s : OfflineSender π) :
    s.flushOfflineQueue.series = s.series ∧ s.flushOfflineQueue.ws = s.ws ∧
      s.flushOfflineQueue.sent = s.sent ∧
      s.flushOfflineQueue.outbox = if s.ws then s.outbox.flush else s.outbox.lose := by
  unfold flushOfflineQueue
  split
  · exact ⟨rfl, rfl, rfl, rfl⟩
  · exact ⟨rfl, rfl, rfl, rfl⟩

/-- All that a callback can do. -/
theorem callback_spec {s t : OfflineSender π} {c : Callback}
    (h : s.step own (.callback c) = some t) :
    s.Runs c ∧ s.series.step c = some t.series ∧
      t.ws = wsAfter s.series.transport t.series.transport s.ws c ∧ t.sent = s.sent ∧
      t.outbox =
        if c = .continued then (if t.ws then s.outbox.flush else s.outbox.lose) else s.outbox := by
  simp only [step] at h
  split at h
  next hruns =>
    refine ⟨hruns, ?_⟩
    split at h
    · cases h
    next series hseries =>
      split at h
      next hc =>
        obtain rfl := Option.some.inj h
        obtain ⟨hsame, hws, hsent, houtbox⟩ := flushOfflineQueue_spec
          { s with series := series, ws := wsAfter s.series.transport series.transport s.ws c }
        rw [hsame, hws, hsent, houtbox, if_pos hc]
        exact ⟨hseries, rfl, rfl, rfl⟩
      next hc =>
        obtain rfl := Option.some.inj h
        exact ⟨hseries, rfl, rfl, (if_neg hc).symm⟩
  · cases h

end OfflineSender

/-! ## The connection -/

namespace ReconnectSeries

/-- How the socket, the timer and the flag agree, whoever has called `close`. -/
structure Linked (s : ReconnectSeries) : Prop where
  connected : s.transport.isConnected = true → s.transport.socket = some .opened
  timer : s.transport.reconnectTimer ≠ none → s.transport.socket = none
  /-- The first socket comes before all attempts. -/
  first : s.transport.socket = some (.connecting false) → ∀ due now, .attempt due now ∉ s.log

theorem linked_start : start.Linked := ⟨nofun, nofun, nofun⟩

variable {s t : ReconnectSeries} {c : Callback}

/-- A closed socket, with a timer for the next one or without. -/
theorem closed_spec {now : ℕ} {closing : Option ClosingListener}
    (h : s.step (.closed now closing) = some t) :
    t.transport.isConnected = false ∧ t.transport.socket = none ∧
      (t.transport.stopped = false → s.transport.stopped = false) := by
  simp only [step] at h
  split at h
  · cases h
  · split at h
    next hstopped =>
      obtain rfl := Option.some.inj h
      exact ⟨rfl, rfl, id⟩
    next hstopped =>
      have hrunning : s.transport.stopped = false := Bool.eq_false_iff.mpr hstopped
      split at h
      · obtain rfl := Option.some.inj h
        exact ⟨rfl, rfl, fun _ => hrunning⟩
      · obtain rfl := Option.some.inj h
        unfold scheduleReconnect
        split
        · exact ⟨rfl, rfl, fun _ => hrunning⟩
        · split
          · exact ⟨rfl, rfl, fun _ => hrunning⟩
          · exact ⟨rfl, rfl, fun _ => hrunning⟩

/-- All callbacks but `closed`. -/
inductive Proceeds (s t : ReconnectSeries) : Callback → Prop where
  | opened (reconnect : Bool) (hsocket : s.transport.socket = some (.connecting reconnect))
      (h : t.transport = { s.transport with
        socket := some .opened, isConnected := true, reconnectAttempts := 0 })
      (hcontinuation : t.continuation = reconnect)
      (hlog : t.log = .emitted .connected :: .opened :: s.log) : Proceeds s t .opened
  | errored (h : t.transport = s.transport) (hcontinuation : t.continuation = s.continuation)
      (hlog : t.log = .emitted .error :: s.log) : Proceeds s t .errored
  | continued (h : t.transport = { s.transport with reconnectAttempts := 0 })
      (hlog : ∃ attempts, t.log = .emitted (.reconnected attempts) :: s.log) :
      Proceeds s t .continued
  | fire (now due : ℕ) (htimer : s.transport.reconnectTimer = some due)
      (h : t.transport = { s.transport with
        reconnectTimer := none
        reconnectAttempts := s.transport.reconnectAttempts + 1
        socket := some (.connecting true) }) : Proceeds s t (.fire now)
  | close (h : t.transport = s.transport.stop) (hlog : t.log = .stop :: s.log) :
      Proceeds s t .close

theorem proceeds_of_step (h : s.step c = some t) :
    Proceeds s t c ∨ ∃ now closing, c = .closed now closing := by
  cases c with
  | opened =>
      simp only [step] at h
      split at h
      next reconnect hsocket =>
        obtain rfl := Option.some.inj h
        exact .inl (.opened reconnect hsocket rfl rfl rfl)
      · cases h
  | errored =>
      simp only [step] at h
      split at h
      · cases h
      · obtain rfl := Option.some.inj h
        exact .inl (.errored rfl rfl rfl)
  | closed now closing => exact .inr ⟨now, closing, rfl⟩
  | continued =>
      simp only [step] at h
      split at h
      · obtain rfl := Option.some.inj h
        exact .inl (.continued rfl ⟨_, rfl⟩)
      · cases h
  | fire now =>
      simp only [step] at h
      split at h
      · cases h
      next due htimer =>
        split at h
        · obtain rfl := Option.some.inj h
          exact .inl (.fire now due htimer rfl)
        · cases h
  | close =>
      obtain rfl := Option.some.inj h
      exact .inl (.close rfl rfl)

theorem linked_step (hs : s.Linked) (h : s.step c = some t) : t.Linked := by
  rcases proceeds_of_step h with hproceeds | ⟨now, closing, rfl⟩
  · cases hproceeds with
    | opened reconnect hsocket ht _ _ =>
        have htimer : s.transport.reconnectTimer = none := by
          by_contra hrunning
          cases hsocket.symm.trans (hs.timer hrunning)
        refine ⟨?_, ?_, ?_⟩
        · rw [ht]
          exact fun _ => rfl
        · rw [ht]
          exact fun hrunning => absurd htimer hrunning
        · rw [ht]
          nofun
    | errored ht _ hlog =>
        refine ⟨by rw [ht]; exact hs.connected, by rw [ht]; exact hs.timer, ?_⟩
        intro hsocket due now
        rw [ht] at hsocket
        rw [hlog]
        simpa using hs.first hsocket due now
    | continued ht hlog =>
        obtain ⟨attempts, hlog⟩ := hlog
        refine ⟨by rw [ht]; exact hs.connected, by rw [ht]; exact hs.timer, ?_⟩
        intro hsocket due now
        rw [ht] at hsocket
        rw [hlog]
        simpa using hs.first hsocket due now
    | fire now due htimer ht =>
        refine ⟨?_, ?_, ?_⟩
        · intro hconnected
          rw [ht] at hconnected
          have hnone := hs.timer (by rw [htimer]; nofun)
          cases (hs.connected hconnected).symm.trans hnone
        · rw [ht]
          exact fun hrunning => absurd rfl hrunning
        · rw [ht]
          nofun
    | close ht hlog =>
        refine ⟨?_, ?_, ?_⟩
        · rw [ht]
          nofun
        · rw [ht]
          exact fun hrunning => absurd rfl hrunning
        · intro hsocket due now
          rw [ht] at hsocket
          rw [hlog]
          simpa using hs.first hsocket due now
  · obtain ⟨hconnected, hsocket, -⟩ := closed_spec h
    refine ⟨?_, fun _ => hsocket, ?_⟩
    · rw [hconnected]
      nofun
    · rw [hsocket]
      nofun

/-- `close` is for good. -/
theorem not_stopped_of_step (h : s.step c = some t) (ht : t.transport.stopped = false) :
    s.transport.stopped = false ∧ c ≠ .close := by
  rcases proceeds_of_step h with hproceeds | ⟨now, closing, rfl⟩
  · cases hproceeds with
    | opened _ _ htransport _ _ => exact ⟨by rw [htransport] at ht; exact ht, nofun⟩
    | errored htransport _ _ => exact ⟨by rw [htransport] at ht; exact ht, nofun⟩
    | continued htransport _ => exact ⟨by rw [htransport] at ht; exact ht, nofun⟩
    | fire _ _ _ htransport => exact ⟨by rw [htransport] at ht; exact ht, nofun⟩
    | close htransport _ =>
        rw [htransport] at ht
        cases ht
  · exact ⟨(closed_spec h).2.2 ht, nofun⟩

end ReconnectSeries

namespace OfflineSender

/-! ## The invariant -/

/-- Before a queue can be flushed there has been a reconnect. -/
def Reconnected (s : OfflineSender π) : Prop :=
  s.series.transport.isConnected = true ∧ s.series.continuation = false ∧
    ∃ due now, .attempt due now ∈ s.series.log

structure Keeps (s : OfflineSender π) : Prop where
  linked : s.series.Linked
  /-- `close` alone sets `this.ws` to null. -/
  socket : s.series.transport.stopped = false → s.ws = true
  connected : s.series.transport.isConnected = true → s.ws = true
  numbered : s.sent.map Prod.fst = List.range s.sent.length
  subperm : s.outbox.all.Subperm s.sent
  kept : s.series.transport.stopped = false →
    (s.outbox.all.filter fun x => x.2.critical).Perm (s.sent.filter fun x => x.2.critical)
  queued : ∀ x ∈ s.offlineQueue, x.2.critical = true
  flushed : s.Reconnected → s.offlineQueue = []

theorem keeps_start : (start : OfflineSender π).Keeps where
  linked := ReconnectSeries.linked_start
  socket := fun _ => rfl
  connected := nofun
  numbered := rfl
  subperm := List.nil_subperm
  kept := fun _ => .nil
  queued := nofun
  flushed := fun _ => rfl

variable {s t : OfflineSender π}

/-- The calls so far have the numbers before the next one's. -/
theorem Keeps.lt_length (hs : s.Keeps) {x : Numbered π} (hx : x ∈ s.outbox.all) :
    x.1 < s.sent.length := by
  have hmem : x.1 ∈ s.sent.map Prod.fst := List.mem_map_of_mem (hs.subperm.subset hx)
  rw [hs.numbered] at hmem
  exact List.mem_range.mp hmem

theorem numbered_send (own : Text) (hs : s.Keeps) (e : OutEnvelope π) :
    (s.send own e).sent.map Prod.fst = List.range (s.send own e).sent.length := by
  rw [(send_spec own s e).2.2.1, List.map_append, hs.numbered, List.length_append,
    List.length_singleton, List.range_succ]
  rfl

theorem keeps_send (hs : s.Keeps) (e : OutEnvelope π) : (s.send own e).Keeps := by
  obtain ⟨hseries, hws, hsent, hsends⟩ := send_spec own s e
  have hnumbered := numbered_send own hs e
  generalize s.send own e = t at hseries hws hsent hsends hnumbered
  generalize s.nextSent own e = x at hsent hsends
  have hflushed : t.Reconnected → t.offlineQueue = s.offlineQueue → t.offlineQueue = [] := by
    intro hreconnected hqueue
    unfold Reconnected at hreconnected
    rw [hseries] at hreconnected
    rw [hqueue, hs.flushed hreconnected]
  cases hsends with
  | handsOver honline h =>
      have hqueue : t.offlineQueue = s.offlineQueue := congrArg Outbox.held h
      refine ⟨by rw [hseries]; exact hs.linked, by rw [hseries, hws]; exact hs.socket,
        by rw [hseries, hws]; exact hs.connected, hnumbered, ?_, ?_, ?_, ?_⟩
      · rw [h, hsent]
        exact Outbox.subperm_pass hs.subperm x
      · rw [hseries, h, hsent]
        exact fun hrunning => Outbox.filter_perm_pass (hs.kept hrunning) x
      · rw [hqueue]
        exact hs.queued
      · exact fun hreconnected => hflushed hreconnected hqueue
  | queues hoffline hcritical h =>
      have hqueue : t.offlineQueue = s.offlineQueue ++ [x] := congrArg Outbox.held h
      refine ⟨by rw [hseries]; exact hs.linked, by rw [hseries, hws]; exact hs.socket,
        by rw [hseries, hws]; exact hs.connected, hnumbered, ?_, ?_, ?_, ?_⟩
      · rw [h, hsent]
        exact Outbox.subperm_hold hs.subperm x
      · rw [hseries, h, hsent]
        exact fun hrunning => Outbox.filter_perm_hold (hs.kept hrunning) x
      · intro y hy
        rw [hqueue] at hy
        rcases List.mem_append.mp hy with hold | hnew
        · exact hs.queued y hold
        · rw [List.mem_singleton.mp hnew]
          exact hcritical
      · -- A transport that has reconnected is online.
        intro hreconnected
        have hconnected := hreconnected.1
        rw [hseries] at hconnected
        exact absurd ⟨hconnected, hs.connected hconnected⟩ hoffline
  | drops hoffline hcritical h =>
      have hqueue : t.offlineQueue = s.offlineQueue := congrArg Outbox.held h
      refine ⟨by rw [hseries]; exact hs.linked, by rw [hseries, hws]; exact hs.socket,
        by rw [hseries, hws]; exact hs.connected, hnumbered, ?_, ?_, ?_, ?_⟩
      · rw [h, hsent]
        exact Outbox.subperm_drop hs.subperm x
      · rw [hseries, h, hsent]
        exact fun hrunning => Outbox.filter_perm_drop (hs.kept hrunning) hcritical
      · rw [hqueue]
        exact hs.queued
      · exact fun hreconnected => hflushed hreconnected hqueue

/-- `this.ws` stays while `close` is not called. -/
theorem wsAfter_of_running {before after : SdkTransport} {ws : Bool} {c : Callback}
    (hc : c ≠ .close) (hafter : after.stopped = false) (hws : ws = true) :
    wsAfter before after ws c = true := by
  subst hws
  cases c with
  | close => exact absurd rfl hc
  | fire _ => rfl
  | _ => exact if_neg fun h => by cases h.1.symm.trans hafter

/-- Connected after a callback: the socket has opened, or it was connected before. -/
theorem connected_callback (hs : s.Keeps) {c : Callback}
    (h : s.step own (.callback c) = some t)
    (hconnected : t.series.transport.isConnected = true) : t.ws = true := by
  obtain ⟨hruns, hseries, hws, -, -⟩ := callback_spec h
  rw [hws]
  rcases ReconnectSeries.proceeds_of_step hseries with hproceeds | ⟨now, closing, rfl⟩
  · cases hproceeds with
    | opened reconnect hsocket ht _ _ =>
        rw [ht]
        exact (if_neg fun hstop => by cases hstop.1.symm.trans hstop.2).trans hruns.2
    | errored ht _ _ =>
        rw [ht] at hconnected ⊢
        exact (if_neg fun hstop => by cases hstop.1.symm.trans hstop.2).trans
          (hs.connected hconnected)
    | continued ht _ =>
        rw [ht] at hconnected ⊢
        exact (if_neg fun hstop => by cases hstop.1.symm.trans hstop.2).trans
          (hs.connected hconnected)
    | fire _ _ _ _ => rfl
    | close ht _ =>
        rw [ht] at hconnected
        cases hconnected
  · cases (ReconnectSeries.closed_spec hseries).1.symm.trans hconnected

/-- The `then` of a reconnect flushes the queue, and nothing but it makes a reconnection
complete. -/
theorem flushed_callback (hs : s.Keeps) {c : Callback} (h : s.step own (.callback c) = some t)
    (hreconnected : t.Reconnected) : t.offlineQueue = [] := by
  obtain ⟨-, hseries, -, -, houtbox⟩ := callback_spec h
  obtain ⟨hconnected, hcontinuation, due, now, hattempt⟩ := hreconnected
  have hqueue : t.offlineQueue = t.outbox.held := rfl
  rw [hqueue, houtbox]
  rcases ReconnectSeries.proceeds_of_step hseries with hproceeds | ⟨_, _, rfl⟩
  · cases hproceeds with
    | opened reconnect hsocket _ hsame hlog =>
        -- Without a continuation this is the first socket, before any attempt.
        rw [hsame] at hcontinuation
        subst hcontinuation
        rw [hlog] at hattempt
        have hold : .attempt due now ∈ s.series.log := by simpa using hattempt
        exact absurd hold (hs.linked.first hsocket due now)
    | errored ht hsame hlog =>
        rw [ht] at hconnected
        rw [hsame] at hcontinuation
        rw [hlog] at hattempt
        have hold : .attempt due now ∈ s.series.log := by simpa using hattempt
        exact hs.flushed ⟨hconnected, hcontinuation, due, now, hold⟩
    | continued _ _ =>
        rw [if_pos rfl]
        split
        · rfl
        · rfl
    | fire _ _ htimer ht =>
        rw [ht] at hconnected
        have hnone := hs.linked.timer (by rw [htimer]; nofun)
        cases (hs.linked.connected hconnected).symm.trans hnone
    | close ht _ =>
        rw [ht] at hconnected
        cases hconnected
  · cases (ReconnectSeries.closed_spec hseries).1.symm.trans hconnected

theorem keeps_callback (hs : s.Keeps) {c : Callback} (h : s.step own (.callback c) = some t) :
    t.Keeps := by
  have hconnected := connected_callback hs h
  have hflushed := flushed_callback hs h
  obtain ⟨-, hseries, hws, hsent, houtbox⟩ := callback_spec h
  have hsocket : t.series.transport.stopped = false → t.ws = true := by
    intro hrunning
    obtain ⟨hbefore, hc⟩ := ReconnectSeries.not_stopped_of_step hseries hrunning
    rw [hws]
    exact wsAfter_of_running hc hrunning (hs.socket hbefore)
  have hbefore : t.series.transport.stopped = false → s.series.transport.stopped = false :=
    fun hrunning => (ReconnectSeries.not_stopped_of_step hseries hrunning).1
  refine ⟨ReconnectSeries.linked_step hs.linked hseries, hsocket, hconnected, ?_, ?_, ?_, ?_,
    hflushed⟩
  · rw [hsent]
    exact hs.numbered
  · rw [hsent, houtbox]
    split
    · split
      · rw [Outbox.all_flush]
        exact hs.subperm
      · exact s.outbox.all_lose_sublist.subperm.trans hs.subperm
    · exact hs.subperm
  · intro hrunning
    rw [hsent, houtbox, if_pos (hsocket hrunning)]
    split
    · rw [Outbox.all_flush]
      exact hs.kept (hbefore hrunning)
    · exact hs.kept (hbefore hrunning)
  · intro x hx
    have hheld : x ∈ t.outbox.held := hx
    rw [houtbox] at hheld
    split at hheld
    · split at hheld
      · cases hheld
      · cases hheld
    · exact hs.queued x hheld

theorem keeps_step {l : SenderLabel π} (hs : s.Keeps) (h : s.step own l = some t) : t.Keeps := by
  cases l with
  | callback c => exact keeps_callback hs h
  | send e =>
      obtain rfl := Option.some.inj h
      exact keeps_send hs e

/-- **No critical envelope is lost or doubled.**  In every run an envelope is handed to the
socket or waits as often as it was sent, or less often, and as long as `close` has not been
called those of the guaranteed and retry classes exactly as often; only they wait, and none of
them does while the transport is connected again and the `then` has run. -/
theorem critical_kept {labels : List (SenderLabel π)} {u : OfflineSender π}
    (hrun : execute (step own) start labels = some u) :
    (u.handedOver ++ u.offlineQueue).Subperm u.sent ∧
      (u.series.transport.stopped = false →
        ((u.handedOver ++ u.offlineQueue).filter fun x => x.2.critical).Perm
          (u.sent.filter fun x => x.2.critical)) ∧
      (∀ x ∈ u.offlineQueue, x.2.critical = true) ∧ (u.Reconnected → u.offlineQueue = []) := by
  have hu : u.Keeps :=
    execute_invariant (step own) Keeps keeps_start
      (fun _ _ _ ha _ hstep => keeps_step ha hstep) hrun
  exact ⟨hu.subperm, hu.kept, hu.queued, hu.flushed⟩

/-! ## Order -/

/-- Critical envelopes leave in the order in which they were sent. -/
def InOrder (s : OfflineSender π) : Prop := s.criticalOutbox.InOrder fun x y => x.1 < y.1

instance (s : OfflineSender π) : Decidable s.InOrder :=
  inferInstanceAs (Decidable (List.Pairwise _ _))

/-- No critical envelope is sent past the queue: on the first connection, which does not flush
it, or between the `open` of a reconnect and its `then`. -/
def SendsInTurn (s : OfflineSender π) : SenderLabel π → Prop
  | .send e => e.critical = true → s.Online → s.offlineQueue = []
  | .callback _ => True

instance (s : OfflineSender π) : ∀ l, Decidable (s.SendsInTurn l)
  | .send e => inferInstanceAs (Decidable (e.critical = true → s.Online → s.offlineQueue = []))
  | .callback _ => inferInstanceAs (Decidable True)

theorem Keeps.newest (hs : s.Keeps) (e : OutEnvelope π) {x : Numbered π}
    (hx : x ∈ s.criticalOutbox.all) : x.1 < (s.nextSent own e).1 := by
  refine hs.lt_length ?_
  rcases List.mem_append.mp hx with hpassed | hheld
  · exact List.mem_append_left _ (List.mem_of_mem_filter hpassed)
  · exact List.mem_append_right _ hheld

/-- A flush passes on what is queued, which is critical. -/
theorem criticalOutbox_flush (hs : s.Keeps) (h : t.outbox = s.outbox.flush) :
    t.criticalOutbox = s.criticalOutbox.flush := by
  have hhanded : t.handedOver = s.handedOver ++ s.offlineQueue := congrArg Outbox.passed h
  have hqueue : t.offlineQueue = [] := congrArg Outbox.held h
  unfold criticalOutbox
  rw [hhanded, hqueue, List.filter_append, List.filter_eq_self.mpr hs.queued]
  rfl

theorem criticalOutbox_lose (h : t.outbox = s.outbox.lose) :
    t.criticalOutbox = s.criticalOutbox.lose := by
  have hhanded : t.handedOver = s.handedOver := congrArg Outbox.passed h
  have hqueue : t.offlineQueue = [] := congrArg Outbox.held h
  unfold criticalOutbox
  rw [hhanded, hqueue]
  rfl

theorem criticalOutbox_congr (h : t.outbox = s.outbox) : t.criticalOutbox = s.criticalOutbox := by
  have hhanded : t.handedOver = s.handedOver := congrArg Outbox.passed h
  have hqueue : t.offlineQueue = s.offlineQueue := congrArg Outbox.held h
  unfold criticalOutbox
  rw [hhanded, hqueue]

theorem inOrder_callback (hs : s.Keeps) (horder : s.InOrder) {c : Callback}
    (h : s.step own (.callback c) = some t) : t.InOrder := by
  obtain ⟨-, -, -, -, houtbox⟩ := callback_spec h
  unfold InOrder
  split at houtbox
  · split at houtbox
    · rw [criticalOutbox_flush hs houtbox]
      exact horder.flush
    · rw [criticalOutbox_lose houtbox]
      exact horder.lose
  · rw [criticalOutbox_congr houtbox]
    exact horder

/-- **Step lemma.**  A send keeps the order exactly when it is in turn. -/
theorem inOrder_send_iff (hs : s.Keeps) (horder : s.InOrder) (e : OutEnvelope π) :
    (s.send own e).InOrder ↔ s.SendsInTurn (.send e) := by
  obtain ⟨-, -, -, hsends⟩ := send_spec own s e
  have hnewest : ∀ y ∈ s.criticalOutbox.all, y.1 < (s.nextSent own e).1 := fun y hy =>
    hs.newest e hy
  have hcritical : (s.nextSent own e).2.critical = e.critical := critical_nextSent s e
  generalize s.send own e = t at hsends ⊢
  generalize s.nextSent own e = x at hsends hnewest hcritical
  cases hsends with
  | handsOver honline h =>
      have hhanded : t.handedOver = s.handedOver ++ [x] := congrArg Outbox.passed h
      have hqueue : t.offlineQueue = s.offlineQueue := congrArg Outbox.held h
      by_cases hx : x.2.critical = true
      · have hpass : t.criticalOutbox = s.criticalOutbox.pass x := by
          unfold criticalOutbox
          rw [hhanded, hqueue, List.filter_append, List.filter_singleton, hx]
          rfl
        unfold InOrder
        rw [hpass, Outbox.inOrder_pass_iff horder hnewest fun _ => Nat.lt_asymm]
        exact ⟨fun hempty _ _ => hempty, fun hturn => hturn (hcritical ▸ hx) honline⟩
      · have hsame : t.criticalOutbox = s.criticalOutbox := by
          unfold criticalOutbox
          rw [hhanded, hqueue, List.filter_append, List.filter_singleton,
            Bool.eq_false_iff.mpr hx, Bool.cond_false, List.append_nil]
        unfold InOrder
        rw [hsame]
        exact iff_of_true horder fun he _ => absurd (hcritical.trans he) hx
  | queues hoffline hx h =>
      have hhanded : t.handedOver = s.handedOver := congrArg Outbox.passed h
      have hqueue : t.offlineQueue = s.offlineQueue ++ [x] := congrArg Outbox.held h
      have hhold : t.criticalOutbox = s.criticalOutbox.hold x := by
        unfold criticalOutbox
        rw [hhanded, hqueue]
        rfl
      unfold InOrder
      rw [hhold]
      exact iff_of_true (horder.hold hnewest) fun _ honline => absurd honline hoffline
  | drops hoffline _ h =>
      unfold InOrder
      rw [criticalOutbox_congr h]
      exact iff_of_true horder fun _ honline => absurd honline hoffline

/-- **When critical envelopes keep their order.**  In every run they leave in the order of
their `send` calls, in every state, exactly when none is sent past the queue. -/
theorem inOrder_iff_sendsInTurn {labels : List (SenderLabel π)} {u : OfflineSender π}
    (hrun : execute (step own) start labels = some u) :
    Always (step own) InOrder start labels ↔ MeetsAlong (step own) SendsInTurn start labels := by
  refine always_iff_meetsAlong (step own) (fun s => s.Keeps ∧ s.InOrder)
    ⟨keeps_start, List.Pairwise.nil⟩ (fun _ hs => hs.2) ?_ ?_ hrun
  · rintro s l t ⟨hs, horder⟩ - hturn hstep
    refine ⟨keeps_step hs hstep, ?_⟩
    cases l with
    | callback c => exact inOrder_callback hs horder hstep
    | send e =>
        obtain rfl := Option.some.inj hstep
        exact (inOrder_send_iff hs horder e).mpr hturn
  · rintro s l t ⟨hs, horder⟩ - hturn hstep
    cases l with
    | callback c => exact absurd trivial hturn
    | send e =>
        obtain rfl := Option.some.inj hstep
        exact fun hafter => hturn ((inOrder_send_iff hs horder e).mp hafter)

/-! ## An envelope sent before the first connection -/

def envelope (type : String) : OutEnvelope Unit := ⟨type.toList, none, ()⟩

/-- The `wake` waits for the reconnect, and the `error` does not wait for it. -/
def overtaken : List (SenderLabel Unit) :=
  [.send (envelope "wake"), .callback .opened, .send (envelope "error"),
    .callback (.closed 1000 none), .send (envelope "telemetry"), .callback (.fire 1200),
    .callback .opened, .callback .continued]

theorem overtaken_kept :
    ∃ u : OfflineSender Unit, execute (step "s".toList) start overtaken = some u ∧
      u.handedOver.map Prod.fst = [1, 0] ∧
      ((u.handedOver ++ u.offlineQueue).filter fun x => x.2.critical).Perm
        (u.sent.filter fun x => x.2.critical) := by
  have hends : (execute (step "s".toList) start overtaken).map
      (fun u => (u.handedOver.map Prod.fst, u.series.transport.stopped)) =
        some ([1, 0], false) := by decide +kernel
  obtain ⟨u, hu, hpair⟩ := Option.map_eq_some_iff.mp hends
  obtain ⟨hhanded, hrunning⟩ := Prod.mk.inj hpair
  exact ⟨u, hu, hhanded, (critical_kept hu).2.1 hrunning⟩

theorem overtaken_outOfOrder :
    ∃ u : OfflineSender Unit, execute (step "s".toList) start overtaken = some u ∧
      ¬ Always (step "s".toList) InOrder (start : OfflineSender Unit) overtaken := by
  have hsome : (execute (step "s".toList) (start : OfflineSender Unit) overtaken).isSome := by
    decide +kernel
  obtain ⟨u, hu⟩ := Option.isSome_iff_exists.mp hsome
  refine ⟨u, hu, ?_⟩
  rw [inOrder_iff_sendsInTurn hu]
  decide +kernel

end OfflineSender

end Sdk
end AvaListener
