import AvaListener.Transport.WSServer

/-!
# Guaranteed messages until their ack

Where a guaranteed message is while it has not been acked.  The server keeps it
under its id among the pending acks or in the offline queue, never in both, and
every operation but one leaves it there; the one is the `offline_queue.clear()` at
the end of a flush.
-/

namespace AvaListener
namespace Transport

open Library

variable {π : Type}

/-! ## One operation on the reliability state -/

namespace Reliability

/-- The message can be retransmitted. -/
def Holds (r : Reliability π) (m : OutMsg π) : Prop :=
  (∃ p, r.pendingAcks.get? m.correlationId = some p ∧ p.msg = m) ∨ m ∈ r.offlineQueue

/-- Every entry is under its message's id. -/
def Keyed (r : Reliability π) : Prop :=
  ∀ k p, r.pendingAcks.get? k = some p → p.msg.correlationId = k

/-- No message with this id is kept. -/
structure Unused (r : Reliability π) (id : Text) : Prop where
  keyed : r.Keyed
  notPending : r.pendingAcks.get? id = none
  notQueued : ∀ x ∈ r.offlineQueue, x.correlationId ≠ id

/-- The message is kept in one place, and as a guaranteed one. -/
structure Tracks (r : Reliability π) (m : OutMsg π) : Prop where
  keyed : r.Keyed
  entry : ∀ p, r.pendingAcks.get? m.correlationId = some p → p.msg = m ∧ p.cls = .guaranteed
  onePlace : m ∈ r.offlineQueue → r.pendingAcks.get? m.correlationId = none
  holds : r.Holds m

/-! ### The retry tick -/

theorem mem_toDrop {r : Reliability π} {now : ℚ} {k : Text} :
    k ∈ r.toDrop now ↔ ∃ p, r.pendingAcks.get? k = some p ∧ p.drops now = true := by
  constructor
  · intro h
    obtain ⟨e, he, rfl⟩ := List.mem_map.mp h
    obtain ⟨hmem, hdrops⟩ := List.mem_filter.mp he
    exact ⟨e.2, Dict.get?_eq_some_iff.mpr hmem, hdrops⟩
  · rintro ⟨p, hp, hdrops⟩
    exact List.mem_map.mpr
      ⟨(k, p), List.mem_filter.mpr ⟨Dict.get?_eq_some_iff.mp hp, hdrops⟩, rfl⟩

theorem mem_toRetry {r : Reliability π} {now : ℚ} {x : OutMsg π} :
    x ∈ r.toRetry now ↔
      ∃ k p, r.pendingAcks.get? k = some p ∧ p.resends now = true ∧ p.msg = x := by
  constructor
  · intro h
    obtain ⟨p, hp, rfl⟩ := List.mem_map.mp h
    obtain ⟨hmem, hresends⟩ := List.mem_filter.mp hp
    obtain ⟨e, he, rfl⟩ := List.mem_map.mp hmem
    exact ⟨e.1, e.2, Dict.get?_eq_some_iff.mpr he, hresends, rfl⟩
  · rintro ⟨k, p, hp, hresends, rfl⟩
    have hmem : p ∈ r.pendingAcks.values :=
      List.mem_map.mpr ⟨(k, p), Dict.get?_eq_some_iff.mp hp, rfl⟩
    exact List.mem_map_of_mem (List.mem_filter.mpr ⟨hmem, hresends⟩)

theorem get?_tick (r : Reliability π) (now : ℚ) (k : Text) :
    (r.tick now).pendingAcks.get? k =
      (r.pendingAcks.get? k).bind fun p => if p.drops now then none else some (p.tick now) := by
  rw [tick, Dict.get?_foldl_erase, Dict.get?_mapValues]
  cases hp : r.pendingAcks.get? k with
  | none => simp
  | some p =>
      by_cases hdrops : p.drops now = true
      · have hmem : k ∈ r.toDrop now := mem_toDrop.mpr ⟨p, hp, hdrops⟩
        simp [hmem, hdrops]
      · have hmem : k ∉ r.toDrop now := by
          intro hk
          obtain ⟨q, hq, hqDrops⟩ := mem_toDrop.mp hk
          obtain rfl := Option.some.inj (hp.symm.trans hq)
          exact hdrops hqDrops
        simp [hmem, hdrops]

theorem foldl_moveOffline (r : Reliability π) (msgs : List (OutMsg π)) :
    msgs.foldl moveOffline r =
      { r with
        pendingAcks := (msgs.map OutMsg.correlationId).foldl Dict.erase r.pendingAcks
        offlineQueue := r.offlineQueue ++ msgs } := by
  induction msgs generalizing r with
  | nil => simp
  | cons m msgs ih => simp [ih, moveOffline]

/-- The queue after a tick. -/
theorem offlineQueue_collect (r : Reliability π) (offline : Bool) (now : ℚ) :
    (r.collect offline now).offlineQueue =
      if offline then r.offlineQueue ++ r.toRetry now else r.offlineQueue := by
  cases offline with
  | false => rfl
  | true => simp [collect, foldl_moveOffline, tick]

/-- An entry after a tick: it is gone if it was exhausted, or if it was due while no
client was there. -/
theorem get?_collect {r : Reliability π} (hkeyed : r.Keyed) (offline : Bool) (now : ℚ)
    (k : Text) :
    (r.collect offline now).pendingAcks.get? k =
      (r.pendingAcks.get? k).bind fun p =>
        if p.drops now = true ∨ (offline = true ∧ p.resends now = true) then none
        else some (p.tick now) := by
  cases offline with
  | false => simp [collect, get?_tick]
  | true =>
      simp only [collect, if_true, foldl_moveOffline]
      rw [Dict.get?_foldl_erase, get?_tick]
      cases hp : r.pendingAcks.get? k with
      | none => simp
      | some p =>
          have hmem : k ∈ (r.toRetry now).map OutMsg.correlationId ↔ p.resends now = true := by
            constructor
            · intro hk
              obtain ⟨x, hx, rfl⟩ := List.mem_map.mp hk
              obtain ⟨k', q, hq, hresends, rfl⟩ := mem_toRetry.mp hx
              -- The id of the entry's message leads back to the entry.
              have hkey : q.msg.correlationId = k' := hkeyed k' q hq
              rw [hkey, hq] at hp
              obtain rfl := Option.some.inj hp
              exact hresends
            · intro hresends
              have hkey : p.msg.correlationId = k := hkeyed k p hp
              exact List.mem_map.mpr ⟨p.msg, mem_toRetry.mpr ⟨k, p, hp, hresends, rfl⟩, hkey⟩
          by_cases hresends : p.resends now = true
          · simp [hmem, hresends]
          · simp [hmem, hresends]

theorem Keyed.collect {r : Reliability π} (h : r.Keyed) (offline : Bool) (now : ℚ) :
    (r.collect offline now).Keyed := by
  intro k p hp
  rw [get?_collect h] at hp
  obtain ⟨q, hq, hkept⟩ := Option.bind_eq_some_iff.mp hp
  split at hkept
  · cases hkept
  · obtain rfl := Option.some.inj hkept
    rw [PendingAck.tick_msg]
    exact h k q hq

/-! ### Messages with other ids -/

theorem Keyed.keep {r : Reliability π} (h : r.Keyed) (offline : Bool) (x : OutMsg π) (now : ℚ) :
    (r.keep offline x now).Keyed := by
  intro k p hp
  unfold Reliability.keep at hp
  split at hp
  · exact h k p hp
  · split at hp
    · exact h k p hp
    · by_cases hk : k = x.correlationId
      · subst hk
        rw [track, Dict.get?_set_self] at hp
        obtain rfl := Option.some.inj hp
        rfl
      · rw [track, Dict.get?_set_of_ne _ _ hk] at hp
        exact h k p hp

theorem get?_keep_of_ne (r : Reliability π) (offline : Bool) {x : OutMsg π} (now : ℚ)
    {k : Text} (hne : k ≠ x.correlationId) :
    (r.keep offline x now).pendingAcks.get? k = r.pendingAcks.get? k := by
  unfold keep
  split
  · rfl
  · split
    · rfl
    · exact Dict.get?_set_of_ne _ _ hne

theorem mem_offlineQueue_keep {r : Reliability π} {offline : Bool} {x y : OutMsg π} {now : ℚ}
    (h : y ∈ (r.keep offline x now).offlineQueue) : y ∈ r.offlineQueue ∨ y = x := by
  unfold keep at h
  split at h
  · exact .inl h
  · split at h
    · rcases List.mem_append.mp h with hold | hnew
      · exact .inl hold
      · exact .inr (List.mem_singleton.mp hnew)
    · exact .inl h

theorem mem_offlineQueue_keep_of_mem {r : Reliability π} (offline : Bool) (x : OutMsg π)
    {y : OutMsg π} (now : ℚ) (h : y ∈ r.offlineQueue) :
    y ∈ (r.keep offline x now).offlineQueue := by
  unfold keep
  split
  · exact h
  · split
    · exact List.mem_append_left _ h
    · exact h

theorem get?_ack_of_ne (r : Reliability π) {id : Option Text} {k : Text} (hne : id ≠ some k) :
    (r.ack id).pendingAcks.get? k = r.pendingAcks.get? k := by
  cases id with
  | none => rfl
  | some id => exact Dict.get?_erase_of_ne _ fun hk => hne (congrArg some hk.symm)

theorem offlineQueue_ack (r : Reliability π) (id : Option Text) :
    (r.ack id).offlineQueue = r.offlineQueue := by
  cases id with
  | none => rfl
  | some id => rfl

theorem Keyed.ack {r : Reliability π} (h : r.Keyed) (id : Option Text) : (r.ack id).Keyed := by
  cases id with
  | none => exact h
  | some id =>
      intro k p hp
      by_cases hk : k = id
      · subst hk
        rw [Reliability.ack, Dict.get?_erase_self] at hp
        cases hp
      · rw [Reliability.ack, Dict.get?_erase_of_ne _ hk] at hp
        exact h k p hp

/-! ### An id that is not in use -/

theorem unused_init (id : Text) : (init : Reliability π).Unused id where
  keyed := by
    intro k p hp
    cases hp
  notPending := rfl
  notQueued := by simp [init]

theorem Unused.keep {r : Reliability π} {id : Text} (h : r.Unused id) (offline : Bool)
    {x : OutMsg π} (hne : x.correlationId ≠ id) (now : ℚ) :
    (r.keep offline x now).Unused id where
  keyed := h.keyed.keep offline x now
  notPending := by rw [get?_keep_of_ne r offline now hne.symm, h.notPending]
  notQueued := by
    intro y hy
    rcases mem_offlineQueue_keep hy with hold | rfl
    · exact h.notQueued y hold
    · exact hne

theorem Unused.ack {r : Reliability π} {id : Text} (h : r.Unused id) (acked : Option Text) :
    (r.ack acked).Unused id where
  keyed := h.keyed.ack acked
  notPending := by
    by_cases hid : acked = some id
    · subst hid
      exact Dict.get?_erase_self _ _
    · rw [get?_ack_of_ne r hid, h.notPending]
  notQueued := by
    rw [offlineQueue_ack]
    exact h.notQueued

theorem Unused.collect {r : Reliability π} {id : Text} (h : r.Unused id) (offline : Bool)
    (now : ℚ) : (r.collect offline now).Unused id where
  keyed := h.keyed.collect offline now
  notPending := by rw [get?_collect h.keyed, h.notPending, Option.bind_none]
  notQueued := by
    intro x hx
    rw [offlineQueue_collect] at hx
    split at hx
    · rcases List.mem_append.mp hx with hold | hmoved
      · exact h.notQueued x hold
      · obtain ⟨k, p, hp, -, rfl⟩ := mem_toRetry.mp hmoved
        intro hid
        rw [← h.keyed k p hp, hid, h.notPending] at hp
        cases hp
    · exact h.notQueued x hx

theorem Unused.cleared {r : Reliability π} {id : Text} (h : r.Unused id) : r.cleared.Unused id where
  keyed := h.keyed
  notPending := h.notPending
  notQueued := by simp [Reliability.cleared]

/-! ### A guaranteed message -/

/-- Keeping the message itself. -/
theorem Unused.tracks_keep {r : Reliability π} {m : OutMsg π} (h : r.Unused m.correlationId)
    (hclass : m.type ∈ guaranteed) (offline : Bool) (now : ℚ) :
    (r.keep offline m now).Tracks m := by
  have hkeyed := h.keyed.keep offline m now
  rw [Reliability.keep, ackClass_of_guaranteed hclass] at hkeyed ⊢
  cases offline with
  | true =>
      have hnone : (r.enqueue m).pendingAcks.get? m.correlationId = none := h.notPending
      refine ⟨hkeyed, ?_, fun _ => hnone, .inr (List.mem_append_right _ (List.mem_singleton_self m))⟩
      intro p hp
      cases hnone.symm.trans hp
  | false =>
      have hsome : (r.track m .guaranteed now).pendingAcks.get? m.correlationId =
          some ⟨m, .guaranteed, 0, now + AckClass.guaranteed.firstRetry⟩ :=
        Dict.get?_set_self _ _ _
      refine ⟨hkeyed, ?_, ?_, .inl ⟨_, hsome, rfl⟩⟩
      · intro p hp
        obtain rfl := Option.some.inj (hsome.symm.trans hp)
        exact ⟨rfl, rfl⟩
      · intro hm
        exact absurd rfl (h.notQueued m hm)

theorem Tracks.keep {r : Reliability π} {m : OutMsg π} (h : r.Tracks m) (offline : Bool)
    {x : OutMsg π} (hne : x.correlationId ≠ m.correlationId) (now : ℚ) :
    (r.keep offline x now).Tracks m := by
  have hget := get?_keep_of_ne r offline now hne.symm
  refine ⟨h.keyed.keep offline x now, ?_, ?_, ?_⟩
  · rw [hget]
    exact h.entry
  · intro hm
    rw [hget]
    rcases mem_offlineQueue_keep hm with hold | rfl
    · exact h.onePlace hold
    · exact absurd rfl hne
  · rcases h.holds with ⟨p, hp, hmsg⟩ | hm
    · exact .inl ⟨p, hget.trans hp, hmsg⟩
    · exact .inr (mem_offlineQueue_keep_of_mem offline x now hm)

theorem Tracks.ack {r : Reliability π} {m : OutMsg π} (h : r.Tracks m) {id : Option Text}
    (hne : id ≠ some m.correlationId) : (r.ack id).Tracks m := by
  have hget := get?_ack_of_ne r hne
  have hqueue := offlineQueue_ack r id
  refine ⟨h.keyed.ack id, ?_, ?_, ?_⟩
  · rw [hget]
    exact h.entry
  · rw [hget, hqueue]
    exact h.onePlace
  · rw [Holds, hget, hqueue]
    exact h.holds

/-- The retry tick keeps the message pending or moves it to the queue. -/
theorem Tracks.collect {r : Reliability π} {m : OutMsg π} (h : r.Tracks m) (offline : Bool)
    (now : ℚ) : (r.collect offline now).Tracks m := by
  have hget := get?_collect h.keyed offline now m.correlationId
  have hqueue := offlineQueue_collect r offline now
  refine ⟨h.keyed.collect offline now, ?_, ?_, ?_⟩
  · intro p hp
    rw [hget] at hp
    obtain ⟨q, hq, hkept⟩ := Option.bind_eq_some_iff.mp hp
    split at hkept
    · cases hkept
    · obtain rfl := Option.some.inj hkept
      rw [PendingAck.tick_msg, PendingAck.tick_cls]
      exact h.entry q hq
  · intro hm
    rw [hget]
    rw [hqueue] at hm
    cases offline with
    | false => rw [h.onePlace hm, Option.bind_none]
    | true =>
        rcases List.mem_append.mp hm with hold | hmoved
        · rw [h.onePlace hold, Option.bind_none]
        · obtain ⟨k, p, hp, hresends, hmsg⟩ := mem_toRetry.mp hmoved
          have hkey : m.correlationId = k := hmsg ▸ h.keyed k p hp
          rw [hkey, hp, Option.bind_some, if_pos (.inr ⟨rfl, hresends⟩)]
  · rcases h.holds with ⟨p, hp, hmsg⟩ | hm
    · have hdrops : p.drops now = false :=
        PendingAck.drops_eq_false_of_guaranteed (h.entry p hp).2
      by_cases hmoved : offline = true ∧ p.resends now = true
      · refine .inr ?_
        rw [hqueue, if_pos hmoved.1]
        exact List.mem_append_right _ (mem_toRetry.mpr ⟨_, p, hp, hmoved.2, hmsg⟩)
      · refine .inl ⟨p.tick now, ?_, by rw [PendingAck.tick_msg, hmsg]⟩
        rw [hget, hp, Option.bind_some, if_neg]
        rintro (hgone | hgone)
        · exact absurd hgone (by simp [hdrops])
        · exact hmoved hgone
    · refine .inr ?_
      rw [hqueue]
      split
      · exact List.mem_append_left _ hm
      · exact hm

theorem Tracks.cleared {r : Reliability π} {m : OutMsg π} (h : r.Tracks m)
    (hout : m ∉ r.offlineQueue) : r.cleared.Tracks m := by
  refine ⟨h.keyed, h.entry, by simp [Reliability.cleared], ?_⟩
  rcases h.holds with hp | hm
  · exact .inl hp
  · exact absurd hm hout

/-- A message that is in the queue at the clear is lost. -/
theorem Tracks.not_holds_cleared {r : Reliability π} {m : OutMsg π} (h : r.Tracks m)
    (hin : m ∈ r.offlineQueue) : ¬ r.cleared.Holds m := by
  rintro (⟨p, hp, -⟩ | hm)
  · cases (h.onePlace hin).symm.trans hp
  · cases hm

/-- The batch has no part in it. -/
theorem Tracks.of_eq {r r' : Reliability π} {m : OutMsg π} (h : r.Tracks m)
    (hpending : r'.pendingAcks = r.pendingAcks) (hqueue : r'.offlineQueue = r.offlineQueue) :
    r'.Tracks m := by
  refine ⟨?_, ?_, ?_, ?_⟩
  · rw [Keyed, hpending]
    exact h.keyed
  · rw [hpending]
    exact h.entry
  · rw [hpending, hqueue]
    exact h.onePlace
  · rw [Holds, hpending, hqueue]
    exact h.holds

theorem Unused.of_eq {r r' : Reliability π} {id : Text} (h : r.Unused id)
    (hpending : r'.pendingAcks = r.pendingAcks) (hqueue : r'.offlineQueue = r.offlineQueue) :
    r'.Unused id := by
  refine ⟨?_, ?_, ?_⟩
  · rw [Keyed, hpending]
    exact h.keyed
  · rw [hpending]
    exact h.notPending
  · rw [hqueue]
    exact h.notQueued

theorem addToBatch_kept (r : Reliability π) (m : OutMsg π) :
    (r.addToBatch m).1.pendingAcks = r.pendingAcks ∧
      (r.addToBatch m).1.offlineQueue = r.offlineQueue := by
  unfold addToBatch
  split
  · exact ⟨rfl, rfl⟩
  · exact ⟨rfl, rfl⟩

end Reliability

/-! ## Runs of the server -/

namespace WSServer

variable {m : OutMsg π} {s t : WSServer π} {l : Label π}

/-- **One step, as operations on the reliability state.**  What holds before a step
holds after it if every operation the step can amount to keeps it. -/
theorem step_keeps (Q : Reliability π → Prop) (hQ : Q s.store)
    (hbatch : ∀ r, r.pendingAcks = s.store.pendingAcks →
      r.offlineQueue = s.store.offlineQueue → Q r)
    (hkeep : ∀ offline x now, l.broadcastId = some x.correlationId → Q (s.store.keep offline x now))
    (hack : ∀ id, l.ackedId = id → Q (s.store.ack id))
    (hcollect : ∀ offline now, Q (s.store.collect offline now))
    (hclear : s.endsFlush l = true → Q s.store.cleared) (hstep : s.step l = some t) :
    Q t.store := by
  rw [step_store hstep]
  -- The labels that leave the state alone, up to the end of a flush.
  have hother : Q (if s.endsFlush l then s.store.cleared else s.store) := by
    split
    next hends => exact hclear hends
    · exact hQ
  cases l with
  | broadcast obj created uuid now batchId =>
      simp only [storeAfter]
      split
      · obtain ⟨hpending, hqueue⟩ := Reliability.addToBatch_kept s.store (outMsg obj created uuid)
        exact hbatch _ hpending hqueue
      · exact hkeep _ _ now rfl
  | receive ws msg => cases msg with
      | ack acked => exact hack acked rfl
      | command => exact hother
      | malformed => exact hother
  | retryTick now pick => exact hcollect _ now
  | batchTick now batchId pick => exact hbatch _ rfl rfl
  | connect ws pick => exact hother
  | replied ws closed => exact hother
  | disconnect ws => exact hother
  | startTask pick => exact hother
  | sent i closed next pick => exact hother

/-- The same, with what each kind of label does told apart. -/
theorem store_step (Q : Reliability π → Prop)
    (hsame : ∀ r, r.pendingAcks = s.store.pendingAcks →
      (∀ m ∈ r.offlineQueue, m ∈ s.store.offlineQueue) → Q r)
    (hkeep : ∀ m ∈ l.broadcasts, ∀ offline now, Q (s.store.keep offline m now))
    (hack : ∀ acked, Q (s.store.ack acked))
    (hcollect : ∀ now pick, l = .retryTick now pick → Q (s.store.collect (s.clients = ∅) now))
    (hstep : s.step l = some t) : Q t.store := by
  rw [step_store hstep]
  -- The labels that leave the state alone, up to the end of a flush.
  have hother : Q (if s.endsFlush l then s.store.cleared else s.store) := by
    split
    · exact hsame _ rfl (by simp [Reliability.cleared])
    · exact hsame _ rfl fun _ hm => hm
  cases l with
  | broadcast obj created uuid now batchId =>
      simp only [storeAfter]
      split
      · obtain ⟨hpending, hqueue⟩ := Reliability.addToBatch_kept s.store (outMsg obj created uuid)
        exact hsame _ hpending fun _ hm => hqueue ▸ hm
      · exact hkeep _ rfl _ now
  | receive ws msg =>
      cases msg with
      | ack acked => exact hack acked
      | command => exact hother
      | malformed => exact hother
  | retryTick now pick => exact hcollect now pick rfl
  | batchTick now batchId pick => exact hsame _ rfl fun _ hm => hm
  | connect ws pick => exact hother
  | replied ws closed => exact hother
  | disconnect ws => exact hother
  | startTask pick => exact hother
  | sent i closed next pick => exact hother

theorem unused_step {id : Text} (h : s.store.Unused id) (hfresh : l.broadcastId ≠ some id)
    (hstep : s.step l = some t) : t.store.Unused id := by
  apply step_keeps (fun r => r.Unused id) h ?_ ?_ ?_ ?_ ?_ hstep
  · exact fun r hpending hqueue => h.of_eq hpending hqueue
  · intro offline x now hid
    apply h.keep offline _ now
    rintro rfl
    exact hfresh hid
  · exact fun acked _ => h.ack acked
  · exact fun offline now => h.collect offline now
  · exact fun _ => h.cleared

/-- A step keeps a guaranteed message, unless it ends a flush with the message in the
queue. -/
theorem tracks_step (h : s.store.Tracks m) (hfresh : l.broadcastId ≠ some m.correlationId)
    (hack : l.ackedId ≠ some m.correlationId)
    (hflush : s.endsFlush l → m ∉ s.store.offlineQueue)
    (hstep : s.step l = some t) : t.store.Tracks m := by
  apply step_keeps (fun r => r.Tracks m) h ?_ ?_ ?_ ?_ ?_ hstep
  · exact fun r hpending hqueue => h.of_eq hpending hqueue
  · intro offline x now hid
    apply h.keep offline _ now
    intro hsame
    exact hfresh (hid.trans (congrArg some hsame))
  · intro acked hacked
    apply h.ack
    rw [← hacked]
    exact hack
  · exact fun offline now => h.collect offline now
  · exact fun hends => h.cleared (hflush hends)

/-- Ending a flush with the message in the queue loses it. -/
theorem not_holds_step (h : s.store.Tracks m) (hends : s.endsFlush l = true)
    (hin : m ∈ s.store.offlineQueue) (hstep : s.step l = some t) : ¬ t.store.Holds m := by
  have hstore := step_store hstep
  cases l with
  | sent i closed next pick =>
      rw [hstore, storeAfter, if_pos hends]
      · exact h.not_holds_cleared hin
      all_goals simp
  | _ => cases hends

/-- **Exactly when a guaranteed message is held until its ack**: in any run that
broadcasts it under a fresh id, and up to its ack, the message is in the pending acks
or in the offline queue all along if and only if no flush comes to its end while the
message is in the queue. -/
theorem held_until_ack_iff {pre post : List (Label π)} {obj : MessageObj π} {created now : ℚ}
    {uuid batchId : Text} {u : WSServer π} (hclass : (outMsg obj created uuid).type ∈ guaranteed)
    (hfresh : ∀ l ∈ pre ++ post,
      l.broadcastId ≠ some (outMsg obj created uuid).correlationId)
    (hack : ∀ l ∈ post, l.ackedId ≠ some (outMsg obj created uuid).correlationId)
    (hpre : execute step init pre = some s)
    (hsend : s.step (.broadcast obj created uuid now batchId) = some t)
    (hpost : execute step t post = some u) :
    Always step (fun a => a.store.Holds (outMsg obj created uuid)) t post ↔
      MeetsAlong step
        (fun a l => a.endsFlush l → outMsg obj created uuid ∉ a.store.offlineQueue) t post := by
  have hunused : s.store.Unused (outMsg obj created uuid).correlationId := by
    refine execute_invariant step
      (fun a : WSServer π => a.store.Unused (outMsg obj created uuid).correlationId)
      (Reliability.unused_init _) ?_ hpre
    intro a l b ha hl hstep
    exact unused_step ha (hfresh l (List.mem_append_left _ hl)) hstep
  have htracks : t.store.Tracks (outMsg obj created uuid) := by
    rw [step_store hsend, storeAfter, if_neg (not_bestEffort_of_guaranteed hclass)]
    exact hunused.tracks_keep hclass _ now
  refine always_iff_meetsAlong step (fun a => a.store.Tracks (outMsg obj created uuid)) htracks
    (fun a ha => ha.holds) ?_ ?_ hpost
  · intro a l b ha hl hcond hstep
    exact tracks_step ha (hfresh l (List.mem_append_right _ hl)) (hack l hl) hcond hstep
  · intro a l b ha hl hmiss hstep
    obtain ⟨hends, hin⟩ := Classical.not_imp.mp hmiss
    exact not_holds_step ha hends (not_not.mp hin) hstep

/-- `broadcast({"type": "wake", "payload": {"status": "offline_msg"}})`. -/
def offlineWake : MessageObj Unit :=
  ⟨some wakeType, none, none, none, none, some (), ()⟩

/-- One client is connected. -/
def withClient : WSServer Unit :=
  { init with clients := {0}, edits := 1, seen := {0}, receiving := {0} }

/-- Sent to a client that is there and does not ack, the wake is held through its
send and the next retry. -/
theorem wake_held_while_connected :
    Always step (fun a => a.store.Holds (outMsg offlineWake 0 ['a']))
      (withClient.handleSend (outMsg offlineWake 0 ['a']) 0) [.startTask 0, .retryTick 1 0] := by
  have hrun : (execute step (withClient.handleSend (outMsg offlineWake 0 ['a']) 0)
      [.startTask 0, .retryTick 1 0]).isSome = true := by decide +kernel
  obtain ⟨u, hu⟩ := Option.isSome_iff_exists.mp hrun
  have hsend : withClient.step (.broadcast offlineWake 0 ['a'] 0 []) =
      some (withClient.handleSend (outMsg offlineWake 0 ['a']) 0) := rfl
  have hpre : execute step (init : WSServer Unit) [.connect 0 0] = some withClient := rfl
  refine (held_until_ack_iff (by decide) ?_ ?_ hpre hsend hu).mpr ?_
  · intro l hl hid
    simp only [List.cons_append, List.nil_append, List.mem_cons, List.not_mem_nil, or_false] at hl
    rcases hl with rfl | rfl | rfl
    all_goals cases hid
  · intro l hl hid
    simp only [List.mem_cons, List.not_mem_nil, or_false] at hl
    rcases hl with rfl | rfl
    all_goals cases hid
  · exact ⟨fun hends => absurd hends Bool.false_ne_true,
      fun a _ => ⟨fun hends => absurd hends Bool.false_ne_true, fun b _ => trivial⟩⟩

/-- Sent while no client is there, the wake is queued; a client connects, the wake is
put on its connection, the flush ends, and nothing holds the wake any more although
nobody has acked it. -/
theorem wake_lost_by_flush :
    (outMsg offlineWake 0 ['a']).type ∈ guaranteed ∧
    (∀ l ∈ [Label.connect 0 0, .sent 0 false none 0],
      (l : Label Unit).broadcastId = none ∧ l.ackedId = none) ∧
    ∃ t u : WSServer Unit,
      (init : WSServer Unit).step (.broadcast offlineWake 0 ['a'] 0 []) = some t ∧
      execute step t [.connect 0 0, .sent 0 false none 0] = some u ∧
      ¬ Always step (fun a => a.store.Holds (outMsg offlineWake 0 ['a'])) t
        [.connect 0 0, .sent 0 false none 0] := by
  have hlast : ((execute step ((init : WSServer Unit).handleSend (outMsg offlineWake 0 ['a']) 0)
      [.connect 0 0, .sent 0 false none 0]).map fun a => a.store) = some Reliability.init := by
    decide +kernel
  obtain ⟨u, hu, hstore⟩ := Option.map_eq_some_iff.mp hlast
  refine ⟨by decide, by decide, _, u, rfl, hu, ?_⟩
  intro halways
  have hholds : u.store.Holds (outMsg offlineWake 0 ['a']) := always_final step halways hu
  rw [hstore] at hholds
  rcases hholds with ⟨p, hp, -⟩ | hin
  · cases hp
  · cases hin

end WSServer

end Transport
end AvaListener
