import AvaListener.Library.Runs
import AvaListener.Sdk.Startup

/-!
# The worker's ready signal

When `start` waits for a `ready` status that will not come any more.  The status has
no reliability class: the server sends it once, to the clients it has when the callback
runs, and the SDK attaches its listener after the handshake and asks nobody whether the
worker is ready already.
-/

namespace AvaListener
namespace Sdk

open Library Transport

namespace Startup

section Losses

variable {s t : Startup} {l : StartLabel}

/-! ## When it is lost -/

/-- What loses the status does not happen: the listener is attached too late, or, while
`start` waits, the callback or the task finds no client, the send ends before it has
been to the SDK's connection, or the connection breaks with the status on it and no
send of it under way. -/
def Timely (s : Startup) : StartLabel → Prop
  | .attach => s.signal = .broadcast → s.Carried
  | .callback _ _ =>
      s.stage = .waiting → (s.posted.head?.any fun b => isReady b.msg) = true →
        s.server.clients ≠ ∅
  | .server (.startTask _) =>
      s.stage = .waiting → (s.server.tasks.head?.any fun o => o.carries isReady) = true →
        s.server.clients ≠ ∅
  | .server (.sent i _ next _) =>
      s.stage = .waiting → ∀ f ∈ s.server.sending[i]?, f.msg.carries isReady = true →
        s.Ahead f → s.server.clients.card = f.startSize ∧ next.isSome = true
  | .dropped =>
      s.stage = .waiting → (∃ o ∈ s.wire, o.carries isReady = true) →
        0 < s.server.inSends isReady
  | _ => True

instance decidableTimely (s : Startup) : ∀ l, Decidable (s.Timely l)
  | .attach => inferInstanceAs (Decidable (_ → _))
  | .callback _ _ => inferInstanceAs (Decidable (_ → _ → _))
  | .server (.startTask _) => inferInstanceAs (Decidable (_ → _ → _))
  | .server (.sent i _ _ _) =>
      inferInstanceAs (Decidable (_ → ∀ f ∈ s.server.sending[i]?, _ → _ → _))
  | .dropped => inferInstanceAs (Decidable (_ → _ → _))
  | .emit | .relay _ _ | .post _ _ _ | .dial _ | .opened | .handshake | .handshakeReceived _ _
  | .deliver | .timeout | .server (.broadcast _ _ _ _ _) | .server (.connect _ _)
  | .server (.receive _ _) | .server (.replied _ _) | .server (.disconnect _)
  | .server (.retryTick _ _) | .server (.batchTick _ _ _) => isTrue trivial

/-- In a placed state, without what the server might have put by. -/
theorem Placed.carried_iff (h : s.Placed) :
    s.Carried ↔ 0 < s.inPosted ∨ 0 < s.server.inTasks isReady ∨
      (∃ f ∈ s.server.sending, f.msg.carries isReady = true ∧ s.Ahead f) ∨
      ∃ o ∈ s.wire, o.carries isReady = true := by
  have hnone := h.keepsNone.not_queues
  rw [Carried]
  simp only [hnone, false_or]

/-- A status that is nowhere is not carried. -/
theorem Placed.not_carried (h : s.Placed)
    (hzero : s.inPosted + (s.server.inTasks isReady + s.server.inSends isReady) = 0)
    (hwire : ∀ o ∈ s.wire, o.carries isReady = false) : ¬ s.Carried := by
  rw [h.carried_iff]
  rintro (hposted | htasks | ⟨f, hf, hready, -⟩ | ⟨o, ho, hready⟩)
  · omega
  · omega
  · cases hready.symm.trans (WSServer.carries_eq_false_of_inSends (by omega) hf)
  · cases hready.symm.trans (hwire o ho)

/-- A status that is somewhere has been broadcast. -/
theorem Placed.broadcast_of_pos (h : s.Placed)
    (hpos : 0 < s.inPosted + (s.server.inTasks isReady + s.server.inSends isReady)) :
    s.signal = .broadcast := by
  by_contra hsignal
  have := (h.unsent hsignal).1
  omega

/-- Where a send of the status is still to come to the SDK's connection, or the status
is not yet a send, it is not on the connection. -/
theorem Placed.wire_of_pos (h : s.Placed)
    (hpos : 0 < s.inPosted + s.server.inTasks isReady ∨
      ∃ f ∈ s.server.sending, f.msg.carries isReady = true ∧ s.Ahead f) :
    ∀ o ∈ s.wire, o.carries isReady = false := by
  intro o ho
  rw [Bool.eq_false_iff]
  intro hcarries
  obtain ⟨hzero, hpassed⟩ := h.onWire o ho hcarries
  rcases hpos with hpos | ⟨f, hf, hready, hahead⟩
  · omega
  · exact hpassed f hf hready hahead

/-! ### Steps of the server -/

/-- A send of the status that is led to its `await` is at the SDK's connection or has
not been there. -/
theorem carried_of_started {l : Label StartPayload} {v : WSServer StartPayload}
    {f : SendLoop StartPayload} (hstep : s.server.step l = some v)
    (hf : s.server.started l = some f) (hready : f.msg.carries isReady = true)
    (hbefore : ∀ ws ∈ s.conn, ws ∈ f.visited → ws = f.ws) :
    Carried { s with server := v, wire := s.wire ++ s.arrivals l } := by
  have hmem : f ∈ v.sending := by
    rw [(WSServer.step_effect hstep).sending, hf]
    exact List.mem_append_right _ (List.mem_singleton_self f)
  by_cases hconn : s.conn = some f.ws
  · refine .inr (.inr (.inr (.inr ⟨f.msg, ?_, hready⟩)))
    exact List.mem_append_right _ (mem_arrivals.mpr ⟨f, hf, hconn, rfl⟩)
  · refine .inr (.inr (.inl ⟨f, hmem, hready, ?_⟩))
    intro ws hws hvisited
    rw [hbefore ws hws hvisited] at hws
    exact hconn hws

theorem Placed.carried_server (h : s.Placed) {l : Label StartPayload}
    {v : WSServer StartPayload} (hl : l.broadcastId = none) (hstep : s.server.step l = some v)
    (hwaiting : s.stage = .waiting) (htimely : s.Timely (.server l)) (hcarried : s.Carried) :
    Carried { s with server := v, wire := s.wire ++ s.arrivals l } := by
  have heffect := WSServer.step_effect hstep
  rcases h.carried_iff.mp hcarried with hposted | htasks | ⟨f, hf, hready, hahead⟩ | ⟨o, ho, hready⟩
  · exact .inl hposted
  · have hsame (htask : s.server.tasksAfter l = s.server.tasks) :
        Carried { s with server := v, wire := s.wire ++ s.arrivals l } := by
      refine .inr (.inl ?_)
      show 0 < v.inTasks isReady
      rw [WSServer.inTasks, heffect.tasks, htask]
      exact htasks
    cases l with
    | broadcast obj created uuid now batchId => cases hl
    | startTask pick =>
        cases hhead : s.server.tasks with
        | nil => simp [WSServer.inTasks, hhead] at htasks
        | cons o rest =>
            by_cases hready : o.carries isReady = true
            · -- The status is the task that starts, and it finds a client.
              have hclients : s.server.clients ≠ ∅ :=
                htimely hwaiting (by rw [hhead]; exact hready)
              have hstarted : s.server.started (.startTask pick) =
                  some ⟨.task, o, [], s.server.clients.card, s.server.edits, [pick], pick, []⟩ := by
                simp only [WSServer.started, hhead, WSServer.firstSend, if_neg hclients]
              refine carried_of_started hstep hstarted hready ?_
              intro ws _ hvisited
              exact List.mem_singleton.mp hvisited
            · refine .inr (.inl ?_)
              show 0 < v.inTasks isReady
              rw [WSServer.inTasks, hhead, List.countP_cons, if_neg hready] at htasks
              rw [WSServer.inTasks, heffect.tasks, WSServer.tasksAfter, hhead, List.tail_cons]
              exact htasks
    | _ => exact hsame rfl
  · have hsame (hother : f ∈ s.server.otherSends l) :
        Carried { s with server := v, wire := s.wire ++ s.arrivals l } := by
      refine .inr (.inr (.inl ⟨f, ?_, hready, hahead⟩))
      show f ∈ v.sending
      rw [heffect.sending]
      exact List.mem_append_left _ hother
    cases l with
    | sent i closed next pick =>
        cases hg : s.server.sending[i]? with
        | none => simp [WSServer.step, hg] at hstep
        | some g =>
            rcases List.mem_cons.mp ((WSServer.resumed_perm hg).mem_iff.mpr hf) with rfl | hother
            · -- The send of the status is the one that goes on.
              obtain ⟨hsize, hnext⟩ := htimely hwaiting f hg hready hahead
              obtain ⟨ws, rfl⟩ := Option.isSome_iff_exists.mp hnext
              have hstarted : s.server.started (.sent i closed (some ws) pick) =
                  some { f with
                    visited := ws :: f.visited
                    ws := ws
                    disconnected := WSServer.closedSoFar f closed } := by
                simp only [WSServer.started, hg, if_neg (not_not.mpr hsize)]
              refine carried_of_started hstep hstarted hready ?_
              intro w hw hvisited
              rcases List.mem_cons.mp hvisited with hnew | hold
              · exact hnew
              · exact absurd hold (hahead w hw)
            · exact hsame hother
    | _ => exact hsame hf
  · exact .inr (.inr (.inr (.inr ⟨o, List.mem_append_left _ ho, hready⟩)))

/-- A step of the server that leaves no copy leaves the status nowhere. -/
theorem Placed.not_carried_server (h : s.Placed) {l : Label StartPayload}
    {v : WSServer StartPayload} (hl : l.broadcastId = none) (hstep : s.server.step l = some v)
    (hstarted : ∀ f, s.server.started l = some f → f.msg.carries isReady = false)
    (hzero : s.inPosted + (v.inTasks isReady + v.inSends isReady) = 0)
    (hwire : ∀ o ∈ s.wire, o.carries isReady = false) :
    ¬ Carried { s with server := v, wire := s.wire ++ s.arrivals l } := by
  refine (h.server hl hstep).not_carried hzero ?_
  intro o ho
  rcases List.mem_append.mp ho with hold | hnew
  · exact hwire o hold
  · obtain ⟨f, hf, -, rfl⟩ := mem_arrivals.mp hnew
    exact hstarted f hf

theorem Placed.lost_startTask (h : s.Placed) {pick : ℕ} {v : WSServer StartPayload}
    (hstep : s.server.step (.startTask pick) = some v)
    (hready : (s.server.tasks.head?.any fun o => o.carries isReady) = true)
    (hclients : s.server.clients = ∅) :
    s.signal = .broadcast ∧
      ¬ Carried { s with server := v, wire := s.wire ++ s.arrivals (.startTask pick) } := by
  cases hhead : s.server.tasks with
  | nil => simp [hhead] at hready
  | cons o rest =>
      rw [hhead] at hready
      have heffect := WSServer.step_effect hstep
      have hnone : s.server.started (.startTask pick) = none := by
        simp only [WSServer.started, hhead, WSServer.firstSend, if_pos hclients]
      have hbefore : s.server.inTasks isReady = v.inTasks isReady + 1 := by
        have hcarries : o.carries isReady = true := hready
        rw [WSServer.inTasks, WSServer.inTasks, heffect.tasks, WSServer.tasksAfter, hhead,
          List.tail_cons, List.countP_cons, if_pos hcarries]
      have hsends : v.inSends isReady = s.server.inSends isReady := by
        rw [WSServer.inSends, heffect.sending, hnone, Option.toList_none, List.append_nil]
        rfl
      have honce := h.once
      refine ⟨h.broadcast_of_pos (by omega), h.not_carried_server rfl hstep ?_ (by omega) ?_⟩
      · intro f hf
        cases hnone.symm.trans hf
      · exact h.wire_of_pos (.inl (by omega))

theorem Placed.lost_sent (h : s.Placed) {i pick : ℕ} {closed : Bool} {next : Option ℕ}
    {v : WSServer StartPayload} {f : SendLoop StartPayload}
    (hstep : s.server.step (.sent i closed next pick) = some v)
    (hf : s.server.sending[i]? = some f) (hready : f.msg.carries isReady = true)
    (hahead : s.Ahead f)
    (hends : ¬ (s.server.clients.card = f.startSize ∧ next.isSome = true)) :
    s.signal = .broadcast ∧
      ¬ Carried { s with server := v, wire := s.wire ++ s.arrivals (.sent i closed next pick) } := by
  have heffect := WSServer.step_effect hstep
  -- The send ends, and what its caller sends next was put by.
  have hother : ∀ g, s.server.started (.sent i closed next pick) = some g →
      g.msg.carries isReady = false := by
    intro g hg
    rw [Bool.eq_false_iff]
    intro hcarries
    cases (WSServer.started_cases h.keepsNone hg).2 hcarries with
    | next _ _ _ g' hg' hmsg hsize hvisited =>
        obtain rfl := Option.some.inj (hf.symm.trans hg')
        exact hends ⟨hsize, rfl⟩
  have hbefore := WSServer.inSends_eq_resumed (p := isReady) hf
  rw [if_pos hready] at hbefore
  have hsends : v.inSends isReady =
      (s.server.sending.eraseIdx i).countP fun g => g.msg.carries isReady := by
    have hnew : (s.server.started (.sent i closed next pick)).toList.countP
        (fun g => g.msg.carries isReady) = 0 := by
      rw [List.countP_eq_zero]
      intro g hg
      rw [hother g (Option.mem_toList.mp hg)]
      exact Bool.false_ne_true
    rw [WSServer.inSends, heffect.sending, List.countP_append, hnew]
    rfl
  have htasks := WSServer.inTasks_step (p := isReady) (l := .sent i closed next pick) rfl hstep
  have honce := h.once
  refine ⟨h.broadcast_of_pos (by omega), h.not_carried_server rfl hstep hother (by omega) ?_⟩
  exact h.wire_of_pos (.inr ⟨f, List.mem_of_getElem? hf, hready, hahead⟩)

/-! ### The callback -/

theorem Placed.carried_callback (h : s.Placed) {b : Posted} {rest : List Posted} {now : ℚ}
    {batchId : Text} {v : WSServer StartPayload} (hposted : s.posted = b :: rest)
    (hstep : s.server.step (.broadcast b.obj b.created b.uuid now batchId) = some v)
    (htimely : isReady b.msg = true → s.server.clients ≠ ∅) (hcarried : s.Carried) :
    Carried { s with posted := rest, server := v } := by
  obtain ⟨hsending, htasks⟩ :=
    WSServer.copies_broadcast isReady_fireAndForget h.keepsNone hstep
  rcases h.carried_iff.mp hcarried with hpos | hpos | ⟨f, hf, hready, hahead⟩ | hwire
  · by_cases hready : isReady b.msg = true
    · have hone : v.inTasks isReady = s.server.inTasks isReady + 1 := by
        rw [htasks, if_pos ⟨hready, htimely hready⟩]
      refine .inr (.inl ?_)
      show 0 < v.inTasks isReady
      omega
    · rw [inPosted_of_posted hposted, if_neg hready] at hpos
      exact .inl hpos
  · refine .inr (.inl ?_)
    show 0 < v.inTasks isReady
    omega
  · exact .inr (.inr (.inl ⟨f, hsending.symm ▸ hf, hready, hahead⟩))
  · exact .inr (.inr (.inr (.inr hwire)))

theorem Placed.lost_callback (h : s.Placed) {b : Posted} {rest : List Posted} {now : ℚ}
    {batchId : Text} {v : WSServer StartPayload} (hposted : s.posted = b :: rest)
    (hstep : s.server.step (.broadcast b.obj b.created b.uuid now batchId) = some v)
    (hready : isReady b.msg = true) (hclients : s.server.clients = ∅) :
    s.signal = .broadcast ∧ ¬ Carried { s with posted := rest, server := v } := by
  obtain ⟨hsending, htasks⟩ :=
    WSServer.copies_broadcast isReady_fireAndForget h.keepsNone hstep
  rw [if_neg (fun hand => hand.2 hclients)] at htasks
  have hbefore := inPosted_of_posted hposted
  rw [if_pos hready] at hbefore
  have hsends : v.inSends isReady = s.server.inSends isReady := by
    rw [WSServer.inSends, hsending]
    rfl
  have honce := h.once
  have hzero : (rest.countP fun b => isReady b.msg) +
      (v.inTasks isReady + v.inSends isReady) = 0 := by omega
  refine ⟨h.broadcast_of_pos (by omega), ?_⟩
  exact (h.callback hposted hstep).not_carried hzero (h.wire_of_pos (.inl (by omega)))

/-! ### The SDK's end -/

theorem Carried.post (hcarried : s.Carried) (b : Posted) : (s.post b).Carried := by
  rcases hcarried with hposted | helsewhere
  · refine .inl ?_
    rw [inPosted_post]
    exact Nat.lt_of_lt_of_le hposted (Nat.le_add_right _ _)
  · exact .inr helsewhere

/-- No send has been to a connection that is new. -/
theorem Placed.carried_dial (h : s.Placed) {ws : ℕ} (hnew : ws ∉ s.server.seen)
    (hcarried : s.Carried) : Carried { s with conn := some ws } := by
  rcases hcarried with hposted | htasks | ⟨f, hf, hready, -⟩ | hqueues | hwire
  · exact .inl hposted
  · exact .inr (.inl htasks)
  · refine .inr (.inr (.inl ⟨f, hf, hready, ?_⟩))
    intro w hw hvisited
    obtain rfl := Option.some.inj hw
    exact hnew (h.known.visited f hf _ hvisited)
  · exact .inr (.inr (.inr (.inl hqueues)))
  · exact .inr (.inr (.inr (.inr hwire)))

/-- Another message is received. -/
theorem Carried.deliver {o : Outgoing StartPayload} {rest : List (Outgoing StartPayload)}
    {stage : Stage} (hwire : s.wire = o :: rest) (hother : o.carries isReady = false)
    (hcarried : s.Carried) : Carried { s with wire := rest, stage := stage } := by
  rcases hcarried with hposted | htasks | hsend | hqueues | ⟨x, hx, hready⟩
  · exact .inl hposted
  · exact .inr (.inl htasks)
  · exact .inr (.inr (.inl hsend))
  · exact .inr (.inr (.inr (.inl hqueues)))
  · rw [hwire] at hx
    rcases List.mem_cons.mp hx with rfl | hx
    · cases hready.symm.trans hother
    · exact .inr (.inr (.inr (.inr ⟨x, hx, hready⟩)))

/-- A send under way is yet to come to the next connection. -/
theorem Carried.dropped {stage : Stage} (hcarried : s.Carried)
    (hsend : (∃ o ∈ s.wire, o.carries isReady = true) → 0 < s.server.inSends isReady) :
    Carried { s with
      conn := none
      isConnected := false
      handshakeSent := false
      wire := []
      stage := stage } := by
  rcases hcarried with hposted | htasks | ⟨f, hf, hready, -⟩ | hqueues | hwire
  · exact .inl hposted
  · exact .inr (.inl htasks)
  · exact .inr (.inr (.inl ⟨f, hf, hready, nofun⟩))
  · exact .inr (.inr (.inr (.inl hqueues)))
  · obtain ⟨f, hf, hready⟩ := List.countP_pos_iff.mp (hsend hwire)
    exact .inr (.inr (.inl ⟨f, hf, hready, nofun⟩))

/-- Messages do not make `start` wait, and one that leaves it waiting is not the
status. -/
theorem foldl_onMessage_eq_waiting {events : List (OutMsg StartPayload)} {stage : Stage}
    (h : events.foldl Stage.onMessage stage = .waiting) :
    stage = .waiting ∧ ∀ m ∈ events, isReady m = false := by
  induction events generalizing stage with
  | nil => exact ⟨h, by simp⟩
  | cons m rest ih =>
      obtain ⟨hnext, hrest⟩ := ih h
      have hwaiting : stage = .waiting ∧ isReady m = false := by
        cases stage with
        | handshaking =>
            have hnot : onHandshake m ≠ .waiting := by
              unfold onHandshake
              repeat' split
              all_goals nofun
            exact absurd hnext hnot
        | waiting =>
            refine ⟨rfl, Bool.eq_false_iff.mpr fun hready => ?_⟩
            rw [Stage.onMessage, if_pos hready] at hnext
            cases hnext
        | connecting => cases hnext
        | connected => cases hnext
        | handshaken => cases hnext
        | ready => cases hnext
        | failed => cases hnext
      refine ⟨hwaiting.1, ?_⟩
      intro x hx
      rcases List.mem_cons.mp hx with rfl | hx
      · exact hwaiting.2
      · exact hrest x hx

/-! ### Any step -/

/-- **A timely step** does not lose the status. -/
theorem notLost_step (h : s.Placed) (hnotLost : s.NotLost) (htimely : s.Timely l)
    (hstep : s.step l = some t) : t.NotLost := by
  intro hwaiting hbroadcast
  cases stepsTo_of_step hstep with
  | emit => cases hbroadcast
  | @relay created uuid =>
      refine .inl ?_
      have hready : isReady (Posted.msg ⟨readyStatus, created, uuid⟩) = true :=
        isReady_readyStatus created uuid
      rw [inPosted_post, if_pos hready]
      exact Nat.succ_pos _
  | post => exact (hnotLost hwaiting hbroadcast).post _
  | callback hposted hserver =>
      refine h.carried_callback hposted hserver ?_ (hnotLost hwaiting hbroadcast)
      exact fun hready => htimely hwaiting (by rw [hposted]; exact hready)
  | server hlabel hserver =>
      exact h.carried_server hlabel hserver hwaiting htimely (hnotLost hwaiting hbroadcast)
  | dial _ hnew => exact h.carried_dial hnew (hnotLost hwaiting hbroadcast)
  | opened =>
      refine hnotLost ?_ hbroadcast
      by_cases hstage : s.stage = .connecting
      · simp [hstage] at hwaiting
      · simpa [hstage] using hwaiting
  | handshake => cases hwaiting
  | handshakeReceived => exact Carried.post (hnotLost hwaiting hbroadcast) _
  | @deliver o rest hwire =>
      obtain ⟨hbefore, hnone⟩ := foldl_onMessage_eq_waiting hwaiting
      have hother : o.carries isReady = false := by
        rw [Outgoing.carries, List.any_eq_false]
        intro m hm
        rw [hnone m hm]
        exact Bool.false_ne_true
      exact (hnotLost hbefore hbroadcast).deliver hwire hother
  | attach => exact htimely hbroadcast
  | dropped =>
      have hbefore : s.stage = .waiting := by
        by_cases hstage : s.stage = .connecting
        · simp [hstage] at hwaiting
        · simpa [hstage] using hwaiting
      exact (hnotLost hbefore hbroadcast).dropped (htimely hbefore)
  | timeout => cases hwaiting

/-- **A step that is not timely** loses the status for a `start` that waits. -/
theorem lost_step (h : s.Placed) (hmiss : ¬ s.Timely l) (hstep : s.step l = some t) :
    ¬ t.NotLost := by
  have hplaced := placed_step h hstep
  cases stepsTo_of_step hstep with
  | attach =>
      obtain ⟨hbroadcast, hgone⟩ := Classical.not_imp.mp hmiss
      exact fun hnotLost => hgone (hnotLost rfl hbroadcast)
  | callback hposted hserver =>
      obtain ⟨hwaiting, hrest⟩ := Classical.not_imp.mp hmiss
      obtain ⟨hhead, hclients⟩ := Classical.not_imp.mp hrest
      rw [hposted] at hhead
      obtain ⟨hbroadcast, hgone⟩ := h.lost_callback hposted hserver hhead (not_not.mp hclients)
      exact fun hnotLost => hgone (hnotLost hwaiting hbroadcast)
  | @server l v hlabel hserver =>
      cases l with
      | startTask pick =>
          obtain ⟨hwaiting, hrest⟩ := Classical.not_imp.mp hmiss
          obtain ⟨hhead, hclients⟩ := Classical.not_imp.mp hrest
          obtain ⟨hbroadcast, hgone⟩ := h.lost_startTask hserver hhead (not_not.mp hclients)
          exact fun hnotLost => hgone (hnotLost hwaiting hbroadcast)
      | sent i closed next pick =>
          obtain ⟨hwaiting, hrest⟩ := Classical.not_imp.mp hmiss
          simp only [not_forall] at hrest
          obtain ⟨f, hf, hready, hahead, hends⟩ := hrest
          obtain ⟨hbroadcast, hgone⟩ := h.lost_sent hserver hf hready hahead hends
          exact fun hnotLost => hgone (hnotLost hwaiting hbroadcast)
      | _ => exact absurd trivial hmiss
  | dropped =>
      obtain ⟨hwaiting, hrest⟩ := Classical.not_imp.mp hmiss
      obtain ⟨⟨o, ho, hready⟩, hnone⟩ := Classical.not_imp.mp hrest
      have hbroadcast : s.signal = .broadcast := by
        by_contra hsignal
        cases hready.symm.trans ((h.unsent hsignal).2 o ho)
      obtain ⟨hzero, -⟩ := h.onWire o ho hready
      have hgone := hplaced.not_carried
        (show s.inPosted + (s.server.inTasks isReady + s.server.inSends isReady) = 0 by omega)
        (fun _ ho => absurd ho List.not_mem_nil)
      refine fun hnotLost => hgone (hnotLost ?_ hbroadcast)
      show (if s.stage = .connecting then Stage.failed else s.stage) = .waiting
      rw [hwaiting]
      rfl
  | _ => exact absurd trivial hmiss

end Losses

/-! ## Runs -/

/-- **Exactly when the ready signal is not lost**: along any schedule of the worker, the
supervisor, the server and the SDK, `start` never waits for a `ready` status that has
been broadcast and is gone if and only if every step is timely. -/
theorem notLost_iff {labels : List StartLabel} {u : Startup}
    (hrun : execute step init labels = some u) :
    Always step NotLost init labels ↔ MeetsAlong step Timely init labels := by
  refine always_iff_meetsAlong step (fun s => s.Placed ∧ s.NotLost) ?_ (fun _ h => h.2) ?_ ?_ hrun
  · exact ⟨placed_init, nofun⟩
  · intro a l b h _ htimely hstep
    exact ⟨placed_step h.1 hstep, notLost_step h.1 h.2 htimely hstep⟩
  · intro a l b h _ hmiss hstep
    exact lost_step h.1 hmiss hstep

/-- The SDK connects, shakes hands and attaches its listener. -/
def connectAndAttach : List StartLabel :=
  [.dial 0, .server (.connect 0 0), .opened, .handshake, .handshakeReceived 0 ['h'],
    .callback 0 [], .server (.startTask 0), .deliver, .server (.sent 0 false none 0), .attach]

/-- The models take long to load: the status comes when `start` already waits for it. -/
theorem notLost_of_slow_worker :
    Always step NotLost init (connectAndAttach ++
      [.emit, .relay 0 ['r'], .callback 0 [], .server (.startTask 0), .deliver]) := by
  have hrun : (execute step init (connectAndAttach ++
      [.emit, .relay 0 ['r'], .callback 0 [], .server (.startTask 0), .deliver])).isSome = true := by
    decide +kernel
  obtain ⟨u, hu⟩ := Option.isSome_iff_exists.mp hrun
  exact (notLost_iff hu).mpr (by decide +kernel)

/-- The worker is ready before the SDK has connected: the status is broadcast while no
client is there and dropped, and `start` waits for it until its time-out. -/
theorem lost_before_connect :
    ∃ u, execute step init ([.emit, .relay 0 ['r'], .callback 0 []] ++ connectAndAttach) = some u ∧
      u.stage = .waiting ∧ u.signal = .broadcast ∧ ¬ u.Carried ∧
      ¬ Always step NotLost init
        ([.emit, .relay 0 ['r'], .callback 0 []] ++ connectAndAttach) := by
  have hlast : (execute step init
      ([.emit, .relay 0 ['r'], .callback 0 []] ++ connectAndAttach)).map
        (fun u => (u.stage, u.signal, decide u.Carried)) = some (.waiting, .broadcast, false) := by
    decide +kernel
  obtain ⟨u, hu, heq⟩ := Option.map_eq_some_iff.mp hlast
  obtain ⟨hstage, hsignal, hcarried⟩ : u.stage = .waiting ∧ u.signal = .broadcast ∧
      decide u.Carried = false := by
    simpa only [Prod.mk.injEq] using heq
  have hgone : ¬ u.Carried := of_decide_eq_false hcarried
  refine ⟨u, hu, hstage, hsignal, hgone, fun halways => ?_⟩
  exact hgone (always_final step halways hu hstage hsignal)

end Startup

end Sdk
end AvaListener
