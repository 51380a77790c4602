import AvaListener.Transport.SendSteps

/-!
# The client set under its iterators

`_send_to_clients` iterates the client set with an `await` in the loop body, and
every join and leave of a client changes that set.  A send loop is undisturbed
while the set has the age it had when its iterator was made.

A change that another coroutine makes in between disturbs it, and where the size
differs at its next turn the `RuntimeError` ends its caller; for the retry and
the batch loop that is the end of the loop.
-/

namespace AvaListener
namespace Transport

open Library

variable {π : Type}

namespace WSServer

/-- No send loop iterates a set that was changed under it, and the two background
loops are alive. -/
structure Undisturbed (s : WSServer π) : Prop where
  sending : ∀ f ∈ s.sending, f.startEdits = s.edits
  retryLoop : s.retryLoop ≠ .dead
  batchLoop : s.batchLoop ≠ .dead

/-- The set has moreover the size it had. -/
structure Steady (s : WSServer π) : Prop extends Undisturbed s where
  size : ∀ f ∈ s.sending, f.startSize = s.clients.card

/-- A client joins or leaves only while no other send is under way. -/
def ChangesQuietly (s : WSServer π) (l : Label π) : Prop :=
  s.changesClients l = true → s.otherSends l = []

instance [DecidableEq π] (s : WSServer π) (l : Label π) : Decidable (s.ChangesQuietly l) :=
  inferInstanceAs (Decidable (_ → _))

/-! ## One step -/

section Step

variable {s t : WSServer π} {l : Label π}

theorem steady_init : (init : WSServer π).Steady where
  sending := by simp [init]
  retryLoop := by simp [init]
  batchLoop := by simp [init]
  size := by simp [init]

/-- **A quiet step keeps every send undisturbed.** -/
theorem steady_step (h : s.Steady) (hquiet : s.ChangesQuietly l) (hstep : s.step l = some t) :
    t.Steady := by
  have heffect := step_effect hstep
  obtain ⟨hretry, hbatch⟩ := heffect.alive h.size
  have hsends : ∀ f ∈ t.sending, f.startEdits = t.edits ∧ f.startSize = t.clients.card := by
    intro f hf
    rw [heffect.sending] at hf
    cases hchange : s.changesClients l with
    | true =>
        -- The only send after the step is the one that starts.
        rw [hquiet hchange, List.nil_append] at hf
        rcases heffect.iterator f (Option.mem_toList.mp hf) with hnow | ⟨hsame, -⟩
        · exact hnow
        · cases hchange.symm.trans hsame
    | false =>
        obtain ⟨hclients, hedits⟩ := heffect.same hchange
        rcases List.mem_append.mp hf with hother | hnew
        · have hmem := mem_sending_of_otherSends hother
          rw [hclients, hedits]
          exact ⟨h.sending f hmem, h.size f hmem⟩
        · rcases heffect.iterator f (Option.mem_toList.mp hnew) with hnow | ⟨-, g, hg, hge, hgs⟩
          · exact hnow
          · rw [hclients, hedits, hge, hgs]
            exact ⟨h.sending g hg, h.size g hg⟩
  refine ⟨⟨?_, hretry h.retryLoop, hbatch h.batchLoop⟩, ?_⟩
  · intro f hf
    exact (hsends f hf).1
  · intro f hf
    exact (hsends f hf).2

/-- **A change of the set under another send disturbs that send at once.** -/
theorem disturbed_step (h : s.Steady) (hmiss : ¬ s.ChangesQuietly l) (hstep : s.step l = some t) :
    ¬ t.Undisturbed := by
  intro hquiet
  obtain ⟨hchange, hsends⟩ := Classical.not_imp.mp hmiss
  obtain ⟨f, hf⟩ := List.exists_mem_of_ne_nil _ hsends
  have heffect := step_effect hstep
  have hkept : f ∈ t.sending := by
    rw [heffect.sending]
    exact List.mem_append_left _ hf
  have hbefore := h.sending f (mem_sending_of_otherSends hf)
  have hnow := hquiet.sending f hkept
  have holder := heffect.older h.size hchange
  omega

end Step

/-! ## Runs -/

/-- **Exactly when no send is disturbed**: along any schedule of the server's coroutines
the sends iterate an unchanged set and the background loops live if and only if every
join and leave of a client happens while no other send is under way. -/
theorem undisturbed_iff {labels : List (Label π)} {u : WSServer π}
    (hrun : execute step init labels = some u) :
    Always step Undisturbed (init : WSServer π) labels ↔
      MeetsAlong step ChangesQuietly (init : WSServer π) labels :=
  always_iff_meetsAlong step Steady steady_init (fun _ h => h.toUndisturbed)
    (fun _ _ _ h _ hquiet hstep => steady_step h hquiet hstep)
    (fun _ _ _ h _ hmiss hstep => disturbed_step h hmiss hstep) hrun

/-- A wake event. -/
def wakeObj : MessageObj Unit :=
  ⟨some wakeType, none, none, none, none, some (), ()⟩

/-- A wake is sent to the one client and not acked; a second client joins after the
send is over, and the retry goes to both. -/
def quietJoin : List (Label Unit) :=
  [.connect 0 0, .broadcast wakeObj 0 ['a'] 0 [], .startTask 0, .sent 0 false none 0,
    .connect 1 1, .retryTick 1 0, .sent 0 false (some 1) 0, .sent 0 false none 0]

theorem undisturbed_of_quietJoin : Always step Undisturbed (init : WSServer Unit) quietJoin := by
  have hrun : (execute step (init : WSServer Unit) quietJoin).isSome = true := by decide +kernel
  obtain ⟨u, hu⟩ := Option.isSome_iff_exists.mp hrun
  exact (undisturbed_iff hu).mpr (by decide +kernel)

/-- The second client joins while the retry is being sent to the first. -/
def joinDuringRetry : List (Label Unit) :=
  [.connect 0 0, .broadcast wakeObj 0 ['a'] 0 [], .startTask 0, .sent 0 false none 0,
    .retryTick 1 0, .connect 1 1, .sent 0 false none 0]

/-- The join changes the set under the retry loop's iterator, and the loop ends with
an exception: no message is retransmitted any more. -/
theorem retryLoop_dead_after_joinDuringRetry :
    ∃ u, execute step (init : WSServer Unit) joinDuringRetry = some u ∧ u.retryLoop = .dead ∧
      ¬ Always step Undisturbed (init : WSServer Unit) joinDuringRetry := by
  have hlast : (execute step (init : WSServer Unit) joinDuringRetry).map (fun a => a.retryLoop) =
      some .dead := by decide +kernel
  obtain ⟨u, hu, hdead⟩ := Option.map_eq_some_iff.mp hlast
  refine ⟨u, hu, hdead, ?_⟩
  intro halways
  exact (always_final step halways hu).retryLoop hdead

end WSServer

end Transport
end AvaListener
