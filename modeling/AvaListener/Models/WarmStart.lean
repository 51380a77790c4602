import AvaListener.Library.Simulation
import AvaListener.Models.ManagerSteps

/-!
# Starting again

What `verifyOrDownload` does when it is called again, with the same manifest, over what
an earlier call has left in the cache directory.

A call that has resolved leaves every model in place, but the cache keys of the models it
downloaded are those of an unknown manifest.  The second call therefore hashes these
files, finds them valid and fetches nothing; its checks write the keys of this manifest.
Once a second call has resolved as well, the third is answered from the cache alone.
-/

namespace AvaListener
namespace Models

open Library

variable {β : Type*} (sha256 : β → Text) (manifestHash : Text → Text)
  (bytesAt : Text → Stamp → β) (used : Set Manifest)

/-- Every model has its file. -/
def Disk.Complete (d : Disk β) (m : Manifest) : Prop := ∀ e ∈ m.models, d.HasModel sha256 e

/-- The cache answers the check of the model, and answers it with yes. -/
def Disk.Vouches (d : Disk β) (m : Manifest) (e : ModelEntry) : Prop :=
  ∃ f, d.models e.target = some f ∧
    d.checksums.load.cache.get? e.id = some ⟨⟨manifestHash m.json, f.stamp⟩, e.sha256⟩

section Checks

variable {m : Manifest} {d : Disk β} {e : ModelEntry}

/-- Only the cache can say yes before the first `await`. -/
theorem vouches_of_verifyModel {statThrows : Bool}
    (h : verifyModel d (manifestHash m.json) statThrows e = .done true) :
    d.Vouches manifestHash m e := by
  unfold verifyModel at h
  split at h
  · cases h
  next f hf =>
    split at h
    · cases h
    · split at h
      · cases h
      next cached hget =>
        split at h
        next hkey =>
          have hequal : cached.hash = e.sha256 := of_decide_eq_true (Verification.done.inj h)
          refine ⟨f, hf, ?_⟩
          rw [hget, ← hkey, ← hequal]
        · cases h

/-- **The cache does not reject a valid file.** -/
theorem verifyModel_ne_false (hm : m ∈ used)
    (hcollision : Set.InjOn (fun m => manifestHash m.json) used)
    (hunknown : manifestHash m.json ≠ unknownHash)
    (hwritten : WrittenByCode sha256 manifestHash bytesAt used d.checksums)
    (hstamped : d.Stamped bytesAt) (he : e ∈ m.models) (hhas : d.HasModel sha256 e)
    (statThrows : Bool) :
    verifyModel d (manifestHash m.json) statThrows e ≠ .done false := by
  obtain ⟨f, hf, hhash⟩ := hhas
  unfold verifyModel
  rw [hf]
  cases statThrows with
  | true => nofun
  | false =>
      cases hget : d.checksums.load.cache.get? e.id with
      | none => nofun
      | some cached =>
          by_cases hkey : cached.key = ⟨manifestHash m.json, f.stamp⟩
          · have hcached : cached.hash = e.sha256 := by
              rw [← hhash]
              exact hash_of_cached sha256 manifestHash bytesAt used hm hcollision hunknown hwritten
                hstamped he hf hget hkey
            simp [hkey, hcached]
          · simp [hkey]

end Checks

namespace ModelManager

variable {m : Manifest} {d : Disk β}

/-! ## A start over a complete disk -/

/-- Some check has thrown. -/
def Threw (s : ModelManager β) : Prop := ∃ v ∈ s.verifications, v.2 = .threw

/-- What holds along a run over a complete disk. -/
structure Confirming (m : Manifest) (d : Disk β) (s : ModelManager β) : Prop where
  inv : s.Inv sha256 manifestHash bytesAt used m d
  models : s.disk.models = d.models
  notInvalid : ∀ v ∈ s.verifications, v.2 ≠ .done false
  phase : s.phase = .verifying ∨ s.phase = .rejected ∨ s.phase = .resolved []
  settled : ∀ targets, s.phase = .resolved targets → ∀ v ∈ s.verifications, v.2 = .done true
  /-- A check that has come out true has left its answer in the cache, except that no
  entry is kept under `__proto__`. -/
  cached : s.Threw ∨ ∀ v ∈ s.verifications, v.2 = .done true → v.1.id ≠ protoKey →
    s.disk.Vouches manifestHash m v.1

theorem inv_start (hm : m ∈ used) (hcollision : Set.InjOn (fun m => manifestHash m.json) used)
    (hunknown : manifestHash m.json ≠ unknownHash)
    (hwritten : WrittenByCode sha256 manifestHash bytesAt used d.checksums)
    (hstamped : d.Stamped bytesAt) (statThrows : Text → Bool) :
    (start manifestHash m d statThrows).Inv sha256 manifestHash bytesAt used m d :=
  ⟨base_start sha256 manifestHash bytesAt used hm hcollision hunknown hwritten hstamped
    statThrows, trivial⟩

theorem confirming_start (hm : m ∈ used)
    (hcollision : Set.InjOn (fun m => manifestHash m.json) used)
    (hunknown : manifestHash m.json ≠ unknownHash)
    (hwritten : WrittenByCode sha256 manifestHash bytesAt used d.checksums)
    (hstamped : d.Stamped bytesAt) (hcomplete : d.Complete sha256 m) (statThrows : Text → Bool) :
    (start manifestHash m d statThrows).Confirming sha256 manifestHash bytesAt used m d where
  inv := inv_start sha256 manifestHash bytesAt used hm hcollision hunknown hwritten hstamped
    statThrows
  models := rfl
  notInvalid := by
    intro v hv
    obtain ⟨e, he, rfl⟩ := List.mem_map.mp hv
    exact verifyModel_ne_false sha256 manifestHash bytesAt used hm hcollision hunknown hwritten
      hstamped he (hcomplete e he) _
  phase := .inl rfl
  settled := nofun
  cached := by
    refine .inr ?_
    intro v hv hdone _
    obtain ⟨e, he, rfl⟩ := List.mem_map.mp hv
    exact vouches_of_verifyModel manifestHash hdone

theorem invalid_eq_nil {verifications : List (ModelEntry × Verification)}
    (h : ∀ v ∈ verifications, v.2 = .done true) : invalid verifications = [] := by
  refine List.map_eq_nil_iff.mpr (List.filter_eq_nil_iff.mpr ?_)
  intro v hv
  rw [h v hv]
  decide

/-- One check ends: the phase is still the first one. -/
theorem Confirming.not_resolved {s : ModelManager β} {i : ℕ} {e : ModelEntry} {key : CacheKey}
    (hs : s.Confirming sha256 manifestHash bytesAt used m d)
    (hi : s.verifications[i]? = some (e, .hashing key)) {targets : List Text} :
    s.phase ≠ .resolved targets := by
  intro hphase
  have hdone := hs.settled targets hphase _ (List.mem_of_getElem? hi)
  cases hdone

/-- What the write of a check's cache entry leaves in the cache. -/
theorem vouches_saveChecksums {e e' : ModelEntry} {f : ModelFile β} {d : Disk β}
    (he : e ∈ m.models) (he' : e' ∈ m.models) (hf : d.models e.target = some f)
    (hproto : e'.id ≠ protoKey) (h : e' = e ∨ d.Vouches manifestHash m e') :
    (d.saveChecksums (d.checksums.load.setCache e.id
      ⟨⟨manifestHash m.json, f.stamp⟩, e.sha256⟩) .ok).Vouches manifestHash m e' := by
  by_cases hid : e'.id = e.id
  · obtain rfl := eq_of_id_eq he' he hid
    exact ⟨f, hf, Checksums.get?_setCache_self _ _ fun h => absurd h hproto⟩
  · rcases h with rfl | ⟨g, hg, hget⟩
    · exact absurd rfl hid
    · exact ⟨g, hg, (Checksums.get?_setCache_of_ne _ _ hid).trans hget⟩

section Steps

variable [DecidableEq β] {s t : ModelManager β}

/-- A check that has thrown stays so, since only those at their hash computation go on. -/
theorem threw_step {l : Label β}
    (hl : (∃ i write, l = .hashed i write) ∨ ∃ i, l = .hashThrows i)
    (h : s.step sha256 bytesAt l = some t) (hs : s.Threw) : t.Threw := by
  obtain ⟨hashEnd, computed, hresume⟩ := ConcurrentChecks.exists_resume_of_step hl h []
  exact ConcurrentChecks.rejected_resume hresume hs

theorem confirming_hashThrows {i : ℕ} (hs : s.Confirming sha256 manifestHash bytesAt used m d)
    (h : s.step sha256 bytesAt (.hashThrows i) = some t) :
    t.Confirming sha256 manifestHash bytesAt used m d := by
  have hinv := inv_hashThrows sha256 manifestHash bytesAt used hs.inv h
  obtain ⟨e, key, hi, rfl⟩ := hashThrows_cases h
  have hlt := (List.getElem?_eq_some_iff.mp hi).1
  refine ⟨hinv, hs.models, ?_, hs.phase, ?_, .inl ⟨(e, .threw), List.mem_set hlt _, rfl⟩⟩
  · intro v hv
    rcases List.mem_or_eq_of_mem_set hv with hold | rfl
    · exact hs.notInvalid v hold
    · nofun
  · intro targets hphase
    exact absurd hphase (hs.not_resolved sha256 manifestHash bytesAt used hi)

theorem confirming_hashed {i : ℕ} {write : Write} (hm : m ∈ used)
    (hcomplete : d.Complete sha256 m) (hs : s.Confirming sha256 manifestHash bytesAt used m d)
    (h : s.step sha256 bytesAt (.hashed i write) = some t) :
    t.Confirming sha256 manifestHash bytesAt used m d := by
  have hinv := inv_hashed sha256 manifestHash bytesAt used hm hs.inv h
  have hthrew := threw_step sha256 bytesAt (.inl ⟨i, write, rfl⟩) h
  obtain ⟨e, key, f, hi, hf, rfl⟩ := hashed_cases h
  have hv : (e, Verification.hashing key) ∈ s.verifications := List.mem_of_getElem? hi
  have hlisted : ∀ v ∈ s.verifications, v.1 ∈ m.models := by
    intro v hv
    rw [← hs.inv.1.entries]
    exact List.mem_map_of_mem hv
  have he : e ∈ m.models := hlisted _ hv
  obtain ⟨g, hg, rfl⟩ := hs.inv.1.hashing _ hv key rfl
  obtain rfl : f = g := Option.some.inj (hf.symm.trans hg)
  -- The file hashed is the one that was complete at the start.
  have hhash : sha256 f.bytes = e.sha256 := by
    obtain ⟨g, hg, hhash⟩ := hcomplete e he
    rw [← hs.models] at hg
    obtain rfl : f = g := Option.some.inj (hf.symm.trans hg)
    exact hhash
  refine ⟨hinv, (Disk.models_saveChecksums ..).trans hs.models, ?_, hs.phase, ?_, ?_⟩
  · intro v hmem
    rcases List.mem_or_eq_of_mem_set hmem with hold | rfl
    · exact hs.notInvalid v hold
    · show (if write = .ok then _ else Verification.threw) ≠ .done false
      rw [decide_eq_true hhash]
      split
      · nofun
      · nofun
  · intro targets hphase
    exact absurd hphase (hs.not_resolved sha256 manifestHash bytesAt used hi)
  · by_cases hwrite : write = .ok
    · subst hwrite
      refine hs.cached.imp hthrew fun hcached => ?_
      intro v hmem hdone hproto
      rw [hhash]
      rcases List.mem_or_eq_of_mem_set hmem with hold | rfl
      · exact vouches_saveChecksums manifestHash he (hlisted v hold) hf hproto
          (.inr (hcached v hold hdone hproto))
      · exact vouches_saveChecksums manifestHash he he hf hproto (.inl rfl)
    · refine .inl ⟨(e, .threw), ?_, rfl⟩
      simp only [if_neg hwrite]
      exact List.mem_set (List.getElem?_eq_some_iff.mp hi).1 _

theorem confirming_verified (hs : s.Confirming sha256 manifestHash bytesAt used m d)
    (h : s.step sha256 bytesAt .verified = some t) :
    t.Confirming sha256 manifestHash bytesAt used m d := by
  have hinv := inv_verified sha256 manifestHash bytesAt used hs.inv h
  obtain ⟨-, ⟨-, rfl⟩ | ⟨hends, rfl⟩⟩ := verified_cases h
  · exact ⟨hinv, hs.models, hs.notInvalid, .inr (.inl rfl), nofun, hs.cached⟩
  · have hdone : ∀ v ∈ s.verifications, v.2 = .done true := fun v hv =>
      (hends v hv).resolve_right (hs.notInvalid v hv)
    rw [invalid_eq_nil hdone] at hinv ⊢
    exact ⟨hinv, hs.models, hs.notInvalid, .inr (.inr rfl), fun _ _ => hdone, hs.cached⟩

/-- **Step lemma.**  Over a complete disk only the checks take steps. -/
theorem confirming_step {l : Label β} (hm : m ∈ used) (hcomplete : d.Complete sha256 m)
    (hs : s.Confirming sha256 manifestHash bytesAt used m d)
    (h : s.step sha256 bytesAt l = some t) :
    t.Confirming sha256 manifestHash bytesAt used m d ∧ ∀ temp, l ≠ .fetched temp := by
  rcases step_cases h with ⟨⟨i, write, rfl⟩ | ⟨i, rfl⟩, -⟩ | rfl | ⟨_, _, _, _, hphase, -⟩
  · exact ⟨confirming_hashed sha256 manifestHash bytesAt used hm hcomplete hs h, nofun⟩
  · exact ⟨confirming_hashThrows sha256 manifestHash bytesAt used hs h, nofun⟩
  · exact ⟨confirming_verified sha256 manifestHash bytesAt used hs h, nofun⟩
  · -- No download is under way.
    rcases hs.phase with hother | hother | hother
    · cases hphase.symm.trans hother
    · cases hphase.symm.trans hother
    · cases hphase.symm.trans hother

theorem confirming_run {labels : List (Label β)} (hm : m ∈ used) (hcomplete : d.Complete sha256 m)
    (hs : s.Confirming sha256 manifestHash bytesAt used m d)
    (hrun : execute (step sha256 bytesAt) s labels = some t) :
    t.Confirming sha256 manifestHash bytesAt used m d ∧ ∀ temp, .fetched temp ∉ labels := by
  refine execute_history
    (fun past s => s.Confirming sha256 manifestHash bytesAt used m d ∧ ∀ temp, .fetched temp ∉ past)
    ⟨hs, fun _ => List.not_mem_nil⟩ ?_ hrun
  rintro past l s t - ⟨hs, hpast⟩ hstep
  obtain ⟨ht, hl⟩ := confirming_step sha256 manifestHash bytesAt used hm hcomplete hs hstep
  refine ⟨ht, fun temp hmem => ?_⟩
  rcases List.mem_append.mp hmem with hold | hlast
  · exact hpast temp hold
  · exact hl temp (List.mem_singleton.mp hlast).symm

/-! ## The second start -/

theorem ne_unknownHash (hdigits : ∀ json, (manifestHash json).length = 64) (json : Text) :
    manifestHash json ≠ unknownHash := by
  intro hsame
  have hlength := hdigits json
  rw [hsame] at hlength
  exact absurd hlength (by decide)

omit [DecidableEq β] in
/-- What a call leaves that has resolved. -/
theorem complete_of_resolved {targets : List Text}
    (hs : s.Inv sha256 manifestHash bytesAt used m d) (hresolved : s.phase = .resolved targets) :
    s.disk.Complete sha256 m := by
  obtain ⟨-, hphaseOk⟩ := hs
  unfold PhaseOk at hphaseOk
  rw [hresolved] at hphaseOk
  intro e he
  exact (hphaseOk.others e he).resolve_right List.not_mem_nil

variable {initial : Disk β} {labels again third : List (Label β)} {u v w : ModelManager β}
  {throws throwsAgain throwsThird : Text → Bool} {targets targetsAgain : List Text}

theorem inv_run (hm : m ∈ used) (hdigits : ∀ json, (manifestHash json).length = 64)
    (hcollision : Set.InjOn (fun m : Manifest => manifestHash m.json) used)
    (hwritten : WrittenByCode sha256 manifestHash bytesAt used initial.checksums)
    (hstamped : initial.Stamped bytesAt)
    (hrun : execute (step sha256 bytesAt) (start manifestHash m initial throws) labels = some u) :
    u.Inv sha256 manifestHash bytesAt used m initial := by
  refine execute_invariant (step sha256 bytesAt)
    (fun s => s.Inv sha256 manifestHash bytesAt used m initial) ?_ ?_ hrun
  · exact ⟨base_start sha256 manifestHash bytesAt used hm hcollision
      (ne_unknownHash manifestHash hdigits m.json) hwritten hstamped throws, trivial⟩
  · exact fun a l b ha _ hstep => inv_step sha256 manifestHash bytesAt used hm ha hstep

/-- A run over the disk of a call that has resolved. -/
theorem confirming_again (hm : m ∈ used) (hdigits : ∀ json, (manifestHash json).length = 64)
    (hcollision : Set.InjOn (fun m : Manifest => manifestHash m.json) used)
    (hu : u.Inv sha256 manifestHash bytesAt used m initial)
    (hresolved : u.phase = .resolved targets)
    (hagain : execute (step sha256 bytesAt) (start manifestHash m u.disk throwsAgain) again =
      some v) :
    v.Confirming sha256 manifestHash bytesAt used m u.disk ∧ ∀ temp, .fetched temp ∉ again := by
  have hcomplete := complete_of_resolved sha256 manifestHash bytesAt used hu hresolved
  exact confirming_run sha256 manifestHash bytesAt used hm hcomplete
    (confirming_start sha256 manifestHash bytesAt used hm hcollision
      (ne_unknownHash manifestHash hdigits m.json) hu.1.written hu.1.stamped hcomplete throwsAgain)
    hagain

/-- **Downloads are not repeated.**  Called again with the same manifest over what a call that
has resolved left behind, `verifyOrDownload` fetches nothing and leaves every model file as it
is, however the checks end; when it resolves, it does so with no target. -/
theorem secondStart_fetches_nothing (hm : m ∈ used)
    -- What the code relies on from SHA-256: digests of 64 digits that do not collide.
    (hdigits : ∀ json, (manifestHash json).length = 64)
    (hcollision : Set.InjOn (fun m : Manifest => manifestHash m.json) used)
    (hwritten : WrittenByCode sha256 manifestHash bytesAt used initial.checksums)
    (hstamped : initial.Stamped bytesAt)
    (hrun : execute (step sha256 bytesAt) (start manifestHash m initial throws) labels = some u)
    (hresolved : u.phase = .resolved targets)
    (hagain : execute (step sha256 bytesAt) (start manifestHash m u.disk throwsAgain) again =
      some v) :
    (∀ temp, .fetched temp ∉ again) ∧ v.disk.models = u.disk.models ∧
      (v.phase = .verifying ∨ v.phase = .rejected ∨ v.phase = .resolved []) := by
  have hu := inv_run sha256 manifestHash bytesAt used hm hdigits hcollision hwritten hstamped hrun
  obtain ⟨hv, hnone⟩ := confirming_again sha256 manifestHash bytesAt used hm hdigits hcollision hu
    hresolved hagain
  exact ⟨hnone, hv.models, hv.phase⟩

/-! ## The third start -/

omit [DecidableEq β] in
/-- Once the checks of a complete disk have resolved, the cache vouches for every model. -/
theorem vouches_of_resolved (hs : s.Confirming sha256 manifestHash bytesAt used m d)
    (hproto : ∀ e ∈ m.models, e.id ≠ protoKey) (hresolved : s.phase = .resolved targets) :
    ∀ e ∈ m.models, s.disk.Vouches manifestHash m e := by
  have hdone := hs.settled targets hresolved
  have hnotThrew : ¬ s.Threw := by
    rintro ⟨v, hv, hthrew⟩
    cases (hdone v hv).symm.trans hthrew
  have hcached := hs.cached.resolve_left hnotThrew
  intro e he
  have hid := hproto e he
  rw [← hs.inv.1.entries] at he
  obtain ⟨v, hv, rfl⟩ := List.mem_map.mp he
  exact hcached v hv (hdone v hv) hid

/-- Every check was over before the first `await`, and nothing but the phase has changed. -/
structure Answered (m : Manifest) (d : Disk β) (statThrows : Text → Bool) (s : ModelManager β) :
    Prop where
  disk : s.disk = d
  answers : s.verifications = (start manifestHash m d statThrows).verifications
  phase : s.phase = .verifying ∨ s.phase = .rejected ∨ s.phase = .resolved []

omit [DecidableEq β] in
theorem answer_of_vouches (h : ∀ e ∈ m.models, d.Vouches manifestHash m e)
    {v : ModelEntry × Verification} (hv : v ∈ (start manifestHash m d throws).verifications) :
    throws v.1.target = true ∧ v.2 = .threw ∨ throws v.1.target = false ∧ v.2 = .done true := by
  obtain ⟨e, he, rfl⟩ := List.mem_map.mp hv
  obtain ⟨f, hf, hget⟩ := h e he
  cases hstat : throws e.target with
  | true => simp [verifyModel, hf]
  | false => simp [verifyModel, hf, hget]

/-- **Step lemma.**  With no hash computation under way, the continuation of `Promise.all` is
all there is. -/
theorem answered_step {l : Label β} (hd : ∀ e ∈ m.models, d.Vouches manifestHash m e)
    (hs : s.Answered manifestHash m d throws) (h : s.step sha256 bytesAt l = some t) :
    l = .verified ∧ t.Answered manifestHash m d throws ∧
      ((∀ e ∈ m.models, throws e.target = false) → t.phase = .resolved []) := by
  have hanswer : ∀ v ∈ s.verifications, throws v.1.target = true ∧ v.2 = .threw ∨
      throws v.1.target = false ∧ v.2 = .done true := by
    rw [hs.answers]
    exact fun v hv => answer_of_vouches manifestHash hd hv
  have hlisted : ∀ v ∈ s.verifications, v.1 ∈ m.models := by
    rw [hs.answers]
    intro v hv
    obtain ⟨e, he, rfl⟩ := List.mem_map.mp hv
    exact he
  rcases step_cases h with ⟨-, ⟨i, e, key, _, hi, -⟩, -⟩ | rfl | ⟨_, _, _, _, hphase, -⟩
  · rcases hanswer _ (List.mem_of_getElem? hi) with ⟨-, hthrew⟩ | ⟨-, hdone⟩
    · cases hthrew
    · cases hdone
  · refine ⟨rfl, ?_⟩
    obtain ⟨-, ⟨⟨v, hv, hthrew⟩, rfl⟩ | ⟨hends, rfl⟩⟩ := verified_cases h
    · refine ⟨⟨hs.disk, hs.answers, .inr (.inl rfl)⟩, fun hstats => ?_⟩
      rcases hanswer v hv with ⟨hstat, -⟩ | ⟨-, hdone⟩
      · cases hstat.symm.trans (hstats v.1 (hlisted v hv))
      · cases hthrew.symm.trans hdone
    · have hdone : ∀ v ∈ s.verifications, v.2 = .done true := by
        intro v hv
        rcases hanswer v hv with ⟨-, hthrew⟩ | ⟨-, hdone⟩
        · rcases hends v hv with hend | hend
          · cases hend.symm.trans hthrew
          · cases hend.symm.trans hthrew
        · exact hdone
      rw [invalid_eq_nil hdone]
      exact ⟨⟨hs.disk, hs.answers, .inr (.inr rfl)⟩, fun _ => rfl⟩
  · rcases hs.phase with hother | hother | hother
    · cases hphase.symm.trans hother
    · cases hphase.symm.trans hother
    · cases hphase.symm.trans hother

theorem answered_run (hd : ∀ e ∈ m.models, d.Vouches manifestHash m e)
    (hrun : execute (step sha256 bytesAt) (start manifestHash m d throws) labels = some u) :
    (∀ l ∈ labels, l = .verified) ∧ u.Answered manifestHash m d throws ∧
      ((∀ e ∈ m.models, throws e.target = false) → labels = [] ∨ u.phase = .resolved []) := by
  refine execute_history
    (fun past s => (∀ l ∈ past, l = .verified) ∧ s.Answered manifestHash m d throws ∧
      ((∀ e ∈ m.models, throws e.target = false) → past = [] ∨ s.phase = .resolved []))
    ⟨nofun, ⟨rfl, rfl, .inl rfl⟩, fun _ => .inl rfl⟩ ?_ hrun
  rintro past l s t - ⟨hall, hs, -⟩ hstep
  obtain ⟨hl, ht, hlast⟩ := answered_step sha256 manifestHash bytesAt hd hs hstep
  refine ⟨?_, ht, fun hstats => .inr (hlast hstats)⟩
  intro l' hmem
  rcases List.mem_append.mp hmem with hold | hnew
  · exact hall l' hold
  · exact (List.mem_singleton.mp hnew).trans hl

/-- **The third start is answered from the cache.**  After a call that has resolved and a second
one that has resolved too, no third call with the same manifest computes a hash, fetches or
writes anything; once it takes a step at all and no `statSync` throws, it has resolved. -/
theorem thirdStart_hashes_nothing (hm : m ∈ used)
    (hproto : ∀ e ∈ m.models, e.id ≠ protoKey)
    (hdigits : ∀ json, (manifestHash json).length = 64)
    (hcollision : Set.InjOn (fun m : Manifest => manifestHash m.json) used)
    (hwritten : WrittenByCode sha256 manifestHash bytesAt used initial.checksums)
    (hstamped : initial.Stamped bytesAt)
    (hrun : execute (step sha256 bytesAt) (start manifestHash m initial throws) labels = some u)
    (hresolved : u.phase = .resolved targets)
    (hagain : execute (step sha256 bytesAt) (start manifestHash m u.disk throwsAgain) again =
      some v)
    (hresolvedAgain : v.phase = .resolved targetsAgain)
    (hthird : execute (step sha256 bytesAt) (start manifestHash m v.disk throwsThird) third =
      some w) :
    (∀ l ∈ third, l = .verified) ∧ w.disk = v.disk ∧
      ((∀ e ∈ m.models, throwsThird e.target = false) → third = [] ∨ w.phase = .resolved []) := by
  have hu := inv_run sha256 manifestHash bytesAt used hm hdigits hcollision hwritten hstamped hrun
  have hv := (confirming_again sha256 manifestHash bytesAt used hm hdigits hcollision hu hresolved
    hagain).1
  obtain ⟨hall, hw, hends⟩ := answered_run sha256 manifestHash bytesAt
    (vouches_of_resolved sha256 manifestHash bytesAt used hv hproto hresolvedAgain) hthird
  exact ⟨hall, hw.disk, hends⟩

end Steps

/-! ## Two models, started three times -/

/-- Whether the call has resolved. -/
def resolves (s : ModelManager β) : Bool :=
  match s.phase with
  | .resolved _ => true
  | _ => false

theorem exists_resolved {s : ModelManager β} (h : s.resolves = true) :
    ∃ targets, s.phase = .resolved targets := by
  unfold resolves at h
  split at h
  next targets hphase => exact ⟨targets, hphase⟩
  · cases h

/-- The call of `secondAttempt`, and one more. -/
def startedAgain (again : List (Label ℕ)) : Option (ModelManager ℕ × ModelManager ℕ) :=
  (execute (step sizeDigest fun _ stamp => stamp.size)
    (start textDigest twoModels encoderCached fun _ => false) secondAttempt).bind fun u =>
      (execute (step sizeDigest fun _ stamp => stamp.size)
        (start textDigest twoModels u.disk fun _ => false) again).map fun v => (u, v)

theorem exists_startedAgain (again : List (Label ℕ))
    {P : ModelManager ℕ × ModelManager ℕ → Bool} (h : (startedAgain again).any P = true) :
    ∃ u v, execute (step sizeDigest fun _ stamp => stamp.size)
        (start textDigest twoModels encoderCached fun _ => false) secondAttempt = some u ∧
      execute (step sizeDigest fun _ stamp => stamp.size)
        (start textDigest twoModels u.disk fun _ => false) again = some v ∧ P (u, v) = true := by
  obtain ⟨⟨u, v⟩, hpair, hP⟩ := (Option.any_eq_true _ _).mp h
  obtain ⟨u', hu, hmap⟩ := Option.bind_eq_some_iff.mp hpair
  obtain ⟨v', hv, heq⟩ := Option.map_eq_some_iff.mp hmap
  obtain ⟨rfl, rfl⟩ := Prod.mk.inj heq
  exact ⟨u', v', hu, hv, hP⟩

theorem encoderCached_written : WrittenByCode sizeDigest textDigest (fun _ stamp => stamp.size)
    {twoModels} encoderCached.checksums :=
  .hashed (m := twoModels) (e := encoderEntry) ⟨2, 1000⟩ .missing rfl (List.mem_cons_self ..)

theorem encoderCached_stamped : encoderCached.Stamped fun _ stamp => stamp.size :=
  stamped_rename (d := ⟨fun _ => none, .missing⟩) _ nofun rfl

/-- The second start hashes the file that the first has downloaded. -/
theorem tokensHashed_fetches_nothing :
    ∃ u v : ModelManager ℕ,
      execute (step sizeDigest fun _ stamp => stamp.size)
          (start textDigest twoModels u.disk fun _ => false) [.hashed 1 .ok, .verified] = some v ∧
        v.disk.models = u.disk.models ∧
        (v.phase = .verifying ∨ v.phase = .rejected ∨ v.phase = .resolved []) := by
  obtain ⟨u, v, hu, hv, hresolves⟩ := exists_startedAgain [.hashed 1 .ok, .verified]
    (P := fun p => p.1.resolves) (by decide +kernel)
  obtain ⟨targets, hresolved⟩ := exists_resolved hresolves
  exact ⟨u, v, hv, (secondStart_fetches_nothing sizeDigest textDigest _ {twoModels} rfl
    (fun _ => List.length_replicate) (Set.injOn_singleton _ _) encoderCached_written
    encoderCached_stamped hu hresolved hv).2⟩

theorem tokensCached_hashes_nothing :
    ∃ v w : ModelManager ℕ,
      execute (step sizeDigest fun _ stamp => stamp.size)
          (start textDigest twoModels v.disk fun _ => false) [.verified] = some w ∧
        w.disk = v.disk ∧ w.phase = .resolved [] := by
  obtain ⟨u, v, hu, hv, hall⟩ := exists_startedAgain [.hashed 1 .ok, .verified]
    (P := fun p => p.1.resolves && p.2.resolves &&
      (execute (step sizeDigest fun _ stamp => stamp.size)
        (start textDigest twoModels p.2.disk fun _ => false) [.verified]).isSome)
    (by decide +kernel)
  rw [Bool.and_eq_true, Bool.and_eq_true] at hall
  obtain ⟨⟨hresolves, hresolvesAgain⟩, hsome⟩ := hall
  obtain ⟨targets, hresolved⟩ := exists_resolved hresolves
  obtain ⟨targetsAgain, hresolvedAgain⟩ := exists_resolved hresolvesAgain
  obtain ⟨w, hw⟩ := Option.isSome_iff_exists.mp hsome
  obtain ⟨-, hdisk, hends⟩ := thirdStart_hashes_nothing sizeDigest textDigest _ {twoModels} rfl
    (by decide) (fun _ => List.length_replicate) (Set.injOn_singleton _ _) encoderCached_written
    encoderCached_stamped hu hresolved hv hresolvedAgain hw
  exact ⟨v, w, hw, hdisk, (hends fun _ _ => rfl).resolve_left (List.cons_ne_nil _ _)⟩

end ModelManager

end Models
end AvaListener
