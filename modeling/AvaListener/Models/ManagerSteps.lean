import AvaListener.Models.ConcurrentVerification
import AvaListener.Models.VerifiedModels

/-!
# The steps of the model manager

All that one step of `ModelManager.step` can do, for the proofs about whole calls.
-/

namespace AvaListener
namespace Models

open Library

namespace ModelManager

variable {β : Type*} [DecidableEq β] {sha256 : β → Text} {bytesAt : Text → Stamp → β}
  {s t : ModelManager β}

/-- A check is over: everything but the disk's checksums and the check stays. -/
theorem hashed_cases {i : ℕ} {write : Write}
    (h : s.step sha256 bytesAt (.hashed i write) = some t) :
    ∃ e key f, s.verifications[i]? = some (e, .hashing key) ∧
      s.disk.models e.target = some f ∧
      t = { s with
        disk := s.disk.saveChecksums
          (s.disk.checksums.load.setCache e.id ⟨key, sha256 f.bytes⟩) write
        verifications := s.verifications.set i (e,
          if write = .ok then .done (sha256 f.bytes = e.sha256) else .threw) } := by
  simp only [step] at h
  split at h
  next e key hi =>
    split at h
    · cases h
    next f hf =>
      obtain rfl := Option.some.inj h
      exact ⟨e, key, f, hi, hf, rfl⟩
  · cases h

theorem hashThrows_cases {i : ℕ} (h : s.step sha256 bytesAt (.hashThrows i) = some t) :
    ∃ e key, s.verifications[i]? = some (e, .hashing key) ∧
      t = { s with verifications := s.verifications.set i (e, .threw) } := by
  simp only [step] at h
  split at h
  next e key hi =>
    obtain rfl := Option.some.inj h
    exact ⟨e, key, hi, rfl⟩
  · cases h

/-- The end of a hash computation. -/
def EndsCheck (s t : ModelManager β) (l : Label β) : Prop :=
  ((∃ i write, l = .hashed i write) ∨ ∃ i, l = .hashThrows i) ∧
    (∃ i e key outcome, s.verifications[i]? = some (e, .hashing key) ∧
      t.verifications = s.verifications.set i (e, outcome)) ∧
    t.disk.models = s.disk.models ∧ t.missingModels = s.missingModels ∧ t.phase = s.phase

theorem verified_cases (h : s.step sha256 bytesAt .verified = some t) :
    s.phase = .verifying ∧
      ((∃ v ∈ s.verifications, v.2 = .threw) ∧ t = { s with phase := .rejected } ∨
        (∀ v ∈ s.verifications, v.2 = .done true ∨ v.2 = .done false) ∧
          t = { s with missingModels := invalid s.verifications }.downloadNext
            (invalid s.verifications)) := by
  simp only [step] at h
  split at h
  next hphase =>
    refine ⟨hphase, ?_⟩
    split at h
    next hany =>
      obtain rfl := Option.some.inj h
      obtain ⟨v, hv, hthrew⟩ := List.any_eq_true.mp hany
      exact .inl ⟨⟨v, hv, of_decide_eq_true hthrew⟩, rfl⟩
    · split at h
      next hall =>
        obtain rfl := Option.some.inj h
        exact .inr ⟨fun v hv => of_decide_eq_true (List.all_eq_true.mp hall v hv), rfl⟩
      · cases h
  · cases h

/-- Every step ends a check, ends them all, or belongs to the download under way. -/
theorem step_cases {l : Label β} (h : s.step sha256 bytesAt l = some t) :
    s.EndsCheck t l ∨ l = .verified ∨
      ∃ e rest attempt stage, s.phase = .downloading e rest attempt stage ∧
        s.downloadStep sha256 bytesAt e rest attempt stage l = some t := by
  cases l with
  | hashed i write =>
      obtain ⟨e, key, f, hi, -, rfl⟩ := hashed_cases h
      exact .inl ⟨.inl ⟨i, write, rfl⟩, ⟨i, e, key, _, hi, rfl⟩, Disk.models_saveChecksums .., rfl,
        rfl⟩
  | hashThrows i =>
      obtain ⟨e, key, hi, rfl⟩ := hashThrows_cases h
      exact .inl ⟨.inr ⟨i, rfl⟩, ⟨i, e, key, _, hi, rfl⟩, rfl, rfl, rfl⟩
  | verified => exact .inr (.inl rfl)
  | _ =>
      simp only [step] at h
      split at h
      next e rest attempt stage hphase => exact .inr (.inr ⟨e, rest, attempt, stage, hphase, h⟩)
      · cases h

end ModelManager

end Models
end AvaListener
