import AvaListener.Audio.Iteration
import AvaListener.Library.Runs

/-!
# What a delivery says about the decoded results

The worker reports with each hypothesis how stable it is, the longest one so far, and the
generation.  The run keeps what these are about: the non-empty results decoded since the
last reset, each with the generation of its stream.

The worker only holds the last result, a counter and the peak; `Tracks` says how these
three follow from the results, through chunks of every kind and both ways of resetting.
-/

namespace AvaListener
namespace Audio

open Library Config

variable {κ : Type*}

/-- An iteration of the loop, or a reset from outside it, as the engine makes one inside
`on_hypothesis`. -/
inductive DecodeEvent (κ : Type*) where
  | iterate (i : ChunkInput κ)
  | reset (now : ℚ)

/-- A decoded result with the generation of the stream it was decoded from. -/
abbrev Decoded := Text × ℕ

namespace AudioWorker

/-- The text that `deliver` decodes, unless it is empty. -/
def result (w : AudioWorker κ) (i : ChunkInput κ) : Option Decoded :=
  if w.provider.result i.decoded = [] then none
  else some (w.provider.result i.decoded, w.provider.generationId)

/-- The non-empty result that an iteration decodes. -/
def decodes (w : AudioWorker κ) (i : ChunkInput κ) : Option Decoded :=
  if w.timesOut i then none else ((w.prepared i).feed i).result i

end AudioWorker

structure DecodeRun (κ : Type*) where
  worker : AudioWorker κ
  /-- The non-empty results since the last reset, oldest first. -/
  results : List Decoded

namespace DecodeRun

def init (start : ℚ) : DecodeRun κ :=
  ⟨.init start, []⟩

/-- The state after an event, and the delivery it made with the results up to it. -/
def step (s : DecodeRun κ) : DecodeEvent κ → DecodeRun κ × Option (Delivery × List Decoded)
  | .iterate i =>
      let results := s.results ++ (s.worker.decodes i).toList
      ({ worker := (s.worker.iterate i).1
         results := if s.worker.resetsStream i then [] else results },
        (s.worker.iterate i).2.map fun d => (d, results))
  | .reset now => (⟨s.worker.resetStream now, []⟩, none)

end DecodeRun

/-! ## The reference -/

/-- How many of the latest results equal the text, without a gap. -/
def streak (text : Text) (earlier : List Decoded) : ℕ :=
  ((earlier.map Prod.fst).reverse.takeWhile (· = text)).length

/-- The earliest among the longest of the texts. -/
def IsPeak (texts : List Text) (peak : Text) : Prop :=
  ∃ before after, texts = before ++ peak :: after ∧ (∀ x ∈ before, x.length < peak.length) ∧
    ∀ y ∈ after, y.length ≤ peak.length

/-- A delivery against the results since the last reset, the last of which it is. -/
structure Accurate (d : Delivery) (history : List Decoded) : Prop where
  stability : ∃ earlier, history = earlier ++ [(d.text, d.generationId)] ∧
    d.stability = streak d.text earlier
  peak : IsPeak (history.map Prod.fst) d.peak
  generation : ∀ r ∈ history, r.2 = d.generationId

theorem IsPeak.length_le {texts : List Text} {peak : Text} (h : IsPeak texts peak) :
    ∀ x ∈ texts, x.length ≤ peak.length := by
  obtain ⟨before, after, rfl, hbefore, hafter⟩ := h
  intro x hx
  rcases List.mem_append.mp hx with hx | hx
  · exact (hbefore x hx).le
  · rcases List.mem_cons.mp hx with rfl | hx
    · exact le_rfl
    · exact hafter x hx

/-- The peak is at least as long as the text. -/
theorem Accurate.text_le_peak {d : Delivery} {history : List Decoded} (h : Accurate d history) :
    d.text.length ≤ d.peak.length := by
  obtain ⟨earlier, rfl, -⟩ := h.stability
  apply h.peak.length_le
  simp

theorem streak_nil (text : Text) : streak text [] = 0 := rfl

theorem streak_concat (text : Text) (earlier : List Decoded) (r : Decoded) :
    streak text (earlier ++ [r]) = if r.1 = text then streak text earlier + 1 else 0 := by
  by_cases htext : r.1 = text
  · simp [streak, htext]
  · simp [streak, htext]

/-- One more text: it is the peak if it is longer than all before. -/
theorem IsPeak.concat {texts : List Text} {peak : Text} (h : IsPeak texts peak) (text : Text) :
    IsPeak (texts ++ [text]) (if peak.length < text.length then text else peak) := by
  split
  next hlonger =>
    refine ⟨texts, [], rfl, ?_, by simp⟩
    exact fun x hx => (h.length_le x hx).trans_lt hlonger
  next hshorter =>
    obtain ⟨before, after, rfl, hbefore, hafter⟩ := h
    refine ⟨before, after ++ [text], by simp, hbefore, ?_⟩
    intro y hy
    rcases List.mem_append.mp hy with hold | hnew
    · exact hafter y hold
    · rw [List.mem_singleton.mp hnew]
      exact not_lt.mp hshorter

/-! ## The worker's fields -/

/-- The worker's last result, counter and peak are those of the results since the last
reset, and these are all of the present stream. -/
structure Tracks (w : AudioWorker κ) (results : List Decoded) : Prop where
  last : w.lastHypothesis = ((results.getLast?).map Prod.fst).getD []
  stable : ∀ earlier r, results = earlier ++ [r] → w.stableFrames = streak r.1 earlier
  nonempty : ∀ r ∈ results, r.1 ≠ []
  peak : (results = [] ∧ w.peakHypothesis = []) ∨ IsPeak (results.map Prod.fst) w.peakHypothesis
  generation : ∀ r ∈ results, r.2 = w.provider.generationId
  stream : results ≠ [] → w.provider.stream ≠ none

theorem tracks_nil {w : AudioWorker κ} (hlast : w.lastHypothesis = [])
    (hpeak : w.peakHypothesis = []) : Tracks w [] where
  last := hlast
  stable earlier r h := by simp at h
  nonempty := by simp
  peak := .inl ⟨rfl, hpeak⟩
  generation := by simp
  stream h := absurd rfl h

namespace SherpaProvider

/-- A stream that is there is not replaced by `accept`. -/
theorem accept_of_stream {p : SherpaProvider κ} (h : p.stream ≠ none) (now : ℚ) (chunk : κ) :
    (p.accept now chunk).stream ≠ none ∧ (p.accept now chunk).generationId = p.generationId := by
  cases hstream : p.stream with
  | none => exact absurd hstream h
  | some fed => simp [accept, hstream]

theorem foldl_accept_of_stream {p : SherpaProvider κ} (h : p.stream ≠ none) (now : ℚ)
    (chunks : List κ) :
    (chunks.foldl (fun p c => p.accept now c) p).stream ≠ none ∧
      (chunks.foldl (fun p c => p.accept now c) p).generationId = p.generationId := by
  induction chunks generalizing p with
  | nil => exact ⟨h, rfl⟩
  | cons c rest ih =>
      obtain ⟨hstream, hgeneration⟩ := accept_of_stream h now c
      obtain ⟨hrest, hsame⟩ := ih hstream
      exact ⟨hrest, hsame.trans hgeneration⟩

end SherpaProvider

/-- What tracking reads, as two workers share it. -/
structure SameTracking (w t : AudioWorker κ) : Prop where
  last : t.lastHypothesis = w.lastHypothesis
  stable : t.stableFrames = w.stableFrames
  peak : t.peakHypothesis = w.peakHypothesis
  provider : w.provider.stream ≠ none →
    t.provider.stream ≠ none ∧ t.provider.generationId = w.provider.generationId

theorem Tracks.of_same {w t : AudioWorker κ} {results : List Decoded} (h : Tracks w results)
    (hsame : SameTracking w t) : Tracks t results where
  last := hsame.last.trans h.last
  stable earlier r hr := hsame.stable.trans (h.stable earlier r hr)
  nonempty := h.nonempty
  peak := by
    rw [hsame.peak]
    exact h.peak
  generation r hr := by
    have hstream := h.stream (List.ne_nil_of_mem hr)
    rw [(hsame.provider hstream).2]
    exact h.generation r hr
  stream hne := (hsame.provider (h.stream hne)).1

theorem sameTracking_prepared (w : AudioWorker κ) (i : ChunkInput κ) :
    SameTracking w (w.prepared i) := by
  have hprovider : w.provider.stream ≠ none →
      (w.prepared i).provider.stream ≠ none ∧
        (w.prepared i).provider.generationId = w.provider.generationId := by
    intro hstream
    rcases (AudioWorker.prepared_frame w i).2 with hsame | hflushed
    · rw [hsame]
      exact ⟨hstream, rfl⟩
    · rw [hflushed]
      exact SherpaProvider.foldl_accept_of_stream hstream _ _
  have hfields : (w.prepared i).lastHypothesis = w.lastHypothesis ∧
      (w.prepared i).stableFrames = w.stableFrames ∧
        (w.prepared i).peakHypothesis = w.peakHypothesis := by
    unfold AudioWorker.prepared AudioWorker.retain AudioWorker.hysteresis
    dsimp only
    repeat' split
    all_goals exact ⟨rfl, rfl, rfl⟩
  exact ⟨hfields.1, hfields.2.1, hfields.2.2, hprovider⟩

theorem sameTracking_feed (w : AudioWorker κ) (i : ChunkInput κ) : SameTracking w (w.feed i) := by
  unfold AudioWorker.feed
  split
  · exact ⟨rfl, rfl, rfl, fun h => SherpaProvider.accept_of_stream h _ _⟩
  · split
    · exact ⟨rfl, rfl, rfl, fun h => SherpaProvider.accept_of_stream h _ _⟩
    · exact ⟨rfl, rfl, rfl, fun h => ⟨h, rfl⟩⟩

/-- **One more result.** -/
theorem Tracks.track {w : AudioWorker κ} {results : List Decoded} (h : Tracks w results)
    {text : Text} (htext : text ≠ []) (hstream : w.provider.stream ≠ none) :
    Tracks (w.track text) (results ++ [(text, w.provider.generationId)]) where
  last := by simp [AudioWorker.track]
  stable earlier r hr := by
    obtain ⟨rfl, hlast⟩ := List.append_inj' hr rfl
    obtain rfl := List.singleton_inj.mp hlast
    show (if text = w.lastHypothesis then w.stableFrames + 1 else 0) = streak text results
    rcases List.eq_nil_or_concat results with rfl | ⟨earlier, r, rfl⟩
    · have hnew : text ≠ w.lastHypothesis := by
        rw [h.last]
        exact htext
      rw [if_neg hnew, streak_nil]
    · have hlast : w.lastHypothesis = r.1 := by
        rw [h.last]
        simp
      rw [List.concat_eq_append, streak_concat, hlast]
      by_cases hsame : text = r.1
      · rw [if_pos hsame, if_pos hsame.symm, h.stable earlier r (List.concat_eq_append ..), hsame]
      · rw [if_neg hsame, if_neg (Ne.symm hsame)]
  nonempty r hr := by
    rcases List.mem_append.mp hr with hold | hnew
    · exact h.nonempty r hold
    · rw [List.mem_singleton.mp hnew]
      exact htext
  peak := by
    refine .inr ?_
    show IsPeak _ (if w.peakHypothesis.length < text.length then text else w.peakHypothesis)
    rw [List.map_append]
    rcases h.peak with ⟨rfl, hnone⟩ | hpeak
    · have hpos : w.peakHypothesis.length < text.length := by
        rw [hnone]
        exact List.length_pos_of_ne_nil htext
      rw [if_pos hpos]
      exact ⟨[], [], rfl, by simp, by simp⟩
    · exact hpeak.concat text
  generation r hr := by
    rcases List.mem_append.mp hr with hold | hnew
    · exact h.generation r hold
    · rw [List.mem_singleton.mp hnew]
      rfl
  stream _ := hstream

/-- A delivery built from the fields of a worker that tracks the results. -/
theorem Tracks.accurate {w : AudioWorker κ} {earlier : List Decoded} {text : Text}
    (h : Tracks w (earlier ++ [(text, w.provider.generationId)])) :
    Accurate ⟨text, w.stableFrames, w.peakHypothesis, w.provider.generationId⟩
      (earlier ++ [(text, w.provider.generationId)]) where
  stability := ⟨earlier, rfl, h.stable earlier _ rfl⟩
  peak := by
    rcases h.peak with ⟨hnil, -⟩ | hpeak
    · exact absurd hnil (by simp)
    · exact hpeak
  generation := h.generation

theorem Tracks.deliver {w : AudioWorker κ} {results : List Decoded} (h : Tracks w results)
    (i : ChunkInput κ) :
    Tracks (w.deliver i).1 (results ++ (w.result i).toList) ∧
      ∀ d, (w.deliver i).2 = some d → Accurate d (results ++ (w.result i).toList) := by
  by_cases hresult : w.provider.result i.decoded = []
  · have hnone : w.deliver i = (w, none) := by simp [AudioWorker.deliver, hresult]
    rw [hnone, AudioWorker.result, if_pos hresult, Option.toList_none, List.append_nil]
    refine ⟨h, ?_⟩
    intro d hd
    cases hd
  · have hstream : w.provider.stream ≠ none := by
      intro hnone
      exact hresult (by simp [SherpaProvider.result, hnone])
    have htracked := h.track hresult hstream
    rw [AudioWorker.result, if_neg hresult, Option.toList_some]
    rw [AudioWorker.deliver]
    simp only [if_neg hresult]
    split
    · refine ⟨htracked, ?_⟩
      intro d hd
      obtain rfl := Option.some.inj hd
      exact htracked.accurate
    · refine ⟨htracked, ?_⟩
      intro d hd
      cases hd

namespace DecodeRun

/-- One event keeps the tracking, and what it delivers is accurate. -/
theorem step_tracks {s : DecodeRun κ} (h : Tracks s.worker s.results) (e : DecodeEvent κ) :
    Tracks (step s e).1.worker (step s e).1.results ∧
      ∀ d history, (step s e).2 = some (d, history) → Accurate d history := by
  cases e with
  | reset now =>
      refine ⟨tracks_nil rfl rfl, ?_⟩
      intro d history hd
      cases hd
  | iterate i =>
      cases htime : s.worker.timesOut i with
      | true =>
          have hdecodes : s.worker.decodes i = none := by
            rw [AudioWorker.decodes, htime, if_pos rfl]
          cases hreset : s.worker.resetsStream i with
          | true =>
              simp only [step, AudioWorker.iterate, htime, hreset, if_true]
              refine ⟨tracks_nil rfl rfl, ?_⟩
              intro d history hd
              cases hd
          | false =>
              simp only [step, AudioWorker.iterate, htime, hreset, hdecodes, if_true,
                Bool.false_eq_true, if_false, Option.toList_none, List.append_nil]
              refine ⟨h.of_same (sameTracking_prepared _ i), ?_⟩
              intro d history hd
              cases hd
      | false =>
          have hreset : s.worker.resetsStream i = false := by
            simp [AudioWorker.resetsStream, htime]
          have hdecodes : s.worker.decodes i = ((s.worker.prepared i).feed i).result i := by
            simp [AudioWorker.decodes, htime]
          have hfed : Tracks ((s.worker.prepared i).feed i) s.results :=
            (h.of_same (sameTracking_prepared _ i)).of_same (sameTracking_feed _ i)
          obtain ⟨hkept, hdelivered⟩ := hfed.deliver i
          simp only [step, AudioWorker.iterate, htime, hreset, hdecodes, Bool.false_eq_true,
            if_false]
          refine ⟨hkept, ?_⟩
          intro d history hd
          obtain ⟨delivery, hdelivery, hpair⟩ := Option.map_eq_some_iff.mp hd
          obtain ⟨rfl, rfl⟩ := Prod.mk.inj hpair
          exact hdelivered delivery hdelivery

/-- **Every delivery of every run** says how many of the results just before it, since the
last reset, were the same, which the earliest longest one of them is, and the generation
they all come from. -/
theorem deliveries_accurate (start : ℚ) (events : List (DecodeEvent κ)) (event : DecodeEvent κ)
    (d : Delivery) (history : List Decoded)
    (h : (event, some (d, history)) ∈ trace step (init start) events) :
    Accurate d history ∧ d.text.length ≤ d.peak.length := by
  have haccurate : Accurate d history :=
    trace_invariant step (fun s => Tracks s.worker s.results)
      (Q := fun _ answer => ∀ d history, answer = some (d, history) → Accurate d history)
      events (tracks_nil rfl rfl) (fun _ e _ hs => step_tracks hs e) _ h d history rfl
  exact ⟨haccurate, haccurate.text_le_peak⟩

/-- "wake", then "go" twice: stable for one frame, the peak is still "wake". -/
theorem repeated_result_counted :
    Accurate ⟨"go".toList, 1, "wake".toList, 1⟩
        [("wake".toList, 1), ("go".toList, 1), ("go".toList, 1)] ∧
      "go".toList.length ≤ "wake".toList.length := by
  let heard (text : String) : DecodeEvent ℕ := .iterate ⟨0, true, text.toList, 0⟩
  have hanswers : ((trace step (init 0) [heard "wake", heard "go", heard "go"]).map Prod.snd)[2]? =
      some (some (⟨"go".toList, 1, "wake".toList, 1⟩,
        [("wake".toList, 1), ("go".toList, 1), ("go".toList, 1)])) := by decide +kernel
  obtain ⟨⟨event, answer⟩, hmem, hanswer⟩ := List.mem_map.mp (List.mem_of_getElem? hanswers)
  obtain rfl : answer = some (_, _) := hanswer
  exact deliveries_accurate 0 _ event _ _ hmem

end DecodeRun

end Audio
end AvaListener
