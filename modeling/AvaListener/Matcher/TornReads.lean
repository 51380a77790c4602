import Mathlib.Tactic.NormNum
import AvaListener.Library.Runs
import AvaListener.Matcher.AsciiText
import AvaListener.Matcher.Evaluator

/-!
# A profile switch under a match

`best_match` reads the stores four times, each time under the lock of the store: the
active phrases from the registry, then the variants for the anchor gate, the variants
again for the one that matched, and its canonical phrase from the index.
`WakeEngine.load_profile` holds the registry's lock while it refills the registry and
swaps the index, so the first read comes before or after the whole switch; the other
three only take the index's lock, and the swap can come between any two of them.

`returned_eq` says which store each read saw, by the number of reads before the swap.
Between the first and the last read there is no place at which the switch looks atomic
for all profiles (`switch_atomic_iff`).
-/

namespace AvaListener
namespace Matcher

open Library Config

/-! ## `best_match` on its four reads -/

/-- What one call of `best_match` reads. -/
structure StoreReads where
  phrases : List Text
  gateVariants : List Text
  variants : List Text
  canonical : Text → Option Text

variable (lib : TextLib) (window : List Hypothesis)

/-- The longest of the variants that the window holds. -/
def matchedAmong (variants : List Text) : Text :=
  let textsToCheck := buildWeightedText lib window :: window.map (·.text)
  variants.foldl (fun bestVariant variant =>
    if (textsToCheck.any fun text => occursIn variant (lib.lower text)) ∧
        bestVariant.length < variant.length then variant
    else bestVariant) []

/-- The scoring loop. -/
def scoreAll (phrases : List Text) (matchedVariant canonicalCandidate : Text) : MatchResult :=
  let ctx : MatchContext :=
    ⟨window, buildWeightedText lib window, matchedVariant, canonicalCandidate⟩
  let toScore :=
    if canonicalCandidate ≠ [] ∧ canonicalCandidate ∉ phrases then
      phrases ++ [canonicalCandidate]
    else phrases
  let candidates := toScore.filterMap fun phrase => (scorePhrase lib ctx phrase).map (·, phrase)
  { score := ((candidates.map Prod.fst).max?).getD 0
    phrase := resolvePhraseCandidate candidates
    matchedVariant := matchedVariant }

/-- `best_match` on what it reads. -/
def bestMatchOf (r : StoreReads) : MatchResult :=
  if window = [] then .nothing
  else if r.phrases = [] then .nothing
  else if r.gateVariants.any (anchorMatches lib (buildWeightedText lib window)) then
    if matchedAmong lib window r.variants = [] then scoreAll lib window r.phrases [] []
    else
      scoreAll lib window r.phrases (matchedAmong lib window r.variants)
        ((r.canonical (matchedAmong lib window r.variants)).getD [])
  else .nothing

/-- All four reads from one state of the stores. -/
def MatcherState.reads (m : MatcherState) : StoreReads :=
  ⟨m.getActivePhrases, m.getVariants, m.getVariants, m.getCanonical lib⟩

/-- An undisturbed call reads one state. -/
theorem bestMatch_eq_bestMatchOf (m : MatcherState) :
    bestMatch lib m window = bestMatchOf lib window (m.reads lib) := by
  have hfind : findMatchedVariant lib m (buildWeightedText lib window) window =
      matchedAmong lib window (m.reads lib).variants := rfl
  by_cases hwindow : window = []
  · simp [bestMatch, passesGates, bestMatchOf, hwindow]
  by_cases hphrases : (m.reads lib).phrases = []
  · have hactive : m.getActivePhrases = [] := hphrases
    simp [bestMatch, passesGates, bestMatchOf, hphrases, hactive]
  by_cases hgate : (m.reads lib).gateVariants.any
      (anchorMatches lib (buildWeightedText lib window)) = true
  · have hpasses : passesGates lib m window = true :=
      decide_eq_true ⟨hwindow, hphrases, hgate⟩
    rw [bestMatch, if_pos hpasses, bestMatchOf, if_neg hwindow, if_neg hphrases, if_pos hgate]
    by_cases hmatched : matchedAmong lib window (m.reads lib).variants = []
    · simp only [matchContext, hfind, hmatched, if_true]
      rfl
    · simp only [matchContext, hfind, if_neg hmatched]
      rfl
  · have hfails : ¬ passesGates lib m window = true := fun h => hgate (of_decide_eq_true h).2.2
    rw [bestMatch, if_neg hfails, bestMatchOf, if_neg hwindow, if_neg hphrases, if_neg hgate]

/-! ## The two calls -/

/-- Where a call of `best_match` is: before one of its reads, with what it has so far. -/
inductive MatchCall where
  | readPhrases
  | readGateVariants (phrases : List Text)
  | readVariants (phrases : List Text)
  | readCanonical (phrases : List Text) (matchedVariant : Text)
  | returned (r : MatchResult)

/-- The reads made, all of them once the call has returned. -/
def MatchCall.made : MatchCall → ℕ
  | .readPhrases => 0
  | .readGateVariants _ => 1
  | .readVariants _ => 2
  | .readCanonical .. => 3
  | .returned _ => 4

/-- Where the call of `load_profile` is.  It holds the registry's lock while it is
`locked` or `swapped`. -/
inductive LoadCall where
  | before
  | locked
  | swapped
  | done
  deriving DecidableEq

def LoadCall.holdsLock : LoadCall → Bool
  | .locked | .swapped => true
  | _ => false

/-- The answer of a call that has returned. -/
def MatchCall.answer : MatchCall → Option MatchResult
  | .returned r => some r
  | _ => none

/-- The stores with the two calls. -/
structure Switch where
  stores : MatcherState
  call : MatchCall
  load : LoadCall
  /-- The reads made before the index was swapped, four without a swap. -/
  cut : ℕ

inductive SwitchStep where
  | read
  | load

/-- What a profile with these phrases leaves in the stores. -/
def profileStores (phrases : List PhraseConfig) : MatcherState :=
  MatcherState.rebuildIndex lib ⟨phrases.foldl PhraseRegistry.addPhrase .empty, .empty⟩

/-- These are the stores after `load_profile`. -/
theorem loadPhrases_eq_profileStores (m : MatcherState) (wakePhrases : List PhraseEntry) :
    m.loadPhrases lib wakePhrases =
      (wakePhrases.mapM (PhraseConfig.fromDict lib)).map (profileStores lib) := by
  unfold MatcherState.loadPhrases
  cases wakePhrases.mapM (PhraseConfig.fromDict lib) with
  | error e => rfl
  | ok newPhrases => rfl

namespace Switch

def init (stores : MatcherState) : Switch :=
  ⟨stores, .readPhrases, .before, 4⟩

/-- The next read, and what the call makes of it. -/
def read (s : Switch) : Option MatchCall :=
  match s.call with
  | .readPhrases =>
      if window = [] then some (.returned .nothing)
      else if s.load.holdsLock then none
      else if s.stores.getActivePhrases = [] then some (.returned .nothing)
      else some (.readGateVariants s.stores.getActivePhrases)
  | .readGateVariants phrases =>
      if s.stores.getVariants.any (anchorMatches lib (buildWeightedText lib window)) then
        some (.readVariants phrases)
      else some (.returned .nothing)
  | .readVariants phrases =>
      if matchedAmong lib window s.stores.getVariants = [] then
        some (.returned (scoreAll lib window phrases [] []))
      else some (.readCanonical phrases (matchedAmong lib window s.stores.getVariants))
  | .readCanonical phrases matchedVariant =>
      some (.returned (scoreAll lib window phrases matchedVariant
        ((s.stores.getCanonical lib matchedVariant).getD [])))
  | .returned _ => none

def step (newPhrases : List PhraseConfig) (s : Switch) : SwitchStep → Option Switch
  | .read => (s.read lib window).map fun call => { s with call := call }
  | .load =>
      match s.load with
      | .before =>
          let registry := newPhrases.foldl PhraseRegistry.addPhrase s.stores.registry.clear
          some { s with stores := { s.stores with registry := registry }, load := .locked }
      | .locked =>
          some { s with
            stores := s.stores.rebuildIndex lib
            load := .swapped
            cut := s.call.made }
      | .swapped => some { s with load := .done }
      | .done => none

end Switch

/-! ## What a call reads -/

/-- The reads of a call with the swap before the read of this number. -/
def cutReads (old new : MatcherState) (cut : ℕ) : StoreReads where
  phrases := (if cut = 0 then new else old).getActivePhrases
  gateVariants := (if cut ≤ 1 then new else old).getVariants
  variants := (if cut ≤ 2 then new else old).getVariants
  canonical := (if cut ≤ 3 then new else old).getCanonical lib

theorem cutReads_zero (old new : MatcherState) : cutReads lib old new 0 = new.reads lib := rfl

theorem cutReads_of_le (old new : MatcherState) {cut : ℕ} (h : 4 ≤ cut) :
    cutReads lib old new cut = old.reads lib := by
  have h0 : ¬ cut = 0 := by omega
  have h1 : ¬ cut ≤ 1 := by omega
  have h2 : ¬ cut ≤ 2 := by omega
  have h3 : ¬ cut ≤ 3 := by omega
  simp [cutReads, MatcherState.reads, h0, h1, h2, h3]

namespace Switch

/-- What a call has so far is what it has on the reads. -/
def Follows (r : StoreReads) : MatchCall → Prop
  | .readPhrases => True
  | .readGateVariants phrases => window ≠ [] ∧ phrases = r.phrases ∧ phrases ≠ []
  | .readVariants phrases =>
      window ≠ [] ∧ phrases = r.phrases ∧ phrases ≠ [] ∧
        r.gateVariants.any (anchorMatches lib (buildWeightedText lib window)) = true
  | .readCanonical phrases matchedVariant =>
      (window ≠ [] ∧ phrases = r.phrases ∧ phrases ≠ [] ∧
        r.gateVariants.any (anchorMatches lib (buildWeightedText lib window)) = true) ∧
          matchedVariant = matchedAmong lib window r.variants ∧ matchedVariant ≠ []
  | .returned result => result = bestMatchOf lib window r

/-- One more read, if the state shows what the reads have at this place. -/
theorem follows_read {s : Switch} {r : StoreReads} {call : MatchCall}
    (h : Follows lib window r s.call)
    (hphrases : s.call.made = 0 → s.load.holdsLock = false → s.stores.getActivePhrases = r.phrases)
    (hgate : s.call.made = 1 → s.stores.getVariants = r.gateVariants)
    (hvariants : s.call.made = 2 → s.stores.getVariants = r.variants)
    (hcanonical : s.call.made = 3 → s.stores.getCanonical lib = r.canonical)
    (hread : s.read lib window = some call) : Follows lib window r call := by
  unfold read at hread
  cases hcall : s.call with
  | readPhrases =>
      simp only [hcall] at hread
      split at hread
      next hwindow =>
        obtain rfl := Option.some.inj hread
        simp [Follows, bestMatchOf, hwindow]
      next hwindow =>
        split at hread
        next => cases hread
        next hlock =>
          have hactive := hphrases (by rw [hcall]; rfl) (Bool.eq_false_iff.mpr hlock)
          split at hread
          next hnone =>
            obtain rfl := Option.some.inj hread
            rw [hactive] at hnone
            simp [Follows, bestMatchOf, hnone]
          next hsome =>
            obtain rfl := Option.some.inj hread
            exact ⟨hwindow, hactive, hsome⟩
  | readGateVariants phrases =>
      simp only [hcall] at hread h
      obtain ⟨hwindow, heq, hne⟩ := h
      rw [hgate (by rw [hcall]; rfl)] at hread
      split at hread
      next hanchor =>
        obtain rfl := Option.some.inj hread
        exact ⟨hwindow, heq, hne, hanchor⟩
      next hanchor =>
        obtain rfl := Option.some.inj hread
        show MatchResult.nothing = _
        rw [bestMatchOf, if_neg hwindow, if_neg (heq ▸ hne), if_neg hanchor]
  | readVariants phrases =>
      simp only [hcall] at hread h
      obtain ⟨hwindow, heq, hne, hanchor⟩ := h
      rw [hvariants (by rw [hcall]; rfl)] at hread
      split at hread
      next hmatched =>
        obtain rfl := Option.some.inj hread
        show scoreAll lib window phrases [] [] = _
        rw [bestMatchOf, if_neg hwindow, if_neg (heq ▸ hne), if_pos hanchor, if_pos hmatched, heq]
      next hmatched =>
        obtain rfl := Option.some.inj hread
        exact ⟨⟨hwindow, heq, hne, hanchor⟩, rfl, hmatched⟩
  | readCanonical phrases matchedVariant =>
      simp only [hcall] at hread h
      obtain ⟨⟨hwindow, heq, hne, hanchor⟩, rfl, hmatched⟩ := h
      rw [hcanonical (by rw [hcall]; rfl)] at hread
      obtain rfl := Option.some.inj hread
      show scoreAll lib window phrases _ _ = _
      rw [bestMatchOf, if_neg hwindow, if_neg (heq ▸ hne), if_pos hanchor, if_neg hmatched, heq]
  | returned r =>
      simp only [hcall] at hread
      cases hread

/-- A read is counted. -/
theorem made_le_of_read {s : Switch} {call : MatchCall} (h : s.read lib window = some call) :
    s.call.made ≤ call.made := by
  unfold read at h
  cases hcall : s.call with
  | readPhrases => exact Nat.zero_le _
  | readGateVariants phrases =>
      simp only [hcall] at h
      split at h
      · obtain rfl := Option.some.inj h
        exact Nat.le_succ _
      · obtain rfl := Option.some.inj h
        exact Nat.le_add_right 1 3
  | readVariants phrases =>
      simp only [hcall] at h
      split at h
      · obtain rfl := Option.some.inj h
        exact Nat.le_add_right 2 2
      · obtain rfl := Option.some.inj h
        exact Nat.le_succ _
  | readCanonical phrases matchedVariant =>
      simp only [hcall] at h
      obtain rfl := Option.some.inj h
      exact Nat.le_succ _
  | returned r =>
      simp only [hcall] at h
      cases h

/-- The stores and the cut, by the progress of the load. -/
def Shows (old new : MatcherState) (s : Switch) : Prop :=
  match s.load with
  | .before => s.stores = old ∧ s.cut = 4
  | .locked => s.stores = ⟨new.registry, old.index⟩ ∧ s.cut = 4
  | .swapped | .done => s.stores = new ∧ s.cut ≤ s.call.made

/-- Every read of the present place shows what the cut says. -/
theorem follows_of_shows {old new : MatcherState} {s : Switch} {call : MatchCall}
    (hshows : Shows old new s) (h : Follows lib window (cutReads lib old new s.cut) s.call)
    (hread : s.read lib window = some call) :
    Follows lib window (cutReads lib old new s.cut) call := by
  unfold Shows at hshows
  cases hload : s.load with
  | before =>
      simp only [hload] at hshows
      obtain ⟨hstores, hcut⟩ := hshows
      rw [hcut] at h ⊢
      refine follows_read lib window h ?_ ?_ ?_ ?_ hread
      · exact fun _ _ => congrArg _ hstores
      · exact fun _ => congrArg _ hstores
      · exact fun _ => congrArg _ hstores
      · exact fun _ => congrArg _ hstores
  | locked =>
      simp only [hload] at hshows
      obtain ⟨hstores, hcut⟩ := hshows
      rw [hcut] at h ⊢
      refine follows_read lib window h ?_ ?_ ?_ ?_ hread
      · intro _ hlock
        rw [hload] at hlock
        cases hlock
      · intro _
        rw [hstores]
        rfl
      · intro _
        rw [hstores]
        rfl
      · intro _
        rw [hstores]
        rfl
  | swapped | done =>
      simp only [hload] at hshows
      obtain ⟨hstores, hcut⟩ := hshows
      refine follows_read lib window h ?_ ?_ ?_ ?_ hread
      · intro hmade _
        rw [hstores, cutReads, if_pos (Nat.le_zero.mp (hcut.trans hmade.le))]
      · intro hmade
        rw [hstores, cutReads, if_pos (hcut.trans hmade.le)]
      · intro hmade
        rw [hstores, cutReads, if_pos (hcut.trans hmade.le)]
      · intro hmade
        rw [hstores, cutReads, if_pos (hcut.trans hmade.le)]

/-- What a call has at the swap are the old reads, as far as it has come. -/
theorem follows_at_swap {old new : MatcherState} {call : MatchCall}
    (h : Follows lib window (cutReads lib old new 4) call) :
    Follows lib window (cutReads lib old new call.made) call := by
  cases call with
  | readPhrases => trivial
  | readGateVariants phrases => exact h
  | readVariants phrases => exact h
  | readCanonical phrases matchedVariant => exact h
  | returned r => exact h

theorem coherent_step {old : MatcherState} {newPhrases : List PhraseConfig} {s t : Switch}
    {l : SwitchStep}
    (h : Shows old (profileStores lib newPhrases) s ∧
      Follows lib window (cutReads lib old (profileStores lib newPhrases) s.cut) s.call)
    (hstep : step lib window newPhrases s l = some t) :
    Shows old (profileStores lib newPhrases) t ∧
      Follows lib window (cutReads lib old (profileStores lib newPhrases) t.cut) t.call := by
  obtain ⟨hshows, hfollows⟩ := h
  cases l with
  | read =>
      obtain ⟨call, hread, rfl⟩ := Option.map_eq_some_iff.mp hstep
      have hnext := follows_of_shows lib window hshows hfollows hread
      have hmade := made_le_of_read lib window hread
      refine ⟨?_, hnext⟩
      unfold Shows at hshows ⊢
      cases hload : s.load with
      | before | locked =>
          simp only [hload] at hshows ⊢
          exact hshows
      | swapped | done =>
          simp only [hload] at hshows ⊢
          exact ⟨hshows.1, hshows.2.trans hmade⟩
  | load =>
      unfold Shows at hshows
      simp only [step] at hstep
      cases hload : s.load with
      | before =>
          simp only [hload] at hshows hstep
          obtain rfl := Option.some.inj hstep
          refine ⟨⟨?_, hshows.2⟩, hfollows⟩
          rw [hshows.1]
          rfl
      | locked =>
          simp only [hload] at hshows hstep
          obtain rfl := Option.some.inj hstep
          rw [hshows.2] at hfollows
          refine ⟨⟨?_, le_rfl⟩, follows_at_swap lib window hfollows⟩
          show MatcherState.rebuildIndex lib s.stores = _
          rw [hshows.1]
          rfl
      | swapped =>
          simp only [hload] at hshows hstep
          obtain rfl := Option.some.inj hstep
          exact ⟨hshows, hfollows⟩
      | done =>
          simp only [hload] at hstep
          cases hstep

/-- **What a call answers**, whatever the schedule: `best_match` on the old reads up to the
swap, and on the new ones from there on. -/
theorem returned_eq {old : MatcherState} {newPhrases : List PhraseConfig}
    {schedule : List SwitchStep} {t : Switch} {r : MatchResult}
    (hrun : execute (step lib window newPhrases) (init old) schedule = some t)
    (hcall : t.call = .returned r) :
    r = bestMatchOf lib window (cutReads lib old (profileStores lib newPhrases) t.cut) := by
  have hstart : Shows old (profileStores lib newPhrases) (init old) := ⟨rfl, rfl⟩
  have hfinal := execute_invariant (step lib window newPhrases)
    (fun s => Shows old (profileStores lib newPhrases) s ∧
      Follows lib window (cutReads lib old (profileStores lib newPhrases) s.cut) s.call)
    ⟨hstart, trivial⟩ (fun _ _ _ h _ hstep => coherent_step lib window h hstep) hrun
  have hfollows := hfinal.2
  rw [hcall] at hfollows
  exact hfollows

/-- A swap outside the reads is not seen. -/
theorem returned_atomic {old : MatcherState} {newPhrases : List PhraseConfig}
    {schedule : List SwitchStep} {t : Switch} {r : MatchResult}
    (hrun : execute (step lib window newPhrases) (init old) schedule = some t)
    (hcall : t.call = .returned r) (hcut : t.cut = 0 ∨ 4 ≤ t.cut) :
    r = bestMatch lib old window ∨ r = bestMatch lib (profileStores lib newPhrases) window := by
  rw [returned_eq lib window hrun hcall]
  rcases hcut with hbefore | hafter
  · rw [hbefore, cutReads_zero, ← bestMatch_eq_bestMatchOf]
    exact Or.inr rfl
  · rw [cutReads_of_le lib _ _ hafter, ← bestMatch_eq_bestMatchOf]
    exact Or.inl rfl

/-! ## Between the reads -/

/-- A phrase of a profile. -/
def phraseNamed (phrase : Text) (hne : phrase ≠ []) (variants : List Text) : PhraseConfig where
  phraseId := phrase
  phrase := phrase
  variants := variants
  threshold := 1
  cooldownMs := 2000
  phraseId_ne_nil := hne
  phrase_ne_nil := hne
  threshold_pos := one_pos
  threshold_le_one := le_rfl
  cooldownMs_nonneg := by norm_num

def oldProfile : List PhraseConfig :=
  [phraseNamed "zoe".toList (by decide) ["zz".toList]]

/-- The same variant for another phrase, and a second phrase. -/
def newProfile : List PhraseConfig :=
  [phraseNamed "bob".toList (by decide) ["zz".toList], phraseNamed "tim".toList (by decide) []]

/-- The window heard during the switch. -/
def zzTim : List Hypothesis :=
  [⟨"zz tim".toList, 0⟩]

/-- The switch with the swap after so many reads. -/
def switchAfter (cut : ℕ) : List SwitchStep :=
  List.replicate cut SwitchStep.read ++ [SwitchStep.load, .load, .load] ++
    List.replicate (4 - cut) SwitchStep.read

/-- Under the old profile "zoe" is answered and under the new one "tim".  With the swap
between the reads it is "bob", which is the answer of neither. -/
theorem torn_answers :
    ((bestMatch AsciiText.lib (profileStores AsciiText.lib oldProfile) zzTim).phrase = "zoe".toList ∧
      (bestMatch AsciiText.lib (profileStores AsciiText.lib newProfile) zzTim).phrase =
        "tim".toList) ∧
      ∀ cut ∈ [1, 2, 3],
        (execute (step AsciiText.lib zzTim newProfile) (init (profileStores AsciiText.lib oldProfile))
            (switchAfter cut)).map (fun t => (t.cut, t.call.answer.map (·.phrase))) =
          some (cut, some "bob".toList) := by
  decide +kernel

/-- A switch with the swap at one of the three places between the reads. -/
theorem exists_torn {cut : ℕ} (hcut : cut ∈ [1, 2, 3]) :
    ∃ t r, execute (step AsciiText.lib zzTim newProfile)
        (init (profileStores AsciiText.lib oldProfile)) (switchAfter cut) = some t ∧
      t.call = .returned r ∧ t.cut = cut ∧
        r ≠ bestMatch AsciiText.lib (profileStores AsciiText.lib oldProfile) zzTim ∧
          r ≠ bestMatch AsciiText.lib (profileStores AsciiText.lib newProfile) zzTim := by
  obtain ⟨⟨hold, hnew⟩, htorn⟩ := torn_answers
  obtain ⟨t, hrun, hends⟩ := Option.map_eq_some_iff.mp (htorn cut hcut)
  obtain ⟨hcutEq, hanswer⟩ := Prod.mk.inj hends
  obtain ⟨r, hr, hphrase⟩ := Option.map_eq_some_iff.mp hanswer
  have hcall : t.call = .returned r := by
    cases hcall : t.call with
    | returned r' =>
        rw [hcall] at hr
        rw [Option.some.inj hr]
    | _ =>
        rw [hcall] at hr
        cases hr
  refine ⟨t, r, hrun, hcall, hcutEq, ?_, ?_⟩
  · intro heq
    rw [heq, hold] at hphrase
    exact absurd hphrase (by decide)
  · intro heq
    rw [heq, hnew] at hphrase
    exact absurd hphrase (by decide)

/-- The swap right after the active phrases were read. -/
theorem neither_zoe_nor_tim :
    ∃ t r, execute (step AsciiText.lib zzTim newProfile)
        (init (profileStores AsciiText.lib oldProfile))
        [.read, .load, .load, .load, .read, .read, .read] = some t ∧
      t.call = .returned r ∧
        r ≠ bestMatch AsciiText.lib (profileStores AsciiText.lib oldProfile) zzTim ∧
          r ≠ bestMatch AsciiText.lib (profileStores AsciiText.lib newProfile) zzTim := by
  obtain ⟨t, r, hrun, hcall, -, hold, hnew⟩ := exists_torn (show 1 ∈ [1, 2, 3] by decide)
  exact ⟨t, r, hrun, hcall, hold, hnew⟩

/-- **Where the switch looks atomic.**  A place for the swap is safe for all profiles and
windows exactly when it is not between the first and the last read of the call. -/
theorem switch_atomic_iff (cut : ℕ) :
    (∀ (lib : TextLib) (window : List Hypothesis) (oldPhrases newPhrases : List PhraseConfig)
        (schedule : List SwitchStep) (t : Switch) (r : MatchResult),
      execute (step lib window newPhrases) (init (profileStores lib oldPhrases)) schedule = some t →
        t.call = .returned r → t.cut = cut →
          r = bestMatch lib (profileStores lib oldPhrases) window ∨
            r = bestMatch lib (profileStores lib newPhrases) window) ↔
      cut = 0 ∨ 4 ≤ cut := by
  constructor
  · intro hatomic
    by_contra htorn
    have hcut : cut ∈ [1, 2, 3] := by
      simp only [List.mem_cons, List.not_mem_nil, or_false]
      omega
    obtain ⟨t, r, hrun, hcall, hcutEq, hold, hnew⟩ := exists_torn hcut
    rcases hatomic _ _ _ _ _ t r hrun hcall hcutEq with heq | heq
    · exact hold heq
    · exact hnew heq
  · intro hsafe lib window oldPhrases newPhrases schedule t r hrun hcall hcut
    exact returned_atomic lib window hrun hcall (hcut ▸ hsafe)

end Switch

end Matcher
end AvaListener
