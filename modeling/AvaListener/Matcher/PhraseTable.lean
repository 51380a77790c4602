import Mathlib.Data.List.DropRight
import AvaListener.Matcher.Variants

/-!
# The phrase table that the phrase commands describe

`with_updates` and `update_phrase` of `runtime/matcher/registry/phrase_registry.py`,
and on top of the registry's operations the table that a sequence of commands
describes: the phrases of the profile loaded last, changed by the commands since,
with an index that is always up to date.

`PhraseCommand.applyTo` says what a command is for.  Which commands a worker acts
on is another matter.
-/

namespace AvaListener
namespace Matcher

open Library

/-! ## Updates of one phrase -/

/-- The fields that `with_updates` accepts. -/
structure PhraseUpdates where
  threshold : Option ℚ
  cooldownMs : Option ℤ
  enabled : Option Bool
  weight : Option ℚ
  variants : Option (List Text)
  deriving DecidableEq

def PhraseUpdates.ofVariants (variants : List Text) : PhraseUpdates :=
  ⟨none, none, none, none, some variants⟩

/-- `with_updates`: the given fields are overridden and the result is validated
again. -/
def PhraseConfig.withUpdates (lib : TextLib) (cfg : PhraseConfig) (updates : PhraseUpdates) :
    Except PhraseError PhraseConfig :=
  PhraseConfig.make cfg.phraseId cfg.phrase
    ((updates.variants.map (cleanVariants lib)).getD cfg.variants)
    (updates.threshold.getD cfg.threshold) (updates.cooldownMs.getD cfg.cooldownMs)
    (updates.enabled.getD cfg.enabled) (updates.weight.getD cfg.weight)

/-- `update_phrase`; no-op if the id is not found. -/
def PhraseRegistry.updatePhrase (lib : TextLib) (r : PhraseRegistry) (phraseId : Text)
    (updates : PhraseUpdates) : Except PhraseError PhraseRegistry :=
  match r.phrases.get? phraseId with
  | some cfg => (cfg.withUpdates lib updates).map fun cfg => ⟨r.phrases.set phraseId cfg⟩
  | none => .ok r

/-- New variants alone always pass the validation. -/
theorem PhraseConfig.withUpdates_ofVariants (lib : TextLib) (cfg : PhraseConfig)
    (variants : List Text) :
    cfg.withUpdates lib (.ofVariants variants) =
      .ok { cfg with variants := cleanVariants lib variants } := by
  have hrange : 0 < cfg.threshold ∧ cfg.threshold ≤ 1 := ⟨cfg.threshold_pos, cfg.threshold_le_one⟩
  simp [withUpdates, PhraseUpdates.ofVariants, PhraseConfig.make, cfg.phraseId_ne_nil,
    cfg.phrase_ne_nil, hrange, cfg.cooldownMs_nonneg]

/-! ## Commands -/

/-- The commands that concern the phrases.  A phrase object has the keys of a
profile's entry. -/
inductive PhraseCommand where
  | loadProfile (path : Text)
  | addPhrase (phraseObj : PhraseEntry)
  | removePhrase (phraseId : Text)
  | enablePhrase (phraseId : Text)
  | disablePhrase (phraseId : Text)
  | updateVariants (phraseId : Text) (variants : List Text)
  deriving DecidableEq

/-- A command together with the `wakePhrases` of the file that a `loadProfile` finds
at its path when it is processed, if that file can be read. -/
abbrev ProcessedCommand := PhraseCommand × Option (List PhraseEntry)

/-- The registry after a phrase command.  What fails validation changes nothing. -/
def PhraseCommand.edit (lib : TextLib) (r : PhraseRegistry) : PhraseCommand → PhraseRegistry
  | .loadProfile _ => r
  | .addPhrase phraseObj =>
      match PhraseConfig.fromDict lib phraseObj with
      | .ok cfg => r.addPhrase cfg
      | .error _ => r
  | .removePhrase phraseId => r.removePhrase phraseId
  | .enablePhrase phraseId => r.enablePhrase phraseId
  | .disablePhrase phraseId => r.disablePhrase phraseId
  | .updateVariants phraseId variants =>
      match r.updatePhrase lib phraseId (.ofVariants variants) with
      | .ok r => r
      | .error _ => r

namespace ProcessedCommand

variable (lib : TextLib)

/-- The table of the profile that the command loads, if it loads one. -/
def loads : ProcessedCommand → Option MatcherState
  | (.loadProfile path, some wakePhrases) =>
      if path = [] then none
      else
        match MatcherState.empty.loadPhrases lib wakePhrases with
        | .ok m => some m
        | .error _ => none
  | _ => none

/-- The table after a command: a load replaces it, a load that fails leaves it, and
a phrase command edits it and rebuilds the index. -/
def applyTo (m : MatcherState) (p : ProcessedCommand) : MatcherState :=
  match p with
  | (.loadProfile _, _) => (loads lib p).getD m
  | (c, _) => { m with registry := c.edit lib m.registry }.rebuildIndex lib

/-- The table that the commands describe. -/
def table (m : MatcherState) (ps : List ProcessedCommand) : MatcherState :=
  ps.foldl (applyTo lib) m

/-- The table of the profile loaded last. -/
def lastLoaded (m : MatcherState) (ps : List ProcessedCommand) : MatcherState :=
  ps.foldl (fun m p => (loads lib p).getD m) m

/-- The commands since the last profile was loaded. -/
def sinceLoad (ps : List ProcessedCommand) : List ProcessedCommand :=
  ps.rtakeWhile fun p => (loads lib p).isNone

theorem applyTo_of_loads {m m' : MatcherState} {p : ProcessedCommand} (h : loads lib p = some m') :
    applyTo lib m p = m' := by
  obtain ⟨c, file⟩ := p
  cases c with
  | loadProfile path => rw [applyTo, h, Option.getD_some]
  | _ => cases h

/-- **The table is the last profile's, changed by the commands since.** -/
theorem table_eq (m : MatcherState) (ps : List ProcessedCommand) :
    table lib m ps = table lib (lastLoaded lib m ps) (sinceLoad lib ps) := by
  induction ps using List.reverseRecOn with
  | nil => rfl
  | append_singleton ps p ih =>
      have htable : table lib m (ps ++ [p]) = applyTo lib (table lib m ps) p := by
        simp [table]
      have hlast : lastLoaded lib m (ps ++ [p]) = (loads lib p).getD (lastLoaded lib m ps) := by
        simp [lastLoaded]
      rw [htable, hlast, sinceLoad]
      cases hload : loads lib p with
      | some m' =>
          rw [applyTo_of_loads lib hload, List.rtakeWhile_concat_neg]
          · rfl
          · simp [hload]
      | none =>
          rw [List.rtakeWhile_concat_pos, ih]
          · simp [table, sinceLoad]
          · simp [hload]

end ProcessedCommand

/-- What was loaded before does not matter to a load. -/
theorem MatcherState.loadPhrases_eq (lib : TextLib) (m : MatcherState)
    (wakePhrases : List PhraseEntry) :
    m.loadPhrases lib wakePhrases = MatcherState.empty.loadPhrases lib wakePhrases := by
  unfold loadPhrases
  split
  · rfl
  · rfl

end Matcher
end AvaListener
