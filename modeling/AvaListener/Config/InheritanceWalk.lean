import Mathlib.Data.List.Chain
import AvaListener.Config.ProfileLoader
import AvaListener.Library.PartialWalk

/-!
# Following `extends`

`resolve_inheritance` walks from a profile to the file its `extends` names, resolved
relative to the directory of the profile, and so on.  Over files that can be loaded,
the walk does one of three things: it reaches a profile without `extends`, it comes
back to a path it has visited, or it comes to a path where there is no file.  The
loop tells the three apart.
-/

namespace AvaListener
namespace Config

open Library

/-! ## The walk -/

/-- The profile that a file holds after migration. -/
def profileAt (files : ProfileFiles) (path : Text) : Option Profile :=
  (readJson files path >>= applyMigrations).toOption

/-- The path that a profile at `path` names as its parent. -/
def parentPath (os : OsPath) (path : Text) (profile : Profile) : Option Text :=
  match profile.get? extendsKey with
  | some (.str parentRelPath) => some (os.abspath (os.join (os.dirname path) parentRelPath))
  | _ => none

/-- One step of the walk. -/
def nextPath (os : OsPath) (files : ProfileFiles) (path : Text) : Option Text :=
  (profileAt files path).bind (parentPath os path)

/-- Every file is a profile that migrates, with a text for `extends` if anything. -/
structure Loadable (files : ProfileFiles) : Prop where
  loads : ∀ path, (files.get? path).isSome = true → ∃ profile, profileAt files path = some profile
  extends_str : ∀ path profile value, profileAt files path = some profile →
    profile.get? extendsKey = some value → ∃ parentRelPath, value = .str parentRelPath

/-- The check of all files, one by one. -/
def loadableFile (files : ProfileFiles) (path : Text) : Bool :=
  (profileAt files path).any fun profile =>
    (profile.get? extendsKey).all fun value =>
      match value with
      | .str _ => true
      | _ => false

theorem loadable_of_all {files : ProfileFiles} (h : files.keys.all (loadableFile files) = true) :
    Loadable files := by
  have hfile : ∀ path, (files.get? path).isSome = true → loadableFile files path = true := by
    intro path hpath
    obtain ⟨content, hcontent⟩ := Option.isSome_iff_exists.mp hpath
    exact List.all_eq_true.mp h path (List.mem_map_of_mem (Dict.get?_eq_some_iff.mp hcontent))
  refine ⟨?_, ?_⟩
  · intro path hpath
    obtain ⟨profile, hprofile, -⟩ := (Option.any_eq_true _ _).mp (hfile path hpath)
    exact ⟨profile, hprofile⟩
  · intro path profile value hprofile hextends
    have hpath : (files.get? path).isSome = true := by
      cases hcontent : files.get? path with
      | none => simp [profileAt, readJson, hcontent, Except.toOption] at hprofile
      | some content => rfl
    have hstr := hfile path hpath
    rw [loadableFile, hprofile, Option.any_some, hextends, Option.all_some] at hstr
    cases value with
    | str parentRelPath => exact ⟨parentRelPath, rfl⟩
    | _ => cases hstr

section Outcomes

variable (os : OsPath) (files : ProfileFiles) (path : Text)

/-- The walk reaches a profile without `extends`, without repetition. -/
def ReachesRoot : Prop :=
  ∃ n p root, walkAt (nextPath os files) path n = some p ∧ profileAt files p = some root ∧
    root.get? extendsKey = none ∧
      ∀ i j, i < j → j ≤ n → walkAt (nextPath os files) path i ≠ walkAt (nextPath os files) path j

/-- The walk comes back to a path, all files up to there being present. -/
def Revisits : Prop :=
  ∃ n p, walkAt (nextPath os files) path (n + 1) = some p ∧
    (∃ i ≤ n, walkAt (nextPath os files) path i = some p) ∧
      ∀ i ≤ n, ∀ q ∈ walkAt (nextPath os files) path i, (files.get? q).isSome = true

/-- The walk comes to a path without a file, all files before it being present. -/
def MeetsMissing : Prop :=
  ∃ n p, walkAt (nextPath os files) path n = some p ∧ files.get? p = none ∧
    ∀ i < n, ∀ q ∈ walkAt (nextPath os files) path i, (files.get? q).isSome = true

/-- The profiles from the root ancestor to the given one, each the file that the
next one names. -/
structure InheritanceChain (profile : Profile) (chain : List Profile) : Prop where
  root : ∃ r ∈ chain.head?, r.get? extendsKey = none
  child : chain.getLast? = some profile
  linked : ∃ paths : List Text, paths.getLast? = some path ∧
    List.Forall₂ (fun p profile => profileAt files p = some profile) paths chain ∧
      paths.IsChain fun parent child => nextPath os files child = some parent

/-! ## The outcomes exclude each other -/

variable {os files path}

theorem nextPath_of_missing {p : Text} (h : files.get? p = none) : nextPath os files p = none := by
  simp [nextPath, profileAt, readJson, h, Except.toOption]

theorem nextPath_of_root {p : Text} {root : Profile} (h : profileAt files p = some root)
    (hroot : root.get? extendsKey = none) : nextPath os files p = none := by
  simp [nextPath, parentPath, h, hroot]

theorem isSome_get?_of_profileAt {p : Text} {profile : Profile}
    (h : profileAt files p = some profile) : (files.get? p).isSome = true := by
  cases hfile : files.get? p with
  | none => simp [profileAt, readJson, hfile, Except.toOption] at h
  | some content => rfl

theorem ReachesRoot.not_meetsMissing (h : ReachesRoot os files path) :
    ¬ MeetsMissing os files path := by
  rintro ⟨m, q, hq, hmissing, -⟩
  obtain ⟨n, p, root, hp, hprofile, hroot, -⟩ := h
  obtain rfl := walkAt_end_unique hp hq (nextPath_of_root hprofile hroot)
    (nextPath_of_missing hmissing)
  obtain rfl := Option.some.inj (hp.symm.trans hq)
  have hsome := isSome_get?_of_profileAt hprofile
  rw [hmissing] at hsome
  cases hsome

/-- A walk that revisits a path never ends. -/
theorem Revisits.not_end (h : Revisits os files path) {n : ℕ} {p : Text}
    (hp : walkAt (nextPath os files) path n = some p) : nextPath os files p ≠ none := by
  intro hend
  obtain ⟨m, q, hq, ⟨i, hi, hrepeat⟩, -⟩ := h
  have hsome := isSome_walkAt_of_repeat (by omega : i < m + 1) (hrepeat.trans hq.symm)
    (by rw [hq]; rfl) (n + 1)
  rw [walkAt_succ_of_eq hp, hend] at hsome
  cases hsome

theorem ReachesRoot.not_revisits (h : ReachesRoot os files path) : ¬ Revisits os files path := by
  intro hrevisits
  obtain ⟨n, p, root, hp, hprofile, hroot, -⟩ := h
  exact hrevisits.not_end hp (nextPath_of_root hprofile hroot)

theorem MeetsMissing.not_revisits (h : MeetsMissing os files path) : ¬ Revisits os files path := by
  intro hrevisits
  obtain ⟨n, p, hp, hmissing, -⟩ := h
  exact hrevisits.not_end hp (nextPath_of_missing hmissing)

/-! ## The loop -/

variable (os files path) in
/-- What the loop holds after `n` rounds: the profile at the place reached, the
places visited, and the chain from there to the child. -/
structure AtRound (profile : Profile) (n : ℕ) (p : Text) (current : Profile)
    (visited : List Text) (chain : List Profile) : Prop where
  here : walkAt (nextPath os files) path n = some p
  loaded : profileAt files p = some current
  visited_iff : ∀ q, q ∈ visited ↔ ∃ i ≤ n, walkAt (nextPath os files) path i = some q
  present : ∀ i ≤ n, ∀ q ∈ walkAt (nextPath os files) path i, (files.get? q).isSome = true
  head : chain.head? = some current
  child : chain.getLast? = some profile
  linked : ∃ paths : List Text, paths.head? = some p ∧ paths.getLast? = some path ∧
    List.Forall₂ (fun p profile => profileAt files p = some profile) paths chain ∧
      paths.IsChain fun parent child => nextPath os files child = some parent

variable (os files path) in
/-- What the loop may answer. -/
inductive Outcome (profile : Profile) : Except ProfileError (List Profile) → Prop
  | resolved {chain : List Profile} (reaches : ReachesRoot os files path)
      (linked : InheritanceChain os files path profile chain) : Outcome profile (.ok chain)
  | circular (p : Text) (visited : List Text) (revisits : Revisits os files path) :
      Outcome profile (.error (.circular p visited))
  | missing (p : Text) (meets : MeetsMissing os files path) :
      Outcome profile (.error (.missingParent p))
  | outOfFuel : Outcome profile (.error .outOfFuel)

variable {profile current : Profile} {n : ℕ} {p : Text} {visited : List Text}
  {chain : List Profile}

theorem atRound_zero (h : profileAt files path = some profile) :
    AtRound os files path profile 0 path profile [path] [profile] where
  here := rfl
  loaded := h
  visited_iff q := by simp [eq_comm]
  present := by
    intro i hi q hq
    obtain rfl := Nat.le_zero.mp hi
    obtain rfl := Option.some.inj hq
    exact isSome_get?_of_profileAt h
  head := rfl
  child := rfl
  linked := ⟨[path], rfl, rfl, .cons h .nil, List.IsChain.singleton _⟩

/-- A root ends the walk, and with it the loop. -/
theorem AtRound.reachesRoot (h : AtRound os files path profile n p current visited chain)
    (hroot : current.get? extendsKey = none) :
    ReachesRoot os files path ∧ InheritanceChain os files path profile chain := by
  have hend : nextPath os files p = none := nextPath_of_root h.loaded hroot
  refine ⟨⟨n, p, current, h.here, h.loaded, hroot, ?_⟩, ⟨current, h.head, hroot⟩, h.child, ?_⟩
  · intro i j hij hj
    exact walkAt_ne_of_end h.here hend hij hj
  · obtain ⟨paths, -, hlast, hloaded, hlinked⟩ := h.linked
    exact ⟨paths, hlast, hloaded, hlinked⟩

/-- One more round, to a file that was not visited before. -/
theorem AtRound.next (h : AtRound os files path profile n p current visited chain) {q : Text}
    {parent : Profile} (hnext : nextPath os files p = some q)
    (hparent : profileAt files q = some parent) :
    AtRound os files path profile (n + 1) q parent (q :: visited) (parent :: chain) where
  here := by rw [walkAt_succ_of_eq h.here, hnext]
  loaded := hparent
  visited_iff r := by
    rw [List.mem_cons, h.visited_iff]
    constructor
    · rintro (rfl | ⟨i, hi, hr⟩)
      · exact ⟨n + 1, le_rfl, by rw [walkAt_succ_of_eq h.here, hnext]⟩
      · exact ⟨i, by omega, hr⟩
    · rintro ⟨i, hi, hr⟩
      rcases Nat.le_succ_iff.mp hi with hle | rfl
      · exact Or.inr ⟨i, hle, hr⟩
      · rw [walkAt_succ_of_eq h.here, hnext] at hr
        exact Or.inl (Option.some.inj hr).symm
  present := by
    intro i hi r hr
    rcases Nat.le_succ_iff.mp hi with hle | rfl
    · exact h.present i hle r hr
    · rw [walkAt_succ_of_eq h.here, hnext] at hr
      obtain rfl := Option.some.inj hr
      exact isSome_get?_of_profileAt hparent
  head := rfl
  child := by
    have hne : chain ≠ [] := by
      rintro rfl
      cases h.child
    rw [List.getLast?_cons_of_ne_nil hne, h.child]
  linked := by
    obtain ⟨paths, hhead, hlast, hloaded, hlinked⟩ := h.linked
    refine ⟨q :: paths, rfl, ?_, .cons hparent hloaded, ?_⟩
    · have hne : paths ≠ [] := by
        rintro rfl
        cases hlast
      rw [List.getLast?_cons_of_ne_nil hne, hlast]
    · refine hlinked.cons fun r hr => ?_
      obtain rfl := Option.some.inj (hhead.symm.trans hr)
      exact hnext

/-- **The loop** answers one of the three outcomes, as long as its fuel lasts. -/
theorem AtRound.outcome (hfiles : Loadable files) (fuel : ℕ)
    (h : AtRound os files path profile n p current visited chain) :
    Outcome os files path profile
      (resolveLoop os files fuel current (os.dirname p) visited chain) := by
  induction fuel generalizing n p current visited chain with
  | zero => exact .outOfFuel
  | succ fuel ih =>
      rw [resolveLoop]
      cases hextends : current.get? extendsKey with
      | none =>
          obtain ⟨hreaches, hlinked⟩ := h.reachesRoot hextends
          exact .resolved hreaches hlinked
      | some value =>
          obtain ⟨parentRelPath, rfl⟩ := hfiles.extends_str p current value h.loaded hextends
          dsimp only
          generalize hq : os.abspath (os.join (os.dirname p) parentRelPath) = q
          have hnext : nextPath os files p = some q := by
            simp [nextPath, parentPath, h.loaded, hextends, hq]
          have hwalk : walkAt (nextPath os files) path (n + 1) = some q := by
            rw [walkAt_succ_of_eq h.here, hnext]
          by_cases hvisited : q ∈ visited
          · rw [if_pos hvisited]
            exact .circular q visited ⟨n, q, hwalk, (h.visited_iff q).mp hvisited, h.present⟩
          · rw [if_neg hvisited]
            cases hfile : files.get? q with
            | none =>
                refine .missing q ⟨n + 1, q, hwalk, hfile, fun i hi => ?_⟩
                exact h.present i (Nat.lt_succ_iff.mp hi)
            | some content =>
                obtain ⟨parent, hparent⟩ := hfiles.loads q (by rw [hfile]; rfl)
                have hread : (readJson files q >>= applyMigrations) = .ok parent := by
                  cases hresult : readJson files q >>= applyMigrations with
                  | error e => simp [profileAt, hresult, Except.toOption] at hparent
                  | ok other =>
                      simp only [profileAt, hresult, Except.toOption, Option.some.injEq] at hparent
                      rw [hparent]
                have hround := ih (h.next hnext hparent)
                obtain ⟨json, hjson, hmigrated⟩ := bind_eq_ok_iff.mp hread
                simpa [hjson, hmigrated] using hround

end Outcomes

/-- The answer and the walk: the loop ends, with the chain from a root exactly when
the walk reaches one, with the circular error exactly when it revisits a path, with
the missing-parent error exactly when it meets a path without a file, and one of the
three happens. -/
structure AnswersWalk (os : OsPath) (files : ProfileFiles) (path : Text) (profile : Profile)
    (answer : Except ProfileError (List Profile)) : Prop where
  ends : answer ≠ .error .outOfFuel
  chain_iff : (∃ chain, answer = .ok chain) ↔ ReachesRoot os files path
  chain_linked : ∀ chain, answer = .ok chain → InheritanceChain os files path profile chain
  circular_iff : (∃ p visited, answer = .error (.circular p visited)) ↔ Revisits os files path
  missing_iff : (∃ p, answer = .error (.missingParent p)) ↔ MeetsMissing os files path
  exhaustive : ReachesRoot os files path ∨ Revisits os files path ∨ MeetsMissing os files path

/-- **Following `extends`.**  Over finitely many loadable files, resolving a loaded
profile with its own path visited answers what its walk does. -/
theorem resolveInheritance_answersWalk (os : OsPath) (files : ProfileFiles)
    (hfiles : Loadable files) (path : Text) (profile : Profile)
    (hprofile : profileAt files path = some profile) :
    AnswersWalk os files path profile
      (resolveInheritance os files profile (os.dirname path) [path]) := by
  have houtcome : Outcome os files path profile
      (resolveInheritance os files profile (os.dirname path) [path]) :=
    (atRound_zero hprofile).outcome hfiles _
  have hfuel := resolveInheritance_ne_outOfFuel os files profile (os.dirname path) [path]
  generalize resolveInheritance os files profile (os.dirname path) [path] = answer at *
  cases houtcome with
  | resolved hreaches hlinked =>
      refine ⟨hfuel, iff_of_true ⟨_, rfl⟩ hreaches, ?_, iff_of_false ?_ hreaches.not_revisits,
        iff_of_false ?_ hreaches.not_meetsMissing, Or.inl hreaches⟩
      · intro chain hchain
        obtain rfl := Except.ok.inj hchain
        exact hlinked
      · rintro ⟨p, visited, h⟩
        cases h
      · rintro ⟨p, h⟩
        cases h
  | circular p visited hrevisits =>
      refine ⟨hfuel, iff_of_false ?_ fun hreaches => hreaches.not_revisits hrevisits, ?_,
        iff_of_true ⟨p, visited, rfl⟩ hrevisits,
        iff_of_false ?_ fun hmeets => hmeets.not_revisits hrevisits, Or.inr (Or.inl hrevisits)⟩
      · rintro ⟨chain, h⟩
        cases h
      · intro chain h
        cases h
      · rintro ⟨q, h⟩
        cases h
  | missing p hmeets =>
      refine ⟨hfuel, iff_of_false ?_ fun hreaches => hreaches.not_meetsMissing hmeets, ?_,
        iff_of_false ?_ hmeets.not_revisits, iff_of_true ⟨p, rfl⟩ hmeets,
        Or.inr (Or.inr hmeets)⟩
      · rintro ⟨chain, h⟩
        cases h
      · intro chain h
        cases h
      · rintro ⟨q, visited, h⟩
        cases h
  | outOfFuel => exact absurd rfl hfuel

/-- A profile and the one it extends, in one directory. -/
def twoProfiles : ProfileFiles :=
  ⟨[("/profiles/base.json".toList, some (.dict [("profileVersion".toList, .int 2)])),
    ("/profiles/custom.json".toList, some (.dict [("profileVersion".toList, .int 2),
      ("extends".toList, .str "base.json".toList)]))], by decide⟩

theorem twoProfiles_answersWalk :
    ∃ profile, profileAt twoProfiles "/profiles/custom.json".toList = some profile ∧
      AnswersWalk .normal twoProfiles "/profiles/custom.json".toList profile
        (resolveInheritance .normal twoProfiles profile
          (OsPath.normal.dirname "/profiles/custom.json".toList)
          ["/profiles/custom.json".toList]) := by
  obtain ⟨profile, hprofile⟩ := Option.isSome_iff_exists.mp
    (show (profileAt twoProfiles "/profiles/custom.json".toList).isSome = true by decide +kernel)
  exact ⟨profile, hprofile, resolveInheritance_answersWalk .normal twoProfiles
    (loadable_of_all (by decide +kernel)) "/profiles/custom.json".toList profile hprofile⟩

end Config
end AvaListener
