import AvaListener.Library.OrderedDict
import AvaListener.Library.PyText
import AvaListener.Library.Runs
import Mathlib.Data.Rat.Defs
import Mathlib.Logic.Function.Basic

/-!
# The model manager

`ModelManager.verifyOrDownload` of `node/model_manager.js`: the checks of all models,
which run side by side from their hash computations on, then the downloads of those
that are missing or corrupt, one after the other with three attempts each.

One step runs from one `await` to the next.  The steps of a download that can throw
for reasons outside the program are separate, so that an attempt can fail between any
two of them.  Nobody else writes to the cache directory; the temporary file of a
download has a name of its own and is kept in the stage of the download, and target
names are names of plain files in the models directory.

`sha256` and `manifestHash` stand for Node's `crypto`; `bytesAt` says which bytes a
target file has when its size and modification time are given, which is the assumption
that the two change whenever the bytes do.
-/

namespace AvaListener
namespace Models

open Library

/-! ## Manifests -/

structure ModelEntry where
  id : Text
  sha256 : Text
  targetFilename : Option Text
  downloadUrl : Option Text
  url : Option Text
  deriving DecidableEq

/-- `first || second` on optional strings. -/
def orElse (first second : Option Text) : Option Text :=
  if first = none ∨ first = some [] then second else first

namespace ModelEntry

/-- `targetFilename || id`. -/
def target (e : ModelEntry) : Text := (orElse e.targetFilename (some e.id)).getD e.id

/-- `resolve_model_url` of `downloadUrl || url`; `none` is the exception. -/
def resolveModelUrl (e : ModelEntry) : Option Text :=
  match orElse e.downloadUrl e.url with
  | none => none
  | some url =>
      if startsWith url "file://".toList ∨ startsWith url "http://".toList ∨
          startsWith url "https://".toList then some url
      else none

end ModelEntry

/-- A manifest whose entries have distinct ids and target files. -/
structure Manifest where
  /-- `JSON.stringify(manifest)`. -/
  json : Text
  models : List ModelEntry
  ids : (models.map ModelEntry.id).Nodup
  targets : (models.map ModelEntry.target).Nodup

/-! ## The cache directory -/

/-- What `statSync` reports of a file. -/
structure Stamp where
  size : ℕ
  mtimeMs : ℚ
  deriving DecidableEq

structure ModelFile (β : Type*) where
  bytes : β
  stamp : Stamp

/-- The parts of a cache key. -/
structure CacheKey where
  manifestHash : Text
  stamp : Stamp
  deriving DecidableEq

structure CacheEntry where
  key : CacheKey
  hash : Text
  deriving DecidableEq

/-- The contents of `checksums.json`. -/
structure Checksums where
  files : Dict Text Text
  cache : Dict Text CacheEntry

/-- The property of every JavaScript object that holds its prototype. -/
def protoKey : Text := "__proto__".toList

namespace Checksums

def empty : Checksums := ⟨.empty, .empty⟩

/-- `cache[id] = entry`.  On an object without a property of that name, assigning to
`__proto__` sets the prototype, which `JSON.stringify` leaves out. -/
def setCache (c : Checksums) (id : Text) (entry : CacheEntry) : Checksums :=
  if id = protoKey ∧ c.cache.get? id = none then c
  else { c with cache := c.cache.set id entry }

@[simp] theorem files_setCache (c : Checksums) (id : Text) (entry : CacheEntry) :
    (c.setCache id entry).files = c.files := by
  unfold setCache
  split
  · rfl
  · rfl

theorem get?_setCache_of_ne (c : Checksums) {id id' : Text} (entry : CacheEntry) (h : id' ≠ id) :
    (c.setCache id entry).cache.get? id' = c.cache.get? id' := by
  unfold setCache
  split
  · rfl
  · exact Dict.get?_set_of_ne _ _ h

theorem get?_setCache_self (c : Checksums) {id : Text} (entry : CacheEntry)
    (h : id = protoKey → c.cache.get? id ≠ none) :
    (c.setCache id entry).cache.get? id = some entry := by
  unfold setCache
  rw [if_neg fun hlost => h hlost.1 hlost.2]
  exact Dict.get?_set_self _ _ _

theorem get?_setCache_protoKey {c : Checksums} (entry : CacheEntry)
    (h : c.cache.get? protoKey = none) :
    (c.setCache protoKey entry).cache.get? protoKey = none := by
  rw [setCache, if_pos ⟨rfl, h⟩, h]

/-- `files[path.join('models', id)] = sha256`. -/
def setFile (c : Checksums) (e : ModelEntry) : Checksums :=
  { c with files := c.files.set ("models/".toList ++ e.id) e.sha256 }

end Checksums

/-- `checksums.json` on the disk. -/
inductive ChecksumsFile where
  | missing
  | unreadable
  | holds (c : Checksums)

/-- `load_checksums`. -/
def ChecksumsFile.load : ChecksumsFile → Checksums
  | missing => .empty
  | unreadable => .empty
  | holds c => c

/-- The ways a `writeFileSync` can go; the last two throw. -/
inductive Write where
  | ok
  | untouched
  | cutShort
  deriving DecidableEq

structure Disk (β : Type*) where
  /-- The models directory. -/
  models : Text → Option (ModelFile β)
  checksums : ChecksumsFile

namespace Disk

variable {β : Type*}

/-- `save_checksums`. -/
def saveChecksums (d : Disk β) (c : Checksums) : Write → Disk β
  | .ok => { d with checksums := .holds c }
  | .untouched => d
  | .cutShort => { d with checksums := .unreadable }

/-- `renameSync` onto a target file. -/
def rename (d : Disk β) (target : Text) (f : ModelFile β) : Disk β :=
  { d with models := Function.update d.models target (some f) }

@[simp] theorem models_saveChecksums (d : Disk β) (c : Checksums) (w : Write) :
    (d.saveChecksums c w).models = d.models := by
  cases w with
  | ok => rfl
  | untouched => rfl
  | cutShort => rfl

end Disk

/-! ## The checks -/

/-- Where a `verify_model` is. -/
inductive Verification where
  /-- Computing the hash for the cache key. -/
  | hashing (key : CacheKey)
  | done (valid : Bool)
  | threw
  deriving DecidableEq

/-- A call that goes on keeps its place and its model. -/
theorem map_fst_set {calls : List (ModelEntry × Verification)} {i : ℕ} {e : ModelEntry}
    {before : Verification} (hi : calls[i]? = some (e, before)) (after : Verification) :
    (calls.set i (e, after)).map Prod.fst = calls.map Prod.fst := by
  obtain ⟨hlt, hget⟩ := List.getElem?_eq_some_iff.mp
    ((List.getElem?_map ..).trans (congrArg (Option.map Prod.fst) hi))
  have hsame : (calls.map Prod.fst)[i] = e := hget
  rw [List.map_set]
  show (calls.map Prod.fst).set i e = _
  rw [← hsame, List.set_getElem_self]

/-- The manifest hash that a download writes into its cache key. -/
def unknownHash : Text := "unknown".toList

/-- `verify_model`, up to the hash computation. -/
def verifyModel {β : Type*} (d : Disk β) (manifestHash : Text) (statThrows : Bool)
    (e : ModelEntry) : Verification :=
  match d.models e.target with
  | none => .done false
  | some f =>
      if statThrows then .threw
      else
        match d.checksums.load.cache.get? e.id with
        | none => .hashing ⟨manifestHash, f.stamp⟩
        | some cached =>
            if cached.key = ⟨manifestHash, f.stamp⟩ then .done (cached.hash = e.sha256)
            else .hashing ⟨manifestHash, f.stamp⟩

/-! ## The machine -/

/-- Where an attempt of `download_model` is. -/
inductive Stage (β : Type*) where
  /-- Up to the complete temporary file. -/
  | fetching
  /-- Computing the hash of the temporary file. -/
  | checking (temp : β)
  /-- About to rename it. -/
  | placing (temp : β)
  /-- About to write the cache entry. -/
  | recording
  /-- About to write the metadata. -/
  | describing
  /-- The attempt has failed and the delay before the next one runs. -/
  | waiting

inductive Phase (β : Type*) where
  /-- `Promise.all` of the checks. -/
  | verifying
  | downloading (e : ModelEntry) (rest : List ModelEntry) (attempt : ℕ) (stage : Stage β)
  | resolved (targets : List Text)
  | rejected

structure ModelManager (β : Type*) where
  disk : Disk β
  verifications : List (ModelEntry × Verification)
  missingModels : List ModelEntry
  phase : Phase β

inductive Label (β : Type*) where
  /-- The hash of the `i`-th model's file is there, and its cache entry is written. -/
  | hashed (i : ℕ) (write : Write)
  | hashThrows (i : ℕ)
  /-- The continuation of `Promise.all`. -/
  | verified
  /-- The temporary file is complete. -/
  | fetched (temp : β)
  /-- `verify_download` has compared the hashes. -/
  | checked
  | renamed (stamp : Stamp)
  | recorded (write : Write)
  /-- `save_model_metadata`: whether `installed_models.json` could be read and written,
  and the write of the checksums. -/
  | described (installed : Bool) (write : Write)
  /-- Something throws before the attempt is over. -/
  | attemptThrows
  /-- The delay before the next attempt is over. -/
  | retry

namespace ModelManager

variable {β : Type*} [DecidableEq β] (sha256 : β → Text) (bytesAt : Text → Stamp → β)

/-- `verifyOrDownload`, up to its first `await`. -/
def start (manifestHash : Text → Text) (m : Manifest) (d : Disk β)
    (statThrows : Text → Bool) : ModelManager β where
  disk := d
  verifications :=
    m.models.map fun e => (e, verifyModel d (manifestHash m.json) (statThrows e.target) e)
  missingModels := []
  phase := .verifying

/-- The loop over the missing models. -/
def downloadNext (s : ModelManager β) : List ModelEntry → ModelManager β
  | [] => { s with phase := .resolved (s.missingModels.map ModelEntry.target) }
  | e :: rest => { s with phase := .downloading e rest 1 .fetching }

/-- The `catch` of `retry_download`, of three attempts. -/
def attemptFailed (s : ModelManager β) (e : ModelEntry) (rest : List ModelEntry) (attempt : ℕ) :
    ModelManager β :=
  if attempt = 3 then { s with phase := .rejected }
  else { s with phase := .downloading e rest attempt .waiting }

/-- The checks that came out false. -/
def invalid (verifications : List (ModelEntry × Verification)) : List ModelEntry :=
  (verifications.filter fun v => v.2 = .done false).map Prod.fst

/-- What the label does to a download. -/
def downloadStep (s : ModelManager β) (e : ModelEntry) (rest : List ModelEntry) (attempt : ℕ)
    (stage : Stage β) (l : Label β) : Option (ModelManager β) :=
  match stage, l with
  | .fetching, .fetched temp =>
      if e.resolveModelUrl = none then none
      else some { s with phase := .downloading e rest attempt (.checking temp) }
  | .checking temp, .checked =>
      if sha256 temp = e.sha256 then
        some { s with phase := .downloading e rest attempt (.placing temp) }
      else some (s.attemptFailed e rest attempt)
  | .placing temp, .renamed stamp =>
      if bytesAt e.target stamp = temp then
        some { s with
          disk := s.disk.rename e.target ⟨temp, stamp⟩
          phase := .downloading e rest attempt .recording }
      else none
  | .recording, .recorded write =>
      match s.disk.models e.target with
      | none => none
      | some f =>
          let c := s.disk.checksums.load.setCache e.id ⟨⟨unknownHash, f.stamp⟩, e.sha256⟩
          let s := { s with disk := s.disk.saveChecksums c write }
          if write = .ok then some { s with phase := .downloading e rest attempt .describing }
          else some (s.attemptFailed e rest attempt)
  | .describing, .described installed write =>
      if installed then
        let s := { s with disk := s.disk.saveChecksums (s.disk.checksums.load.setFile e) write }
        if write = .ok then some (s.downloadNext rest) else some (s.attemptFailed e rest attempt)
      else some (s.attemptFailed e rest attempt)
  | .waiting, .retry => some { s with phase := .downloading e rest (attempt + 1) .fetching }
  | .waiting, _ => none
  | _, .attemptThrows => some (s.attemptFailed e rest attempt)
  | _, _ => none

def step (s : ModelManager β) : Label β → Option (ModelManager β)
  | .hashed i write =>
      match s.verifications[i]? with
      | some (e, .hashing key) =>
          match s.disk.models e.target with
          | none => none
          | some f =>
              let c := s.disk.checksums.load.setCache e.id ⟨key, sha256 f.bytes⟩
              let outcome :=
                if write = .ok then Verification.done (sha256 f.bytes = e.sha256) else .threw
              some { s with
                disk := s.disk.saveChecksums c write
                verifications := s.verifications.set i (e, outcome) }
      | _ => none
  | .hashThrows i =>
      match s.verifications[i]? with
      | some (e, .hashing _) =>
          some { s with verifications := s.verifications.set i (e, .threw) }
      | _ => none
  | .verified =>
      match s.phase with
      | .verifying =>
          -- The first exception rejects; the other checks go on by themselves.
          if s.verifications.any fun v => v.2 = .threw then some { s with phase := .rejected }
          else if s.verifications.all fun v => v.2 = .done true ∨ v.2 = .done false then
            let missing := invalid s.verifications
            some ({ s with missingModels := missing }.downloadNext missing)
          else none
      | _ => none
  | l =>
      match s.phase with
      | .downloading e rest attempt stage => s.downloadStep sha256 bytesAt e rest attempt stage l
      | _ => none

end ModelManager

end Models
end AvaListener
