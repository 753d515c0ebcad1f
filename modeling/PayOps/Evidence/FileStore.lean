import PayOps.JsonPatch
import PayOps.Process.Outage
import PayOps.Process.Follows
import PayOps.Process.Runner

/-!
# Artifacts as files

`publish_once` and `ArtifactStore` of `payops.evidence.artifacts`, and `GcsArtifactArchive.restore` of
`payops.evidence.gcs`, down to the requests of the file system.

## The model

The directory of the store maps names to files. A file has the bytes that a reader sees, those that a writer
still holds in its buffer, and whether the bytes are durable. `link` gives a file one more name, unless the
name is taken. Any request may fail; one that writes may have written a part, and a `link` or `unlink` that
fails may have been done. A process may end between any two requests; when power is lost all do, what is not
durable is lost, and names may be.

## What is proved

* `publishOnce_follows` — what a call asks of the file system, given what it asked for before.
* `Kept.step`, `Kept.outage` — what each answered request and a loss of power keep of the files.
* `artifacts_safe` — every file that these operations put under a digest is whole, has that digest, and stays
  as it is; who finds other bytes there raises.

## Honest scope

Files that others have put into the directory are there from the start, under whatever names. The directory
is the only one, and nobody else writes to it.
-/

namespace PayOps.Evidence.FileStore

open Process Program Json

/-- Bytes. -/
abbrev Bytes := List UInt8

/-- What is raised. -/
inductive Raised where
  /-- `FileExistsError`. -/
  | fileExists
  /-- Another `OSError`. -/
  | osError (message : String)
  /-- `EvidenceIntegrityError`. -/
  | integrity (message : String)
  /-- Anything else. -/
  | other (className message : String)
  deriving DecidableEq

/-- What the code takes from its platform. -/
class Hashing where
  /-- `hashlib.sha256(content).hexdigest()`. -/
  hexdigest : Bytes → String
  /-- `JSON_OBJECT.validate_json(content)`. -/
  validateJson : Bytes → Except Raised JsonObject

/-! ### Files -/

/-- A file. -/
structure File where
  /-- What a reader sees. -/
  content : Bytes
  /-- What was written to the stream, and is not in the file. -/
  buffer : Bytes
  /-- The content is durable. -/
  synced : Bool

namespace File

/-- A part of the buffer goes to the file. -/
def advance (f : File) (k : ℕ) : File :=
  ⟨f.content ++ f.buffer.take k, f.buffer.drop k, f.synced && (f.buffer.take k).isEmpty⟩

/-- Something is written to the stream. -/
def append (f : File) (bytes : Bytes) : File := { f with buffer := f.buffer ++ bytes }

@[simp] theorem advance_whole (f : File) (k : ℕ) :
    (f.advance k).content ++ (f.advance k).buffer = f.content ++ f.buffer := by
  simp [advance]

theorem advance_empty {f : File} (h : f.buffer = []) (k : ℕ) : f.advance k = f := by
  obtain ⟨content, buffer, synced⟩ := f
  obtain rfl : buffer = [] := h
  simp [advance]

@[simp] theorem append_whole (f : File) (bytes : Bytes) :
    (f.append bytes).content ++ (f.append bytes).buffer = f.content ++ f.buffer ++ bytes := by
  simp [append]

end File

/-- An open temporary file. -/
structure Handle where
  /-- `stream.name`. -/
  name : String
  /-- The file. -/
  ino : ℕ
  deriving DecidableEq

/-- The files, and their names in the directory of the store. -/
structure FileSystem where
  /-- The directory. -/
  directory : String → Option ℕ
  /-- The files. -/
  files : ℕ → File
  /-- The next new file. -/
  next : ℕ

namespace FileSystem

/-- A file is changed. -/
def change (s : FileSystem) (n : ℕ) (f : File) : FileSystem :=
  { s with files := Function.update s.files n f }

/-- A name is given. -/
def name (s : FileSystem) (name : String) (n : ℕ) : FileSystem :=
  { s with directory := Function.update s.directory name (some n) }

/-- A name is removed. -/
def forget (s : FileSystem) (name : String) : FileSystem :=
  { s with directory := Function.update s.directory name none }

/-- A new file. -/
def create (s : FileSystem) (name : String) : FileSystem :=
  ⟨Function.update s.directory name (some s.next), Function.update s.files s.next ⟨[], [], false⟩, s.next + 1⟩

/-- What is left when power is lost: durable files, under some of their names. -/
structure Lost (s s' : FileSystem) : Prop where
  /-- No name is new. -/
  directory : ∀ name n, s'.directory name = some n → s.directory name = some n
  /-- Durable files stay. -/
  files : ∀ n, (s.files n).synced = true → s'.files n = s.files n
  /-- No file is new. -/
  next : s'.next = s.next

end FileSystem

/-! ### Requests -/

/-- One request. -/
inductive FileEffect where
  /-- `path.resolve().parent == self.root`. -/
  | resolvesInside (name : String)
  /-- `NamedTemporaryFile(dir=path.parent, suffix=".pending", delete=False)`. -/
  | createPending
  /-- `stream.write(content)`. -/
  | write (handle : Handle) (content : Bytes)
  /-- `stream.flush()`. -/
  | flush (handle : Handle)
  /-- `os.fsync(stream.fileno())`. -/
  | fsync (handle : Handle)
  /-- The end of the `with` statement. -/
  | close (handle : Handle)
  /-- `os.link(source, target)`. -/
  | link (source target : String)
  /-- `path.read_bytes()`. -/
  | readBytes (name : String)
  /-- `path.open("rb")`, and `stream.read(MAX_ARTIFACT_BYTES + 1)`. -/
  | openRead (name : String)
  /-- `temporary.unlink(missing_ok=True)`. -/
  | unlink (name : String)
  /-- `blob.download_as_bytes(…)`. -/
  | download (blob : String)

/-- The reply to a request. -/
abbrev FileEffect.Reply : FileEffect → Type
  | resolvesInside _ => Bool
  | createPending => Handle
  | write _ _ => Unit
  | flush _ => Unit
  | fsync _ => Unit
  | close _ => Unit
  | link _ _ => Unit
  | readBytes _ => Bytes
  | openRead _ => Bytes
  | unlink _ => Unit
  | download _ => Bytes

/-- The interface of a process. -/
abbrev Files : Interface := ⟨FileEffect, FileEffect.Reply, Raised⟩

/-- One request. -/
def ask (e : FileEffect) : Program Files e.Reply := perform (I := Files) e

/-- A name that a temporary file may have. -/
def PendingName (name : String) : Prop := ∃ token, name = token ++ ".pending"

/-- `MAX_ARTIFACT_BYTES`. -/
def MAX_ARTIFACT_BYTES : ℕ := 1048576

/-- How the file system answers. -/
def fileSystem : Machine Files FileSystem where
  answer s e r s' :=
    match e, r with
    | .resolvesInside _, _ => s' = s
    | .createPending, .ok handle =>
      handle.ino = s.next ∧ PendingName handle.name ∧ s.directory handle.name = none ∧ s' = s.create handle.name
    | .createPending, .error _ => s' = s
    | .write handle content, .ok () =>
      ∃ k, s' = s.change handle.ino (((s.files handle.ino).append content).advance k)
    | .write handle content, .error _ =>
      ∃ j k, s' = s.change handle.ino (((s.files handle.ino).append (content.take j)).advance k)
    | .flush handle, .ok () =>
      s' = s.change handle.ino ((s.files handle.ino).advance (s.files handle.ino).buffer.length)
    | .flush handle, .error _ => ∃ k, s' = s.change handle.ino ((s.files handle.ino).advance k)
    | .fsync handle, .ok () => s' = s.change handle.ino { s.files handle.ino with synced := true }
    | .fsync _, .error _ => s' = s
    | .close handle, _ => ∃ k, s' = s.change handle.ino ((s.files handle.ino).advance k)
    | .link source target, r =>
      (∃ x, r = .error x) ∧ s' = s ∨
        s.directory target = none ∧ ∃ n, s.directory source = some n ∧ s' = s.name target n
    | .readBytes name, r =>
      (∀ bytes, r = .ok bytes → ∃ n, s.directory name = some n ∧ bytes = (s.files n).content) ∧ s' = s
    | .openRead name, r =>
      (∀ bytes, r = .ok bytes → ∃ n, s.directory name = some n ∧
        bytes = (s.files n).content.take (MAX_ARTIFACT_BYTES + 1)) ∧ s' = s
    | .unlink name, .ok () => s' = s.forget name
    | .unlink name, .error _ => s' = s ∨ s' = s.forget name
    | .download _, _ => s' = s

/-! ### Publication -/

/-- The `with` statement of `publish_once`: the content is written and made durable. -/
def writeDurably (handle : Handle) (content : Bytes) : Program Files Unit := do
  let written ← (do
    ask (.write handle content)
    ask (.flush handle)
    ask (.fsync handle) : Program Files Unit).attempt
  ask (.close handle)
  ofResult written

/-- The inner `try` statement of `publish_once`. -/
def linkOrCompare (handle : Handle) (target : String) (content : Bytes) : Program Files Unit := do
  match ← (ask (.link handle.name target)).attempt with
  | .ok () => return ()
  | .error x =>
    if x = .fileExists then
      let found ← ask (.readBytes target)
      raiseIf (found ≠ content) (.integrity "existing artifact is corrupt")
    else throw x

/-- `publish_once`. -/
def publishOnce (target : String) (content : Bytes) : Program Files Unit := do
  let handle ← ask .createPending
  writeDurably handle content
  let linked ← (linkOrCompare handle target content).attempt
  ask (.unlink handle.name)
  ofResult linked

/-! ### The operations -/

/-- The name of an artifact. -/
def artifactName (digest : String) : String := digest ++ ".json"

/-- `path_for`. -/
def pathFor (digest : String) : Program Files String := do
  raiseIf (digestOk digest = false) (.integrity "invalid artifact digest")
  let inside ← ask (.resolvesInside (artifactName digest))
  raiseIf (inside = false) (.integrity "artifact path escapes store")
  return artifactName digest

mutual

/-- Every float in the value is finite. -/
def finite : Json → Bool
  | .float repr => repr != "nan" && repr != "inf" && repr != "-inf"
  | .arr items => finiteItems items
  | .obj fields => finiteFields fields
  | _ => true

/-- Every float in the items is finite. -/
def finiteItems : List Json → Bool
  | [] => true
  | item :: items => finite item && finiteItems items

/-- Every float in the fields is finite. -/
def finiteFields : List (String × Json) → Bool
  | [] => true
  | (_, value) :: fields => finite value && finiteFields fields

end

/-- `json.dumps(payload, sort_keys=True, …, allow_nan=False).encode("utf-8")`. -/
def encode (payload : JsonObject) : Except Raised Bytes :=
  if finiteFields payload then .ok (text Style.canonicalUtf8 (.obj payload)).toUTF8.toList
  else .error (.other "ValueError" "Out of range float values are not JSON compliant")

/-- What `restore` reads of an `EvidenceItem`. -/
structure Citation where
  /-- `artifact_uri`. -/
  artifactUri : String
  /-- `artifact_sha256`. -/
  artifactSha256 : String
  /-- `model_dump(mode="json", exclude={"artifact_uri", "artifact_sha256"})`. -/
  metadata : JsonObject

section Operations

variable [Numerals] [Hashing]

/-- `ArtifactStore.write`. -/
def write (payload : JsonObject) : Program Files (String × String) := do
  let content ← ofResult (encode payload)
  raiseIf (MAX_ARTIFACT_BYTES < content.length) (.integrity "artifact exceeds byte budget")
  let path ← pathFor (Hashing.hexdigest content)
  publishOnce path content
  return ("sha256://" ++ Hashing.hexdigest content, Hashing.hexdigest content)

/-- `payload.get("evidence") != expected`, of validated content. -/
def validateEnvelope (content : Bytes) (evidence : Citation) : Except Raised Unit := do
  let payload ← Hashing.validateJson content
  match field payload "evidence" with
  | some found =>
    if pythonEqual found (.obj evidence.metadata) then .ok ()
    else .error (.integrity "artifact metadata mismatch")
  | none => .error (.integrity "artifact metadata mismatch")

/-- `validate_content`. -/
def validateContent (content : Bytes) (evidence : Citation) : Except Raised Unit :=
  if MAX_ARTIFACT_BYTES < content.length then .error (.integrity "artifact exceeds byte budget")
  else if Hashing.hexdigest content ≠ evidence.artifactSha256 then
    .error (.integrity "artifact digest mismatch")
  else validateEnvelope content evidence

/-- `GcsArtifactArchive._blob`: the name of the blob. -/
def blobName (blobPrefix : String) (evidence : Citation) : Except Raised String :=
  if digestOk evidence.artifactSha256 = false then .error (.integrity "invalid artifact digest")
  else if evidence.artifactUri ≠ "sha256://" ++ evidence.artifactSha256 then
    .error (.integrity "artifact URI and digest disagree")
  else .ok (blobPrefix ++ "/" ++ evidence.artifactSha256 ++ ".json")

/-- `GcsArtifactArchive._read`. -/
def readBlob (blob : String) (evidence : Citation) : Program Files Bytes := do
  let content ← ask (.download blob)
  ofResult (validateContent content evidence)
  return content

/-- `ArtifactStore.verify`. -/
def verify (evidence : Citation) : Program Files Unit := do
  raiseIf (evidence.artifactUri ≠ "sha256://" ++ evidence.artifactSha256)
    (.integrity "artifact URI and digest disagree")
  let opened ← (do
    let path ← pathFor evidence.artifactSha256
    ask (.openRead path) : Program Files Bytes).attempt
  match opened with
  | .ok content =>
    raiseIf (MAX_ARTIFACT_BYTES < content.length ∨ Hashing.hexdigest content ≠ evidence.artifactSha256)
      (.integrity "artifact digest mismatch")
    ofResult (validateEnvelope content evidence)
  | .error x =>
    match x with
    | .osError _ => throw (.integrity "artifact unavailable")
    | .fileExists => throw (.integrity "artifact unavailable")
    | x => throw x

/-- `GcsArtifactArchive.restore`. -/
def restore (blobPrefix : String) (evidence : Citation) : Program Files Unit := do
  let blob ← ofResult (blobName blobPrefix evidence)
  let content ← readBlob blob evidence
  let path ← pathFor evidence.artifactSha256
  publishOnce path content
  verify evidence

/-- The operations on a store; that of `write` ends with its result. -/
inductive Operation : Program Files (Option (String × String)) → Prop
  /-- `write`. -/
  | write (payload : JsonObject) : Operation ((write payload).bind fun result => done (some result))
  /-- `restore`. -/
  | restore (blobPrefix : String) (evidence : Citation) :
      Operation ((restore blobPrefix evidence).bind fun _ => done none)

end Operations

/-! ### What a call asks for -/

/-- Requests that leave the files as they are and read none of them. -/
def quiet : FileEffect → Bool
  | .resolvesInside _ => true
  | .download _ => true
  | _ => false

/-- A history of such requests. -/
def Quiet (h : History Files) : Prop := ∀ ev ∈ h, quiet ev.effect = true

/-- The call has made a temporary file. -/
def Created (h : History Files) (handle : Handle) : Prop := ⟨.createPending, .ok handle⟩ ∈ h

/-- The call has written the content. -/
def Wrote (h : History Files) (handle : Handle) (content : Bytes) : Prop :=
  ⟨.write handle content, .ok ()⟩ ∈ h

/-- The call has made what it had written durable. -/
def Durable (h : History Files) (handle : Handle) : Prop :=
  ⟨.flush handle, .ok ()⟩ ∈ h ∧ ⟨.fsync handle, .ok ()⟩ ∈ h

/-- The call has asked for a link. -/
def Linked (h : History Files) : Prop := ∃ source target r, ⟨.link source target, r⟩ ∈ h

/-- The call has asked for the removal of its temporary name. -/
def Unlinked (h : History Files) : Prop := ∃ name r, ⟨.unlink name, r⟩ ∈ h

/-- What was found under the name is what was to be put there. -/
def Agrees (h : History Files) : Prop :=
  ∀ handle content name bytes, Wrote h handle content → ⟨.readBytes name, .ok bytes⟩ ∈ h → bytes = content

section Follows

variable [Hashing]

/-- What a call may ask for after the events `h`. -/
def Allowed (h : History Files) (ev : Event Files) : Prop :=
  match ev.effect with
  | .createPending => ∀ r, ⟨.createPending, r⟩ ∉ h
  | .write handle _ => Created h handle ∧ (∀ content r, ⟨.write handle content, r⟩ ∉ h) ∧ ¬Linked h
  | .flush handle => Created h handle ∧ (∃ content, Wrote h handle content) ∧ ¬Linked h
  | .fsync handle => Created h handle ∧ ⟨.flush handle, .ok ()⟩ ∈ h ∧ ¬Linked h
  | .close handle => Created h handle ∧ ¬Linked h
  | .link source target => ∃ handle content, Created h handle ∧ Wrote h handle content ∧ Durable h handle ∧
      ¬Linked h ∧ ¬Unlinked h ∧ source = handle.name ∧ digestOk (Hashing.hexdigest content) = true ∧
      target = artifactName (Hashing.hexdigest content)
  | .unlink name => ∃ handle, Created h handle ∧ name = handle.name ∧ ¬Unlinked h
  | _ => True

variable {h : History Files} {handle : Handle} {content : Bytes}

omit [Hashing] in
theorem Quiet.not_mem (hq : Quiet h) {e : FileEffect} {r : Except Raised e.Reply} (he : quiet e = false) :
    (⟨e, r⟩ : Event Files) ∉ h := by
  intro hmem
  have := hq _ hmem
  rw [he] at this
  cases this

/-- The events that make a temporary file durable. -/
def durably (handle : Handle) (content : Bytes) : History Files :=
  [⟨.createPending, .ok handle⟩, ⟨.write handle content, .ok ()⟩, ⟨.flush handle, .ok ()⟩,
    ⟨.fsync handle, .ok ()⟩, ⟨.close handle, .ok ()⟩]

/-- **A temporary file is written and made durable**, after quiet requests. -/
theorem writeDurably_follows (hq : Quiet h) :
    Follows Allowed (writeDurably handle content) (h ++ [⟨.createPending, .ok handle⟩]) fun r h' =>
      r = .ok () → h' = h ++ durably handle content := by
  have hlink : ∀ source target r, (⟨.link source target, r⟩ : Event Files) ∉ h := fun _ _ _ => hq.not_mem rfl
  have hwrite : ∀ content r, (⟨.write handle content, r⟩ : Event Files) ∉ h := fun _ _ => hq.not_mem rfl
  have hclose : ∀ (g : History Files) (out : Except Raised Unit), (∀ ev ∈ g, ∀ s t, ev.effect ≠ .link s t) →
      (out = .ok () → h ++ [⟨.createPending, .ok handle⟩] ++ g ++ [⟨.close handle, .ok ()⟩] =
        h ++ durably handle content) →
      Follows Allowed ((ask (.close handle)).bind fun _ => ofResult out)
        (h ++ [⟨.createPending, .ok handle⟩] ++ g) fun r h' =>
          r = .ok () → h' = h ++ durably handle content := by
    intro g out hg hout
    have hgl : ∀ source target r, (⟨.link source target, r⟩ : Event Files) ∉ g :=
      fun source target r hmem => hg _ hmem source target rfl
    refine follows_perform_bind.mpr fun r => ⟨⟨by simp [Created], ?_⟩, ?_, ?_⟩
    · simp [Linked, hlink, hgl]
    · intro x _ hr
      cases hr
    · rintro u rfl
      exact follows_ofResult.mpr hout
  refine follows_bind.mpr (follows_attempt.mpr ?_)
  refine follows_perform_bind.mpr fun r => ⟨?_, fun x hx => ?_, fun u hr => ?_⟩
  · exact ⟨by simp [Created], by simp [hwrite], by simp [Linked, hlink]⟩
  · exact hclose [⟨.write handle content, r⟩] _ (by simp) (by simp)
  subst hr
  refine follows_perform_bind.mpr fun r => ⟨?_, fun x hx => ?_, fun u hr => ?_⟩
  · exact ⟨by simp [Created], ⟨content, by simp [Wrote]⟩, by simp [Linked, hlink]⟩
  · rw [List.append_assoc]
    exact hclose [⟨.write handle content, .ok ()⟩, ⟨.flush handle, r⟩] _ (by simp) (by simp)
  subst hr
  refine follows_perform.mpr fun r => ⟨?_, ?_⟩
  · exact ⟨by simp [Created], by simp, by simp [Linked, hlink]⟩
  · rw [List.append_assoc, List.append_assoc]
    refine hclose [⟨.write handle content, .ok ()⟩, ⟨.flush handle, .ok ()⟩, ⟨.fsync handle, r⟩] _ (by simp) ?_
    rintro rfl
    simp [durably]

omit [Hashing] in
/-- Nothing but the content of the temporary file was written. -/
theorem agrees_append (hq : Quiet h) {g : History Files}
    (hwrite : ∀ handle content r, (⟨.write handle content, r⟩ : Event Files) ∉ g)
    (hread : ∀ name bytes, ⟨.readBytes name, .ok bytes⟩ ∈ g → bytes = content) :
    Agrees (h ++ durably handle content ++ g) := by
  intro handle' content' name bytes hwrote hmem
  have hq' : ∀ {e : FileEffect} {r : Except Raised e.Reply}, quiet e = false → (⟨e, r⟩ : Event Files) ∉ h :=
    hq.not_mem
  have hcontent : content' = content := by
    simp only [Wrote, List.mem_append, hq' (e := .write handle' content') rfl, hwrite, false_or,
      or_false] at hwrote
    simpa [durably] using And.right (by simpa [durably] using hwrote : handle' = handle ∧ content' = content)
  have hfound : ⟨.readBytes name, .ok bytes⟩ ∈ g := by
    simp only [List.mem_append, hq' (e := .readBytes name) rfl, false_or] at hmem
    rcases hmem with hmem | hmem
    · simp [durably] at hmem
    · exact hmem
  rw [hcontent]
  exact hread name bytes hfound

theorem linkOrCompare_follows (hq : Quiet h) (hdigest : digestOk (Hashing.hexdigest content) = true) :
    Follows Allowed (linkOrCompare handle (artifactName (Hashing.hexdigest content)) content)
      (h ++ durably handle content) fun r h' =>
        (r = .ok () → ∀ g : History Files, (∀ ev ∈ g, ev.effect = .unlink handle.name) → Agrees (h' ++ g)) ∧
          ¬Unlinked h' ∧ Created h' handle := by
  have hraise : ∀ {x : Raised} {P : Prop}, (Except.error x : Except Raised Unit) = .ok () → P := by
    intro x P h
    cases h
  have hlink : ∀ source target r, (⟨.link source target, r⟩ : Event Files) ∉ h := fun _ _ _ => hq.not_mem rfl
  have hunlink : ∀ name r, (⟨.unlink name, r⟩ : Event Files) ∉ h := fun _ _ => hq.not_mem rfl
  have hcreated : ∀ g, Created (h ++ durably handle content ++ g) handle := by
    intro g
    simp [Created, durably]
  have hwrite : ∀ g : History Files, (∀ ev ∈ g, ev.effect = .unlink handle.name) →
      ∀ handle content r, (⟨.write handle content, r⟩ : Event Files) ∉ g := by
    intro g hg handle content r hmem
    cases hg _ hmem
  have hread : ∀ g : History Files, (∀ ev ∈ g, ev.effect = .unlink handle.name) →
      ∀ name r, (⟨.readBytes name, r⟩ : Event Files) ∉ g := by
    intro g hg name r hmem
    cases hg _ hmem
  refine follows_bind.mpr (follows_attempt.mpr (follows_perform.mpr fun r => ⟨?_, ?_⟩))
  · refine ⟨handle, content, by simpa using hcreated [], ?_, ?_, ?_, ?_, rfl, hdigest, rfl⟩
    · simp [Wrote, durably]
    · simp [Durable, durably]
    · simp [Linked, durably, hlink]
    · simp [Unlinked, durably, hunlink]
  cases r with
  | ok u =>
    refine ⟨fun _ g hg => ?_, by simp [Unlinked, durably, hunlink], hcreated _⟩
    rw [List.append_assoc]
    exact agrees_append hq (by simp [hwrite g hg]) (by simp [hread g hg])
  | error x =>
    by_cases hx : x = .fileExists
    · simp only [hx, if_true]
      refine follows_perform_bind.mpr fun r => ⟨trivial, fun y hy => ⟨hraise, ?_, ?_⟩, fun found hr => ?_⟩
      · simp [Unlinked, durably, hunlink]
      · rw [List.append_assoc]
        exact hcreated _
      subst hr
      by_cases hfound : found = content
      · simp only [hfound, raiseIf, ne_eq, not_true_eq_false, if_false]
        refine ⟨fun _ g hg => ?_, by simp [Unlinked, durably, hunlink], ?_⟩
        · rw [List.append_assoc, List.append_assoc]
          exact agrees_append hq (by simp [hwrite g hg]) (by simp [hread g hg])
        · rw [List.append_assoc]
          exact hcreated _
      · simp only [hfound, raiseIf, ne_eq, not_false_eq_true, if_true]
        refine ⟨hraise, by simp [Unlinked, durably, hunlink], ?_⟩
        rw [List.append_assoc]
        exact hcreated _
    · simp only [hx, if_false]
      exact ⟨hraise, by simp [Unlinked, durably, hunlink], hcreated _⟩

/-- **What `publish_once` asks for**, after quiet requests; if it returns, nothing else was found. -/
theorem publishOnce_follows (hq : Quiet h) (hdigest : digestOk (Hashing.hexdigest content) = true) :
    Follows Allowed (publishOnce (artifactName (Hashing.hexdigest content)) content) h fun r h' =>
      r = .ok () → Agrees h' := by
  refine follows_perform_bind.mpr fun r => ⟨fun r' => hq.not_mem rfl, fun x _ => nofun, fun handle hr => ?_⟩
  subst hr
  refine follows_bind.mpr ((writeDurably_follows hq).mono fun r h₁ hr => ?_)
  cases r with
  | error x => exact nofun
  | ok u =>
    rw [hr rfl]
    refine follows_bind.mpr (follows_attempt.mpr ((linkOrCompare_follows hq hdigest).mono fun linked h₂ hl => ?_))
    obtain ⟨hagrees, hunlinked, hcreated⟩ := hl
    refine follows_perform_bind.mpr fun r => ⟨⟨handle, hcreated, rfl, hunlinked⟩, fun x _ => nofun, fun u hr => ?_⟩
    subst hr
    exact follows_ofResult.mpr fun hok => hagrees hok _ (by simp)

/-- `path_for` is quiet, and gives the name of a digest. -/
theorem pathFor_follows {digest : String} (hq : Quiet h) :
    Follows Allowed (pathFor digest) h fun r h' =>
      Quiet h' ∧ ∀ path, r = .ok path → path = artifactName digest ∧ digestOk digest = true := by
  refine follows_raiseIf_bind.mpr ⟨fun _ => ⟨hq, nofun⟩, fun hok => ?_⟩
  have hquiet : ∀ r, Quiet (h ++ [⟨.resolvesInside (artifactName digest), r⟩]) := by
    intro r ev hev
    rcases List.mem_append.mp hev with hev | hev
    · exact hq ev hev
    · rw [List.mem_singleton.mp hev]
      rfl
  refine follows_perform_bind.mpr fun r => ⟨trivial, fun x _ => ⟨hquiet r, nofun⟩, fun inside hr => ?_⟩
  refine follows_raiseIf_bind.mpr ⟨fun _ => ⟨hquiet r, nofun⟩, fun _ => ⟨hquiet r, ?_⟩⟩
  rintro path ⟨⟩
  exact ⟨rfl, by simpa using hok⟩

variable [Numerals]

omit [Numerals] in
/-- **What `write` asks for**; if it returns, nothing else was found. -/
theorem write_follows {payload : JsonObject} :
    Follows Allowed (write payload) [] fun r h => (∃ result, r = .ok result) → Agrees h := by
  refine follows_ofResult_bind.mpr ⟨fun x _ => nofun, fun content _ => ?_⟩
  refine follows_raiseIf_bind.mpr ⟨fun _ => nofun, fun _ => ?_⟩
  refine follows_bind.mpr ((pathFor_follows (h := []) nofun).mono ?_)
  rintro r h ⟨hq, hpath⟩
  cases r with
  | error x => exact nofun
  | ok path =>
    obtain ⟨rfl, hdigest⟩ := hpath path rfl
    refine follows_bind.mpr ((publishOnce_follows hq hdigest).mono fun r h' hagrees => ?_)
    cases r with
    | error x => exact nofun
    | ok u => exact fun _ => hagrees rfl

theorem validateContent_ok {evidence : Citation} (hv : validateContent content evidence = .ok ()) :
    Hashing.hexdigest content = evidence.artifactSha256 := by
  unfold validateContent at hv
  split_ifs at hv with h₁ h₂
  exact not_not.mp h₂

omit [Numerals] [Hashing] in
/-- What is asked for later neither writes nor reads what is compared. -/
theorem Agrees.append (ha : Agrees h) {g : History Files}
    (hg : ∀ ev ∈ g, quiet ev.effect = true ∨ ∃ name, ev.effect = .openRead name) : Agrees (h ++ g) := by
  intro handle content name bytes hwrote hread
  refine ha handle content name bytes ?_ ?_
  · rcases List.mem_append.mp hwrote with hmem | hmem
    · exact hmem
    · rcases hg _ hmem with hquiet | ⟨name, heq⟩
      · cases hquiet
      · cases heq
  · rcases List.mem_append.mp hread with hmem | hmem
    · exact hmem
    · rcases hg _ hmem with hquiet | ⟨name, heq⟩
      · cases hquiet
      · cases heq

theorem verify_within {evidence : Citation} :
    Within (fun e : FileEffect => quiet e = true ∨ ∃ name, e = .openRead name) (verify evidence) := by
  refine within_raiseIf_bind fun _ => (within_attempt.mpr ?_).bind fun opened => ?_
  · refine Within.bind ?_ fun path => within_perform.mpr (.inr ⟨path, rfl⟩)
    refine within_raiseIf_bind fun _ => (within_perform.mpr (.inl rfl)).bind fun inside => ?_
    exact within_raiseIf_bind fun _ => trivial
  · cases opened with
    | ok content => exact within_raiseIf_bind fun _ => within_ofResult _
    | error x => cases x <;> trivial

/-- **What `restore` asks for**; if it returns, nothing else was found. -/
theorem restore_follows {blobPrefix : String} {evidence : Citation} :
    Follows Allowed (restore blobPrefix evidence) [] fun r h => r = .ok () → Agrees h := by
  refine follows_ofResult_bind.mpr ⟨fun x _ => nofun, fun blob _ => ?_⟩
  have hread : Follows Allowed (readBlob blob evidence) [] fun r h =>
      Quiet h ∧ ∀ content, r = .ok content → Hashing.hexdigest content = evidence.artifactSha256 := by
    have hquiet : ∀ r, Quiet [⟨.download blob, r⟩] := by
      intro r ev hev
      rw [List.mem_singleton.mp hev]
      rfl
    refine follows_perform_bind.mpr fun r => ⟨trivial, fun x _ => ⟨hquiet r, nofun⟩, fun content hr => ?_⟩
    refine follows_ofResult_bind.mpr ⟨fun x _ => ⟨hquiet r, nofun⟩, fun u hv => ⟨hquiet r, ?_⟩⟩
    rintro _ ⟨⟩
    exact validateContent_ok hv
  refine follows_bind.mpr (hread.mono ?_)
  rintro r h ⟨hq, hcontent⟩
  cases r with
  | error x => exact nofun
  | ok content =>
    refine follows_bind.mpr ((pathFor_follows hq).mono ?_)
    rintro r h ⟨hq, hpath⟩
    cases r with
    | error x => exact nofun
    | ok path =>
      obtain ⟨rfl, hdigest⟩ := hpath path rfl
      rw [← hcontent content rfl] at hdigest ⊢
      refine follows_bind.mpr ((publishOnce_follows hq hdigest).mono fun r h' hagrees => ?_)
      cases r with
      | error x => exact nofun
      | ok u =>
        refine (Follows.within (R := Agrees) verify_within (hagrees rfl) ?_).mono fun r h ha _ => ha
        rintro h ⟨e, r⟩ ha he
        refine ⟨?_, ha.append fun ev hev => by rw [List.mem_singleton.mp hev]; exact he⟩
        rcases he with he | ⟨name, rfl⟩
        · cases e <;> trivial
        · trivial

/-- What every call asks for. -/
theorem Operation.allowed {p q : Program Files (Option (String × String))} {ev : Event Files}
    (hp : Operation p) (hpath : Path p (h ++ [ev]) q) : Allowed h ev := by
  cases hp with
  | write payload =>
    have hfollows : Follows Allowed
        ((FileStore.write payload).bind fun result => done (some result)) [] fun _ _ => True := by
      refine follows_bind.mpr (write_follows.mono fun r h _ => ?_)
      cases r <;> trivial
    exact hfollows.event hpath
  | restore blobPrefix evidence =>
    have hfollows : Follows Allowed ((FileStore.restore blobPrefix evidence).bind fun _ =>
        (done none : Program Files (Option (String × String)))) [] fun _ _ => True := by
      refine follows_bind.mpr (restore_follows.mono fun r h _ => ?_)
      cases r <;> trivial
    exact hfollows.event hpath

/-- **An operation that returns has found nothing else** under the name. -/
theorem Operation.agrees {p : Program Files (Option (String × String))} {out : Option (String × String)}
    (hp : Operation p) (hruns : Runs p h (.ok out)) : Agrees h := by
  cases hp with
  | write payload =>
    obtain ⟨result, h₁, h₂, rfl, hwrite, hdone⟩ := runs_bind_ok.mp hruns
    obtain ⟨rfl, -⟩ := runs_done.mp hdone
    rw [List.append_nil]
    exact write_follows.runs hwrite ⟨result, rfl⟩
  | restore blobPrefix evidence =>
    obtain ⟨u, h₁, h₂, rfl, hrestore, hdone⟩ := runs_bind_ok.mp hruns
    obtain ⟨rfl, -⟩ := runs_done.mp hdone
    rw [List.append_nil]
    exact restore_follows.runs hrestore rfl

/-- A call uses a temporary file only after it has made it. -/
structure Ordered (h : History Files) : Prop where
  /-- It writes to a file it has made, -/
  write : ∀ handle content r, ⟨.write handle content, r⟩ ∈ h → Created h handle
  /-- flushes what it has written, -/
  flush : ∀ handle r, ⟨.flush handle, r⟩ ∈ h → ∃ content, Wrote h handle content
  /-- and syncs what it has flushed. -/
  fsync : ∀ handle r, ⟨.fsync handle, r⟩ ∈ h → ⟨.flush handle, .ok ()⟩ ∈ h
  /-- It links a file it has made, -/
  link : Linked h → ∃ handle, Created h handle
  /-- and removes the name of one. -/
  unlink : Unlinked h → ∃ handle, Created h handle

theorem Operation.ordered {p q : Program Files (Option (String × String))} (hp : Operation p)
    (hpath : Path p h q) : Ordered h := by
  induction h using List.reverseRecOn generalizing q with
  | nil =>
    refine ⟨fun _ _ _ h => ?_, fun _ _ h => ?_, fun _ _ h => ?_, fun h => ?_, fun h => ?_⟩
    · cases h
    · cases h
    · cases h
    · obtain ⟨_, _, _, h⟩ := h
      cases h
    · obtain ⟨_, _, h⟩ := h
      cases h
  | append_singleton h ev ih =>
    obtain ⟨q', hinit⟩ := hpath.initial
    have ho := ih hinit
    have hallowed := hp.allowed hpath
    have later : ∀ {ev' : Event Files}, ev' ∈ h → ev' ∈ h ++ [ev] := fun hmem => List.mem_append_left _ hmem
    refine ⟨fun handle content r hmem => ?_, fun handle r hmem => ?_, fun handle r hmem => ?_,
      fun ⟨source, target, r, hmem⟩ => ?_, fun ⟨name, r, hmem⟩ => ?_⟩ <;>
      rcases List.mem_append.mp hmem with hmem | hmem
    · exact later (ho.write handle content r hmem)
    · cases List.mem_singleton.mp hmem
      exact later hallowed.1
    · exact (ho.flush handle r hmem).imp fun _ => later
    · cases List.mem_singleton.mp hmem
      exact hallowed.2.1.imp fun _ => later
    · exact later (ho.fsync handle r hmem)
    · cases List.mem_singleton.mp hmem
      exact later hallowed.2.1
    · exact (ho.link ⟨source, target, r, hmem⟩).imp fun _ => later
    · cases List.mem_singleton.mp hmem
      obtain ⟨handle, content, hcreated, -⟩ := hallowed
      exact ⟨handle, later hcreated⟩
    · exact (ho.unlink ⟨name, r, hmem⟩).imp fun _ => later
    · cases List.mem_singleton.mp hmem
      obtain ⟨handle, hcreated, -⟩ := hallowed
      exact ⟨handle, later hcreated⟩

end Follows

/-! ### Names -/

/-- A temporary name is none of an artifact. -/
theorem pendingName_ne {name : String} (hname : PendingName name) (digest : String) :
    name ≠ artifactName digest := by
  obtain ⟨token, rfl⟩ := hname
  intro h
  have hlast := congrArg (fun s : String => s.toList.getLast?) h
  simp [artifactName, List.getLast?_append] at hlast

theorem artifactName_injective {d d' : String} (h : artifactName d = artifactName d') : d = d' := by
  have hlist := congrArg String.toList h
  simp only [artifactName, String.toList_append, List.append_cancel_right_eq] at hlist
  exact String.toList_inj.mp hlist

/-! ### The files and the trace -/

/-- The temporary file of a call that is still running. -/
structure Stage (s : FileSystem) (h : History Files) (handle : Handle) : Prop where
  /-- It is empty before it is written. -/
  unwritten : (∀ content r, ⟨.write handle content, r⟩ ∉ h) →
    (s.files handle.ino).content ++ (s.files handle.ino).buffer = []
  /-- What was written is in it or in its buffer, -/
  written : ∀ content, Wrote h handle content →
    (s.files handle.ino).content ++ (s.files handle.ino).buffer = content
  /-- which is empty once it was flushed. -/
  flushed : ⟨.flush handle, .ok ()⟩ ∈ h → (s.files handle.ino).buffer = []
  /-- It is durable once it was synced. -/
  synced : ⟨.fsync handle, .ok ()⟩ ∈ h → (s.files handle.ino).synced = true
  /-- It has its temporary name until that is removed, -/
  named : ¬Unlinked h → s.directory handle.name = some handle.ino
  /-- and no other before it is linked. -/
  hidden : ¬Linked h → ∀ digest, s.directory (artifactName digest) ≠ some handle.ino

section Kept

variable [Hashing]

/-- What the files and the trace have to do with each other; the files below `base` were there before. -/
structure Kept (base : ℕ) (s : FileSystem) (tr : Trace Files) (live : ℕ → Prop) : Prop where
  /-- Names stand for files that are there. -/
  known : ∀ name n, s.directory name = some n → n < s.next
  /-- Temporary files are new ones, under temporary names. -/
  fresh : ∀ i handle, Created (tr.own i) handle →
    base ≤ handle.ino ∧ handle.ino < s.next ∧ PendingName handle.name
  /-- Each belongs to one call, -/
  sole : ∀ i j handle handle', Created (tr.own i) handle → Created (tr.own j) handle' →
    handle.ino = handle'.ino → i = j
  /-- which has no other. -/
  one : ∀ i handle handle', Created (tr.own i) handle → Created (tr.own i) handle' → handle = handle'
  /-- The calls that are still running know what is in their files. -/
  stage : ∀ i handle, live i → Created (tr.own i) handle → Stage s (tr.own i) handle
  /-- **A file that was linked is whole and durable.** -/
  linked : ∀ i handle content, Created (tr.own i) handle → Wrote (tr.own i) handle content →
    Linked (tr.own i) → s.files handle.ino = ⟨content, [], true⟩
  /-- **What a digest names was linked**, unless it was there before. -/
  published : ∀ digest n, s.directory (artifactName digest) = some n → base ≤ n →
    ∃ i handle content, Created (tr.own i) handle ∧ Wrote (tr.own i) handle content ∧ Linked (tr.own i) ∧
      handle.ino = n ∧ Hashing.hexdigest content = digest
  /-- No file has gone. -/
  base : base ≤ s.next

variable {base : ℕ} {s s' : FileSystem} {tr : Trace Files} {live : ℕ → Prop} {i : ℕ} {ev : Event Files}
  {h : History Files} {handle : Handle}

theorem kept_init {s₀ : FileSystem} (hknown : ∀ name n, s₀.directory name = some n → n < s₀.next) :
    Kept s₀.next s₀ [] fun _ => False where
  known := hknown
  fresh i handle h := by cases h
  sole i j handle handle' h := by cases h
  one i handle handle' h := by cases h
  stage i handle h := h.elim
  linked i handle content h := by cases h
  published digest n hn hbase := absurd (hknown _ _ hn) (not_lt.mpr hbase)
  base := le_rfl

theorem Kept.mono (hk : Kept base s tr live) {live' : ℕ → Prop}
    (hlive : ∀ i, live' i → live i ∨ tr.own i = []) : Kept base s tr live' := by
  refine { hk with stage := fun i handle hi hcreated => ?_ }
  rcases hlive i hi with hi | hnil
  · exact hk.stage i handle hi hcreated
  · rw [hnil] at hcreated
    cases hcreated

/-- **A loss of power** leaves what was linked. -/
theorem Kept.outage (hk : Kept base s tr live) (hlost : s.Lost s') : Kept base s' tr fun _ => False where
  known name n hn := by
    rw [hlost.next]
    exact hk.known name n (hlost.directory name n hn)
  fresh i handle hcreated := by
    rw [hlost.next]
    exact hk.fresh i handle hcreated
  sole := hk.sole
  one := hk.one
  stage i handle h := h.elim
  linked i handle content hcreated hwrote hlinked := by
    have hfile := hk.linked i handle content hcreated hwrote hlinked
    rw [hlost.files _ (by rw [hfile]), hfile]
  published digest n hn := hk.published digest n (hlost.directory _ n hn)
  base := by
    rw [hlost.next]
    exact hk.base

/-! ### Requests that change no name -/

/-- An event that neither makes a temporary file nor asks for a change of names. -/
structure Inner (ev : Event Files) : Prop where
  /-- It makes no file. -/
  create : ∀ handle, ev ≠ ⟨.createPending, .ok handle⟩
  /-- It asks for no link. -/
  link : ∀ source target r, ev ≠ ⟨.link source target, r⟩
  /-- It removes no name. -/
  unlink : ∀ name r, ev ≠ ⟨.unlink name, r⟩

omit [Hashing] in
theorem Inner.created (hev : Inner ev) : Created (h ++ [ev]) handle ↔ Created h handle := by
  simp [Created, (hev.create handle).symm]

omit [Hashing] in
theorem Inner.linked (hev : Inner ev) : Linked (h ++ [ev]) ↔ Linked h := by
  simp [Linked, fun source target r => (hev.link source target r).symm]

omit [Hashing] in
theorem Inner.unlinked (hev : Inner ev) : Unlinked (h ++ [ev]) ↔ Unlinked h := by
  simp [Unlinked, fun name r => (hev.unlink name r).symm]

/-- An event of another call. -/
theorem Kept.stage_other (hk : Kept base s tr live) {j : ℕ} (hij : i ≠ j) (hj : live j)
    (hcreated : Created (Trace.own (tr ++ [(i, ev)]) j) handle) :
    Created (tr.own j) handle ∧ Stage s (Trace.own (tr ++ [(i, ev)]) j) handle := by
  rw [own_append_other tr hij] at hcreated ⊢
  exact ⟨hcreated, hk.stage j handle hj hcreated⟩

omit [Hashing] in
/-- The stages depend on the file and on its names. -/
theorem Stage.congr (hst : Stage s h handle) (hfile : s'.files handle.ino = s.files handle.ino)
    (hdirectory : s'.directory = s.directory) : Stage s' h handle where
  unwritten hw := by rw [hfile]; exact hst.unwritten hw
  written content hw := by rw [hfile]; exact hst.written content hw
  flushed hf := by rw [hfile]; exact hst.flushed hf
  synced hs := by rw [hfile]; exact hst.synced hs
  named hu := by rw [hdirectory]; exact hst.named hu
  hidden hl := by rw [hdirectory]; exact hst.hidden hl

/-- **A request that changes at most the file of its call**, which is not linked. -/
theorem Kept.inner (hk : Kept base s tr live) (hev : Inner ev)
    (hdirectory : s'.directory = s.directory) (hnext : s'.next = s.next)
    (hfiles : ∀ n, (∀ handle, Created (tr.own i) handle → handle.ino = n → Linked (tr.own i)) →
      s'.files n = s.files n)
    (hwrote : ∀ handle content, Linked (tr.own i) → Wrote (tr.own i ++ [ev]) handle content →
      Wrote (tr.own i) handle content)
    (hstage : ∀ handle, Created (tr.own i) handle → Stage s' (tr.own i ++ [ev]) handle) :
    Kept base s' (tr ++ [(i, ev)]) live := by
  have hown : ∀ j handle, Created (Trace.own (tr ++ [(i, ev)]) j) handle ↔ Created (tr.own j) handle := by
    intro j handle
    by_cases hij : i = j
    · subst hij
      rw [own_append_self]
      exact hev.created
    · rw [own_append_other tr hij]
  have hlink : ∀ j, Linked (Trace.own (tr ++ [(i, ev)]) j) ↔ Linked (tr.own j) := by
    intro j
    by_cases hij : i = j
    · subst hij
      rw [own_append_self]
      exact hev.linked
    · rw [own_append_other tr hij]
  have hwrite : ∀ j handle content, Wrote (tr.own j) handle content →
      Wrote (Trace.own (tr ++ [(i, ev)]) j) handle content := by
    intro j handle content hw
    rw [own_append]
    exact List.mem_append_left _ hw
  -- the file of another call, and one that is linked, stay as they are
  have hsame : ∀ j handle, Created (tr.own j) handle → (j = i → Linked (tr.own j)) →
      s'.files handle.ino = s.files handle.ino := by
    refine fun j handle hcreated hj => hfiles _ fun handle' hcreated' hino => ?_
    obtain rfl := hk.sole i j handle' handle hcreated' hcreated hino
    exact hj rfl
  refine ⟨?_, ?_, ?_, ?_, ?_, ?_, ?_, hnext ▸ hk.base⟩
  · rw [hdirectory, hnext]
    exact hk.known
  · intro j handle hcreated
    rw [hnext]
    exact hk.fresh j handle ((hown j handle).mp hcreated)
  · intro j k handle handle' hj hk'
    exact hk.sole j k handle handle' ((hown j handle).mp hj) ((hown k handle').mp hk')
  · intro j handle handle' hj hj'
    exact hk.one j handle handle' ((hown j handle).mp hj) ((hown j handle').mp hj')
  · intro j handle hj hcreated
    by_cases hij : i = j
    · subst hij
      rw [own_append_self]
      exact hstage handle ((hown i handle).mp hcreated)
    · obtain ⟨hcreated, hst⟩ := hk.stage_other hij hj hcreated
      exact hst.congr (hsame j handle hcreated fun h => absurd h.symm hij) hdirectory
  · intro j handle content hcreated hwrote' hlinked
    have hcreated' := (hown j handle).mp hcreated
    have hlinked' := (hlink j).mp hlinked
    rw [hsame j handle hcreated' fun _ => hlinked']
    refine hk.linked j handle content hcreated' ?_ hlinked'
    by_cases hij : i = j
    · subst hij
      rw [own_append_self] at hwrote'
      exact hwrote handle content hlinked' hwrote'
    · rwa [own_append_other tr hij] at hwrote'
  · intro digest n hn hbase
    rw [hdirectory] at hn
    obtain ⟨j, handle, content, hcreated, hwrote', hlinked, hino, hdigest⟩ := hk.published digest n hn hbase
    exact ⟨j, handle, content, (hown j handle).mpr hcreated, hwrite j handle content hwrote',
      (hlink j).mpr hlinked, hino, hdigest⟩

omit [Hashing] in
/-- A temporary file after a request that changes no name. -/
theorem Stage.change (hst : Stage s h handle) (hev : Inner ev) {f : File}
    (hunwritten : (∀ content r, ⟨.write handle content, r⟩ ∉ h ++ [ev]) → f.content ++ f.buffer = [])
    (hwritten : ∀ content, Wrote (h ++ [ev]) handle content → f.content ++ f.buffer = content)
    (hflushed : ⟨.flush handle, .ok ()⟩ ∈ h ++ [ev] → f.buffer = [])
    (hsynced : ⟨.fsync handle, .ok ()⟩ ∈ h ++ [ev] → f.synced = true) :
    Stage (s.change handle.ino f) (h ++ [ev]) handle := by
  have hfile : (s.change handle.ino f).files handle.ino = f := Function.update_self ..
  refine ⟨?_, ?_, ?_, ?_, fun hu => hst.named fun h => hu (hev.unlinked.mpr h),
    fun hl => hst.hidden fun h => hl (hev.linked.mpr h)⟩ <;> rw [hfile]
  · exact hunwritten
  · exact hwritten
  · exact hflushed
  · exact hsynced

/-- **A request that changes the file of its call.** -/
theorem Kept.change (hk : Kept base s tr live) (hi : live i) (hev : Inner ev)
    (hcreated : Created (tr.own i) handle) (hlinked : ¬Linked (tr.own i)) {f : File}
    (hstage : Stage s (tr.own i) handle → Stage (s.change handle.ino f) (tr.own i ++ [ev]) handle) :
    Kept base (s.change handle.ino f) (tr ++ [(i, ev)]) live := by
  refine hk.inner hev rfl rfl (fun n hn => ?_) (fun _ _ h => absurd h hlinked) fun handle' hcreated' => ?_
  · refine Function.update_of_ne ?_ _ _
    rintro rfl
    exact hlinked (hn handle hcreated rfl)
  · obtain rfl := hk.one i handle handle' hcreated hcreated'
    exact hstage (hk.stage i handle hi hcreated)

/-- **A request that changes nothing.** -/
theorem Kept.idle (hk : Kept base s tr live) (hi : live i) (hev : Inner ev)
    (hwrite : ∀ handle content r, ev ≠ ⟨.write handle content, r⟩)
    (hflush : ∀ handle, ev ≠ ⟨.flush handle, .ok ()⟩) (hfsync : ∀ handle, ev ≠ ⟨.fsync handle, .ok ()⟩) :
    Kept base s (tr ++ [(i, ev)]) live := by
  have hwrote : ∀ {h : History Files} {handle content r}, ⟨.write handle content, r⟩ ∈ h ++ [ev] →
      ⟨.write handle content, r⟩ ∈ h := by
    intro h handle content r hmem
    rcases List.mem_append.mp hmem with hmem | hmem
    · exact hmem
    · exact absurd (List.mem_singleton.mp hmem).symm (hwrite handle content r)
  refine hk.inner hev rfl rfl (fun _ _ => rfl) (fun _ _ _ => hwrote) fun handle hcreated => ?_
  have hst := hk.stage i handle hi hcreated
  refine ⟨fun h => hst.unwritten fun content r hmem => h content r (List.mem_append_left _ hmem),
    fun content h => hst.written content (hwrote h), fun h => hst.flushed ?_, fun h => hst.synced ?_,
    fun hu => hst.named fun h => hu (hev.unlinked.mpr h), fun hl => hst.hidden fun h => hl (hev.linked.mpr h)⟩
  · rcases List.mem_append.mp h with h | h
    · exact h
    · exact absurd (List.mem_singleton.mp h).symm (hflush handle)
  · rcases List.mem_append.mp h with h | h
    · exact h
    · exact absurd (List.mem_singleton.mp h).symm (hfsync handle)

/-! ### Requests that change names -/

/-- **A temporary file is made.** -/
theorem Kept.create (hk : Kept base s tr live) (hord : Ordered (tr.own i))
    (hnone : ∀ r, ⟨.createPending, r⟩ ∉ tr.own i) (hino : handle.ino = s.next) (hname : PendingName handle.name)
    (hfree : s.directory handle.name = none) :
    Kept base (s.create handle.name) (tr ++ [(i, ⟨.createPending, .ok handle⟩)]) live := by
  have hown : ∀ j handle', Created (Trace.own (tr ++ [(i, ⟨.createPending, .ok handle⟩)]) j) handle' ↔
      Created (tr.own j) handle' ∨ j = i ∧ handle' = handle := by
    intro j handle'
    by_cases hij : i = j
    · subst hij
      rw [own_append_self]
      simp [Created]
    · rw [own_append_other tr hij]
      simp [Ne.symm hij]
  have hnotmade : ∀ handle', ¬Created (tr.own i) handle' := fun handle' => hnone _
  have hother : ∀ j handle', Created (tr.own j) handle' → i ≠ j := by
    rintro j handle' hcreated rfl
    exact hnotmade handle' hcreated
  have hold : ∀ {n}, n < s.next → (s.create handle.name).files n = s.files n := fun hn =>
    Function.update_of_ne (Nat.ne_of_lt hn) _ _
  have hartifact : ∀ digest, (s.create handle.name).directory (artifactName digest) =
      s.directory (artifactName digest) := fun digest =>
    Function.update_of_ne (pendingName_ne hname digest).symm _ _
  refine ⟨fun name n hn => ?_, fun j handle' hcreated => ?_, fun j k handle₁ handle₂ h₁ h₂ heq => ?_,
    fun j handle₁ handle₂ h₁ h₂ => ?_, fun j handle' hj hcreated => ?_,
    fun j handle' content hcreated hwrote hlinked => ?_, fun digest n hn hbase => ?_,
    hk.base.trans (Nat.le_succ _)⟩
  · by_cases hname' : name = handle.name
    · subst hname'
      rw [show (s.create handle.name).directory handle.name = some s.next from Function.update_self ..] at hn
      cases hn
      exact Nat.lt_succ_self _
    · rw [show (s.create handle.name).directory name = s.directory name from
        Function.update_of_ne hname' _ _] at hn
      exact (hk.known name n hn).trans (Nat.lt_succ_self _)
  · rcases (hown j handle').mp hcreated with hcreated | ⟨-, rfl⟩
    · obtain ⟨hbase, hlt, hpending⟩ := hk.fresh j handle' hcreated
      exact ⟨hbase, hlt.trans (Nat.lt_succ_self _), hpending⟩
    · exact ⟨hino ▸ hk.base, hino ▸ Nat.lt_succ_self _, hname⟩
  · rcases (hown j handle₁).mp h₁ with g₁ | ⟨rfl, rfl⟩ <;> rcases (hown k handle₂).mp h₂ with g₂ | ⟨rfl, rfl⟩
    · exact hk.sole j k handle₁ handle₂ g₁ g₂ heq
    · have := (hk.fresh j handle₁ g₁).2.1
      omega
    · have := (hk.fresh k handle₂ g₂).2.1
      omega
    · rfl
  · rcases (hown j handle₁).mp h₁ with g₁ | ⟨rfl, rfl⟩ <;> rcases (hown j handle₂).mp h₂ with g₂ | ⟨hj, rfl⟩
    · exact hk.one j handle₁ handle₂ g₁ g₂
    · exact absurd hj.symm (hother j handle₁ g₁)
    · exact absurd g₂ (hnotmade handle₂)
    · rfl
  · rcases (hown j handle').mp hcreated with hcreated' | ⟨rfl, rfl⟩
    · have hij := hother j handle' hcreated'
      rw [own_append_other tr hij]
      have hst := hk.stage j handle' hj hcreated'
      have hfile := hold (hk.fresh j handle' hcreated').2.1
      refine ⟨?_, ?_, ?_, ?_, fun hu => ?_, fun hl digest => ?_⟩
      · rw [hfile]
        exact hst.unwritten
      · rw [hfile]
        exact hst.written
      · rw [hfile]
        exact hst.flushed
      · rw [hfile]
        exact hst.synced
      · have hnamed := hst.named hu
        refine (Function.update_of_ne ?_ _ _).trans hnamed
        intro heq
        rw [heq, hfree] at hnamed
        cases hnamed
      · rw [hartifact]
        exact hst.hidden hl digest
    · -- before it has made the file the call has used none
      rw [own_append_self]
      have hnowrite : ∀ content r, ⟨.write handle' content, r⟩ ∉ tr.own j := fun content r hmem =>
        hnotmade _ (hord.write handle' content r hmem)
      have hnoflush : ∀ r, ⟨.flush handle', r⟩ ∉ tr.own j := fun r hmem => by
        obtain ⟨content, hwrote⟩ := hord.flush handle' r hmem
        exact hnowrite content _ hwrote
      have hfile : (s.create handle'.name).files handle'.ino = ⟨[], [], false⟩ := by
        rw [hino]
        exact Function.update_self ..
      refine ⟨?_, ?_, ?_, ?_, fun _ => ?_, fun _ digest h => ?_⟩
      · rw [hfile]
        exact fun _ => rfl
      · intro content hwrote
        simp [Wrote, hnowrite] at hwrote
      · intro hflush
        simp [hnoflush] at hflush
      · intro hfsync
        rcases List.mem_append.mp hfsync with hmem | hmem
        · exact absurd (hord.fsync handle' _ hmem) (hnoflush _)
        · simp at hmem
      · rw [hino]
        exact Function.update_self ..
      · rw [hartifact] at h
        have := hk.known _ _ h
        omega
  · have hij : i ≠ j := by
      rintro rfl
      rw [own_append_self] at hlinked
      obtain ⟨source, target, r, hmem⟩ := hlinked
      rcases List.mem_append.mp hmem with hmem | hmem
      · obtain ⟨handle₀, hcreated₀⟩ := hord.link ⟨source, target, r, hmem⟩
        exact hnotmade handle₀ hcreated₀
      · simp at hmem
    rw [own_append_other tr hij] at hcreated hwrote hlinked
    rw [hold (hk.fresh j handle' hcreated).2.1]
    exact hk.linked j handle' content hcreated hwrote hlinked
  · rw [hartifact] at hn
    obtain ⟨j, handle', content, hcreated, hwrote, hlinked, hino', hdigest⟩ := hk.published digest n hn hbase
    have hij := hother j handle' hcreated
    refine ⟨j, handle', content, ?_, ?_, ?_, hino', hdigest⟩ <;> rw [own_append_other tr hij]
    · exact hcreated
    · exact hwrote
    · exact hlinked

/-- An event that neither makes nor changes a file. -/
structure Outer (ev : Event Files) : Prop where
  /-- It makes no file. -/
  create : ∀ handle, ev ≠ ⟨.createPending, .ok handle⟩
  /-- It writes none. -/
  write : ∀ handle content r, ev ≠ ⟨.write handle content, r⟩
  /-- It flushes none. -/
  flush : ∀ handle, ev ≠ ⟨.flush handle, .ok ()⟩
  /-- It syncs none. -/
  fsync : ∀ handle, ev ≠ ⟨.fsync handle, .ok ()⟩

omit [Hashing] in
/-- What a call has done to its file before such an event. -/
theorem mem_own_snoc {ev' : Event Files} (hne : ev ≠ ev') (j : ℕ) :
    ev' ∈ Trace.own (tr ++ [(i, ev)]) j ↔ ev' ∈ tr.own j := by
  by_cases hij : i = j
  · subst hij
    rw [own_append_self]
    simp [Ne.symm hne]
  · rw [own_append_other tr hij]

/-- **A request that changes names only.** -/
theorem Kept.renamed (hk : Kept base s tr live) (hev : Outer ev) (hfiles : s'.files = s.files)
    (hnext : s'.next = s.next) (hknown : ∀ name n, s'.directory name = some n → n < s.next)
    (hnamed : ∀ j handle, live j → Created (tr.own j) handle → ¬Unlinked (Trace.own (tr ++ [(i, ev)]) j) →
      s'.directory handle.name = some handle.ino)
    (hhidden : ∀ j handle, live j → Created (tr.own j) handle → ¬Linked (Trace.own (tr ++ [(i, ev)]) j) →
      ∀ digest, s'.directory (artifactName digest) ≠ some handle.ino)
    (hlinked : ∀ j handle content, Created (tr.own j) handle → Wrote (tr.own j) handle content →
      Linked (Trace.own (tr ++ [(i, ev)]) j) → s.files handle.ino = ⟨content, [], true⟩)
    (hpublished : ∀ digest n, s'.directory (artifactName digest) = some n → base ≤ n →
      ∃ j handle content, Created (tr.own j) handle ∧ Wrote (tr.own j) handle content ∧
        Linked (Trace.own (tr ++ [(i, ev)]) j) ∧ handle.ino = n ∧ Hashing.hexdigest content = digest) :
    Kept base s' (tr ++ [(i, ev)]) live := by
  have hcreated : ∀ j handle, Created (Trace.own (tr ++ [(i, ev)]) j) handle ↔ Created (tr.own j) handle :=
    fun j handle => mem_own_snoc (hev.create handle) j
  have hwrote : ∀ j handle content, Wrote (Trace.own (tr ++ [(i, ev)]) j) handle content ↔
      Wrote (tr.own j) handle content := fun j handle content => mem_own_snoc (hev.write handle content _) j
  refine ⟨?_, ?_, ?_, ?_, fun j handle hj hmade => ?_, ?_, ?_, hnext ▸ hk.base⟩
  · rw [hnext]
    exact hknown
  · intro j handle hmade
    rw [hnext]
    exact hk.fresh j handle ((hcreated j handle).mp hmade)
  · intro j k handle handle' hj hk'
    exact hk.sole j k handle handle' ((hcreated j handle).mp hj) ((hcreated k handle').mp hk')
  · intro j handle handle' hj hj'
    exact hk.one j handle handle' ((hcreated j handle).mp hj) ((hcreated j handle').mp hj')
  · have hmade' := (hcreated j handle).mp hmade
    have hst := hk.stage j handle hj hmade'
    refine ⟨fun h => ?_, fun content h => ?_, fun h => ?_, fun h => ?_, hnamed j handle hj hmade',
      hhidden j handle hj hmade'⟩ <;> rw [hfiles]
    · exact hst.unwritten fun content r hmem => h content r ((mem_own_snoc (hev.write handle content r) j).mpr hmem)
    · exact hst.written content ((hwrote j handle content).mp h)
    · exact hst.flushed ((mem_own_snoc (hev.flush handle) j).mp h)
    · exact hst.synced ((mem_own_snoc (hev.fsync handle) j).mp h)
  · intro j handle content hmade hwrite hlink
    rw [hfiles]
    exact hlinked j handle content ((hcreated j handle).mp hmade) ((hwrote j handle content).mp hwrite) hlink
  · intro digest n hn hbase
    obtain ⟨j, handle, content, hmade, hwrite, hlink, hino, hdigest⟩ := hpublished digest n hn hbase
    exact ⟨j, handle, content, (hcreated j handle).mpr hmade, (hwrote j handle content).mpr hwrite, hlink, hino,
      hdigest⟩

omit [Hashing] in
/-- A durable temporary file is whole. -/
theorem Stage.whole (hst : Stage s h handle) {content : Bytes} (hwrote : Wrote h handle content)
    (hdurable : Durable h handle) : s.files handle.ino = ⟨content, [], true⟩ := by
  have hbuffer := hst.flushed hdurable.1
  have hcontent := hst.written content hwrote
  have hsynced := hst.synced hdurable.2
  rw [hbuffer, List.append_nil] at hcontent
  generalize s.files handle.ino = f at hbuffer hcontent hsynced ⊢
  obtain ⟨c, b, y⟩ := f
  obtain rfl : b = [] := hbuffer
  obtain rfl : c = content := hcontent
  obtain rfl : y = true := hsynced
  rfl

/-- **A link**, whether it is made or not. -/
theorem Kept.link (hk : Kept base s tr live) (hi : live i) {content : Bytes} {source target : String}
    {r : Except Raised Unit} (hcreated : Created (tr.own i) handle) (hwrote : Wrote (tr.own i) handle content)
    (hdurable : Durable (tr.own i) handle) (hunlinked : ¬Unlinked (tr.own i)) (hsource : source = handle.name)
    (htarget : target = artifactName (Hashing.hexdigest content))
    (hs' : s' = s ∨ s.directory target = none ∧ ∃ n, s.directory source = some n ∧ s' = s.name target n) :
    Kept base s' (tr ++ [(i, ⟨.link source target, r⟩)]) live := by
  subst hsource htarget
  have hst := hk.stage i handle hi hcreated
  have hwhole := hst.whole hwrote hdurable
  obtain ⟨hbase, hlt, hpending⟩ := hk.fresh i handle hcreated
  -- the name of the artifact is as before, or stands for the file of the call
  have hdirectory : ∀ name, s'.directory name = s.directory name ∨
      name = artifactName (Hashing.hexdigest content) ∧ s'.directory name = some handle.ino := by
    rcases hs' with rfl | ⟨-, n, hn, rfl⟩
    · exact fun _ => .inl rfl
    · obtain rfl : handle.ino = n := Option.some.inj ((hst.named hunlinked).symm.trans hn)
      intro name
      by_cases hname : name = artifactName (Hashing.hexdigest content)
      · subst hname
        exact .inr ⟨rfl, Function.update_self ..⟩
      · exact .inl (Function.update_of_ne hname _ _)
  have hlink : ∀ j, Linked (tr.own j) → Linked (Trace.own (tr ++ [(i, ⟨.link handle.name
      (artifactName (Hashing.hexdigest content)), r⟩)]) j) := by
    rintro j ⟨source, target, r', hmem⟩
    refine ⟨source, target, r', ?_⟩
    rw [own_append]
    exact List.mem_append_left _ hmem
  have hself : Linked (Trace.own (tr ++ [(i, ⟨.link handle.name
      (artifactName (Hashing.hexdigest content)), r⟩)]) i) := by
    rw [own_append_self]
    exact ⟨_, _, r, List.mem_append_right _ (List.mem_singleton.mpr rfl)⟩
  refine hk.renamed ⟨nofun, nofun, nofun, nofun⟩ ?_ ?_ (fun name n hn => ?_) (fun j handle' hj hmade hu => ?_)
    (fun j handle' hj hmade hl digest hn => ?_) (fun j handle' content' hmade hwrite hl => ?_)
    fun digest n hn hbase => ?_
  · rcases hs' with rfl | ⟨-, n, -, rfl⟩ <;> rfl
  · rcases hs' with rfl | ⟨-, n, -, rfl⟩ <;> rfl
  · rcases hdirectory name with heq | ⟨-, heq⟩
    · exact hk.known name n (heq.symm.trans hn)
    · obtain rfl := Option.some.inj (heq.symm.trans hn)
      exact hlt
  · rcases hdirectory handle'.name with heq | ⟨heq, -⟩
    · refine heq.trans ((hk.stage j handle' hj hmade).named fun h => hu ?_)
      obtain ⟨name, r', hmem⟩ := h
      refine ⟨name, r', ?_⟩
      rw [own_append]
      exact List.mem_append_left _ hmem
    · exact absurd heq (pendingName_ne (hk.fresh j handle' hmade).2.2 _)
  · rcases hdirectory (artifactName digest) with heq | ⟨-, heq⟩
    · exact (hk.stage j handle' hj hmade).hidden (fun h => hl (hlink j h)) digest (heq.symm.trans hn)
    · obtain rfl := hk.sole i j handle handle' hcreated hmade (Option.some.inj (heq.symm.trans hn))
      exact hl hself
  · by_cases hij : i = j
    · subst hij
      obtain rfl := hk.one i handle handle' hcreated hmade
      obtain rfl : content' = content := (hst.written content' hwrite).symm.trans (hst.written content hwrote)
      exact hwhole
    · rw [own_append_other tr hij] at hl
      exact hk.linked j handle' content' hmade hwrite hl
  · rcases hdirectory (artifactName digest) with heq | ⟨hname, heq⟩
    · obtain ⟨j, handle', content', hmade, hwrite, hl, hino, hdigest⟩ :=
        hk.published digest n (heq.symm.trans hn) hbase
      exact ⟨j, handle', content', hmade, hwrite, hlink j hl, hino, hdigest⟩
    · exact ⟨i, handle, content, hcreated, hwrote, hself, Option.some.inj (heq.symm.trans hn),
        (artifactName_injective hname).symm⟩

/-- **The removal of a temporary name**, whether it is done or not. -/
theorem Kept.unlink (hk : Kept base s tr live) (hi : live i) {r : Except Raised Unit}
    (hcreated : Created (tr.own i) handle) (hunlinked : ¬Unlinked (tr.own i))
    (hs' : s' = s ∨ s' = s.forget handle.name) :
    Kept base s' (tr ++ [(i, ⟨.unlink handle.name, r⟩)]) live := by
  have hst := hk.stage i handle hi hcreated
  obtain ⟨-, -, hpending⟩ := hk.fresh i handle hcreated
  have hdirectory : ∀ name, s'.directory name = s.directory name ∨ name = handle.name ∧ s'.directory name = none := by
    rcases hs' with rfl | rfl
    · exact fun _ => .inl rfl
    · intro name
      by_cases hname : name = handle.name
      · subst hname
        exact .inr ⟨rfl, Function.update_self ..⟩
      · exact .inl (Function.update_of_ne hname _ _)
  have hartifact : ∀ digest, s'.directory (artifactName digest) = s.directory (artifactName digest) := by
    intro digest
    rcases hdirectory (artifactName digest) with heq | ⟨hname, -⟩
    · exact heq
    · exact absurd hname.symm (pendingName_ne hpending digest)
  have hself : Unlinked (Trace.own (tr ++ [(i, ⟨.unlink handle.name, r⟩)]) i) := by
    rw [own_append_self]
    exact ⟨_, r, List.mem_append_right _ (List.mem_singleton.mpr rfl)⟩
  have hlink : ∀ j, Linked (Trace.own (tr ++ [(i, ⟨.unlink handle.name, r⟩)]) j) ↔ Linked (tr.own j) := by
    intro j
    simp only [Linked]
    refine exists_congr fun source => exists_congr fun target => exists_congr fun r' => ?_
    exact mem_own_snoc (by intro h; cases h) j
  refine hk.renamed ⟨nofun, nofun, nofun, nofun⟩ ?_ ?_ (fun name n hn => ?_) (fun j handle' hj hmade hu => ?_)
    (fun j handle' hj hmade hl digest hn => ?_) (fun j handle' content' hmade hwrite hl => ?_)
    fun digest n hn hbase => ?_
  · rcases hs' with rfl | rfl <;> rfl
  · rcases hs' with rfl | rfl <;> rfl
  · rcases hdirectory name with heq | ⟨-, heq⟩
    · exact hk.known name n (heq.symm.trans hn)
    · rw [heq] at hn
      cases hn
  · have hij : i ≠ j := by
      rintro rfl
      exact hu hself
    rw [own_append_other tr hij] at hu
    have hnamed := (hk.stage j handle' hj hmade).named hu
    rcases hdirectory handle'.name with heq | ⟨hname, -⟩
    · exact heq.trans hnamed
    · -- two files that are there have two names
      rw [hname, hst.named hunlinked] at hnamed
      exact absurd (hk.sole i j handle handle' hcreated hmade (Option.some.inj hnamed)) hij
  · rw [hartifact] at hn
    exact (hk.stage j handle' hj hmade).hidden (fun h => hl ((hlink j).mpr h)) digest hn
  · exact hk.linked j handle' content' hmade hwrite ((hlink j).mp hl)
  · rw [hartifact] at hn
    obtain ⟨j, handle', content', hmade, hwrite, hl, hino, hdigest⟩ := hk.published digest n hn hbase
    exact ⟨j, handle', content', hmade, hwrite, (hlink j).mpr hl, hino, hdigest⟩

omit [Hashing] in
/-- A part of the buffer goes to the file of a call. -/
theorem Stage.advance (hst : Stage s h handle) (hord : Ordered h) (hev : Inner ev)
    (hwrite : ∀ content r, ev ≠ ⟨.write handle content, r⟩) (hfsync : ev ≠ ⟨.fsync handle, .ok ()⟩) {k : ℕ}
    (hflush : ev = ⟨.flush handle, .ok ()⟩ → (s.files handle.ino).buffer.length ≤ k) :
    Stage (s.change handle.ino ((s.files handle.ino).advance k)) (h ++ [ev]) handle := by
  have hold : ∀ {ev'}, ev ≠ ev' → ev' ∈ h ++ [ev] → ev' ∈ h := by
    intro ev' hne hmem
    rcases List.mem_append.mp hmem with hmem | hmem
    · exact hmem
    · exact absurd (List.mem_singleton.mp hmem).symm hne
  refine hst.change hev (fun h => ?_) (fun content h => ?_) (fun h => ?_) fun h => ?_
  · rw [File.advance_whole]
    exact hst.unwritten fun content r hmem => h content r (List.mem_append_left _ hmem)
  · rw [File.advance_whole]
    exact hst.written content (hold (hwrite content _) h)
  · rcases List.mem_append.mp h with h | h
    · rw [File.advance_empty (hst.flushed h)]
      exact hst.flushed h
    · exact List.drop_eq_nil_of_le (hflush (List.mem_singleton.mp h).symm)
  · have hsynced := hold hfsync h
    rw [File.advance_empty (hst.flushed (hord.fsync handle _ hsynced))]
    exact hst.synced hsynced

/-! ### Every request -/

/-- **What each answered request keeps.** -/
theorem Kept.step (hk : Kept base s tr live) (hi : live i) (hord : Ordered (tr.own i))
    (hev : Allowed (tr.own i) ev) (hanswer : fileSystem.answer s ev.effect ev.reply s') :
    Kept base s' (tr ++ [(i, ev)]) live := by
  obtain ⟨e, r⟩ := ev
  cases e with
  | resolvesInside name =>
    obtain rfl : s' = s := hanswer
    exact hk.idle hi ⟨nofun, nofun, nofun⟩ nofun nofun nofun
  | download blob =>
    obtain rfl : s' = s := hanswer
    exact hk.idle hi ⟨nofun, nofun, nofun⟩ nofun nofun nofun
  | readBytes name =>
    obtain ⟨-, rfl⟩ : _ ∧ s' = s := hanswer
    exact hk.idle hi ⟨nofun, nofun, nofun⟩ nofun nofun nofun
  | openRead name =>
    obtain ⟨-, rfl⟩ : _ ∧ s' = s := hanswer
    exact hk.idle hi ⟨nofun, nofun, nofun⟩ nofun nofun nofun
  | createPending =>
    cases r with
    | ok handle =>
      obtain ⟨hino, hname, hfree, rfl⟩ := hanswer
      exact hk.create hord hev hino hname hfree
    | error x =>
      obtain rfl : s' = s := hanswer
      exact hk.idle hi ⟨nofun, nofun, nofun⟩ nofun nofun nofun
  | link source target =>
    obtain ⟨handle, content, hcreated, hwrote, hdurable, -, hunlinked, hsource, -, htarget⟩ := hev
    refine hk.link hi hcreated hwrote hdurable hunlinked hsource htarget ?_
    rcases hanswer with ⟨-, rfl⟩ | hlinked
    · exact .inl rfl
    · exact .inr hlinked
  | unlink name =>
    obtain ⟨handle, hcreated, rfl, hunlinked⟩ := hev
    refine hk.unlink hi hcreated hunlinked ?_
    cases r with
    | ok u => exact .inr hanswer
    | error x => exact hanswer
  | write handle content =>
    obtain ⟨hcreated, hnowrite, hlinked⟩ := hev
    have hnoflush : ∀ r, ⟨.flush handle, r⟩ ∉ tr.own i := fun r hmem => by
      obtain ⟨content, hwrote⟩ := hord.flush handle r hmem
      exact hnowrite content _ hwrote
    have hnofsync : ∀ r, ⟨.fsync handle, r⟩ ∉ tr.own i := fun r hmem => hnoflush _ (hord.fsync handle r hmem)
    have hinner : Inner (⟨.write handle content, r⟩ : Event Files) := ⟨nofun, nofun, nofun⟩
    have hchange : ∀ (part : Bytes) (k : ℕ), (r = .ok () → part = content) →
        Kept base (s.change handle.ino (((s.files handle.ino).append part).advance k))
          (tr ++ [(i, ⟨.write handle content, r⟩)]) live := by
      intro part k hpart
      refine hk.change hi hinner hcreated hlinked fun hst => hst.change hinner (fun h => ?_)
        (fun content' h => ?_) (fun h => ?_) fun h => ?_
      · exact absurd (List.mem_append_right _ (List.mem_singleton.mpr rfl)) (h content r)
      · rcases List.mem_append.mp h with h | h
        · exact absurd h (hnowrite content' _)
        · cases List.mem_singleton.mp h
          rw [File.advance_whole, File.append_whole, hst.unwritten hnowrite, List.nil_append, hpart rfl]
      · simp [hnoflush] at h
      · simp [hnofsync] at h
    cases r with
    | ok u =>
      obtain ⟨k, rfl⟩ := hanswer
      exact hchange content k fun _ => rfl
    | error x =>
      obtain ⟨j, k, rfl⟩ := hanswer
      exact hchange (content.take j) k nofun
  | flush handle =>
    obtain ⟨hcreated, -, hlinked⟩ := hev
    have hinner : Inner (⟨.flush handle, r⟩ : Event Files) := ⟨nofun, nofun, nofun⟩
    have hchange : ∀ k, (r = .ok () → (s.files handle.ino).buffer.length ≤ k) →
        Kept base (s.change handle.ino ((s.files handle.ino).advance k)) (tr ++ [(i, ⟨.flush handle, r⟩)]) live := by
      refine fun k hk' => hk.change hi hinner hcreated hlinked fun hst =>
        hst.advance hord hinner nofun nofun fun heq => ?_
      cases heq
      exact hk' rfl
    cases r with
    | ok u =>
      obtain rfl := hanswer
      exact hchange _ fun _ => le_rfl
    | error x =>
      obtain ⟨k, rfl⟩ := hanswer
      exact hchange k nofun
  | fsync handle =>
    obtain ⟨hcreated, hflush, hlinked⟩ := hev
    have hinner : Inner (⟨.fsync handle, r⟩ : Event Files) := ⟨nofun, nofun, nofun⟩
    cases r with
    | ok u =>
      obtain rfl := hanswer
      refine hk.change hi hinner hcreated hlinked fun hst => hst.change hinner (fun h => ?_)
        (fun content h => ?_) (fun _ => hst.flushed hflush) fun _ => rfl
      · exact hst.unwritten fun content r hmem => h content r (List.mem_append_left _ hmem)
      · refine hst.written content ?_
        simpa [Wrote] using h
    | error x =>
      obtain rfl : s' = s := hanswer
      exact hk.idle hi hinner nofun nofun nofun
  | close handle =>
    obtain ⟨hcreated, hlinked⟩ := hev
    have hinner : Inner (⟨.close handle, r⟩ : Event Files) := ⟨nofun, nofun, nofun⟩
    obtain ⟨k, rfl⟩ := hanswer
    exact hk.change hi hinner hcreated hlinked fun hst => hst.advance hord hinner nofun nofun nofun

end Kept

/-! ### Every interleaving -/

section Reachable

variable [Numerals] [Hashing] {s₀ : FileSystem} {c c' : Config Files FileSystem (Option (String × String))}

/-- What the operations of any number of processes may come to, if each may end at any time and power may be
lost. -/
abbrev Reached (s₀ : FileSystem) (c : Config Files FileSystem (Option (String × String))) : Prop :=
  Outage.Reachable fileSystem Operation FileSystem.Lost s₀ c

theorem Reached.kept (hknown : ∀ name n, s₀.directory name = some n → n < s₀.next) (h : Reached s₀ c) :
    Kept s₀.next c.shared c.trace (Live c) := by
  refine Outage.invariant (Kept s₀.next) h (kept_init hknown) (fun s tr live live' hk => hk.mono) ?_
    fun s tr live s' hk => hk.outage
  intro s tr live i p e r s' q hk hi hp hpath hanswer
  obtain ⟨q', hinit⟩ := hpath.initial
  exact hk.step hi (hp.ordered hinit) (hp.allowed hpath) hanswer

omit [Numerals] in
/-- **One request changes nothing that a digest names.** -/
theorem Kept.stands {base : ℕ} {s s' : FileSystem} {tr : Trace Files} {live : ℕ → Prop} {i : ℕ}
    {ev : Event Files} (hk : Kept base s tr live) (hi : live i) (hev : Allowed (tr.own i) ev)
    (hanswer : fileSystem.answer s ev.effect ev.reply s') {digest : String} {n : ℕ}
    (hn : s.directory (artifactName digest) = some n) :
    s'.directory (artifactName digest) = some n ∧ s'.files n = s.files n := by
  have hchange : ∀ {handle : Handle} {f : File}, Created (tr.own i) handle → ¬Linked (tr.own i) →
      (s.change handle.ino f).directory (artifactName digest) = some n ∧
        (s.change handle.ino f).files n = s.files n := by
    intro handle f hcreated hlinked
    refine ⟨hn, Function.update_of_ne ?_ _ _⟩
    rintro rfl
    exact (hk.stage i handle hi hcreated).hidden hlinked digest hn
  obtain ⟨e, r⟩ := ev
  cases e with
  | resolvesInside name =>
    obtain rfl : s' = s := hanswer
    exact ⟨hn, rfl⟩
  | download blob =>
    obtain rfl : s' = s := hanswer
    exact ⟨hn, rfl⟩
  | readBytes name =>
    obtain ⟨-, rfl⟩ : _ ∧ s' = s := hanswer
    exact ⟨hn, rfl⟩
  | openRead name =>
    obtain ⟨-, rfl⟩ : _ ∧ s' = s := hanswer
    exact ⟨hn, rfl⟩
  | createPending =>
    cases r with
    | ok handle =>
      obtain ⟨hino, hname, hfree, rfl⟩ := hanswer
      refine ⟨(Function.update_of_ne (pendingName_ne hname digest).symm _ _).trans hn, ?_⟩
      exact Function.update_of_ne (Nat.ne_of_lt (hk.known _ n hn)) _ _
    | error x =>
      obtain rfl : s' = s := hanswer
      exact ⟨hn, rfl⟩
  | write handle content =>
    obtain ⟨hcreated, -, hlinked⟩ := hev
    cases r with
    | ok u =>
      obtain ⟨k, rfl⟩ := hanswer
      exact hchange hcreated hlinked
    | error x =>
      obtain ⟨j, k, rfl⟩ := hanswer
      exact hchange hcreated hlinked
  | flush handle =>
    obtain ⟨hcreated, -, hlinked⟩ := hev
    cases r with
    | ok u =>
      obtain rfl := hanswer
      exact hchange hcreated hlinked
    | error x =>
      obtain ⟨k, rfl⟩ := hanswer
      exact hchange hcreated hlinked
  | fsync handle =>
    obtain ⟨hcreated, -, hlinked⟩ := hev
    cases r with
    | ok u =>
      obtain rfl := hanswer
      exact hchange hcreated hlinked
    | error x =>
      obtain rfl : s' = s := hanswer
      exact ⟨hn, rfl⟩
  | close handle =>
    obtain ⟨hcreated, hlinked⟩ := hev
    obtain ⟨k, rfl⟩ := hanswer
    exact hchange hcreated hlinked
  | link source target =>
    rcases hanswer with ⟨-, rfl⟩ | ⟨hfree, m, -, rfl⟩
    · exact ⟨hn, rfl⟩
    · refine ⟨(Function.update_of_ne ?_ _ _).trans hn, rfl⟩
      rintro rfl
      rw [hfree] at hn
      cases hn
  | unlink name =>
    obtain ⟨handle, hcreated, rfl, -⟩ := hev
    have hforget : (s.forget handle.name).directory (artifactName digest) = some n :=
      (Function.update_of_ne (pendingName_ne (hk.fresh i handle hcreated).2.2 digest).symm _ _).trans hn
    cases r with
    | ok u =>
      obtain rfl := hanswer
      exact ⟨hforget, rfl⟩
    | error x =>
      rcases hanswer with rfl | rfl
      · exact ⟨hn, rfl⟩
      · exact ⟨hforget, rfl⟩

/-- The artifacts, in a configuration that was reached from the files `s₀`. -/
structure Safe (s₀ : FileSystem) (c : Config Files FileSystem (Option (String × String))) : Prop where
  /-- What the operations have put under a digest has that digest, -/
  digest : ∀ digest n, c.shared.directory (artifactName digest) = some n → s₀.next ≤ n →
    Hashing.hexdigest (c.shared.files n).content = digest
  /-- is the whole of what some operation has written, -/
  whole : ∀ digest n, c.shared.directory (artifactName digest) = some n → s₀.next ≤ n →
    ∃ i handle, Wrote (c.trace.own i) handle (c.shared.files n).content
  /-- and is never modified, not even when power is lost. -/
  unmodified : ∀ c', Relation.ReflTransGen (OutageStep fileSystem Operation FileSystem.Lost) c c' →
    ∀ digest n, c.shared.directory (artifactName digest) = some n → s₀.next ≤ n →
      (c'.shared.files n).content = (c.shared.files n).content
  /-- Until then whatever a digest names stays there as it is, whoever has put it there. -/
  stands : ∀ c', Relation.ReflTransGen (Step fileSystem Operation) c c' →
    ∀ digest n, c.shared.directory (artifactName digest) = some n →
      c'.shared.directory (artifactName digest) = some n ∧ c'.shared.files n = c.shared.files n
  /-- An operation that finds other bytes there does not return. -/
  raises : ∀ i p out alive, c.calls[i]? = some ⟨p, ofResult out, alive⟩ →
    ∀ handle content name bytes, Wrote (c.trace.own i) handle content →
      ⟨.readBytes name, .ok bytes⟩ ∈ c.trace.own i → bytes ≠ content → ∃ x, out = .error x

theorem Reached.stands (hknown : ∀ name n, s₀.directory name = some n → n < s₀.next) (h : Reached s₀ c)
    (hsteps : Relation.ReflTransGen (Step fileSystem Operation) c c') {digest : String} {n : ℕ}
    (hn : c.shared.directory (artifactName digest) = some n) :
    c'.shared.directory (artifactName digest) = some n ∧ c'.shared.files n = c.shared.files n := by
  induction hsteps with
  | refl => exact ⟨hn, rfl⟩
  | @tail b d hb hs ih =>
    have hreached : Reached s₀ b := Relation.ReflTransGen.trans h (Outage.of_steps hb)
    have hk := hreached.kept hknown
    have hw := Outage.wellTraced hreached
    cases hs with
    | start _ => exact ih
    | @act i p e k r s' hi ha =>
      have hpath : Path p (b.trace.own i ++ [⟨e, r⟩]) (k r) := (hw.path i _ hi).trans (.step .refl)
      have hev := Operation.allowed (hw.start i _ hi) hpath
      obtain ⟨hd, hf⟩ := hk.stands ⟨_, _, hi⟩ hev ha ih.1
      exact ⟨hd, hf.trans ih.2⟩
    | crash _ => exact ih

/-- **Artifact store safety**, for every interleaving of `write` and `restore`, with processes that may end
anywhere and losses of power. -/
theorem artifacts_safe (hknown : ∀ name n, s₀.directory name = some n → n < s₀.next) (h : Reached s₀ c) :
    Safe s₀ c := by
  have hk := h.kept hknown
  have hw := Outage.wellTraced h
  have hpublished : ∀ {digest n}, c.shared.directory (artifactName digest) = some n → s₀.next ≤ n →
      ∃ i handle content, Created (c.trace.own i) handle ∧ Wrote (c.trace.own i) handle content ∧
        Linked (c.trace.own i) ∧ handle.ino = n ∧ Hashing.hexdigest content = digest ∧
          c.shared.files n = ⟨content, [], true⟩ := by
    intro digest n hn hbase
    obtain ⟨i, handle, content, hcreated, hwrote, hlinked, rfl, hdigest⟩ := hk.published digest n hn hbase
    exact ⟨i, handle, content, hcreated, hwrote, hlinked, rfl, hdigest,
      hk.linked i handle content hcreated hwrote hlinked⟩
  refine ⟨fun digest n hn hbase => ?_, fun digest n hn hbase => ?_, fun c' hsteps digest n hn hbase => ?_,
    fun c' hsteps digest n hn => h.stands hknown hsteps hn, fun i p out alive hi => ?_⟩
  · obtain ⟨i, handle, content, -, -, -, -, hdigest, hfile⟩ := hpublished hn hbase
    rw [hfile]
    exact hdigest
  · obtain ⟨i, handle, content, -, hwrote, -, -, -, hfile⟩ := hpublished hn hbase
    rw [hfile]
    exact ⟨i, handle, hwrote⟩
  · obtain ⟨i, handle, content, hcreated, hwrote, hlinked, rfl, -, hfile⟩ := hpublished hn hbase
    have hk' := Reached.kept hknown (Relation.ReflTransGen.trans h hsteps : Reached s₀ c')
    obtain ⟨tr, htr⟩ := Outage.trace_mono hsteps
    have later : ∀ {ev : Event Files}, ev ∈ c.trace.own i → ev ∈ c'.trace.own i := by
      intro ev hmem
      rw [← htr, own_append]
      exact List.mem_append_left _ hmem
    obtain ⟨source, target, r, hmem⟩ := hlinked
    rw [hk'.linked i handle content (later hcreated) (later hwrote) ⟨source, target, r, later hmem⟩, hfile]
  · intro handle content name bytes hwrote hread hne
    cases out with
    | error x => exact ⟨x, rfl⟩
    | ok result =>
      have hagrees := Operation.agrees (hw.start i _ hi) (hw.path i _ hi)
      exact absurd (hagrees handle content name bytes hwrote hread) hne

end Reachable

/-! ### A run -/

/-- Numbers are not read. -/
@[reducible] def noNumerals : Numerals := ⟨fun _ => none⟩

/-- The digest of the empty mapping. -/
def emptyDigest : String := "44136fa355b3678a1146ad16f7e8649e94fb4fc21fe77e8310c060f61caaff8a"

/-- Every content has that digest. -/
@[reducible] def emptyHashing : Hashing := ⟨fun _ => emptyDigest, fun _ => .ok []⟩

attribute [local instance] noNumerals emptyHashing

/-- A file system on which nothing fails. -/
def plainHandler : Handler Files FileSystem
  | .resolvesInside _, s => (.ok true, s)
  | .createPending, s =>
    if s.directory "tmp0.pending" = none then (.ok ⟨"tmp0.pending", s.next⟩, s.create "tmp0.pending")
    else (.error (.osError "no name"), s)
  | .write handle content, s =>
    (.ok (), s.change handle.ino (((s.files handle.ino).append content).advance 0))
  | .flush handle, s =>
    (.ok (), s.change handle.ino ((s.files handle.ino).advance (s.files handle.ino).buffer.length))
  | .fsync handle, s => (.ok (), s.change handle.ino { s.files handle.ino with synced := true })
  | .close handle, s => (.ok (), s.change handle.ino ((s.files handle.ino).advance 0))
  | .link source target, s =>
    match s.directory target, s.directory source with
    | none, some n => (.ok (), s.name target n)
    | _, _ => (.error .fileExists, s)
  | .readBytes name, s =>
    match s.directory name with
    | some n => (.ok (s.files n).content, s)
    | none => (.error (.osError "missing"), s)
  | .openRead name, s =>
    match s.directory name with
    | some n => (.ok ((s.files n).content.take (MAX_ARTIFACT_BYTES + 1)), s)
    | none => (.error (.osError "missing"), s)
  | .unlink name, s => (.ok (), s.forget name)
  | .download _, s => (.error (.osError "missing"), s)

theorem plainHandler_answers (e : FileEffect) (s : FileSystem) :
    fileSystem.answer s e (plainHandler e s).1 (plainHandler e s).2 := by
  cases e with
  | resolvesInside name => rfl
  | createPending =>
    by_cases hfree : s.directory "tmp0.pending" = none
    · simp only [plainHandler, hfree, if_true]
      exact ⟨rfl, ⟨"tmp0", by rfl⟩, hfree, rfl⟩
    · simp only [plainHandler, hfree, if_false]
      rfl
  | write handle content => exact ⟨0, rfl⟩
  | flush handle => rfl
  | fsync handle => rfl
  | close handle => exact ⟨0, rfl⟩
  | link source target =>
    cases htarget : s.directory target with
    | some n =>
      simp only [plainHandler, htarget]
      exact .inl ⟨⟨_, rfl⟩, rfl⟩
    | none =>
      cases hsource : s.directory source with
      | none =>
        simp only [plainHandler, htarget, hsource]
        exact .inl ⟨⟨_, rfl⟩, rfl⟩
      | some n =>
        simp only [plainHandler, htarget, hsource]
        exact .inr ⟨htarget, n, hsource, rfl⟩
  | readBytes name =>
    cases hname : s.directory name with
    | some n =>
      simp only [plainHandler, hname]
      refine ⟨fun bytes hbytes => ⟨n, hname, ?_⟩, rfl⟩
      cases hbytes
      rfl
    | none =>
      simp only [plainHandler, hname]
      exact ⟨fun bytes hbytes => (nomatch hbytes), rfl⟩
  | openRead name =>
    cases hname : s.directory name with
    | some n =>
      simp only [plainHandler, hname]
      refine ⟨fun bytes hbytes => ⟨n, hname, ?_⟩, rfl⟩
      cases hbytes
      rfl
    | none =>
      simp only [plainHandler, hname]
      exact ⟨fun bytes hbytes => (nomatch hbytes), rfl⟩
  | unlink name => rfl
  | download blob => rfl

/-- The empty mapping is written into an empty directory. -/
def oneWrite : Config Files FileSystem (Option (String × String)) :=
  Config.ran plainHandler ⟨⟨fun _ => none, fun _ => ⟨[], [], false⟩, 0⟩, [], []⟩
    ((write []).bind fun result => done (some result))

/-- In that run the artifact is there. -/
theorem artifacts_safe_write : Safe ⟨fun _ => none, fun _ => ⟨[], [], false⟩, 0⟩ oneWrite ∧
    oneWrite.shared.directory (artifactName emptyDigest) = some 0 ∧
    oneWrite.shared.directory "tmp0.pending" = none ∧
    (oneWrite.shared.files 0).content = "\x7b\x7d".toUTF8.toList := by
  have hreached : Reached ⟨fun _ => none, fun _ => ⟨[], [], false⟩, 0⟩ oneWrite :=
    Outage.of_steps (Reachable.call .refl plainHandler_answers (Operation.write []))
  exact ⟨artifacts_safe (by simp) hreached, by decide +kernel, by decide +kernel, by decide +kernel⟩

end PayOps.Evidence.FileStore
