import PayOps.Evidence.Retained
import PayOps.Memory.Lineage
import PayOps.Text.Utf8

/-!
# The cache of derived evidence

`CacheEntry` and `RedisDerivedCache` of `payops.memory.data_clients`: a bundle of evidence is kept for at most five
minutes under the digest of its scope, and what comes back is verified again.

## The model

The wire is a function of the key, for any bytes may be stored there. What `put` dispatches is its result. How pydantic
parses JSON is a parameter.

## What is proved

* `verify_ok` — what `_verify` accepts.
* `verifyRetrieval_grows`, `Verified.grows` — what is verified stays so when a store grows.
* `CacheEntry.validate_dump`, `CacheEntry.printable` — an entry is read back, and `json.loads` reads its text.
* `get_ok`, `put_ok` — what was checked when `get` serves a bundle, and when `put` writes one.
* `get_of_entry` — what `get` makes of an entry that is read and verified.
* `derived_cache` — **main result**: what is served is verified and of the scope, and what was written is served.
-/

namespace PayOps.Memory.DerivedCache

open Evidence Lineage
open Evidence.FileStore (Bytes Hashing)
open Json (field asArr dumps Printable)

/-- `MAX_CACHE_BYTES`. -/
def MAX_CACHE_BYTES : ℕ := 65536

/-- How pydantic reads JSON. -/
class JsonReader where
  /-- The value of a text, if it has one. -/
  fromJson : Bytes → Option Json

section Model

variable [Platform]

/-- `CacheEntry`, with the length of its bundle and with `valid_lifetime`. -/
structure CacheEntry where
  /-- `scope`. -/
  scope : EvidenceScope
  /-- `created_at`. -/
  createdAt : Time
  /-- `expires_at`. -/
  expiresAt : Time
  /-- `evidence`. -/
  evidence : List EvidenceItem
  /-- A bundle has at most sixteen items. -/
  bounded : evidence.length ≤ 16
  /-- It lives for at most five minutes. -/
  lifetime : 0 < expiresAt - createdAt ∧ expiresAt - createdAt ≤ seconds 300

/-- `CacheEntry(…)`. -/
def CacheEntry.make (scope : EvidenceScope) (createdAt expiresAt : Time) (evidence : List EvidenceItem) :
    Option CacheEntry :=
  if h : evidence.length ≤ 16 ∧ 0 < expiresAt - createdAt ∧ expiresAt - createdAt ≤ seconds 300 then
    some ⟨scope, createdAt, expiresAt, evidence, h.1, h.2⟩
  else none

/-- `EvidenceScope.model_dump(mode="json")`. -/
def dumpScope (scope : EvidenceScope) : Json :=
  .obj [("incident_id", .str scope.incidentId.val), ("namespace", .str scope.nameSpace.val),
    ("service", .str scope.service.val)]

/-- `_key`. -/
def key (scope : EvidenceScope) : String :=
  "payops:evidence:v1:" ++ Platform.sha256 (Json.text .record (dumpScope scope))

/-- Validation of an entry. -/
def CacheEntry.validate [Datetimes] : Json → Option CacheEntry
  | .obj fields => do
    let scope ← (field fields "scope").bind EvidenceScope.validate
    let createdAt ← timeField fields "created_at"
    let expiresAt ← timeField fields "expires_at"
    let items ← (field fields "evidence").bind asArr
    let evidence ← items.mapM EvidenceItem.validate
    if onlyFields fields ["scope", "created_at", "expires_at", "evidence"] then
      CacheEntry.make scope createdAt expiresAt evidence
    else none
  | _ => none

/-- `CacheEntry.model_validate_json`. -/
def CacheEntry.validateJson [Datetimes] [JsonReader] (data : Bytes) : Option CacheEntry :=
  (JsonReader.fromJson data).bind CacheEntry.validate

variable [Isoformat]

/-- `CacheEntry.model_dump(mode="json")`. -/
def CacheEntry.dump (entry : CacheEntry) : Json :=
  .obj [("scope", dumpScope entry.scope), ("created_at", .str (Isoformat.isoformat entry.createdAt)),
    ("expires_at", .str (Isoformat.isoformat entry.expiresAt)), ("evidence", .arr (entry.evidence.map dumpItem))]

/-- `entry.model_dump_json().encode()`. -/
def CacheEntry.encode (entry : CacheEntry) : Bytes := Text.encodeUtf8 (dumps .record entry.dump)

variable [Datetimes] [Hashing] [Numerals]

/-- The check of one item, in `_verify`. -/
def verifyItem (held : Artifacts) (scope : EvidenceScope) (item : EvidenceItem) : Except Fault Unit :=
  if item.incidentId ≠ scope.incidentId ∨ item.resource ≠ scope.service then
    .error (.integrity "cached evidence scope mismatch")
  else if retrieved item then do
    let lineage ← verifyRetrievalEvidence held item
    if lineage.scope ≠ scope then .error (.integrity "cached retrieval namespace scope mismatch") else .ok ()
  else do
    let _ ← verifyEnvelope held item
    .ok ()

/-- `_verify`. -/
def verify (held : Artifacts) (entry : CacheEntry) (scope : EvidenceScope) : Except Fault Unit :=
  if entry.scope ≠ scope then .error (.integrity "cache scope mismatch")
  else if (entry.evidence.map (·.evidenceId)).toFinset.card ≠ entry.evidence.length then
    .error (.integrity "duplicate cached evidence")
  else entry.evidence.forM (verifyItem held scope)

/-- What is dispatched to the wire. -/
structure Write where
  /-- The key. -/
  key : String
  /-- The value. -/
  value : Bytes
  /-- The seconds after which it expires. -/
  ttl : ℕ

/-- `put`, up to the write. -/
def put (held : Artifacts) (now : Time) (scope : EvidenceScope) (evidence : List EvidenceItem) (ttl : Json) :
    Except Fault Write :=
  match ttl with
  | .int n =>
    if 1 ≤ n ∧ n ≤ 300 then
      match CacheEntry.make scope now (now + seconds n.toNat) evidence with
      | some entry => do
        verify held entry scope
        if MAX_CACHE_BYTES < entry.encode.length then .error (.integrity "cache entry exceeds byte budget")
        else .ok ⟨key scope, entry.encode, n.toNat⟩
      | none => .error (.value "ValidationError")
    else .error (.value "cache TTL outside bounds")
  | _ => .error (.value "cache TTL outside bounds")

variable [JsonReader]

/-- `get`. -/
def get (wire : String → Except Fault Bytes) (held : Artifacts) (now : Time) (scope : EvidenceScope) :
    Except Fault (Option (List EvidenceItem)) := do
  let data ← wire (key scope)
  if data = [] then .ok none
  else if MAX_CACHE_BYTES < data.length then .error (.integrity "cache entry exceeds byte budget")
  else
    match CacheEntry.validateJson data with
    | none => .error (.value "ValidationError")
    | some entry =>
      verify held entry scope
      if entry.createdAt ≤ now ∧ now < entry.expiresAt then .ok (some entry.evidence) else .ok none

/-! ### What is verified -/

omit [Platform] [Isoformat] [Datetimes] [Hashing] [Numerals] [JsonReader] in
theorem forM_ok {α : Type} {f : α → Except Fault Unit} {xs : List α} :
    xs.forM f = .ok () ↔ ∀ x ∈ xs, f x = .ok () := by
  induction xs with
  | nil => simp [pure, Except.pure]
  | cons x xs ih =>
    show (f x >>= fun _ => xs.forM f) = .ok () ↔ _
    rw [bind_eq_ok, List.forall_mem_cons, ← ih]
    constructor
    · rintro ⟨⟨⟩, hx, hxs⟩
      exact ⟨hx, hxs⟩
    · rintro ⟨hx, hxs⟩
      exact ⟨(), hx, hxs⟩

/-- An item that may be used as evidence of a scope. -/
structure Verified (held : Artifacts) (scope : EvidenceScope) (item : EvidenceItem) : Prop where
  /-- It is of the incident. -/
  incident : item.incidentId = scope.incidentId
  /-- It is about the service. -/
  service : item.resource = scope.service
  /-- The store holds it. -/
  envelope : ∃ envelope, verifyEnvelope held item = .ok envelope
  /-- A retrieved passage has a lineage of that scope. -/
  lineage : retrieved item = true → ∃ lineage, verifyRetrievalEvidence held item = .ok lineage ∧ lineage.scope = scope

omit [JsonReader] in
theorem verifyItem_ok {held : Artifacts} {scope : EvidenceScope} {item : EvidenceItem} :
    verifyItem held scope item = .ok () ↔ Verified held scope item := by
  constructor
  · intro h
    unfold verifyItem at h
    split_ifs at h with howner hretrieved
    · rw [not_or, not_not, not_not] at howner
      obtain ⟨lineage, hlineage, h⟩ := bind_eq_ok.mp h
      split_ifs at h with hscope
      obtain ⟨-, -, ⟨envelope, henvelope, -⟩, -⟩ := verifyRetrieval_ok hlineage
      exact ⟨howner.1, howner.2, ⟨envelope, henvelope⟩, fun _ => ⟨lineage, hlineage, not_not.mp hscope⟩⟩
    · rw [not_or, not_not, not_not] at howner
      obtain ⟨envelope, henvelope, -⟩ := bind_eq_ok.mp h
      exact ⟨howner.1, howner.2, ⟨envelope, henvelope⟩, fun hr => absurd hr hretrieved⟩
  · rintro ⟨hincident, hservice, ⟨envelope, henvelope⟩, hlineage⟩
    unfold verifyItem
    rw [if_neg (by simp [hincident, hservice])]
    split_ifs with hretrieved
    · obtain ⟨lineage, haccepted, hscope⟩ := hlineage hretrieved
      simp [haccepted, hscope, bind, Except.bind]
    · simp [henvelope, bind, Except.bind]

omit [Platform] [Isoformat] [Datetimes] [Hashing] [Numerals] [JsonReader] in
/-- `len(set(…)) == len(…)`. -/
theorem card_toFinset {α β : Type} [DecidableEq β] {f : α → β} {xs : List α} :
    (xs.map f).toFinset.card = xs.length ↔ (xs.map f).Nodup := by
  have h := Multiset.toFinset_card_eq_card_iff_nodup (m := (xs.map f : Multiset β))
  rwa [Multiset.coe_card, Multiset.coe_nodup, List.length_map] at h

omit [JsonReader] in
/-- **What `_verify` accepts.** -/
theorem verify_ok {held : Artifacts} {entry : CacheEntry} {scope : EvidenceScope} :
    verify held entry scope = .ok () ↔ entry.scope = scope ∧ (entry.evidence.map (·.evidenceId)).Nodup ∧
      ∀ item ∈ entry.evidence, Verified held scope item := by
  unfold verify
  split_ifs with hscope hdistinct
  · simp [hscope]
  · rw [ne_eq, card_toFinset] at hdistinct
    simp [hdistinct]
  · rw [not_not] at hscope
    rw [not_not, card_toFinset] at hdistinct
    simp only [hscope, hdistinct, true_and, forM_ok, verifyItem_ok]

/-! ### Stores that grow -/

omit [JsonReader] in
/-- The scope of a source, if its passage is verified as before. -/
theorem sourceScope_grows {held later : Artifacts} (hgrows : Grows held later) {item : EvidenceItem}
    {seen : List Digest} {scope : Json × Json}
    (hpassage : ∀ lineage, verifyRetrieval held item seen = .ok lineage → verifyRetrieval later item seen = .ok lineage)
    (h : sourceScope held item seen = .ok scope) : sourceScope later item seen = .ok scope := by
  rw [sourceScope] at h ⊢
  obtain ⟨envelope, henvelope, h⟩ := bind_eq_ok.mp h
  refine bind_eq_ok.mpr ⟨envelope, verifyEnvelope_grows hgrows henvelope, ?_⟩
  split_ifs at h ⊢ with hretrieved
  · obtain ⟨previous, hprevious, h⟩ := bind_eq_ok.mp h
    exact bind_eq_ok.mpr ⟨previous, hpassage previous hprevious, h⟩
  · exact h

omit [JsonReader] in
/-- **A passage stays verified**, by induction on the digests that may still be seen. -/
theorem verifyRetrieval_grows {held later : Artifacts} (hgrows : Grows held later) {item : EvidenceItem}
    {seen : List Digest} {lineage : RetrievalLineage} (h : verifyRetrieval held item seen = .ok lineage) :
    verifyRetrieval later item seen = .ok lineage := by
  induction hroom : 8 - seen.length generalizing item seen lineage with
  | zero =>
    obtain ⟨-, hbound, -⟩ := verifyRetrieval_ok h
    omega
  | succ n ih =>
    rw [verifyRetrieval] at h ⊢
    split_ifs at h ⊢ with hbound
    obtain ⟨envelope, henvelope, h⟩ := bind_eq_ok.mp h
    obtain ⟨found, hfound, h⟩ := bind_eq_ok.mp h
    obtain ⟨_, hlink, h⟩ := bind_eq_ok.mp h
    obtain ⟨actual, hactual, h⟩ := bind_eq_ok.mp h
    refine bind_eq_ok.mpr ⟨envelope, verifyEnvelope_grows hgrows henvelope, ?_⟩
    refine bind_eq_ok.mpr ⟨found, hfound, bind_eq_ok.mpr ⟨(), hlink, bind_eq_ok.mpr ⟨actual, ?_, h⟩⟩⟩
    exact sourceScope_grows hgrows (fun _ hsource => ih hsource (by simp only [List.length_cons]; omega)) hactual

omit [JsonReader] in
/-- **What is verified stays so.** -/
theorem Verified.grows {held later : Artifacts} (hgrows : Grows held later) {scope : EvidenceScope}
    {item : EvidenceItem} (h : Verified held scope item) : Verified later scope item where
  incident := h.incident
  service := h.service
  envelope := by
    obtain ⟨envelope, henvelope⟩ := h.envelope
    exact ⟨envelope, verifyEnvelope_grows hgrows henvelope⟩
  lineage hretrieved := by
    obtain ⟨lineage, haccepted, hscope⟩ := h.lineage hretrieved
    exact ⟨lineage, verifyRetrieval_grows hgrows haccepted, hscope⟩

/-! ### What is read back -/

/-- What is relied on of the reader, for the times of an entry: it reads the records that were written. -/
structure Faithful (times : List Time) : Prop where
  /-- A record is read from its text. -/
  json : ∀ v, Printable 3 v → JsonReader.fromJson (Text.encodeUtf8 (dumps .record v)) = some v
  /-- A time is read from its text. -/
  times : ∀ t ∈ times, Datetimes.lax (.str (Isoformat.isoformat t)) = some t

/-- The times of an item. -/
def timesOf (item : EvidenceItem) : List Time := [item.observedAt, item.collectedAt]

/-- The times of an entry. -/
def CacheEntry.times (entry : CacheEntry) : List Time :=
  entry.createdAt :: entry.expiresAt :: entry.evidence.flatMap timesOf

omit [Isoformat] [Datetimes] [Hashing] [Numerals] [JsonReader] in
theorem CacheEntry.mem_times (entry : CacheEntry) {item : EvidenceItem} {t : Time} (hitem : item ∈ entry.evidence)
    (ht : t ∈ timesOf item) : t ∈ entry.times := by
  simp only [times, List.mem_cons, List.mem_flatMap]
  exact .inr (.inr ⟨item, hitem, ht⟩)

omit [Isoformat] [Datetimes] [Hashing] [Numerals] [JsonReader] in
theorem validate_dumpScope (scope : EvidenceScope) : EvidenceScope.validate (dumpScope scope) = some scope := by
  simp [dumpScope, EvidenceScope.validate, identifierField, textField, onlyFields, Json.asStr]

omit [Hashing] [Numerals] [JsonReader] in
/-- An item is read from its record. -/
theorem validate_item {item : EvidenceItem} (h : TimesRead item) :
    EvidenceItem.validate (dumpItem item) = some item := by
  obtain ⟨hobserved, hcollected⟩ := h
  simp [dumpItem, EvidenceItem.validate, identifierField, summaryField, timeField, textField, literalField, onlyFields,
    itemNames, Json.asStr, sourceOf_text, hobserved, hcollected, validate_val]

omit [Isoformat] [Datetimes] [Hashing] [Numerals] [JsonReader] in
theorem CacheEntry.make_self (entry : CacheEntry) :
    CacheEntry.make entry.scope entry.createdAt entry.expiresAt entry.evidence = some entry :=
  dif_pos ⟨entry.bounded, entry.lifetime⟩

omit [Hashing] [Numerals] in
/-- **An entry is read** from its record. -/
theorem CacheEntry.validate_dump {entry : CacheEntry} (h : Faithful entry.times) :
    CacheEntry.validate entry.dump = some entry := by
  have hcreated := h.times entry.createdAt (by simp [times])
  have hexpires := h.times entry.expiresAt (by simp [times])
  have hitems : (entry.evidence.map dumpItem).mapM EvidenceItem.validate = some entry.evidence := by
    rw [List.mapM_map]
    refine (mapM_some (g := id) fun item hitem => validate_item ⟨?_, ?_⟩).trans (by simp)
    · exact h.times _ (entry.mem_times hitem (by simp [timesOf]))
    · exact h.times _ (entry.mem_times hitem (by simp [timesOf]))
  simp [CacheEntry.dump, CacheEntry.validate, timeField, onlyFields, asArr, validate_dumpScope, hcreated, hexpires,
    hitems, CacheEntry.make_self]

omit [Datetimes] [Hashing] [Numerals] [JsonReader] in
/-- **An entry is three containers deep.** -/
theorem CacheEntry.printable (entry : CacheEntry) : Printable 3 entry.dump := by
  have hitem : ∀ item : EvidenceItem, Printable 1 (dumpItem item) := by
    intro item
    refine .obj ?_ ?_
    · show itemNames.Nodup
      decide
    · simp only [List.forall_mem_cons]
      exact ⟨.str _, .str _, .str _, .str _, .str _, .str _, .str _, .str _, .str _, .str _, .bool _,
        List.forall_mem_nil _⟩
  have hscope : Printable 2 (dumpScope entry.scope) := by
    refine .obj ?_ ?_
    · show ["incident_id", "namespace", "service"].Nodup
      decide
    · simp only [List.forall_mem_cons]
      exact ⟨.str _, .str _, .str _, List.forall_mem_nil _⟩
  have hevidence : Printable 2 (.arr (entry.evidence.map dumpItem)) := by
    refine .arr fun x hx => ?_
    obtain ⟨item, -, rfl⟩ := List.mem_map.mp hx
    exact hitem item
  refine .obj ?_ ?_
  · show ["scope", "created_at", "expires_at", "evidence"].Nodup
    decide
  · simp only [List.forall_mem_cons]
    exact ⟨hscope, .str _, .str _, hevidence, List.forall_mem_nil _⟩

omit [Datetimes] [Hashing] [Numerals] [JsonReader] in
theorem CacheEntry.encode_ne_nil (entry : CacheEntry) : entry.encode ≠ [] := by
  intro h
  have hlength := congrArg List.length h
  rw [CacheEntry.encode, CacheEntry.dump, Text.length_encodeUtf8, dumps, List.cons_append,
    Text.utf8Length_cons] at hlength
  have hbrace : 0 < Char.utf8Size '\x7b' := by decide
  simp only [List.length_nil] at hlength
  omega

/-! ### What is served -/

/-- **What was checked** when a bundle is served. -/
theorem get_ok {wire : String → Except Fault Bytes} {held : Artifacts} {now : Time} {scope : EvidenceScope}
    {items : List EvidenceItem} (h : get wire held now scope = .ok (some items)) :
    ∃ data entry, wire (key scope) = .ok data ∧ data.length ≤ MAX_CACHE_BYTES ∧
      CacheEntry.validateJson data = some entry ∧ verify held entry scope = .ok () ∧ entry.evidence = items ∧
      entry.createdAt ≤ now ∧ now < entry.expiresAt := by
  unfold get at h
  obtain ⟨data, hdata, h⟩ := bind_eq_ok.mp h
  split_ifs at h with hempty hlarge
  · cases h
  · cases hentry : CacheEntry.validateJson data with
    | none => simp [hentry] at h
    | some entry =>
      simp only [hentry] at h
      obtain ⟨_, hverified, h⟩ := bind_eq_ok.mp h
      split_ifs at h with hfresh
      · exact ⟨data, entry, hdata, not_lt.mp hlarge, hentry, hverified, by simpa using h, hfresh⟩
      · cases h

omit [JsonReader] in
/-- **What was checked** when a bundle is written: an entry of it is encoded. -/
theorem put_ok {held : Artifacts} {now : Time} {scope : EvidenceScope} {evidence : List EvidenceItem} {ttl : Json}
    {write : Write} (h : put held now scope evidence ttl = .ok write) :
    ∃ entry : CacheEntry, entry.scope = scope ∧ entry.createdAt = now ∧ entry.expiresAt = now + seconds write.ttl ∧
      entry.evidence = evidence ∧ verify held entry scope = .ok () ∧ entry.encode.length ≤ MAX_CACHE_BYTES ∧
      write.key = key scope ∧ write.value = entry.encode ∧ ttl = .int write.ttl := by
  unfold put at h
  split at h
  · rename_i n
    split_ifs at h with hn
    cases hentry : CacheEntry.make scope now (now + seconds n.toNat) evidence with
    | none => simp [hentry] at h
    | some entry =>
      simp only [hentry] at h
      obtain ⟨_, hverified, h⟩ := bind_eq_ok.mp h
      split_ifs at h with hlarge
      obtain rfl : (⟨key scope, entry.encode, n.toNat⟩ : Write) = write := by simpa using h
      unfold CacheEntry.make at hentry
      split_ifs at hentry with hbounds
      obtain rfl := Option.some.inj hentry
      refine ⟨_, rfl, rfl, rfl, rfl, hverified, not_lt.mp hlarge, rfl, rfl, ?_⟩
      rw [Int.toNat_of_nonneg (by omega)]
  · cases h

/-- **What `get` makes of an entry** that is read and verified. -/
theorem get_of_entry {wire : String → Except Fault Bytes} {held : Artifacts} {now : Time} {entry : CacheEntry}
    (hwire : wire (key entry.scope) = .ok entry.encode) (hsmall : entry.encode.length ≤ MAX_CACHE_BYTES)
    (hread : CacheEntry.validateJson entry.encode = some entry) (hverified : verify held entry entry.scope = .ok ()) :
    get wire held now entry.scope =
      .ok (if entry.createdAt ≤ now ∧ now < entry.expiresAt then some entry.evidence else none) := by
  simp only [get, hwire, entry.encode_ne_nil, not_lt.mpr hsmall, if_false, hread, hverified, bind, Except.bind]
  split_ifs <;> rfl

/-- **The cache of derived evidence.** Whatever the wire returns, a bundle that is served is that of an entry of the
scope which lives now, and for at most five minutes; its items are different, of the incident and about the service, and
verified in the store, each retrieved passage with a lineage of the scope. What was written is served, and exactly
that, from the time of the write until it expires, while the store keeps what it holds. -/
theorem derived_cache (held : Artifacts) (wire : String → Except Fault Bytes) (now : Time) (scope : EvidenceScope) :
    (∀ items, get wire held now scope = .ok (some items) →
      ∃ data entry, wire (key scope) = .ok data ∧ CacheEntry.validateJson data = some entry ∧ entry.evidence = items ∧
        entry.scope = scope ∧ entry.expiresAt - entry.createdAt ≤ seconds 300 ∧
        entry.createdAt ≤ now ∧ now < entry.expiresAt ∧
        (items.map (·.evidenceId)).Nodup ∧ ∀ item ∈ items, Verified held scope item) ∧
    ∀ evidence ttl write later t, put held now scope evidence ttl = .ok write →
      Faithful (now :: (now + seconds write.ttl) :: evidence.flatMap timesOf) → wire (key scope) = .ok write.value →
      Grows held later → t < now + seconds write.ttl →
      get wire later t scope = .ok (if now ≤ t then some evidence else none) := by
  constructor
  · intro items h
    obtain ⟨data, entry, hdata, -, hentry, hverified, rfl, hcreated, hexpires⟩ := get_ok h
    obtain ⟨hscope, hdistinct, hitems⟩ := verify_ok.mp hverified
    exact ⟨data, entry, hdata, hentry, rfl, hscope, entry.lifetime.2, hcreated, hexpires, hdistinct, hitems⟩
  · intro evidence ttl write later t hput hfaithful hwire hgrows ht
    obtain ⟨entry, rfl, rfl, hexpires, rfl, hverified, hsmall, -, hvalue, -⟩ := put_ok hput
    rw [← hexpires] at hfaithful ht
    have hread : CacheEntry.validateJson entry.encode = some entry := by
      rw [CacheEntry.validateJson, CacheEntry.encode, hfaithful.json _ entry.printable]
      exact CacheEntry.validate_dump hfaithful
    have hlater : verify later entry entry.scope = .ok () := by
      obtain ⟨hscope, hdistinct, hitems⟩ := verify_ok.mp hverified
      exact verify_ok.mpr ⟨hscope, hdistinct, fun item hitem => (hitems item hitem).grows hgrows⟩
    rw [hvalue] at hwire
    rw [get_of_entry hwire hsmall hread hlater]
    simp only [ht, and_true]

end Model

/-! ### A bundle of one passage -/

attribute [local instance] passagePlatform passageIsoformat passageDatetimes passageHashing FileStore.noNumerals

/-- The reader that decodes the text, and then loads it. -/
@[reducible] def loadsReader : JsonReader := ⟨fun data => (Text.decodeUtf8 data).bind Json.loads⟩

attribute [local instance] loadsReader

/-- The entry of the passage, of which five seconds remain. -/
def passageEntry : CacheEntry := ⟨passageLineage.scope, seconds 4, seconds 9, [passage], by decide, by decide⟩

/-- What is written of it. -/
def passageWrite : Write := ⟨key passageLineage.scope, passageEntry.encode, 5⟩

theorem spaced_record : Json.Style.record.Spaced [] [] where
  item := rfl
  key := rfl
  blank := by simp [Json.Blank]

theorem passage_faithful : Faithful passageEntry.times where
  json v hv := by
    show (Text.decodeUtf8 (Text.encodeUtf8 (dumps .record v))).bind Json.loads = some v
    rw [Text.decodeUtf8_encodeUtf8]
    exact (hv.mono (by decide)).loads_dumps spaced_record rfl
  times := by decide +kernel

theorem passage_put :
    put passageStore (seconds 4) passageLineage.scope [passage] (.int 5) = .ok passageWrite := by
  have hmake : CacheEntry.make passageLineage.scope (seconds 4) (seconds 4 + seconds (5 : ℤ).toNat) [passage] =
      some passageEntry := passageEntry.make_self
  have hverified : verify passageStore passageEntry passageLineage.scope = .ok () := by
    refine verify_ok.mpr ⟨rfl, by simp [passageEntry], ?_⟩
    intro item hitem
    obtain rfl : item = passage := List.mem_singleton.mp hitem
    exact ⟨rfl, rfl, ⟨_, passage_verified⟩, fun _ => ⟨_, passage_accepted, rfl⟩⟩
  have hsmall : ¬MAX_CACHE_BYTES < passageEntry.encode.length := by
    rw [CacheEntry.encode, Text.length_encodeUtf8]
    decide +kernel
  simp only [put, hmake, hverified, hsmall, if_false, bind, Except.bind]
  rfl

/-- The passage is served a second later. -/
theorem derived_cache_passage :
    get (fun _ => .ok passageWrite.value) passageStore (seconds 5) passageLineage.scope = .ok (some [passage]) := by
  have h := (derived_cache passageStore (fun _ => .ok passageWrite.value) (seconds 4) passageLineage.scope).2
    [passage] (.int 5) passageWrite passageStore (seconds 5) passage_put passage_faithful rfl (fun _ _ h => h)
    (by decide)
  rwa [if_pos (by decide)] at h

end PayOps.Memory.DerivedCache
