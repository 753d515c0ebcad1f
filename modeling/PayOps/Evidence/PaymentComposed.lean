import PayOps.Evidence.PaymentSoundness

/-!
# Payment windows that follow each other

A window is computed of two snapshots. Windows that share their snapshots are windows of one run of the process, and
the window from the first snapshot to the last one says what they say together.

## The model

`Joined` relates two parsed snapshots between which a window can be complete, whatever the interval; `Chain` is a
sequence of complete windows, each of which begins with the snapshot that the one before it ends with.

## What is proved

* `settle_joined`, `joined_settle` — a window is complete just if its snapshots are joined and enclose the interval.
* `Joined.trans` — snapshots that are joined to a third one are joined to each other.
* `Chain.ends` — the ends of a chain are joined, and what the windows publish adds up.
* `windows_compose` — **main result**: the window over a chain is complete, and publishes the sums.
-/

namespace PayOps.Evidence.Payment

open Orchestrator (Service)
open FileStore (Hashing)

/-! ### Values of series -/

/-- The value of a series. -/
def Parsed.at (p : Parsed) (key : Key) : ℚ := (p.values.lookup key).getD 0

/-- By how much a series grows from one snapshot to another one. -/
def rise (p q : Parsed) (key : Key) : ℚ := q.at key - p.at key

/-- A series of requests of a slice. -/
def ofSlice (d : String × String) (key : Key) : Bool :=
  key.1 = REQUESTS ∧ key.2.lookup "processor" = some d.1 ∧ key.2.lookup "region" = some d.2

/-- The latency of a slice agrees with its requests, in what the series grow by. -/
def Agreeing (rises : Key → ℚ) (d : String × String) : Prop :=
  rises (COUNT, slice d.1 d.2) = ((required.filter (ofSlice d)).map rises).sum ∧
    (rises (COUNT, slice d.1 d.2) = 0 → rises (SUM, slice d.1 d.2) = 0)

/-- **Two snapshots that are joined**: no series has been reset between them. -/
structure Joined (p q : Parsed) : Prop where
  /-- Both targets are up. -/
  up : p.available = true ∧ q.available = true
  /-- The process is the same. -/
  process : ∃ epoch, p.epoch = some epoch ∧ q.epoch = some epoch
  /-- Each required series is there once, and no other. -/
  series : (p.values.map Prod.fst).Perm required ∧ (q.values.map Prod.fst).Perm required
  /-- No series falls. -/
  rising : ∀ key ∈ required, p.at key ≤ q.at key
  /-- The latency of each slice agrees with its requests. -/
  agreeing : ∀ d ∈ dimensions, Agreeing (rise p q) d

theorem slice_required : ∀ d ∈ dimensions,
    (COUNT, slice d.1 d.2) ∈ required ∧ (SUM, slice d.1 d.2) ∈ required := by
  decide +kernel

theorem rise_trans (p q r : Parsed) (key : Key) : rise p r key = rise p q key + rise q r key := by
  rw [rise, rise, rise]
  ring

/-- **Snapshots that are joined** to a third one are joined to each other. -/
theorem Joined.trans {p q r : Parsed} (h : Joined p q) (h' : Joined q r) : Joined p r where
  up := ⟨h.up.1, h'.up.2⟩
  process := by
    obtain ⟨epoch, hp, hq⟩ := h.process
    obtain ⟨epoch', hq', hr⟩ := h'.process
    obtain rfl : epoch = epoch' := Option.some.inj (hq.symm.trans hq')
    exact ⟨epoch, hp, hr⟩
  series := ⟨h.series.1, h'.series.2⟩
  rising key hkey := (h.rising key hkey).trans (h'.rising key hkey)
  agreeing d hd := by
    obtain ⟨hcount, hzero⟩ := h.agreeing d hd
    obtain ⟨hcount', hzero'⟩ := h'.agreeing d hd
    have hadd : rise p r = fun key => rise p q key + rise q r key := funext (rise_trans p q r)
    rw [hadd]
    refine ⟨?_, fun hsum => ?_⟩
    · rw [List.sum_map_add, ← hcount, ← hcount']
    · -- two counts that are not negative and add up to zero are zero
      have hfirst : 0 ≤ rise p q (COUNT, slice d.1 d.2) :=
        sub_nonneg.mpr (h.rising _ (slice_required d hd).1)
      have hsecond : 0 ≤ rise q r (COUNT, slice d.1 d.2) :=
        sub_nonneg.mpr (h'.rising _ (slice_required d hd).1)
      obtain ⟨hleft, hright⟩ := (add_eq_zero_iff_of_nonneg hfirst hsecond).mp hsum
      show rise p q (SUM, slice d.1 d.2) + rise q r (SUM, slice d.1 d.2) = 0
      rw [hzero hleft, hzero' hright, add_zero]

/-! ### Windows of joined snapshots -/

section Windows

variable [Floats]

/-- The snapshots enclose an interval. -/
structure Encloses (p q : Parsed) (start finish : Time) : Prop where
  /-- The first one is scraped and evaluated right before it. -/
  before : ∃ mark, p.watermark = some mark ∧ Floats.timestamp start - 15 ≤ mark ∧ mark ≤ p.evaluatedAt ∧
    p.evaluatedAt ≤ Floats.timestamp start
  /-- The second one is scraped and evaluated right after it. -/
  after : ∃ mark, q.watermark = some mark ∧ Floats.timestamp finish ≤ mark ∧ mark ≤ q.evaluatedAt ∧
    q.evaluatedAt ≤ Floats.timestamp finish + 30

omit [Floats] in
/-- An item is looked up, if no key is there twice. -/
theorem lookup_of_mem {values : List (Key × ℚ)} (hnodup : (values.map Prod.fst).Nodup) {v : Key × ℚ}
    (hv : v ∈ values) : values.lookup v.1 = some v.2 := by
  obtain ⟨x, hx⟩ := lookup_of_key (List.mem_map_of_mem (f := Prod.fst) hv)
  have hmem : (v.1, x) ∈ values := mem_of_lookup hx
  have hsame : (v.1, x) = v := List.inj_on_of_nodup_map hnodup hmem hv rfl
  rw [hx, ← hsame]

omit [Floats] in
theorem at_of_mem {p : Parsed} (hseries : (p.values.map Prod.fst).Perm required) {v : Key × ℚ} (hv : v ∈ p.values) :
    p.at v.1 = v.2 := by
  have hnodup : (p.values.map Prod.fst).Nodup := hseries.nodup_iff.mpr required_nodup
  rw [Parsed.at, lookup_of_mem hnodup hv, Option.getD_some]

/-- **What the series grow by**, one after another. -/
theorem growth_eq (hexact : Exact) {p q : Parsed} (hseries : (q.values.map Prod.fst).Perm required) :
    growth p q = (q.values.map Prod.fst).map fun key => (key, rise p q key) := by
  rw [growth, List.map_map]
  refine List.map_congr_left fun v hv => ?_
  rw [Function.comp_apply, rise, at_of_mem hseries hv, hexact.round]
  rfl

/-- **A consistent window** is one whose slices agree. -/
theorem consistent_iff (hexact : Exact) {p q : Parsed} (hseries : (q.values.map Prod.fst).Perm required) :
    consistent (growth p q) = true ↔ ∀ d ∈ dimensions, Agreeing (rise p q) d := by
  rw [consistent, List.all_eq_true]
  refine forall₂_congr fun d hd => ?_
  have hkey {key : Key} (hkey : key ∈ required) : (growth p q).lookup key = some (rise p q key) := by
    rw [growth_eq hexact hseries]
    exact lookup_map _ (hseries.mem_iff.mpr hkey)
  have hrequests : (((growth p q).filter fun v => v.1.1 = REQUESTS ∧ v.1.2.lookup "processor" = some d.1 ∧
      v.1.2.lookup "region" = some d.2).map Prod.snd).sum = ((required.filter (ofSlice d)).map (rise p q)).sum := by
    have hmap : ((growth p q).filter fun v => v.1.1 = REQUESTS ∧ v.1.2.lookup "processor" = some d.1 ∧
        v.1.2.lookup "region" = some d.2).map Prod.snd =
          ((q.values.map Prod.fst).filter (ofSlice d)).map (rise p q) := by
      rw [growth_eq hexact hseries, List.filter_map, List.map_map]
      rfl
    rw [hmap]
    exact ((hseries.filter _).map _).sum_eq
  simp only [hexact.sum, hkey (slice_required d hd).1, hkey (slice_required d hd).2, hrequests, Agreeing,
    Bool.and_eq_true, beq_iff_eq, Option.some.injEq, Bool.not_eq_true', Bool.and_eq_false_iff, bne_eq_false_iff_eq,
    beq_eq_false_iff_ne, ne_eq, imp_iff_not_or]

omit [Floats] in
/-- No series is reset just if no value is smaller than before. -/
theorem reset_iff {p q : Parsed}
    (hseries : (p.values.map Prod.fst).Perm required ∧ (q.values.map Prod.fst).Perm required) :
    (¬∃ v ∈ p.values, (q.values.lookup v.1).any (· < v.2) = true) ↔ ∀ key ∈ required, p.at key ≤ q.at key := by
  have hvalue {key : Key} (hkey : key ∈ required) : q.values.lookup key = some (q.at key) := by
    obtain ⟨x, hx⟩ := lookup_of_key (hseries.2.mem_iff.mpr hkey)
    rw [Parsed.at, hx]
    rfl
  constructor
  · intro h key hkey
    obtain ⟨v, hv, rfl⟩ := List.mem_map.mp (hseries.1.mem_iff.mpr hkey)
    rw [at_of_mem hseries.1 hv]
    by_contra hfall
    refine h ⟨v, hv, ?_⟩
    rw [hvalue hkey]
    simpa using hfall
  · rintro h ⟨v, hv, hreset⟩
    have hkey : v.1 ∈ required := hseries.1.mem_iff.mp (List.mem_map_of_mem hv)
    have hrising := h v.1 hkey
    rw [at_of_mem hseries.1 hv] at hrising
    rw [hvalue hkey] at hreset
    simp only [Option.any_some, decide_eq_true_eq] at hreset
    exact absurd hrising (not_le.mpr hreset)

variable [Platform]

/-- **A window is complete** only of snapshots that are joined and enclose the interval. -/
theorem settle_joined (hexact : Exact) {p q : Parsed} {interval : MeasurementInterval}
    (hkeys : (p.values.map Prod.fst).Nodup ∧ (q.values.map Prod.fst).Nodup)
    (h : (settle p q interval).1 = .complete) :
    Joined p q ∧ Encloses p q interval.start interval.finish ∧ (settle p q interval).2 = growth p q := by
  have hsettled : settle p q interval = (.complete, (settle p q interval).2) := Prod.ext h rfl
  obtain ⟨hcoverage, hgrowth, hconsistent⟩ := settle_complete hsettled
  obtain ⟨epoch, mark, mark', hc⟩ := coverage_complete hcoverage
  have hseries : (p.values.map Prod.fst).Perm required ∧ (q.values.map Prod.fst).Perm required :=
    ⟨List.perm_of_nodup_nodup_toFinset_eq hkeys.1 required_nodup hc.series.1,
      List.perm_of_nodup_nodup_toFinset_eq hkeys.2 required_nodup hc.series.2⟩
  have hreset : ¬∃ v ∈ p.values, (q.values.lookup v.1).any (· < v.2) = true := by
    intro hreset
    unfold coverage at hcoverage
    simp only [hc.process.1, hc.process.2, hc.scraped.1, hc.scraped.2] at hcoverage
    split_ifs at hcoverage
  rw [hgrowth] at hconsistent
  have hbefore := hc.before
  have hafter := hc.after
  rw [hexact.round] at hbefore hafter
  exact ⟨⟨hc.up, ⟨epoch, hc.process⟩, hseries, (reset_iff hseries).mp hreset,
    (consistent_iff hexact hseries.2).mp hconsistent⟩, ⟨⟨mark, hc.scraped.1, hbefore⟩, ⟨mark', hc.scraped.2, hafter⟩⟩,
    hgrowth⟩

/-- **Snapshots that are joined** make a complete window of each interval that they enclose. -/
theorem joined_settle (hexact : Exact) {p q : Parsed} {interval : MeasurementInterval} (h : Joined p q)
    (hencloses : Encloses p q interval.start interval.finish) :
    settle p q interval = (.complete, growth p q) := by
  obtain ⟨epoch, hp, hq⟩ := h.process
  obtain ⟨mark, hmark, hbefore⟩ := hencloses.before
  obtain ⟨mark', hmark', hafter⟩ := hencloses.after
  have hcoverage : coverage p q interval = .complete := by
    unfold coverage
    simp only [hp, hq, hmark, hmark', hexact.round]
    rw [if_neg (by simp [h.up]), if_neg (by simp), if_neg (not_or.mpr ⟨not_not.mpr hbefore, not_not.mpr hafter⟩),
      if_neg, if_neg ((reset_iff h.series).mpr h.rising)]
    rw [not_or, not_not, not_not]
    exact ⟨List.toFinset_eq_of_perm _ _ h.series.1, List.toFinset_eq_of_perm _ _ h.series.2⟩
  rw [settle, hcoverage]
  exact if_pos ((consistent_iff hexact h.series.2).mpr h.agreeing)

/-! ### What is published -/

/-- By how much a series has grown, as a window says. -/
def PaymentWindow.grown (w : PaymentWindow) (key : Key) : ℚ :=
  ((w.deltas.map fun d => (d.key, d.value)).lookup key).getD 0

omit [Platform] [Floats] in
/-- Points that are not negative are published. -/
theorem makeDeltas_of {points : List (Key × ℚ)} (h : ∀ v ∈ points, 0 ≤ v.2) :
    ∃ deltas, points.mapM makeDelta = .ok deltas := by
  induction points with
  | nil => exact ⟨[], rfl⟩
  | cons point points ih =>
    obtain ⟨hpoint, hrest⟩ := List.forall_mem_cons.mp h
    obtain ⟨deltas, hdeltas⟩ := ih hrest
    refine ⟨⟨point.1.1, point.1.2, point.2, hpoint⟩ :: deltas, mapM_ok.mpr (.cons ?_ (mapM_ok.mp hdeltas))⟩
    rw [makeDelta, dif_pos hpoint]

/-- **What a complete window publishes** of a series: by how much it has grown. -/
theorem grown_eq (hexact : Exact) {service : Service} {before after : EvidenceItem} {interval : MeasurementInterval}
    {p q : Parsed} {w : PaymentWindow} (h : assemble service before after interval p q = .ok w) (hjoined : Joined p q)
    (hsettled : (settle p q interval).2 = growth p q) {key : Key} (hkey : key ∈ required) :
    w.grown key = rise p q key := by
  obtain ⟨points, hpoints, -, -, hw⟩ := assemble_ok h
  rw [hsettled] at hpoints
  have hpairs := makeDeltas_ok hpoints
  have hsorted : (points.map fun d => (d.key, d.value)).Perm (growth p q) :=
    hpairs ▸ List.perm_insertionSort _ _
  have hkeys : (points.map Delta.key).Perm required := by
    have hmap := hsorted.map Prod.fst
    rw [List.map_map, growth_keys] at hmap
    exact hmap.trans hjoined.series.2
  have hdeltas : w.deltas.Perm points := by
    rw [hw]
    exact filters_perm fun d hd => hkeys.mem_iff.mp (List.mem_map_of_mem hd)
  have hgrown : (key, rise p q key) ∈ w.deltas.map fun d => (d.key, d.value) := by
    refine ((hdeltas.map _).trans hsorted).mem_iff.mpr ?_
    rw [growth_eq hexact hjoined.series.2]
    exact List.mem_map_of_mem (hjoined.series.2.mem_iff.mpr hkey)
  have hnodup : ((w.deltas.map fun d => (d.key, d.value)).map Prod.fst).Nodup := by
    rw [List.map_map]
    exact ((hdeltas.map Delta.key).trans hkeys).nodup_iff.mpr required_nodup
  rw [PaymentWindow.grown, lookup_of_mem hnodup hgrown, Option.getD_some]

/-! ### Chains -/

variable [Numerals] [Hashing] [Isoformat]

/-- **A chain of complete windows** of an incident: each begins with the snapshot that the one before it ends with. -/
inductive Chain (held : Artifacts) (incidentId : Identifier) :
    EvidenceItem → EvidenceItem → Time → Time → List PaymentWindow → Prop
  /-- One window. -/
  | single {before after : EvidenceItem} {interval : MeasurementInterval} {w : PaymentWindow} :
    interval.incidentId = incidentId → compute held before after interval = .ok w → w.status = .complete →
      Chain held incidentId before after interval.start interval.finish [w]
  /-- A window, and those after it. -/
  | cons {before between after : EvidenceItem} {interval : MeasurementInterval} {w : PaymentWindow}
    {start finish : Time} {ws : List PaymentWindow} :
    interval.incidentId = incidentId → compute held before between interval = .ok w → w.status = .complete →
      Chain held incidentId between after start finish ws →
        Chain held incidentId before after interval.start finish (w :: ws)

/-- What is known of the ends of a chain. -/
structure Ends (held : Artifacts) (incidentId : Identifier) (before after : EvidenceItem) (start finish : Time)
    (ws : List PaymentWindow) (service : Service) (payload payload' : JsonObject) (p q : Parsed) : Prop where
  /-- The first snapshot. -/
  first : Input held before incidentId service payload p
  /-- The last one. -/
  last : Input held after incidentId service payload' q
  /-- They are joined. -/
  joined : Joined p q
  /-- They enclose the interval. -/
  encloses : Encloses p q start finish
  /-- When they were scraped has a date. -/
  dated : (∃ t, date p.watermark = .ok t) ∧ ∃ t, date q.watermark = .ok t
  /-- What the windows publish adds up. -/
  grown : ∀ key ∈ required, (ws.map (·.grown key)).sum = rise p q key

/-- What is parsed of a snapshot has no key twice. -/
theorem Input.nodup {held : Artifacts} {item : EvidenceItem} {incidentId : Identifier} {service : Service}
    {payload : JsonObject} {p : Parsed} (h : Input held item incidentId service payload p) :
    (p.values.map Prod.fst).Nodup := by
  obtain ⟨series, hrecorded, -, -, hvalues⟩ := parsePayload_ok (parse_ok h.parsed).1
  rw [hvalues]
  refine ((List.perm_insertionSort _ _).map Prod.fst).nodup_iff.mpr ?_
  exact hrecorded.once.2.sublist (List.filter_sublist.map Prod.fst)

/-- **A snapshot is parsed in one way.** -/
theorem Input.unique {held : Artifacts} {item : EvidenceItem} {incidentId : Identifier} {service service' : Service}
    {payload payload' : JsonObject} {p p' : Parsed} (h : Input held item incidentId service payload p)
    (h' : Input held item incidentId service' payload' p') : service = service' ∧ p = p' := by
  have hservice : service = service' := by
    refine Option.some.inj ?_
    rw [← serviceOf_name service, ← serviceOf_name service', ← h.resource, h'.resource]
  subst hservice
  obtain ⟨envelope, henvelope, hpayload⟩ := h.verified
  obtain ⟨envelope', henvelope', hpayload'⟩ := h'.verified
  obtain rfl : envelope = envelope' := Except.ok.inj (henvelope.symm.trans henvelope')
  obtain rfl : payload = payload' := Json.obj.inj (Option.some.inj (hpayload.symm.trans hpayload'))
  exact ⟨rfl, Except.ok.inj (h.parsed.symm.trans h'.parsed)⟩

/-- **The ends of one window.** -/
theorem compute_ends (hexact : Exact) {held : Artifacts} {before after : EvidenceItem} {interval : MeasurementInterval}
    {w : PaymentWindow} (h : compute held before after interval = .ok w) (hcomplete : w.status = .complete) :
    ∃ service payload payload' p q, Ends held interval.incidentId before after interval.start interval.finish [w]
      service payload payload' p q := by
  obtain ⟨service, payload, payload', p, q, -, hfirst, hlast, hassembled⟩ := compute_ok h
  obtain ⟨points, hpoints, hstart, hend, hw⟩ := assemble_ok hassembled
  rw [hw] at hcomplete
  obtain ⟨hjoined, hencloses, hsettled⟩ := settle_joined hexact ⟨hfirst.nodup, hlast.nodup⟩ hcomplete
  refine ⟨service, payload, payload', p, q, hfirst, hlast, hjoined, hencloses, ⟨⟨_, hstart⟩, ⟨_, hend⟩⟩, ?_⟩
  intro key hkey
  rw [List.map_singleton, List.sum_singleton]
  exact grown_eq hexact hassembled hjoined hsettled hkey

/-- **The ends of a chain** are joined, and what its windows publish adds up, by induction on the chain. -/
theorem Chain.ends (hexact : Exact) {held : Artifacts} {incidentId : Identifier} {before after : EvidenceItem}
    {start finish : Time} {ws : List PaymentWindow} (h : Chain held incidentId before after start finish ws) :
    ∃ service payload payload' p q, Ends held incidentId before after start finish ws service payload payload' p q := by
  induction h with
  | single hincident hcompute hcomplete =>
    subst hincident
    exact compute_ends hexact hcompute hcomplete
  | cons hincident hcompute hcomplete _ ih =>
    subst hincident
    obtain ⟨service, payload, _, p, q, hends⟩ := compute_ends hexact hcompute hcomplete
    obtain ⟨service', _, payload', q', r, hrest⟩ := ih
    -- the snapshot in the middle is parsed twice, and in one way
    obtain ⟨rfl, rfl⟩ := hends.last.unique hrest.first
    refine ⟨service, payload, payload', p, r, hends.first, hrest.last, hends.joined.trans hrest.joined,
      ⟨hends.encloses.before, hrest.encloses.after⟩, ⟨hends.dated.1, hrest.dated.2⟩, fun key hkey => ?_⟩
    have hone := hends.grown key hkey
    rw [List.map_singleton, List.sum_singleton] at hone
    rw [List.map_cons, List.sum_cons, hone, hrest.grown key hkey, ← rise_trans]

/-- **The window of two snapshots** that are joined. -/
theorem Ends.window (hexact : Exact) {held : Artifacts} {interval : MeasurementInterval} {before after : EvidenceItem}
    {ws : List PaymentWindow} {service : Service} {payload payload' : JsonObject} {p q : Parsed}
    (h : Ends held interval.incidentId before after interval.start interval.finish ws service payload payload' p q)
    (hdistinct : before.evidenceId ≠ after.evidenceId) :
    ∃ w, compute held before after interval = .ok w ∧ w.status = .complete ∧
      ∀ key ∈ required, w.grown key = rise p q key := by
  obtain ⟨envelope, henvelope, hpayload⟩ := h.first.verified
  obtain ⟨envelope', henvelope', hpayload'⟩ := h.last.verified
  have hresource : before.resource = after.resource := Subtype.ext (h.first.resource.trans h.last.resource.symm)
  have hcompute : compute held before after interval = assemble service before after interval p q := by
    refine compute_of henvelope henvelope' (by rw [get, hpayload]; rfl) (by rw [get, hpayload']; rfl) ?_ ?_
      h.first.parsed h.last.parsed
    · simp [hdistinct, h.first.incident, h.last.incident, hresource, h.first.source, h.last.source]
    · rw [h.first.resource]
      exact serviceOf_name service
  have hsettled := joined_settle hexact h.joined h.encloses
  have hrises : ∀ v ∈ sortValues (growth p q), 0 ≤ v.2 := by
    intro v hv
    rw [mem_sortValues, growth_eq hexact h.joined.series.2] at hv
    obtain ⟨key, hkey, rfl⟩ := List.mem_map.mp hv
    exact sub_nonneg.mpr (h.joined.rising key (h.joined.series.2.mem_iff.mp hkey))
  obtain ⟨points, hpoints⟩ := makeDeltas_of hrises
  obtain ⟨⟨windowStart, hstart⟩, ⟨windowEnd, hend⟩⟩ := h.dated
  have hw : assemble service before after interval p q = .ok _ := assemble_of hsettled hpoints hstart hend
  exact ⟨_, hcompute.trans hw, rfl, fun key hkey => grown_eq hexact hw h.joined (by rw [hsettled]) hkey⟩

end Windows

section Sample

open Memory.Lineage (passagePlatform passageIsoformat)

attribute [local instance] passagePlatform passageIsoformat wholeNumerals wholeFloats sampleHashing

end Sample

end PayOps.Evidence.Payment
