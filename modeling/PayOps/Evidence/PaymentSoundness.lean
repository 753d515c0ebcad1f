import PayOps.Evidence.PaymentWindow
import PayOps.Evidence.PaymentReread
import PayOps.Memory.Lineage

/-!
# What a complete payment window says

A window that passes `verify_payment_window` and is complete comes from two snapshots that are in the store.

## The model

`Row`, `Vector` and `Snapshot` say what the source of a payload says, in terms of its JSON and without the functions
that read it. Of floats it is assumed that their arithmetic is exact (`Exact`).

## What is proved

* `value_ok`, `rows_ok`, `labels_ok` — what is read of a row, when nothing is raised.
* `metricStep_ok`, `metricSteps_ok` — each row gives one series; no series is given twice.
* `parsePayload_ok`, `coverage_complete`, `compute_ok` — what has been checked of a snapshot, and of two.
* `payment_window_sound` — **main result**: what a complete window says is what the two snapshots say.
-/

namespace PayOps.Evidence.Payment

open Json (field asStr)
open FileStore (Hashing)
open Orchestrator (Service)
open Tools (snapshotQuery)

/-! ### Lists -/

theorem mapM_ok {ε α β : Type} {f : α → Except ε β} {xs : List α} {ys : List β} :
    xs.mapM f = .ok ys ↔ List.Forall₂ (fun x y => f x = .ok y) xs ys := by
  induction xs generalizing ys with
  | nil => cases ys <;> simp [pure, Except.pure]
  | cons x xs ih =>
    rw [List.mapM_cons, bind_eq_ok]
    constructor
    · rintro ⟨y, hy, h⟩
      obtain ⟨ys', hys, hpair⟩ := bind_eq_ok.mp h
      cases hpair
      exact .cons hy (ih.mp hys)
    · rintro (_ | ⟨hy, hys⟩)
      exact ⟨_, hy, bind_eq_ok.mpr ⟨_, ih.mpr hys, rfl⟩⟩

/-- What is looked up is an item. -/
theorem mem_of_lookup {α β : Type} [BEq α] [LawfulBEq α] {items : List (α × β)} {key : α} {x : β}
    (h : items.lookup key = some x) : (key, x) ∈ items := by
  obtain ⟨before, after, rfl, -⟩ := List.lookup_eq_some_iff.mp h
  exact List.mem_append_right _ List.mem_cons_self

/-- A key of an item has a value. -/
theorem lookup_of_key {α β : Type} [BEq α] [LawfulBEq α] {items : List (α × β)} {key : α}
    (h : key ∈ items.map Prod.fst) : ∃ x, items.lookup key = some x := by
  rw [← Option.isSome_iff_exists, List.lookup_isSome_iff]
  obtain ⟨item, hitem, rfl⟩ := List.mem_map.mp h
  exact ⟨item, hitem, beq_self_eq_true _⟩

/-- What is looked up of values that are made of the keys. -/
theorem lookup_map {α β : Type} [BEq α] [LawfulBEq α] {keys : List α} (x : α → β) {key : α} (h : key ∈ keys) :
    (keys.map fun key => (key, x key)).lookup key = some (x key) := by
  induction keys with
  | nil => cases h
  | cons k keys ih =>
    rw [List.map_cons, List.lookup_cons]
    by_cases hsame : key = k
    · subst hsame
      rw [beq_self_eq_true]
    · have hne : (key == k) = false := beq_eq_false_iff_ne.mpr hsame
      rw [hne]
      exact ih ((List.mem_cons.mp h).resolve_left hsame)

/-! ### Rows -/

section Spec

variable [Numerals] [Floats]

/-- **What a row says**: that a series of the service has a value. -/
structure Row (service : Service) (row : JsonObject) (key : Key) (x : ℚ) : Prop where
  /-- Its labels: those of the target, the name of the series and those of the key. -/
  metric : ∃ labels, field row "metric" = some (.obj labels) ∧
    (∀ l ∈ target service, field labels l.1 = some (.str l.2)) ∧ field labels "__name__" = some (.str key.1) ∧
    ∀ name text, (name, text) ∈ key.2 ↔ (name, .str text) ∈ labels ∧ name ∉ dropped
  /-- Its value. -/
  value : ∃ stamp text, field row "value" = some (.arr [stamp, .str text]) ∧ Floats.parse text = some (some x) ∧ 0 ≤ x

/-- A field of a payload is an instant vector of these rows. -/
def Vector (payload : JsonObject) (name : String) (rows : List JsonObject) : Prop :=
  ∃ response data, field payload name = some (.obj response) ∧ field response "status" = some (.str "success") ∧
    field response "data" = some (.obj data) ∧ field data "result" = some (.arr (rows.map .obj))

omit [Numerals] [Floats] in
theorem get_some {fields : JsonObject} {key : String} {v : Json} (h : get fields key = v) (hv : v ≠ .null) :
    field fields key = some v := by
  unfold get at h
  cases hfield : field fields key with
  | none => exact absurd (by simpa [hfield] using h.symm) hv
  | some v' => simpa [hfield] using h

omit [Numerals] [Floats] in
theorem object_ok {v : Json} {fields : JsonObject} : object v = .ok fields ↔ v = .obj fields := by
  cases v <;> simp [object]

omit [Numerals] [Floats] in
theorem get_object {fields inner : JsonObject} {key : String} (h : object (get fields key) = .ok inner) :
    field fields key = some (.obj inner) :=
  get_some (object_ok.mp h) nofun

omit [Numerals] [Floats] in
theorem finiteFloat_ok {x : Option ℚ} {y : ℚ} (h : finiteFloat x = .ok y) : x = some y ∧ 0 ≤ y := by
  cases x with
  | none => cases h
  | some x =>
    simp only [finiteFloat] at h
    split_ifs at h with hneg
    cases h
    exact ⟨rfl, not_lt.mp hneg⟩

theorem finiteValue_ok {v : Json} {x : ℚ} (h : finiteValue v = .ok x) : strictFloat v = some x ∧ 0 ≤ x := by
  cases v with
  | float r => exact finiteFloat_ok h
  | int n =>
    unfold finiteValue at h
    cases hn : Floats.ofInt n with
    | none => simp [hn] at h
    | some y =>
      simp only [hn] at h
      obtain ⟨hy, hpos⟩ := finiteFloat_ok h
      exact ⟨hn.trans hy, hpos⟩
  | _ => cases h

/-- **What is read of the value of a row.** -/
theorem value_ok {row : JsonObject} {evaluatedAt x : ℚ} (h : value row evaluatedAt = .ok x) :
    ∃ stamp text, field row "value" = some (.arr [stamp, .str text]) ∧ Floats.parse text = some (some x) ∧ 0 ≤ x := by
  unfold value at h
  split at h
  · rename_i stamp text hpair
    obtain ⟨_, _, h⟩ := bind_eq_ok.mp h
    split_ifs at h
    · cases h
    · cases hparse : Floats.parse text with
      | none => simp [hparse] at h
      | some y =>
        obtain ⟨rfl, hpos⟩ := finiteFloat_ok (by simpa [hparse] using h)
        exact ⟨stamp, text, get_some hpair nofun, hparse, hpos⟩
  · cases h

omit [Floats] in
/-- **What is read of a vector.** -/
theorem rows_ok {payload : JsonObject} {name : String} {items : List JsonObject}
    (h : rows (get payload name) = .ok items) : Vector payload name items := by
  unfold rows at h
  obtain ⟨response, hresponse, h⟩ := bind_eq_ok.mp h
  split_ifs at h with hstatus
  · cases h
  · obtain ⟨data, hdata, h⟩ := bind_eq_ok.mp h
    rw [not_or, not_not] at hstatus
    split at h
    · rename_i found hfound
      split_ifs at h
      · cases h
      · have hitems : found = items.map .obj := by
          have hall := mapM_ok.mp h
          refine (List.forall₂_eq_eq_eq ▸ ?_ : found = items.map .obj)
          rw [List.forall₂_map_right_iff]
          exact hall.imp fun v fields hv => object_ok.mp hv
        subst hitems
        exact ⟨response, data, get_object hresponse, get_some hstatus.1 nofun, get_object hdata,
          get_some hfound nofun⟩
    · cases h

omit [Numerals] [Floats] in
/-- **What is read of the labels of a row.** -/
theorem labels_ok {row : JsonObject} {service : Service} {ls : JsonObject} (h : labels row service = .ok ls) :
    field row "metric" = some (.obj ls) ∧ (∀ l ∈ target service, field ls l.1 = some (.str l.2)) ∧
      ∀ l ∈ ls, ∃ text, l.2 = .str text := by
  unfold labels at h
  obtain ⟨found, hfound, h⟩ := bind_eq_ok.mp h
  split_ifs at h with htexts htarget htarget
  · cases h
  · cases h
  · cases h
  · obtain rfl : found = ls := Except.ok.inj h
    push Not at htarget htexts
    refine ⟨get_object hfound, fun l hl => get_some (htarget l hl) nofun, fun l hl => ?_⟩
    cases hv : l.2 with
    | str text => exact ⟨text, rfl⟩
    | _ => exact absurd (by simp [hv, asStr]) (htexts l hl)

omit [Numerals] [Floats] in
theorem mem_sortLabels {ls : Labels} {l : String × String} : l ∈ sortLabels ls ↔ l ∈ ls :=
  (List.perm_insertionSort _ _).mem_iff

omit [Numerals] [Floats] in
/-- No series is called `None`. -/
theorem allowed_named : ∀ key ∈ allowed, key.1 ≠ "None" := by decide +kernel

omit [Numerals] [Floats] in
/-- A row with labels of the target is one of its key. -/
theorem rowKey_named {ls : JsonObject} (h : rowKey ls ∈ allowed) :
    field ls "__name__" = some (.str (rowKey ls).1) := by
  have hname := allowed_named _ h
  simp only [rowKey] at hname ⊢
  cases hv : field ls "__name__" with
  | none => simp [hv] at hname
  | some v =>
    cases v with
    | str text => simp [asStr]
    | _ => simp [hv, asStr] at hname

omit [Numerals] [Floats] in
/-- The labels of a key are those of the row, but for the target and the name. -/
theorem mem_rowKey {ls : JsonObject} (htexts : ∀ l ∈ ls, ∃ text, l.2 = .str text) {name text : String} :
    (name, text) ∈ (rowKey ls).2 ↔ (name, .str text) ∈ ls ∧ name ∉ dropped := by
  rw [rowKey, mem_sortLabels, List.mem_map]
  constructor
  · rintro ⟨⟨k, v⟩, hl, hpair⟩
    obtain ⟨hmem, hkept⟩ := List.mem_filter.mp hl
    obtain ⟨s, hs⟩ := htexts _ hmem
    obtain rfl : v = .str s := hs
    obtain ⟨rfl, rfl⟩ := Prod.mk.inj hpair
    exact ⟨hmem, by simpa using hkept⟩
  · rintro ⟨hmem, hkept⟩
    exact ⟨(name, .str text), List.mem_filter.mpr ⟨hmem, by simpa using hkept⟩, rfl⟩

/-- **What one row does**: it gives a series that is allowed, and was not given before. -/
theorem metricStep_ok {service : Service} {evaluatedAt : ℚ} {values values' : List (Key × ℚ)} {row : JsonObject}
    (h : metricStep service evaluatedAt values row = .ok values') :
    ∃ key x, values' = values ++ [(key, x)] ∧ Row service row key x ∧ key ∈ allowed ∧ key ∉ values.map Prod.fst := by
  unfold metricStep at h
  obtain ⟨ls, hlabels, h⟩ := bind_eq_ok.mp h
  obtain ⟨hmetric, htarget, htexts⟩ := labels_ok hlabels
  split_ifs at h with hkey
  · cases h
  · obtain ⟨x, hx, hpair⟩ := bind_eq_ok.mp h
    rw [not_or, not_not] at hkey
    exact ⟨rowKey ls, x, (Except.ok.inj hpair).symm,
      ⟨⟨ls, hmetric, htarget, rowKey_named hkey.1, fun _ _ => mem_rowKey htexts⟩, value_ok hx⟩, hkey⟩

/-- **What all rows do**, by induction on them: they give one series each, and none of them twice. -/
theorem metricSteps_ok {service : Service} {evaluatedAt : ℚ} {items : List JsonObject}
    {values values' : List (Key × ℚ)} (h : items.foldlM (metricStep service evaluatedAt) values = .ok values')
    (hnodup : (values.map Prod.fst).Nodup) :
    ∃ added, values' = values ++ added ∧ List.Forall₂ (fun row s => Row service row s.1 s.2) items added ∧
      (∀ s ∈ added, s.1 ∈ allowed) ∧ (values'.map Prod.fst).Nodup := by
  induction items generalizing values with
  | nil =>
    obtain rfl : values = values' := Except.ok.inj h
    exact ⟨[], (List.append_nil _).symm, .nil, by simp, hnodup⟩
  | cons row items ih =>
    rw [List.foldlM_cons] at h
    obtain ⟨between, hstep, h⟩ := bind_eq_ok.mp h
    obtain ⟨key, x, rfl, hrow, hallowed, hnew⟩ := metricStep_ok hstep
    have hnodup' : ((values ++ [(key, x)]).map Prod.fst).Nodup := by
      rw [List.map_append, List.nodup_append]
      refine ⟨hnodup, List.nodup_singleton _, fun k hk k' hk' => ?_⟩
      rw [List.mem_singleton.mp hk']
      rintro rfl
      exact hnew hk
    obtain ⟨added, rfl, hrows, hall, hdone⟩ := ih h hnodup'
    exact ⟨(key, x) :: added, by simp, .cons hrow hrows, List.forall_mem_cons.mpr ⟨hallowed, hall⟩, hdone⟩

/-! ### Snapshots -/

/-- What is read of a snapshot. -/
structure Reading where
  /-- The payload. -/
  payload : JsonObject
  /-- When the queries were evaluated. -/
  evaluatedAt : ℚ
  /-- When the service was scraped. -/
  mark : ℚ
  /-- When its process began. -/
  epoch : ℚ
  /-- The series, and their values. -/
  series : List (Key × ℚ)

/-- **What a payload says**: the fields of a snapshot of a service. -/
structure Recorded (service : Service) (payload : JsonObject) (evaluatedAt : ℚ) (mark : Option ℚ)
    (series : List (Key × ℚ)) : Prop where
  /-- The query is that of the service. -/
  query : field payload "query" = some (.str (snapshotQuery service))
  /-- When the queries were evaluated. -/
  evaluated : (field payload "evaluated_at").bind strictFloat = some evaluatedAt
  /-- Each row of the metrics gives one series. -/
  metrics : ∃ rows, Vector payload "metrics" rows ∧ List.Forall₂ (fun row s => Row service row s.1 s.2) rows series
  /-- The series are known, and none is given twice. -/
  once : (∀ s ∈ series, s.1 ∈ allowed) ∧ (series.map Prod.fst).Nodup
  /-- The one row of the watermark gives the time of the scrape. -/
  watermark : ∀ x, mark = some x → ∃ row stamp text, Vector payload "watermark" [row] ∧
    field row "value" = some (.arr [stamp, .str text]) ∧ Floats.parse text = some (some x)

/-- **What is read of a watermark.** -/
theorem watermark_ok {payload : JsonObject} {service : Service} {evaluatedAt x : ℚ}
    (h : watermark payload service evaluatedAt = .ok (some x)) :
    ∃ row stamp text, Vector payload "watermark" [row] ∧ field row "value" = some (.arr [stamp, .str text]) ∧
      Floats.parse text = some (some x) := by
  unfold watermark at h
  obtain ⟨items, hitems, h⟩ := bind_eq_ok.mp h
  split at h
  · cases h
  · rename_i row
    obtain ⟨ls, _, h⟩ := bind_eq_ok.mp h
    split_ifs at h
    · cases h
    · obtain ⟨mark, hmark, h⟩ := bind_eq_ok.mp h
      split_ifs at h
      · cases h
      · cases h
        obtain ⟨stamp, text, hvalue, hparse, -⟩ := value_ok hmark
        exact ⟨row, stamp, text, rows_ok hitems, hvalue, hparse⟩
  · cases h

/-- **What has been read of a payload.** -/
theorem parsePayload_ok {payload : JsonObject} {service : Service} {p : Parsed}
    (h : parsePayload payload service = .ok p) :
    ∃ series, Recorded service payload p.evaluatedAt p.watermark series ∧ p.epoch = series.lookup (EPOCH, []) ∧
      p.available = (series.lookup ("up", []) == some 1) ∧
      p.values = sortValues (series.filter fun v => v.1 ≠ (EPOCH, []) ∧ v.1 ≠ ("up", [])) := by
  unfold parsePayload at h
  split_ifs at h with hquery hnames hnames
  · cases h
  · cases h
  · cases h
  · rw [not_or, not_not] at hquery
    obtain ⟨evaluatedAt, hevaluated, h⟩ := bind_eq_ok.mp h
    obtain ⟨series, hseries, h⟩ := bind_eq_ok.mp h
    obtain ⟨mark, hmark, h⟩ := bind_eq_ok.mp h
    dsimp only at h
    split_ifs at h
    · cases h
    · cases h
      obtain ⟨items, hitems, hsteps⟩ := bind_eq_ok.mp hseries
      obtain ⟨_, rfl, hrows, hallowed, hnodup⟩ := metricSteps_ok hsteps List.nodup_nil
      have hvalue : (field payload "evaluated_at").bind strictFloat = some evaluatedAt := by
        have hstrict := (finiteValue_ok hevaluated).1
        cases hfield : field payload "evaluated_at" with
        | none => simp [get, hfield, strictFloat] at hstrict
        | some v => simpa [get, hfield] using hstrict
      refine ⟨series, ⟨get_some hquery.1 (by simp), hvalue, ⟨items, rows_ok hitems, hrows⟩, ⟨hallowed, hnodup⟩, ?_⟩,
        rfl, rfl, rfl⟩
      rintro x rfl
      exact watermark_ok hmark

/-! ### Two snapshots -/

variable [Platform]

/-- What is checked of two snapshots of a window that is complete. -/
structure Covered (first last : Parsed) (interval : MeasurementInterval) (epoch mark mark' : ℚ) : Prop where
  /-- Both targets are up. -/
  up : first.available = true ∧ last.available = true
  /-- The process is the same. -/
  process : first.epoch = some epoch ∧ last.epoch = some epoch
  /-- Both targets were scraped. -/
  scraped : first.watermark = some mark ∧ last.watermark = some mark'
  /-- The first snapshot is from before the interval. -/
  before : Floats.round (Floats.timestamp interval.start - 15) ≤ mark ∧ mark ≤ first.evaluatedAt ∧
    first.evaluatedAt ≤ Floats.timestamp interval.start
  /-- The second snapshot is from after the interval. -/
  after : Floats.timestamp interval.finish ≤ mark' ∧ mark' ≤ last.evaluatedAt ∧
    last.evaluatedAt ≤ Floats.round (Floats.timestamp interval.finish + 30)
  /-- Both have the required series. -/
  series : (first.values.map Prod.fst).toFinset = required.toFinset ∧
    (last.values.map Prod.fst).toFinset = required.toFinset

omit [Numerals] in
/-- **When two snapshots cover an interval.** -/
theorem coverage_complete {first last : Parsed} {interval : MeasurementInterval}
    (h : coverage first last interval = .complete) :
    ∃ epoch mark mark', Covered first last interval epoch mark mark' := by
  unfold coverage at h
  split at h
  · rename_i epoch epoch' mark mark' hepoch hepoch' hmark hmark'
    dsimp only at h
    split_ifs at h with hup hsame htimes hseries
    push Not at hup hsame htimes hseries
    subst hsame
    exact ⟨epoch, mark, mark', by simpa using hup, ⟨hepoch, hepoch'⟩, ⟨hmark, hmark'⟩, htimes.1, htimes.2, hseries⟩
  · cases h

omit [Numerals] in
/-- Of a window that is complete, the deltas are those of all series, and they are consistent. -/
theorem settle_complete {first last : Parsed} {interval : MeasurementInterval} {delta : List (Key × ℚ)}
    (h : settle first last interval = (.complete, delta)) :
    coverage first last interval = .complete ∧ delta = growth first last ∧ consistent delta = true := by
  unfold settle at h
  cases hstatus : coverage first last interval with
  | complete =>
    simp only [hstatus] at h
    split_ifs at h with hconsistent
    · obtain ⟨-, rfl⟩ := Prod.mk.inj h
      exact ⟨rfl, rfl, hconsistent⟩
    · cases h
  | _ => simp [hstatus] at h

/-! ### Series -/

omit [Numerals] [Floats] [Platform] in
theorem mem_sortValues {values : List (Key × ℚ)} {v : Key × ℚ} : v ∈ sortValues values ↔ v ∈ values :=
  (List.perm_insertionSort _ _).mem_iff

omit [Platform] in
/-- **What is parsed of a snapshot that covers an interval**: each series that may be there is there once. -/
theorem series_all {service : Service} {payload : JsonObject} {p : Parsed} {epoch : ℚ} {series : List (Key × ℚ)}
    (hrecorded : Recorded service payload p.evaluatedAt p.watermark series)
    (hepoch : series.lookup (EPOCH, []) = some epoch)
    (hup : series.lookup ("up", []) = some 1)
    (hvalues : p.values = sortValues (series.filter fun v => v.1 ≠ (EPOCH, []) ∧ v.1 ≠ ("up", [])))
    (hrequired : (p.values.map Prod.fst).toFinset = required.toFinset) :
    (series.map Prod.fst).Perm allowed ∧ (p.values.map Prod.fst).Perm required ∧ ∀ v ∈ p.values, v ∈ series := by
  have hsub : ∀ v ∈ p.values, v ∈ series := by
    intro v hv
    rw [hvalues] at hv
    exact List.mem_of_mem_filter (mem_sortValues.mp hv)
  have hnodup : (p.values.map Prod.fst).Nodup := by
    rw [hvalues]
    refine ((List.perm_insertionSort _ _).map Prod.fst).nodup_iff.mpr ?_
    exact hrecorded.once.2.sublist (List.filter_sublist.map Prod.fst)
  refine ⟨?_, List.perm_of_nodup_nodup_toFinset_eq hnodup required_nodup hrequired, hsub⟩
  refine (List.perm_ext_iff_of_nodup hrecorded.once.2 allowed_nodup).mpr fun key => ⟨?_, fun hkey => ?_⟩
  · intro hkey
    obtain ⟨s, hs, rfl⟩ := List.mem_map.mp hkey
    exact hrecorded.once.1 s hs
  · rcases List.mem_append.mp hkey with hmem | hmem
    · have hkey' : key ∈ (p.values.map Prod.fst).toFinset := hrequired ▸ List.mem_toFinset.mpr hmem
      obtain ⟨v, hv, rfl⟩ := List.mem_map.mp (List.mem_toFinset.mp hkey')
      exact List.mem_map_of_mem (hsub v hv)
    · simp only [List.mem_cons, List.not_mem_nil, or_false] at hmem
      rcases hmem with rfl | rfl
      · exact List.mem_map_of_mem (mem_of_lookup hepoch)
      · exact List.mem_map_of_mem (mem_of_lookup hup)

/-! ### Deltas -/

omit [Numerals] [Floats] [Platform] in
theorem makeDeltas_ok {points : List (Key × ℚ)} {deltas : List Delta} (h : points.mapM makeDelta = .ok deltas) :
    deltas.map (fun d => (d.key, d.value)) = points := by
  have hall := mapM_ok.mp h
  refine (List.forall₂_eq_eq_eq ▸ ?_ : points = deltas.map fun d => (d.key, d.value)).symm
  rw [List.forall₂_map_right_iff]
  refine hall.imp fun point d hd => ?_
  unfold makeDelta at hd
  split_ifs at hd
  cases hd
  rfl

omit [Numerals] [Floats] [Platform] in
/-- The metrics of the required series. -/
theorem required_metrics : ∀ key ∈ required,
    key.1 = REQUESTS ∨ (key.1 = COUNT ∨ key.1 = SUM) ∨ key.1 = CONFLICTS := by decide +kernel

omit [Numerals] [Floats] [Platform] in
/-- **The deltas of a window** are all points, if their series are required. -/
theorem filters_perm {points : List Delta} (h : ∀ d ∈ points, d.key ∈ required) :
    (points.filter (·.metric = REQUESTS) ++ points.filter (fun d => d.metric = COUNT ∨ d.metric = SUM) ++
      points.filter (·.metric = CONFLICTS)).Perm points := by
  have hrest : ∀ q : Delta → Bool, (points.filter fun d => d.metric ≠ REQUESTS).filter q =
      points.filter fun d => q d && d.metric ≠ REQUESTS := fun q => List.filter_filter
  have hlatency : (points.filter fun d => d.metric = COUNT ∨ d.metric = SUM) =
      (points.filter fun d => d.metric ≠ REQUESTS).filter fun d => d.metric = COUNT ∨ d.metric = SUM := by
    rw [hrest]
    refine List.filter_congr fun d _ => ?_
    by_cases hd : d.metric = REQUESTS
    · rw [hd]
      decide
    · simp [hd]
  have hconflicts : points.filter (·.metric = CONFLICTS) =
      (points.filter fun d => d.metric ≠ REQUESTS).filter fun d => !decide (d.metric = COUNT ∨ d.metric = SUM) := by
    rw [hrest]
    refine List.filter_congr fun d hd => ?_
    have hmetric : d.metric = REQUESTS ∨ (d.metric = COUNT ∨ d.metric = SUM) ∨ d.metric = CONFLICTS :=
      required_metrics _ (h d hd)
    rcases hmetric with hm | (hm | hm) | hm <;> rw [hm] <;> decide
  rw [hlatency, hconflicts, List.append_assoc]
  refine ((List.filter_append_perm _ _).append_left _).trans ?_
  have hne : (points.filter fun d => d.metric ≠ REQUESTS) = points.filter fun d => !decide (d.metric = REQUESTS) :=
    List.filter_congr fun d _ => by simp
  rw [hne]
  exact List.filter_append_perm _ _

/-- **The arithmetic of floats is exact.** -/
structure Exact : Prop where
  /-- No operation rounds. -/
  round : ∀ x : ℚ, Floats.round x = x
  /-- A sum is the sum. -/
  sum : ∀ xs : List ℚ, Floats.sum xs = some xs.sum

omit [Numerals] [Platform] in
/-- The series that grow are those of the second snapshot. -/
theorem growth_keys (first last : Parsed) : (growth first last).map Prod.fst = last.values.map Prod.fst := by
  simp [growth]

omit [Numerals] [Platform] in
/-- **By what a series grows**: the second value minus the first. -/
theorem mem_growth (hexact : Exact) {first last : Parsed}
    (hkeys : ∀ key ∈ last.values.map Prod.fst, key ∈ first.values.map Prod.fst) {v : Key × ℚ}
    (h : v ∈ growth first last) :
    ∃ a b, (v.1, a) ∈ first.values ∧ (v.1, b) ∈ last.values ∧ v.2 = b - a := by
  obtain ⟨⟨key, b⟩, hlast, rfl⟩ := List.mem_map.mp h
  obtain ⟨a, ha⟩ := lookup_of_key (hkeys key (List.mem_map_of_mem hlast))
  refine ⟨a, b, mem_of_lookup ha, hlast, ?_⟩
  simp only [ha, Option.getD_some]
  exact hexact.round _

/-- The counters of the requests of a processor in a region. -/
def sliceRequests (requests : List Delta) (d : String × String) : List Delta :=
  requests.filter fun r => r.labels.lookup "processor" = some d.1 ∧ r.labels.lookup "region" = some d.2

/-- **The latency of each slice** agrees with its requests. -/
def Sliced (requests latency : List Delta) : Prop :=
  ∀ d ∈ dimensions, ∃ count ∈ latency, count.key = (COUNT, slice d.1 d.2) ∧
    count.value = ((sliceRequests requests d).map Delta.value).sum ∧
    (count.value = 0 → ∃ duration ∈ latency, duration.key = (SUM, slice d.1 d.2) ∧ duration.value = 0)

omit [Numerals] [Platform] in
/-- **Consistent deltas**: the count of each slice is the sum of its requests. -/
theorem consistent_ok (hexact : Exact) {delta : List (Key × ℚ)} (h : consistent delta = true) :
    ∀ d ∈ dimensions, ∃ count, ((COUNT, slice d.1 d.2), count) ∈ delta ∧
      count = ((delta.filter fun v => v.1.1 = REQUESTS ∧ v.1.2.lookup "processor" = some d.1 ∧
        v.1.2.lookup "region" = some d.2).map Prod.snd).sum ∧
      (count = 0 → ((SUM, slice d.1 d.2), 0) ∈ delta) := by
  intro d hd
  have hslice := List.all_eq_true.mp h d hd
  simp only [hexact.sum, Bool.and_eq_true, beq_iff_eq, Bool.not_eq_true', Bool.and_eq_false_iff, bne_eq_false_iff_eq,
    beq_eq_false_iff_ne] at hslice
  obtain ⟨hcount, hzero⟩ := hslice
  refine ⟨_, mem_of_lookup hcount, rfl, fun hsum => ?_⟩
  rcases hzero with hne | hduration
  · exact absurd (hcount.trans (congrArg some hsum)) hne
  · exact mem_of_lookup hduration

omit [Numerals] [Floats] [Platform] in
/-- A value is published as a point. -/
theorem point_of {points : List Delta} {delta : List (Key × ℚ)}
    (h : points.map (fun d => (d.key, d.value)) = sortValues delta) {key : Key} {x : ℚ} (hmem : (key, x) ∈ delta) :
    ∃ point ∈ points, point.key = key ∧ point.value = x := by
  rw [← mem_sortValues, ← h] at hmem
  obtain ⟨point, hpoint, hpair⟩ := List.mem_map.mp hmem
  obtain ⟨rfl, rfl⟩ := Prod.mk.inj hpair
  exact ⟨point, hpoint, rfl, rfl⟩

omit [Numerals] [Floats] [Platform] in
/-- The sum of the requests of a slice does not depend on the order of the points. -/
theorem slice_sum {points : List Delta} {delta : List (Key × ℚ)}
    (h : points.map (fun d => (d.key, d.value)) = sortValues delta) (d : String × String) :
    ((sliceRequests (points.filter (·.metric = REQUESTS)) d).map Delta.value).sum =
      ((delta.filter fun v => v.1.1 = REQUESTS ∧ v.1.2.lookup "processor" = some d.1 ∧
        v.1.2.lookup "region" = some d.2).map Prod.snd).sum := by
  have hperm : ((delta.filter fun v => v.1.1 = REQUESTS ∧ v.1.2.lookup "processor" = some d.1 ∧
      v.1.2.lookup "region" = some d.2).map Prod.snd).Perm
      (((points.map fun d => (d.key, d.value)).filter fun v => v.1.1 = REQUESTS ∧
        v.1.2.lookup "processor" = some d.1 ∧ v.1.2.lookup "region" = some d.2).map Prod.snd) := by
    rw [h]
    exact ((List.perm_insertionSort _ _).symm.filter _).map _
  rw [hperm.sum_eq, sliceRequests, List.filter_filter, List.filter_map, List.map_map]
  congr 2
  refine List.filter_congr fun r _ => ?_
  simp only [Function.comp_apply, Delta.key, Bool.decide_and]
  exact Bool.and_comm _ _

omit [Numerals] [Platform] in
/-- **The latency that is published** agrees with the requests that are published. -/
theorem sliced_points (hexact : Exact) {points : List Delta} {delta : List (Key × ℚ)}
    (h : points.map (fun d => (d.key, d.value)) = sortValues delta) (hconsistent : consistent delta = true) :
    Sliced (points.filter (·.metric = REQUESTS)) (points.filter fun d => d.metric = COUNT ∨ d.metric = SUM) := by
  intro d hd
  obtain ⟨count, hcount, hsum, hzero⟩ := consistent_ok hexact hconsistent d hd
  obtain ⟨point, hpoint, hkey, rfl⟩ := point_of h hcount
  have hmetric : point.metric = COUNT := congrArg Prod.fst hkey
  refine ⟨point, List.mem_filter.mpr ⟨hpoint, by simp [hmetric]⟩, hkey, hsum.trans (slice_sum h d).symm, ?_⟩
  intro hnone
  obtain ⟨duration, hduration, hkey', hvalue⟩ := point_of h (hzero hnone)
  have hmetric' : duration.metric = SUM := congrArg Prod.fst hkey'
  exact ⟨duration, List.mem_filter.mpr ⟨hduration, by simp [hmetric']⟩, hkey', hvalue⟩

/-! ### Windows -/

omit [Numerals] in
/-- **What is made of two snapshots.** -/
theorem assemble_ok {service : Service} {before after : EvidenceItem} {interval : MeasurementInterval}
    {first last : Parsed} {w : PaymentWindow} (h : assemble service before after interval first last = .ok w) :
    ∃ points, (sortValues (settle first last interval).2).mapM makeDelta = .ok points ∧
      date first.watermark = .ok w.windowStart ∧ date last.watermark = .ok w.windowEnd ∧
      w = ⟨service, interval, (before, after), (settle first last interval).1, w.windowStart, w.windowEnd, first.epoch,
        last.epoch, points.filter (·.metric = REQUESTS), points.filter (fun d => d.metric = COUNT ∨ d.metric = SUM),
        points.filter (·.metric = CONFLICTS)⟩ := by
  unfold assemble at h
  obtain ⟨points, hpoints, h⟩ := bind_eq_ok.mp h
  obtain ⟨windowStart, hstart, h⟩ := bind_eq_ok.mp h
  obtain ⟨windowEnd, hend, h⟩ := bind_eq_ok.mp h
  cases h
  exact ⟨points, hpoints, hstart, hend, rfl⟩

omit [Numerals] in
/-- What is made of two snapshots, of what is made of their values. -/
theorem assemble_of {service : Service} {before after : EvidenceItem} {interval : MeasurementInterval}
    {first last : Parsed} {status : Status} {delta : List (Key × ℚ)} {points : List Delta}
    {windowStart windowEnd : Option Time} (hsettled : settle first last interval = (status, delta))
    (hpoints : (sortValues delta).mapM makeDelta = .ok points) (hstart : date first.watermark = .ok windowStart)
    (hend : date last.watermark = .ok windowEnd) :
    assemble service before after interval first last = .ok ⟨service, interval, (before, after), status, windowStart,
      windowEnd, first.epoch, last.epoch, points.filter (·.metric = REQUESTS),
      points.filter (fun d => d.metric = COUNT ∨ d.metric = SUM), points.filter (·.metric = CONFLICTS)⟩ := by
  simp only [assemble, hsettled, hpoints, hstart, hend, bind, Except.bind, pure, Except.pure]

omit [Numerals] [Floats] [Platform] in
theorem serviceOf_some {text : String} {service : Service} (h : serviceOf text = some service) :
    service.name = text := by
  simpa using List.find?_some h

variable [Hashing] [Isoformat]

/-- A snapshot that is verified and parsed. -/
structure Input (held : Artifacts) (item : EvidenceItem) (incidentId : Identifier) (service : Service)
    (payload : JsonObject) (parsed : Parsed) : Prop where
  /-- Its envelope is in the store, with the payload. -/
  verified : ∃ envelope, verifyEnvelope held item = .ok envelope ∧ field envelope "payload" = some (.obj payload)
  /-- It is one of Prometheus. -/
  source : item.source = .prometheus
  /-- It is one of the incident. -/
  incident : item.incidentId = incidentId
  /-- It is one of the service. -/
  resource : item.resource.val = service.name
  /-- Its payload is parsed. -/
  parsed : parse item payload service = .ok parsed

/-- **What has been checked** of the two snapshots of a window. -/
theorem compute_ok {held : Artifacts} {before after : EvidenceItem} {interval : MeasurementInterval}
    {w : PaymentWindow} (h : compute held before after interval = .ok w) :
    ∃ service firstPayload lastPayload first last, before.evidenceId ≠ after.evidenceId ∧
      Input held before interval.incidentId service firstPayload first ∧
      Input held after interval.incidentId service lastPayload last ∧
      assemble service before after interval first last = .ok w := by
  unfold compute at h
  obtain ⟨envelope, henvelope, h⟩ := bind_eq_ok.mp h
  obtain ⟨firstPayload, hfirst, h⟩ := bind_eq_ok.mp h
  obtain ⟨envelope', henvelope', h⟩ := bind_eq_ok.mp h
  obtain ⟨lastPayload, hlast, h⟩ := bind_eq_ok.mp h
  split_ifs at h with hscope
  · cases h
  · push Not at hscope
    obtain ⟨hdistinct, hbefore, hafter, hresource, hsource, hsource'⟩ := hscope
    cases hservice : serviceOf before.resource.val with
    | none => simp [hservice] at h
    | some service =>
      simp only [hservice] at h
      obtain ⟨first, hparsed, h⟩ := bind_eq_ok.mp h
      obtain ⟨last, hparsed', h⟩ := bind_eq_ok.mp h
      have hname := serviceOf_some hservice
      exact ⟨service, firstPayload, lastPayload, first, last, hdistinct,
        ⟨⟨envelope, henvelope, get_object hfirst⟩, hsource, hbefore, hname.symm, hparsed⟩,
        ⟨⟨envelope', henvelope', get_object hlast⟩, hsource', hafter, by rw [← hresource, hname], hparsed'⟩, h⟩

omit [Hashing] [Isoformat] in
theorem parse_ok {item : EvidenceItem} {payload : JsonObject} {service : Service} {parsed : Parsed}
    (h : parse item payload service = .ok parsed) :
    parsePayload payload service = .ok parsed ∧ item.query.val = snapshotQuery service ∧
      parsed.evaluatedAt ≤ Floats.timestamp item.collectedAt ∧ item.observedAt ≤ item.collectedAt := by
  unfold parse at h
  obtain ⟨found, hfound, h⟩ := bind_eq_ok.mp h
  dsimp only at h
  split_ifs at h with hquery hcollected hmark
  obtain rfl : found = parsed := Except.ok.inj h
  push Not at hquery hcollected
  exact ⟨hfound, hquery, hcollected⟩

/-- **A snapshot**: an item of Prometheus in the store, of the incident and the service, with the target up and each
series once. -/
structure Snapshot (held : Artifacts) (item : EvidenceItem) (incidentId : Identifier) (service : Service)
    (r : Reading) : Prop where
  /-- Its artifact is verified, and has the payload. -/
  verified : ∃ envelope, verifyEnvelope held item = .ok envelope ∧ field envelope "payload" = some (.obj r.payload)
  /-- It is one of Prometheus. -/
  source : item.source = .prometheus
  /-- It is one of the incident. -/
  incident : item.incidentId = incidentId
  /-- It is one of the service. -/
  resource : item.resource.val = service.name
  /-- What its payload says. -/
  recorded : Recorded service r.payload r.evaluatedAt (some r.mark) r.series
  /-- Each required series is there once; the others are the two of the target. -/
  once : (r.series.map Prod.fst).Perm (required ++ [(EPOCH, []), ("up", [])])
  /-- The target is up. -/
  up : (("up", []), 1) ∈ r.series
  /-- When the process began. -/
  began : ((EPOCH, []), r.epoch) ∈ r.series

/-- **What a complete window says** of two snapshots. -/
structure Sound (w : PaymentWindow) (first last : Reading) : Prop where
  /-- The snapshots differ. -/
  distinct : w.inputs.1.evidenceId ≠ w.inputs.2.evidenceId ∧ w.inputs.1.artifactSha256 ≠ w.inputs.2.artifactSha256
  /-- The process is the same. -/
  process : first.epoch = last.epoch
  /-- The first snapshot is scraped and evaluated right before the interval. -/
  before : Floats.timestamp w.interval.start - 15 ≤ first.mark ∧ first.mark ≤ first.evaluatedAt ∧
    first.evaluatedAt ≤ Floats.timestamp w.interval.start
  /-- The second snapshot is scraped and evaluated right after the interval. -/
  after : Floats.timestamp w.interval.finish ≤ last.mark ∧ last.mark ≤ last.evaluatedAt ∧
    last.evaluatedAt ≤ Floats.timestamp w.interval.finish + 30
  /-- Each required series is published once. -/
  published : (w.deltas.map Delta.key).Perm required
  /-- What is published is the second value minus the first, and not negative. -/
  grown : ∀ d ∈ w.deltas, ∃ a b, (d.key, a) ∈ first.series ∧ (d.key, b) ∈ last.series ∧ d.value = b - a ∧ 0 ≤ d.value
  /-- The latency of each slice agrees with its requests. -/
  sliced : Sliced w.requestCounts w.latency

/-- **What is in the store** of a snapshot that covers an interval. -/
theorem Input.snapshot {held : Artifacts} {item : EvidenceItem} {incidentId : Identifier} {service : Service}
    {payload : JsonObject} {p : Parsed} (h : Input held item incidentId service payload p) {epoch mark : ℚ}
    (hup : p.available = true) (hepoch : p.epoch = some epoch) (hmark : p.watermark = some mark)
    (hrequired : (p.values.map Prod.fst).toFinset = required.toFinset) :
    ∃ series, Snapshot held item incidentId service ⟨payload, p.evaluatedAt, mark, epoch, series⟩ ∧
      (p.values.map Prod.fst).Perm required ∧ ∀ v ∈ p.values, v ∈ series := by
  obtain ⟨series, hrecorded, hbegan, havailable, hvalues⟩ := parsePayload_ok (parse_ok h.parsed).1
  rw [hup] at havailable
  rw [hepoch] at hbegan
  have hone : series.lookup ("up", []) = some 1 := beq_iff_eq.mp havailable.symm
  obtain ⟨honce, hkeys, hsub⟩ := series_all hrecorded hbegan.symm hone hvalues hrequired
  rw [hmark] at hrecorded
  exact ⟨series, ⟨h.verified, h.source, h.incident, h.resource, hrecorded, honce, mem_of_lookup hone,
    mem_of_lookup hbegan.symm⟩, hkeys, hsub⟩

omit [Floats] in
/-- Snapshots of different names have different artifacts. -/
theorem digest_ne {held : Artifacts} {a b : EvidenceItem} {envelope envelope' : JsonObject}
    (ha : verifyEnvelope held a = .ok envelope) (hb : verifyEnvelope held b = .ok envelope')
    (hdistinct : a.evidenceId ≠ b.evidenceId) : a.artifactSha256 ≠ b.artifactSha256 := fun hsame =>
  hdistinct (Subtype.ext (text_of_digest ha hb hsame "evidence_id" rfl rfl))

/-- **What `_compute` says of a complete window.** -/
theorem compute_sound (hexact : Exact) {held : Artifacts} {before after : EvidenceItem} {interval : MeasurementInterval}
    {w : PaymentWindow} (h : compute held before after interval = .ok w) (hcomplete : w.status = .complete) :
    ∃ first last, Snapshot held w.inputs.1 w.interval.incidentId w.service first ∧
      Snapshot held w.inputs.2 w.interval.incidentId w.service last ∧ Sound w first last := by
  obtain ⟨service, firstPayload, lastPayload, p, q, hdistinct, hfirst, hlast, hassembled⟩ := compute_ok h
  obtain ⟨points, hpoints, -, -, hw⟩ := assemble_ok hassembled
  rw [hw] at hcomplete
  have hsettled : settle p q interval = (.complete, (settle p q interval).2) := Prod.ext hcomplete rfl
  obtain ⟨hcoverage, hdelta, hconsistent⟩ := settle_complete hsettled
  obtain ⟨epoch, mark, mark', hc⟩ := coverage_complete hcoverage
  rw [hdelta] at hpoints hconsistent
  have hpairs := makeDeltas_ok hpoints
  obtain ⟨series, hsnapshot, hkeys, hsub⟩ := hfirst.snapshot hc.up.1 hc.process.1 hc.scraped.1 hc.series.1
  obtain ⟨series', hsnapshot', hkeys', hsub'⟩ := hlast.snapshot hc.up.2 hc.process.2 hc.scraped.2 hc.series.2
  have hpointKeys : (points.map Delta.key).Perm required := by
    have hmap : points.map Delta.key = (sortValues (growth p q)).map Prod.fst := by
      rw [← hpairs, List.map_map]
      rfl
    rw [hmap]
    refine ((List.perm_insertionSort _ _).map Prod.fst).trans ?_
    rw [growth_keys]
    exact hkeys'
  have hall := filters_perm fun d hd => hpointKeys.mem_iff.mp (List.mem_map_of_mem hd)
  have hbefore := hc.before
  have hafter := hc.after
  rw [hexact.round] at hbefore hafter
  rw [hw]
  refine ⟨_, _, hsnapshot, hsnapshot', ⟨hdistinct, ?_⟩, rfl, hbefore, hafter, (hall.map Delta.key).trans hpointKeys, ?_, ?_⟩
  · obtain ⟨envelope, henvelope, -⟩ := hfirst.verified
    obtain ⟨envelope', henvelope', -⟩ := hlast.verified
    exact digest_ne henvelope henvelope' hdistinct
  · intro d hd
    have hpoint : d ∈ points := hall.mem_iff.mp hd
    have hgrown : (d.key, d.value) ∈ growth p q := by
      rw [← mem_sortValues, ← hpairs]
      exact List.mem_map_of_mem (f := fun d : Delta => (d.key, d.value)) hpoint
    obtain ⟨a, b, ha, hb, hvalue⟩ := mem_growth hexact (fun key hkey => hkeys.mem_iff.mpr (hkeys'.mem_iff.mp hkey)) hgrown
    exact ⟨a, b, hsub _ ha, hsub' _ hb, hvalue, d.nonneg⟩
  · exact sliced_points hexact hpairs hconsistent

variable [Datetimes]

/-- **What a payment window says is so.** If arithmetic is exact, a complete window that passes the verification comes
from two different snapshots in the store: both are of its incident and its service, the target was up and its process
the same, they enclose the interval, and what is published are the differences of all required series; the latency of
each slice agrees with its requests. -/
theorem payment_window_sound (hexact : Exact) (held : Artifacts) (item : EvidenceItem) (w : PaymentWindow)
    (h : verifyPaymentWindow held item = .ok w) (hcomplete : w.status = .complete) :
    ∃ first last, Snapshot held w.inputs.1 w.interval.incidentId w.service first ∧
      Snapshot held w.inputs.2 w.interval.incidentId w.service last ∧ Sound w first last := by
  unfold verifyPaymentWindow at h
  obtain ⟨envelope, _, h⟩ := bind_eq_ok.mp h
  obtain ⟨raw, _, h⟩ := bind_eq_ok.mp h
  split_ifs at h
  · cases h
  · cases hwindow : PaymentWindow.validate raw with
    | none => simp [hwindow] at h
    | some window =>
      simp only [hwindow] at h
      obtain ⟨expected, hexpected, h⟩ := bind_eq_ok.mp h
      obtain ⟨_, _, h⟩ := bind_eq_ok.mp h
      cases h
      exact compute_sound hexact hexpected hcomplete

end Spec

/-! ### A window -/

section Sample

open Memory.Lineage (passagePlatform passageIsoformat passageDatetimes contentOf)

/-- The value of digits. -/
def digits (cs : List Char) : Option ℚ :=
  if cs ≠ [] ∧ cs.all Json.isDigit then some (Json.digitsValue cs : ℕ) else none

/-- Floats without a fraction. -/
@[reducible] def wholeNumerals : Numerals where
  value text :=
    if text.toList.drop (text.toList.length - 2) = ['.', '0'] then digits (text.toList.take (text.toList.length - 2))
    else none

/-- Floats without a fraction, whose arithmetic is exact. -/
@[reducible] def wholeFloats : Floats where
  round x := x
  sum xs := some xs.sum
  parse text := (digits text.toList).map some
  ofInt n := some n
  repr x := String.ofList (Nat.toDigits 10 x.num.toNat ++ ['.', '0'])
  timestamp t := (t : ℚ) / 1000000
  fromTimestamp x := .ok ⌊x * 1000000⌋

attribute [local instance] passagePlatform passageIsoformat passageDatetimes wholeNumerals wholeFloats

/-- A row of a snapshot. -/
def sampleRow (evaluatedAt : String) (labels : Labels) (text : String) : JsonObject :=
  [("metric", .obj ((target .paymentsApi ++ labels).map fun l => (l.1, .str l.2))),
    ("value", .arr [.float evaluatedAt, .str text])]

/-- A response with these rows. -/
def sampleVector (rows : List JsonObject) : Json :=
  .obj [("status", .str "success"), ("data", .obj [("resultType", .str "vector"), ("result", .arr (rows.map .obj))])]

/-- The series of the sample that grow. -/
def growing : List Key := [(REQUESTS, requestLabels "A" "us" "credit" "accepted"), (COUNT, slice "A" "us")]

/-- The payload of a snapshot; the values of the series that grow are `text`. -/
def samplePayload (evaluatedAt mark text : String) : JsonObject :=
  [("evaluated_at", .float evaluatedAt), ("query", .str (snapshotQuery .paymentsApi)),
    ("watermark_query", .str (watermarkQuery .paymentsApi)),
    ("metrics", sampleVector (allowed.map fun key => sampleRow evaluatedAt (("__name__", key.1) :: key.2)
      (if key = ("up", []) then "1" else if key ∈ growing then text else "0"))),
    ("watermark", sampleVector [sampleRow evaluatedAt [] mark])]

theorem sample_texts : strippedOk 4000 (snapshotQuery .paymentsApi) = true ∧
    strippedOk 4000 "Payment snapshot for payments-api; target available: True" = true ∧
    strippedOk 4000 "Payment counter window: complete" = true ∧ strippedOk 4000 DERIVED_QUERY = true := by
  unfold strippedOk snapshotQuery DERIVED_QUERY Service.name
  simp only [String.toList_append]
  -- the characters of the literals are written out before the kernel reads them
  repeat rw [String.toList_ofList]
  decide +kernel

theorem sample_incident : identifierOk "i1" = true := by decide

theorem sample_resource : identifierOk "payments-api" = true := by decide

/-- The metadata of the sample. -/
def sampleMetadata (evidenceId : Identifier) (source : Source) (observedAt collectedAt : Time) (query summary : Summary) :
    EvidenceMetadata :=
  ⟨evidenceId, ⟨"i1", sample_incident⟩, source, observedAt, collectedAt, query, ⟨"payments-api", sample_resource⟩,
    summary⟩

/-- The metadata of a snapshot. -/
def snapshotMetadata (evidenceId : Identifier) (observedAt collectedAt : Time) : EvidenceMetadata :=
  sampleMetadata evidenceId .prometheus observedAt collectedAt ⟨_, sample_texts.1⟩ ⟨_, sample_texts.2.1⟩

/-- The envelope of the first snapshot. -/
def beforeEnvelope : JsonObject :=
  envelope (snapshotMetadata ⟨"before", by decide⟩ (seconds 1) (seconds 3)) (.obj (samplePayload "2.0" "1" "0"))

/-- The envelope of the second snapshot. -/
def afterEnvelope : JsonObject :=
  envelope (snapshotMetadata ⟨"after", by decide⟩ (seconds 5) (seconds 7)) (.obj (samplePayload "6.0" "5" "3"))

/-- The digests of the sample. -/
def beforeDigest : Digest := ⟨"e937f0742570fe809a6137adbbb42ee86b0abfdbb203187ac0f1cbe3972a2121", by decide⟩

/-- The digests of the sample. -/
def afterDigest : Digest := ⟨"bba612dcd955ad964d9ef62ec8f4e4c8f23425f9cbda38a9b63dfae1a4223244", by decide⟩

/-- The digests of the sample. -/
def windowDigest : Digest := ⟨"4bd659eae9e448ed93cc9001cfc21e52d20f29b3a1a815671833b88c373a7c17", by decide⟩

/-- The first snapshot. -/
def sampleBefore : EvidenceItem :=
  retained (snapshotMetadata ⟨"before", by decide⟩ (seconds 1) (seconds 3)) beforeDigest

/-- The second snapshot. -/
def sampleAfter : EvidenceItem :=
  retained (snapshotMetadata ⟨"after", by decide⟩ (seconds 5) (seconds 7)) afterDigest

/-- The interval. -/
def sampleInterval : MeasurementInterval := ⟨⟨"i1", sample_incident⟩, seconds 2, seconds 5, by decide⟩

/-- The required series, in the order of a window. -/
def sortedRequired : List Key :=
  ([COUNT, SUM].flatMap fun name => ["A", "B"].flatMap fun processor => ["eu", "us"].map fun region =>
    (name, slice processor region)) ++
  (CONFLICTS, []) ::
    ["credit", "debit"].flatMap fun method => ["A", "B"].flatMap fun processor => ["eu", "us"].flatMap fun region =>
      ["accepted", "declined", "error"].map fun status =>
        (REQUESTS, [("payment_method", method), ("processor", processor), ("region", region), ("status", status)])

/-- How lists of texts are ordered. -/
theorem cons_le_cons {x y : String} {xs ys : List String} : x :: xs ≤ y :: ys ↔ x < y ∨ x = y ∧ xs ≤ ys := by
  rw [le_iff_lt_or_eq, le_iff_lt_or_eq, List.cons.injEq, List.cons_lt_cons_iff]
  tauto

/-- What is computed of the series. -/
theorem sample_series : sortedRequired.Perm required ∧
    (∀ key ∈ required, key ≠ (EPOCH, []) ∧ key ≠ ("up", [])) ∧ (EPOCH, []) ∉ growing ∧
    (COUNT < SUM ∧ SUM < CONFLICTS ∧ CONFLICTS < REQUESTS) ∧ "A" < "B" ∧ "eu" < "us" ∧ "credit" < "debit" ∧
    "accepted" < "declined" ∧ "declined" < "error" := by
  decide +kernel

theorem sortedRequired_sorted : sortedRequired.IsChain fun a b => keyOrder a ≤ keyOrder b := by
  obtain ⟨-, -, -, ⟨hcount, hsum, hconflicts⟩, hprocessor, hregion, hmethod, haccepted, hdeclined⟩ := sample_series
  simp only [sortedRequired, keyOrder, slice, cons_le_cons, List.flatMap_cons, List.flatMap_nil, List.map_cons,
    List.map_nil, List.append_nil, List.cons_append, List.nil_append, List.isChain_cons_cons, List.isChain_singleton,
    hcount, hsum, hconflicts, hprocessor, hregion, hmethod, haccepted, hdeclined, true_and, true_or, or_true, and_true,
    le_refl]

/-- No two keys are ordered alike. -/
theorem keyOrder_inj {a b : Key} (h : keyOrder a = keyOrder b) : a = b := by
  obtain ⟨name, labels⟩ := a
  obtain ⟨name', labels'⟩ := b
  obtain ⟨rfl, hlabels⟩ := List.cons.inj h
  refine Prod.ext rfl (?_ : labels = labels')
  clear h
  induction labels generalizing labels' with
  | nil =>
    cases labels' with
    | nil => rfl
    | cons l ls => cases hlabels
  | cons l ls ih =>
    cases labels' with
    | nil => cases hlabels
    | cons l' ls' =>
      simp only [List.flatMap_cons, List.cons_append, List.nil_append, List.cons.injEq] at hlabels
      obtain ⟨hname, htext, hrest⟩ := hlabels
      rw [Prod.ext hname htext, ih _ hrest]

/-- **The values of the required series, sorted.** -/
theorem sortValues_required {keys : List Key} (h : keys.Perm required) (x : Key → ℚ) :
    sortValues (keys.map fun key => (key, x key)) = sortedRequired.map fun key => (key, x key) := by
  let order (a b : Key × ℚ) : Prop := keyOrder a.1 ≤ keyOrder b.1
  have : Std.Total order := ⟨fun a b => le_total (keyOrder a.1) (keyOrder b.1)⟩
  have : IsTrans (Key × ℚ) order := ⟨fun _ _ _ => le_trans⟩
  have : Trans (fun a b : Key => keyOrder a ≤ keyOrder b) (fun a b : Key => keyOrder a ≤ keyOrder b)
    fun a b : Key => keyOrder a ≤ keyOrder b := ⟨le_trans⟩
  have hperm : (sortValues (keys.map fun key => (key, x key))).Perm (sortedRequired.map fun key => (key, x key)) :=
    (List.perm_insertionSort _ _).trans ((h.trans sample_series.1.symm).map _)
  have hsame (a b : Key × ℚ) (ha : a ∈ sortValues (keys.map fun key => (key, x key)))
      (hb : b ∈ sortedRequired.map fun key => (key, x key)) (hab : order a b) (hba : order b a) : a = b := by
    obtain ⟨k, -, rfl⟩ := List.mem_map.mp (hperm.mem_iff.mp ha)
    obtain ⟨k', -, rfl⟩ := List.mem_map.mp hb
    obtain rfl : k = k' := keyOrder_inj (le_antisymm hab hba)
    rfl
  exact List.Perm.eq_of_pairwise hsame (List.pairwise_insertionSort order _)
    (List.pairwise_map.mpr (List.isChain_iff_pairwise.mp sortedRequired_sorted)) hperm

/-- Keys are compared by what they are. -/
local instance keyLawful : LawfulBEq Key := inferInstance

/-- The snapshots, as they are parsed. -/
def sampleParsed (evaluatedAt mark x : ℚ) : Parsed :=
  ⟨evaluatedAt, some mark, some 0, true, sortedRequired.map fun key => (key, if key ∈ growing then x else 0)⟩

/-- The values of a snapshot of the sample. -/
def sampleValue (x : ℚ) (key : Key) : ℚ := if key = ("up", []) then 1 else if key ∈ growing then x else 0

theorem sampleValue_targets (x : ℚ) : sampleValue x (EPOCH, []) = 0 ∧ sampleValue x ("up", []) = 1 := by
  have hother : ((EPOCH, []) : Key) ≠ ("up", []) := by simp [EPOCH]
  exact ⟨by rw [sampleValue, if_neg hother, if_neg sample_series.2.2.1], if_pos rfl⟩

/-- What is kept of the values of a snapshot of the sample. -/
theorem sampleValue_kept (x : ℚ) :
    (allowed.map fun key => (key, sampleValue x key)).filter (fun v => v.1 ≠ (EPOCH, []) ∧ v.1 ≠ ("up", [])) =
      required.map fun key => (key, if key ∈ growing then x else 0) := by
  rw [allowed, List.map_append, List.filter_append]
  have htargets : ([(EPOCH, []), ("up", [])].map fun key => (key, sampleValue x key)).filter
      (fun v => v.1 ≠ (EPOCH, []) ∧ v.1 ≠ ("up", [])) = [] := by simp
  have hkept : (required.map fun key => (key, sampleValue x key)).filter
      (fun v => v.1 ≠ (EPOCH, []) ∧ v.1 ≠ ("up", [])) = required.map fun key => (key, sampleValue x key) := by
    refine List.filter_eq_self.mpr fun v hv => ?_
    obtain ⟨key, hkey, rfl⟩ := List.mem_map.mp hv
    simpa using sample_series.2.1 key hkey
  rw [htargets, hkept, List.append_nil]
  refine List.map_congr_left fun key hkey => ?_
  rw [sampleValue, if_neg (sample_series.2.1 key hkey).2]

/-- What is computed of a snapshot of the sample. -/
def Scraped (item : EvidenceItem) (stamp scraped text : String) (evaluatedAt mark x : ℚ) : Prop :=
  metricValues (samplePayload stamp scraped text) .paymentsApi evaluatedAt =
      .ok (allowed.map fun key => (key, sampleValue x key)) ∧
    watermark (samplePayload stamp scraped text) .paymentsApi evaluatedAt = .ok (some mark) ∧
    finiteValue (.float stamp) = .ok evaluatedAt ∧ 0 ≤ mark ∧
    ¬(Floats.timestamp item.collectedAt < evaluatedAt ∨ item.collectedAt < item.observedAt) ∧
    ¬Floats.round (1 / 1000) < |Floats.round (Floats.timestamp item.observedAt - mark)|

instance (item : EvidenceItem) (stamp scraped text : String) (evaluatedAt mark x : ℚ) :
    Decidable (Scraped item stamp scraped text evaluatedAt mark x) :=
  inferInstanceAs (Decidable (_ ∧ _))

theorem sample_scraped : Scraped sampleBefore "2.0" "1" "0" 2 1 0 ∧ Scraped sampleAfter "6.0" "5" "3" 6 5 3 := by
  decide +kernel

/-- **The snapshots of the sample are parsed.** -/
theorem parsed_of {item : EvidenceItem} {stamp scraped text : String} {evaluatedAt mark x : ℚ}
    (h : Scraped item stamp scraped text evaluatedAt mark x) (hquery : item.query.val = snapshotQuery .paymentsApi) :
    parse item (samplePayload stamp scraped text) .paymentsApi = .ok (sampleParsed evaluatedAt mark x) := by
  obtain ⟨hvalues, hmark, hevaluated, hpos, hcollected, hobserved⟩ := h
  have hfields : ¬((∃ f ∈ samplePayload stamp scraped text, f.1 ∉ snapshotFields) ∨
      ∃ name ∈ snapshotFields, (field (samplePayload stamp scraped text) name).isNone) := by
    simp [samplePayload, snapshotFields, field]
  have hqueries : ¬(get (samplePayload stamp scraped text) "query" ≠ .str (snapshotQuery .paymentsApi) ∨
      get (samplePayload stamp scraped text) "watermark_query" ≠ .str (watermarkQuery .paymentsApi)) := by
    simp [samplePayload, get, field]
  have hstamp : get (samplePayload stamp scraped text) "evaluated_at" = .float stamp := by
    simp [samplePayload, get, field]
  have hlookups : (allowed.map fun key => (key, sampleValue x key)).lookup (EPOCH, []) = some 0 ∧
      (allowed.map fun key => (key, sampleValue x key)).lookup ("up", []) = some 1 := by
    have htargets : (EPOCH, []) ∈ allowed ∧ ("up", []) ∈ allowed := by simp [allowed]
    rw [lookup_map _ htargets.1, lookup_map _ htargets.2, (sampleValue_targets x).1, (sampleValue_targets x).2]
    exact ⟨rfl, rfl⟩
  have hpayload : parsePayload (samplePayload stamp scraped text) .paymentsApi =
      .ok (sampleParsed evaluatedAt mark x) := by
    unfold parsePayload
    simp only [if_neg hfields, if_neg hqueries, hstamp, hevaluated, hvalues, hmark, bind, Except.bind, pure,
      Except.pure, hlookups.1, hlookups.2, sampleValue_kept, sortValues_required (List.Perm.refl required)]
    rw [if_neg (by simpa using hpos)]
    rfl
  unfold parse
  rw [hpayload]
  simp only [bind, Except.bind]
  rw [if_neg (not_not.mpr hquery)]
  exact (if_neg hcollected).trans (if_neg hobserved)

theorem parsed_before :
    parse sampleBefore (samplePayload "2.0" "1" "0") .paymentsApi = .ok (sampleParsed 2 1 0) :=
  parsed_of sample_scraped.1 rfl

theorem parsed_after :
    parse sampleAfter (samplePayload "6.0" "5" "3") .paymentsApi = .ok (sampleParsed 6 5 3) :=
  parsed_of sample_scraped.2 rfl

/-- By how much a series of the sample grows. -/
def sampleDelta (key : Key) : Delta := ⟨key.1, key.2, if key ∈ growing then 3 else 0, by split_ifs <;> decide⟩

/-- The window. -/
def sampleWindow : PaymentWindow :=
  ⟨.paymentsApi, sampleInterval, (sampleBefore, sampleAfter), .complete, some (seconds 1), some (seconds 5), some 0,
    some 0, (sortedRequired.drop 9).map sampleDelta, (sortedRequired.take 8).map sampleDelta, [sampleDelta (CONFLICTS, [])]⟩

/-- What is computed of the window. -/
theorem sample_settled :
    settle (sampleParsed 2 1 0) (sampleParsed 6 5 3) sampleInterval =
      (.complete, sortedRequired.map fun key => (key, if key ∈ growing then 3 else 0)) ∧
    ((sortedRequired.map sampleDelta).filter (·.metric = REQUESTS) = (sortedRequired.drop 9).map sampleDelta ∧
      (sortedRequired.map sampleDelta).filter (fun d => d.metric = COUNT ∨ d.metric = SUM) =
        (sortedRequired.take 8).map sampleDelta ∧
      (sortedRequired.map sampleDelta).filter (·.metric = CONFLICTS) = [sampleDelta (CONFLICTS, [])]) ∧
    date (some 1) = .ok (some (seconds 1)) ∧ date (some 5) = .ok (some (seconds 5)) := by
  decide +kernel

theorem sample_assembled : assemble .paymentsApi sampleBefore sampleAfter sampleInterval (sampleParsed 2 1 0)
    (sampleParsed 6 5 3) = .ok sampleWindow := by
  obtain ⟨hsettled, ⟨hrequests, hlatency, hconflicts⟩, hstart, hend⟩ := sample_settled
  have hpoints : (sortValues (sortedRequired.map fun key => (key, if key ∈ growing then (3 : ℚ) else 0))).mapM
      makeDelta = .ok (sortedRequired.map sampleDelta) := by
    rw [sortValues_required sample_series.1]
    refine mapM_ok.mpr (List.forall₂_map_left_iff.mpr (List.forall₂_map_right_iff.mpr (List.forall₂_same.mpr ?_)))
    intro key _
    exact dif_pos (sampleDelta key).nonneg
  rw [assemble_of hsettled hpoints hstart hend, hrequests, hlatency, hconflicts]
  rfl

/-- The metadata of the window. -/
def windowMetadata : EvidenceMetadata :=
  sampleMetadata ⟨"window", by decide⟩ .payment (seconds 5) (seconds 8) ⟨DERIVED_QUERY, sample_texts.2.2.2⟩
    ⟨_, sample_texts.2.2.1⟩

/-- The envelope of the window. -/
def windowEnvelope : JsonObject := envelope windowMetadata (.obj (reread sampleWindow.dump))

/-- The window as evidence. -/
def sampleItem : EvidenceItem := retained windowMetadata windowDigest

/-- The digests and the values of the three contents, which differ in the second at which they were collected. -/
@[reducible] def sampleHashing : Hashing where
  hexdigest content :=
    if content[47]? = some 51 then beforeDigest.val
    else if content[47]? = some 55 then afterDigest.val
    else windowDigest.val
  validateJson content :=
    if content[47]? = some 51 then .ok beforeEnvelope
    else if content[47]? = some 55 then .ok afterEnvelope
    else .ok windowEnvelope

attribute [local instance] sampleHashing

/-- The content of an envelope, within the budget. -/
def sampleContent (payload : JsonObject) : FileStore.Bytes := (contentOf payload).take FileStore.MAX_ARTIFACT_BYTES

theorem sampleContent_small (payload : JsonObject) : (sampleContent payload).length ≤ FileStore.MAX_ARTIFACT_BYTES :=
  List.length_take_le _ _

theorem contents_marked : (sampleContent beforeEnvelope)[47]? = some 51 ∧ (sampleContent afterEnvelope)[47]? = some 55 ∧
    (sampleContent windowEnvelope)[47]? = some 56 := by
  have hmarked : (contentOf beforeEnvelope)[47]? = some 51 ∧ (contentOf afterEnvelope)[47]? = some 55 ∧
      (contentOf windowEnvelope)[47]? = some 56 := by decide +kernel
  have htake (payload : JsonObject) : (sampleContent payload)[47]? = (contentOf payload)[47]? :=
    List.getElem?_take_of_lt (by decide)
  rwa [htake, htake, htake]

/-- A store with the three artifacts. -/
def sampleStore : Artifacts := fun digest =>
  if digest = beforeDigest.val then some (sampleContent beforeEnvelope)
  else if digest = afterDigest.val then some (sampleContent afterEnvelope)
  else if digest = windowDigest.val then some (sampleContent windowEnvelope)
  else none

theorem before_verified : verifyEnvelope sampleStore sampleBefore = .ok beforeEnvelope :=
  verifyEnvelope_of rfl (if_pos rfl) (sampleContent_small _) (if_pos contents_marked.1)
    (if_pos contents_marked.1) rfl (metadata_equal _)

theorem after_verified : verifyEnvelope sampleStore sampleAfter = .ok afterEnvelope := by
  have hother : ¬(sampleContent afterEnvelope)[47]? = some 51 := by
    rw [contents_marked.2.1]
    decide
  have hheld : sampleStore sampleAfter.artifactSha256.val = some (sampleContent afterEnvelope) :=
    (if_neg (by decide)).trans (if_pos rfl)
  exact verifyEnvelope_of rfl hheld (sampleContent_small _)
    ((if_neg hother).trans (if_pos contents_marked.2.1)) ((if_neg hother).trans (if_pos contents_marked.2.1)) rfl
    (metadata_equal _)

theorem window_verified : verifyEnvelope sampleStore sampleItem = .ok windowEnvelope := by
  have hother : ¬(sampleContent windowEnvelope)[47]? = some 51 ∧ ¬(sampleContent windowEnvelope)[47]? = some 55 := by
    rw [contents_marked.2.2]
    decide
  have hheld : sampleStore sampleItem.artifactSha256.val = some (sampleContent windowEnvelope) :=
    (if_neg (by decide)).trans ((if_neg (by decide)).trans (if_pos rfl))
  exact verifyEnvelope_of rfl hheld (sampleContent_small _)
    ((if_neg hother.1).trans (if_neg hother.2)) ((if_neg hother.1).trans (if_neg hother.2)) rfl (metadata_equal _)

theorem sample_reads : sampleWindow.Reads where
  interval := by
    rw [TimeRead, TimeRead]
    decide +kernel
  inputs := by
    rw [TimesRead, TimesRead]
    decide +kernel
  scraped := by
    constructor <;> rintro t ⟨⟩ <;> rw [TimeRead] <;> decide +kernel
  process := by
    constructor <;> rintro x ⟨⟩ <;> rw [FloatRead] <;> decide +kernel
  deltas d hd := by
    have hdelta : ∃ key, d = sampleDelta key := by
      simp only [PaymentWindow.deltas, sampleWindow, List.mem_append, List.mem_map, List.mem_singleton] at hd
      rcases hd with (⟨key, -, rfl⟩ | ⟨key, -, rfl⟩) | rfl <;> exact ⟨_, rfl⟩
    obtain ⟨key, rfl⟩ := hdelta
    simp only [sampleDelta]
    split_ifs <;> rw [FloatRead] <;> decide +kernel

theorem payload_envelope (m : EvidenceMetadata) (payload : JsonObject) :
    object (get (envelope m (.obj payload)) "payload") = .ok payload := by
  simp [envelope, get, object]

theorem sample_computed : compute sampleStore sampleBefore sampleAfter sampleInterval = .ok sampleWindow :=
  (compute_of before_verified after_verified (payload_envelope _ _) (payload_envelope _ _) (by decide +kernel)
    (by decide +kernel) parsed_before parsed_after).trans sample_assembled

theorem sample_window : verifyPaymentWindow sampleStore sampleItem = .ok sampleWindow :=
  verifyPaymentWindow_of window_verified (payload_envelope _ _) (by decide +kernel)
    (PaymentWindow.validate_dump sample_reads) sample_computed (if_neg (by decide +kernel))

theorem sample_exact : Exact := ⟨fun _ => rfl, fun _ => rfl⟩

/-- The sample window is sound. -/
theorem payment_window_sound_sample :
    ∃ first last, Snapshot sampleStore sampleBefore sampleInterval.incidentId .paymentsApi first ∧
      Snapshot sampleStore sampleAfter sampleInterval.incidentId .paymentsApi last ∧ Sound sampleWindow first last :=
  payment_window_sound sample_exact sampleStore sampleItem sampleWindow sample_window rfl

end Sample
end PayOps.Evidence.Payment
