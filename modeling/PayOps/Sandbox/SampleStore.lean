import PayOps.Platform
import PayOps.Process.Runner
import PayOps.Process.Follows

/-!
# The idempotency of synthetic samples

`payops.sandbox.runtime.SampleStore` and `payops.sandbox.service.process_sample`: a request reserves its
sample, executes it, and publishes the result; a request that fails gives its reservation back.

## The model

Each method of the store holds the lock of the store, so that it is one request. `execute_sample` is one
request too: it is answered by a result, or by whatever is raised in it, a cancellation included, at any time,
and the requests of other calls come in between. The store is a map from sample ids to entries, each the
fingerprint of a sample and the result if there is one.

## What is proved

* `processSample_follows` — what a call asks for, given what it asked for before.
* `Consistent.step` — what each answered request keeps of the store and the trace.
* `process_sample_idempotent` — the idempotency of samples: executions of a sample exclude each other, what
  was published is replayed and nothing else is, and no entry is lost but a reservation of its own call.

## Honest scope

An execution is completed when `complete` has published its result. Between the return of `execute_sample`
and `complete` the code does not suspend; here other calls may come in between.
-/

namespace PayOps.Sandbox

open Process Program

/-! ### The size of a map -/

section Size

variable {α : Type} {β : α → Type} [DecidableEq α] {a : α} {b : β a}

theorem length_keys_insert_new {s : AList β} (h : a ∉ s) :
    (s.insert a b).keys.length = s.keys.length + 1 := by
  rw [AList.keys_insert, List.length_cons, List.erase_of_not_mem h]

theorem length_keys_insert_old {s : AList β} (h : a ∈ s) :
    (s.insert a b).keys.length = s.keys.length := by
  have hpos := List.length_pos_of_mem (AList.mem_keys.mp h)
  rw [AList.keys_insert, List.length_cons, List.length_erase_of_mem (AList.mem_keys.mp h)]
  omega

theorem length_keys_erase_le (a : α) (s : AList β) : (s.erase a).keys.length ≤ s.keys.length := by
  rw [AList.keys_erase]
  exact List.length_erase_le

end Size

/-- The last item of a list that is split somewhere. -/
theorem snoc_eq_append_cons {α : Type} {l l₁ l₂ : List α} {x y : α} (h : l ++ [x] = l₁ ++ y :: l₂) :
    l₂ = [] ∨ ∃ l₃, l₂ = l₃ ++ [x] ∧ l = l₁ ++ y :: l₃ := by
  rcases List.eq_nil_or_concat' l₂ with rfl | ⟨l₃, z, rfl⟩
  · exact .inl rfl
  · rw [← List.cons_append, ← List.append_assoc] at h
    obtain ⟨rfl, hx⟩ := List.append_inj' h rfl
    cases hx
    exact .inr ⟨l₃, rfl, rfl⟩

/-! ### Samples -/

/-- `Role`. -/
inductive Role where
  /-- `payments`. -/
  | payments
  /-- `risk`. -/
  | risk
  /-- `ledger`. -/
  | ledger
  /-- `processor`. -/
  | processor
  /-- `webhook`. -/
  | webhook
  deriving DecidableEq

/-- `Processor`. -/
inductive Processor where
  /-- `A`. -/
  | A
  /-- `B`. -/
  | B
  deriving DecidableEq

/-- `Region`. -/
inductive Region where
  /-- `us`. -/
  | us
  /-- `eu`. -/
  | eu
  deriving DecidableEq

/-- `Method`. -/
inductive Method where
  /-- `credit`. -/
  | credit
  /-- `debit`. -/
  | debit
  deriving DecidableEq

/-- The texts of the literals. -/
def Processor.text : Processor → String
  | A => "A"
  | B => "B"

/-- The texts of the literals. -/
def Region.text : Region → String
  | us => "us"
  | eu => "eu"

/-- The texts of the literals. -/
def Method.text : Method → String
  | credit => "credit"
  | debit => "debit"

/-- The pattern `^synthetic-[a-zA-Z0-9-]{1,64}$`. -/
def sampleIdOk (s : String) : Bool :=
  "synthetic-".toList.isPrefixOf s.toList &&
    (let rest := s.toList.drop 10
     1 ≤ rest.length && rest.length ≤ 64 && rest.all fun c => c.isAlphanum || c == '-')

/-- A string that passes for the id of a sample. -/
abbrev SampleId := { s : String // sampleIdOk s = true }

/-- `Sample`. -/
structure Sample where
  /-- `sample_id`. -/
  sampleId : SampleId
  /-- `processor`. -/
  processor : Processor
  /-- `region`. -/
  region : Region
  /-- `payment_method`. -/
  paymentMethod : Method
  deriving DecidableEq

/-- The fields after the id, as JSON. -/
def fieldsJson (processor : Processor) (region : Region) (method : Method) : String :=
  "\",\"processor\":\"" ++ processor.text ++ "\",\"region\":\"" ++ region.text ++
    "\",\"payment_method\":\"" ++ method.text ++ "\"\x7d"

/-- `sample.model_dump_json()`; no field has a character that is escaped. -/
def Sample.modelDumpJson (sample : Sample) : String :=
  "\x7b\"sample_id\":\"" ++ sample.sampleId.val ++
    fieldsJson sample.processor sample.region sample.paymentMethod

/-- `SimulationResult`. -/
structure SimulationResult where
  /-- `sample_id`. -/
  sampleId : String
  /-- `role`. -/
  role : Role
  /-- `status == "accepted"`. -/
  accepted : Bool
  deriving DecidableEq

theorem fieldsJson_injective {p p' : Processor} {r r' : Region} {m m' : Method}
    (h : fieldsJson p r m = fieldsJson p' r' m') : p = p' ∧ r = r' ∧ m = m' := by
  cases p <;> cases r <;> cases m <;> cases p' <;> cases r' <;> cases m' <;>
    first | exact ⟨rfl, rfl, rfl⟩ | (revert h; decide)

/-- **The samples of one id have different texts.** -/
theorem Sample.modelDumpJson_injective {s t : Sample} (hid : s.sampleId = t.sampleId)
    (h : s.modelDumpJson = t.modelDumpJson) : s = t := by
  have hfields : fieldsJson s.processor s.region s.paymentMethod =
      fieldsJson t.processor t.region t.paymentMethod := by
    unfold modelDumpJson at h
    rw [hid] at h
    have hlist := congrArg String.toList h
    simp only [String.toList_append, List.append_cancel_left_eq] at hlist
    exact String.toList_inj.mp hlist
  obtain ⟨hp, hr, hm⟩ := fieldsJson_injective hfields
  cases s
  cases t
  simp_all

/-! ### The store -/

/-- What is raised. -/
inductive Raised where
  /-- `HTTPException(status, detail)`. -/
  | httpException (status : ℕ) (detail : String)
  /-- `KeyError`. -/
  | keyError (key : SampleId)
  /-- Anything that executing a sample may raise, `CancelledError` included. -/
  | other (className message : String)
  deriving DecidableEq

/-- The answer to a pending or changed request. -/
def conflict : Raised := .httpException 409 "synthetic idempotency conflict"

/-- The answer to a request that finds the store full. -/
def atCapacity : Raised := .httpException 503 "synthetic sample store at capacity"

/-- An entry: the fingerprint of a sample, and its result once there is one. -/
structure Entry where
  /-- The fingerprint. -/
  fingerprint : String
  /-- The result; none while it is pending. -/
  result : Option SimulationResult
  deriving DecidableEq

/-- `SampleStore`. -/
structure SampleStore where
  /-- `capacity`. -/
  capacity : ℕ
  /-- `_entries`. -/
  entries : AList fun _ : SampleId => Entry

/-- `SampleStore(capacity)`. -/
def SampleStore.new (capacity : ℕ) : SampleStore := ⟨capacity, ∅⟩

section Store

variable [Platform]

/-- `hashlib.sha256(sample.model_dump_json().encode()).hexdigest()`. -/
def fingerprint (sample : Sample) : String := Platform.sha256 sample.modelDumpJson

/-- `reserve`. -/
def SampleStore.reserve (store : SampleStore) (sample : Sample) :
    Except Raised (Option SimulationResult) × SampleStore :=
  match store.entries.lookup sample.sampleId with
  | some prior =>
    if prior.fingerprint ≠ fingerprint sample ∨ prior.result = none then (.error conflict, store)
    else (.ok prior.result, store)
  | none =>
    if store.capacity ≤ store.entries.keys.length then (.error atCapacity, store)
    else (.ok none,
      { store with entries := store.entries.insert sample.sampleId ⟨fingerprint sample, none⟩ })

end Store

/-- `complete`. -/
def SampleStore.complete (store : SampleStore) (sampleId : SampleId) (result : SimulationResult) :
    Except Raised Unit × SampleStore :=
  match store.entries.lookup sampleId with
  | some entry =>
    (.ok (), { store with entries := store.entries.insert sampleId ⟨entry.fingerprint, some result⟩ })
  | none => (.error (.keyError sampleId), store)

/-- `abandon`. -/
def SampleStore.abandon (store : SampleStore) (sampleId : SampleId) : SampleStore :=
  { store with entries := store.entries.erase sampleId }

/-! ### A call -/

/-- One request of a call. -/
inductive SampleEffect where
  /-- `store.reserve(sample)`. -/
  | reserve (sample : Sample)
  /-- `await execute_sample(role, sample, …)`. -/
  | execute (role : Role) (sample : Sample)
  /-- `store.complete(sample_id, result)`. -/
  | complete (sampleId : SampleId) (result : SimulationResult)
  /-- `store.abandon(sample_id)`. -/
  | abandon (sampleId : SampleId)

/-- The reply to a request. -/
abbrev SampleEffect.Reply : SampleEffect → Type
  | reserve _ => Option SimulationResult
  | execute _ _ => SimulationResult
  | complete _ _ => Unit
  | abandon _ => Unit

/-- The interface of a call. -/
abbrev Service : Interface := ⟨SampleEffect, SampleEffect.Reply, Raised⟩

/-- One request. -/
def ask (e : SampleEffect) : Program Service e.Reply := perform (I := Service) e

/-- The body of the `try` statement: the sample is executed and its result published. -/
def executeAndComplete (role : Role) (sample : Sample) : Program Service SimulationResult := do
  let result ← ask (.execute role sample)
  ask (.complete sample.sampleId result)
  return result

/-- `process_sample`. -/
def processSample (role : Role) (sample : Sample) : Program Service SimulationResult := do
  match ← ask (.reserve sample) with
  | some cached => return cached
  | none =>
    match ← (executeAndComplete role sample).attempt with
    | .ok result => return result
    | .error x =>
      ask (.abandon sample.sampleId)
      throw x

/-- The store answers its own requests; an execution comes to anything, and leaves the store as it is. -/
def service [Platform] : Machine Service SampleStore where
  answer store e r store' :=
    match e, r with
    | .reserve sample, r => (r, store') = store.reserve sample
    | .execute _ _, _ => store' = store
    | .complete sampleId result, r => (r, store') = store.complete sampleId result
    | .abandon sampleId, r => r = .ok () ∧ store' = store.abandon sampleId

/-- The programs that run on a store. -/
def Request (p : Program Service SimulationResult) : Prop := ∃ role sample, p = processSample role sample

/-! ### What a call asks for -/

/-- The event of a reservation. -/
def reserved (sample : Sample) : Event Service := ⟨.reserve sample, .ok none⟩

/-- A call has a reservation of the sample: it made one, and may have executed it. -/
def Holds (sample : Sample) (h : History Service) : Prop :=
  h = [reserved sample] ∨ ∃ role r, h = [reserved sample, ⟨.execute role sample, r⟩]

/-- What a call of `process_sample` may ask for after the events `h`. -/
def Allowed (sample : Sample) (h : History Service) (ev : Event Service) : Prop :=
  match ev.effect with
  | .reserve s => s = sample ∧ h = []
  | .execute _ s => s = sample ∧ h = [reserved sample]
  | .complete sampleId result => sampleId = sample.sampleId ∧
      ∃ role, h = [reserved sample, ⟨.execute role sample, .ok result⟩]
  | .abandon sampleId => sampleId = sample.sampleId ∧
      ((∃ role x, h = [reserved sample, ⟨.execute role sample, .error x⟩]) ∨
        ∃ h' result x, h = h' ++ [⟨.complete sample.sampleId result, .error x⟩])

variable {sample : Sample} {role : Role}

theorem executeAndComplete_follows :
    Follows (Allowed sample) (executeAndComplete role sample) [reserved sample] fun r h =>
      match r with
      | .ok _ => True
      | .error _ => (∃ role x, h = [reserved sample, ⟨.execute role sample, .error x⟩]) ∨
          ∃ h' result x, h = h' ++ [⟨.complete sample.sampleId result, .error x⟩] := by
  refine follows_perform_bind.mpr fun r => ⟨⟨rfl, rfl⟩, fun x hx => ?_, fun result hr => ?_⟩
  · subst hx
    exact .inl ⟨role, x, rfl⟩
  · subst hr
    refine follows_perform_bind.mpr fun r => ⟨⟨rfl, role, rfl⟩, fun x hx => ?_, fun _ _ => trivial⟩
    subst hx
    exact .inr ⟨_, result, x, rfl⟩

/-- **What a call asks for**, given what it asked for before. -/
theorem processSample_follows :
    Follows (Allowed sample) (processSample role sample) [] fun _ _ => True := by
  refine follows_perform_bind.mpr fun r => ⟨⟨rfl, rfl⟩, fun _ _ => trivial, fun cached hr => ?_⟩
  subst hr
  cases cached with
  | some cached => trivial
  | none =>
    refine follows_bind.mpr (follows_attempt.mpr (executeAndComplete_follows.mono fun r h hr => ?_))
    cases r with
    | ok result => trivial
    | error x => exact follows_perform_bind.mpr fun _ => ⟨⟨rfl, hr⟩, fun _ _ => trivial, fun _ _ => trivial⟩

theorem executeAndComplete_within {P : SampleEffect → Prop} (hexecute : P (.execute role sample))
    (hcomplete : ∀ result, P (.complete sample.sampleId result)) :
    Within P (executeAndComplete role sample) :=
  (within_perform.mpr hexecute).bind fun result =>
    (within_perform.mpr (hcomplete result)).bind fun _ => trivial

/-- A call whose reservation was answered otherwise ends with the answer. -/
theorem processSample_answered {h : History Service} {q : Program Service SimulationResult}
    {s : Sample} {r : Except Raised (Option SimulationResult)}
    (hpath : Path (processSample role sample) h q) (hev : ⟨.reserve s, r⟩ ∈ h) :
    (∀ result, r = .ok (some result) → h = [⟨.reserve s, r⟩] ∧ q = done result) ∧
      ∀ x, r = .error x → h = [⟨.reserve s, r⟩] ∧ q = fail x := by
  rcases path_call.mp hpath with ⟨rfl, -⟩ | ⟨r', h', rfl, hrest⟩
  · cases hev
  · cases r' with
    | error x =>
      obtain ⟨rfl, rfl⟩ := path_fail.mp hrest
      cases List.mem_singleton.mp hev
      refine ⟨fun result h => ?_, fun y h => ?_⟩ <;> cases h
      exact ⟨rfl, rfl⟩
    | ok cached =>
      cases cached with
      | some cached =>
        obtain ⟨rfl, rfl⟩ := path_done.mp hrest
        cases List.mem_singleton.mp hev
        refine ⟨fun result h => ?_, fun y h => ?_⟩ <;> cases h
        exact ⟨rfl, rfl⟩
      | none =>
        -- what is left of the call makes no reservation, so that the event is the first one
        have hwithin : Within (fun e : SampleEffect => ∀ s, e ≠ .reserve s)
            ((executeAndComplete role sample).attempt.bind fun
              | .ok result => done result
              | .error x => (ask (.abandon sample.sampleId)).bind fun _ => fail x) := by
          refine (within_attempt.mpr (executeAndComplete_within ?_ ?_)).bind fun out => ?_
          · intro s h
            cases h
          · intro result s h
            cases h
          · cases out with
            | ok result => trivial
            | error x =>
              refine (within_perform.mpr fun s h => ?_).bind fun _ => trivial
              cases h
        rcases List.mem_cons.mp hev with heq | hmem
        · cases heq
          refine ⟨fun result h => ?_, fun y h => ?_⟩ <;> cases h
        · exact absurd rfl ((hwithin.path hrest).1 _ hmem s)

/-! ### The store and the trace -/

theorem holds_snoc {h : History Service} {ev : Event Service} (hh : Holds sample (h ++ [ev])) :
    h = [] ∧ ev = reserved sample ∨
      h = [reserved sample] ∧ ∃ role r, ev = ⟨.execute role sample, r⟩ := by
  rcases hh with hh | ⟨role, r, hh⟩
  · obtain ⟨rfl, hev⟩ := List.append_inj' (show h ++ [ev] = [] ++ [reserved sample] from hh) rfl
    exact .inl ⟨rfl, List.singleton_inj.mp hev⟩
  · obtain ⟨rfl, hev⟩ := List.append_inj'
      (show h ++ [ev] = [reserved sample] ++ [⟨.execute role sample, r⟩] from hh) rfl
    exact .inr ⟨rfl, role, r, List.singleton_inj.mp hev⟩

section Consistent

variable [Platform]

/-- A pending entry of the sample. -/
def pending (sample : Sample) : Entry := ⟨fingerprint sample, none⟩

/-- What the store and the trace have to do with each other. -/
structure Consistent (capacity : ℕ) (store : SampleStore) (tr : Trace Service) : Prop where
  /-- The capacity is never exceeded, -/
  bounded : store.entries.keys.length ≤ capacity
  /-- nor changed. -/
  capacity : store.capacity = capacity
  /-- Who has a reservation has an entry, -/
  held : ∀ i s, Holds s (tr.own i) → store.entries.lookup s.sampleId = some (pending s)
  /-- and is the only one. -/
  sole : ∀ i j s t, Holds s (tr.own i) → Holds t (tr.own j) → s.sampleId = t.sampleId → i = j
  /-- What was published stays. -/
  published : ∀ i sampleId result s, (i, ⟨.complete sampleId result, .ok ()⟩) ∈ tr →
    reserved s ∈ tr.own i → store.entries.lookup sampleId = some ⟨fingerprint s, some result⟩
  /-- `complete` never raises. -/
  succeeds : ∀ i sampleId result x, (i, ⟨.complete sampleId result, .error x⟩) ∉ tr

/-- What one answered request may do to the store, for a call with the events `h`. -/
inductive Change (sample : Sample) (store : SampleStore) (h : History Service) :
    Event Service → SampleStore → Prop
  /-- A reservation that is answered otherwise. -/
  | answered {r : Except Raised (Option SimulationResult)} : h = [] → r ≠ .ok none →
      (r, store) = store.reserve sample → Change sample store h ⟨.reserve sample, r⟩ store
  /-- A reservation. -/
  | reserved : h = [] → store.entries.lookup sample.sampleId = none →
      store.entries.keys.length < store.capacity →
      Change sample store h (reserved sample)
        { store with entries := store.entries.insert sample.sampleId (pending sample) }
  /-- An execution. -/
  | executed {role : Role} {r : Except Raised SimulationResult} : h = [Sandbox.reserved sample] →
      Change sample store h ⟨.execute role sample, r⟩ store
  /-- A publication. -/
  | completed {role : Role} {result : SimulationResult} :
      h = [Sandbox.reserved sample, ⟨.execute role sample, .ok result⟩] →
      store.entries.lookup sample.sampleId = some (pending sample) →
      Change sample store h ⟨.complete sample.sampleId result, .ok ()⟩
        { store with
          entries := store.entries.insert sample.sampleId ⟨fingerprint sample, some result⟩ }
  /-- A reservation is given back. -/
  | abandoned {role : Role} {x : Raised} :
      h = [Sandbox.reserved sample, ⟨.execute role sample, .error x⟩] →
      store.entries.lookup sample.sampleId = some (pending sample) →
      Change sample store h ⟨.abandon sample.sampleId, .ok ()⟩ (store.abandon sample.sampleId)

variable {capacity : ℕ} {store store' : SampleStore} {tr : Trace Service} {i : ℕ} {ev : Event Service}

/-- **What a request does to the store.** -/
theorem Consistent.change (hc : Consistent capacity store tr) (hev : Allowed sample (tr.own i) ev)
    (hanswer : service.answer store ev.effect ev.reply store') :
    Change sample store (tr.own i) ev store' := by
  obtain ⟨e, r⟩ := ev
  cases e with
  | reserve s =>
    obtain ⟨rfl, hnil⟩ := hev
    have hstore : (r, store') = store.reserve s := hanswer
    unfold SampleStore.reserve at hstore
    split at hstore
    next prior hprior =>
      have hsame : store' = store := by split_ifs at hstore <;> cases hstore <;> rfl
      subst hsame
      refine .answered hnil ?_ hanswer
      split_ifs at hstore with hif
      · cases hstore
        simp
      · cases hstore
        push Not at hif
        simpa using hif.2
    next hnone =>
      split_ifs at hstore with hfull
      · cases hstore
        exact .answered hnil (by simp) hanswer
      · cases hstore
        exact .reserved hnil hnone (by omega)
  | execute role s =>
    obtain ⟨rfl, hown⟩ := hev
    obtain rfl : store' = store := hanswer
    exact .executed hown
  | complete sampleId result =>
    obtain ⟨rfl, role, hown⟩ := hev
    have hlookup := hc.held i sample (.inr ⟨role, _, hown⟩)
    have hstore : (r, store') = store.complete sample.sampleId result := hanswer
    simp only [SampleStore.complete, hlookup] at hstore
    cases hstore
    exact .completed hown hlookup
  | abandon sampleId =>
    obtain ⟨rfl, ⟨role, x, hown⟩ | ⟨h', result, x, hown⟩⟩ := hev
    · obtain ⟨hr, rfl⟩ : r = .ok () ∧ store' = store.abandon sample.sampleId := hanswer
      subst hr
      exact .abandoned hown (hc.held i sample (.inr ⟨role, _, hown⟩))
    · -- `complete` does not raise
      refine absurd ?_ (hc.succeeds i sample.sampleId result x)
      exact mem_own.mp (by rw [hown]; simp)

/-! ### What a request keeps -/

/-- Other samples are left alone. -/
theorem Change.lookup_other {h : History Service} (hch : Change sample store h ev store')
    {sampleId : SampleId} (hne : sampleId ≠ sample.sampleId) :
    store'.entries.lookup sampleId = store.entries.lookup sampleId := by
  cases hch with
  | answered => rfl
  | reserved => exact AList.lookup_insert_ne hne
  | executed => rfl
  | completed => exact AList.lookup_insert_ne hne
  | abandoned => exact AList.lookup_erase_ne hne

/-- **An entry with a result is never dropped nor changed.** -/
theorem Change.keeps {h : History Service} (hch : Change sample store h ev store')
    {sampleId : SampleId} {fingerprint : String} {result : SimulationResult}
    (hlookup : store.entries.lookup sampleId = some ⟨fingerprint, some result⟩) :
    store'.entries.lookup sampleId = some ⟨fingerprint, some result⟩ := by
  by_cases hne : sampleId = sample.sampleId
  · subst hne
    cases hch with
    | answered => exact hlookup
    | reserved _ hnone _ => simp [hnone] at hlookup
    | executed => exact hlookup
    | completed _ hpending => simp [hpending, pending] at hlookup
    | abandoned _ hpending => simp [hpending, pending] at hlookup
  · rw [hch.lookup_other hne, hlookup]

/-- Who has published has made its reservation before. -/
theorem Change.own_reserved (hch : Change sample store (tr.own i) ev store') {j : ℕ}
    {sampleId : SampleId} {result : SimulationResult} {r : Except Raised Unit} {s : Sample}
    (hev : (j, ⟨.complete sampleId result, r⟩) ∈ tr)
    (hown : Sandbox.reserved s ∈ Trace.own (tr ++ [(i, ev)]) j) : Sandbox.reserved s ∈ tr.own j := by
  by_cases hij : j = i
  · subst hij
    rw [own_append_self] at hown
    rcases List.mem_append.mp hown with hown | hown
    · exact hown
    · obtain rfl := List.mem_singleton.mp hown
      have hmem := mem_own.mpr hev
      have hnil : tr.own j = [] := by
        generalize hh : tr.own j = h at hch
        cases hch <;> assumption
      rw [hnil] at hmem
      cases hmem
  · rwa [own_append_other tr (Ne.symm hij)] at hown

theorem Change.capacity_eq {h : History Service} (hch : Change sample store h ev store') :
    store'.capacity = store.capacity := by
  cases hch <;> rfl

theorem Change.bounded {h : History Service} (hch : Change sample store h ev store')
    (hle : store.entries.keys.length ≤ store.capacity) :
    store'.entries.keys.length ≤ store.capacity := by
  cases hch with
  | answered => exact hle
  | reserved _ hnone hlt =>
    rw [length_keys_insert_new (AList.lookup_eq_none.mp hnone)]
    exact hlt
  | executed => exact hle
  | completed _ hpending =>
    rw [length_keys_insert_old (AList.lookup_isSome.mp (by rw [hpending]; rfl))]
    exact hle
  | abandoned =>
    exact (length_keys_erase_le _ _).trans hle

/-- Who has a reservation after its request made it then, or had it before. -/
theorem Change.holds {h : History Service} (hch : Change sample store h ev store') {s : Sample}
    (hh : Holds s (h ++ [ev])) :
    s = sample ∧ (Holds sample h ∧ store' = store ∨
      store.entries.lookup sample.sampleId = none ∧
        store'.entries.lookup sample.sampleId = some (pending sample)) := by
  rcases holds_snoc hh with ⟨rfl, rfl⟩ | ⟨hown, role, r, rfl⟩
  · cases hch with
    | answered _ hne => exact absurd rfl hne
    | reserved _ hnone => exact ⟨rfl, .inr ⟨hnone, AList.lookup_insert _⟩⟩
  · cases hch with
    | executed hown' => exact ⟨rfl, .inl ⟨.inl hown', rfl⟩⟩

/-- Nobody touches the entry of another call. -/
theorem Consistent.other (hc : Consistent capacity store tr)
    (hch : Change sample store (tr.own i) ev store') {j : ℕ} (hij : j ≠ i) {t : Sample}
    (hh : Holds t (tr.own j)) : store'.entries.lookup t.sampleId = some (pending t) := by
  have hlookup := hc.held j t hh
  by_cases hid : t.sampleId = sample.sampleId
  · cases hch with
    | answered => exact hlookup
    | reserved _ hnone =>
      rw [← hid, hlookup] at hnone
      cases hnone
    | executed => exact hlookup
    | completed hown => exact absurd (hc.sole j i t sample hh (.inr ⟨_, _, hown⟩) hid) hij
    | abandoned hown => exact absurd (hc.sole j i t sample hh (.inr ⟨_, _, hown⟩) hid) hij
  · rw [hch.lookup_other hid, hlookup]

theorem Consistent.sole_step (hc : Consistent capacity store tr)
    (hch : Change sample store (tr.own i) ev store') {j : ℕ} (hij : j ≠ i) {s t : Sample}
    (hs : Holds s (tr.own i ++ [ev])) (ht : Holds t (tr.own j)) : s.sampleId ≠ t.sampleId := by
  intro hid
  obtain ⟨rfl, ⟨hholds, -⟩ | ⟨hnone, -⟩⟩ := hch.holds hs
  · exact hij (hc.sole i j s t hholds ht hid).symm
  · rw [hid, hc.held j t ht] at hnone
    cases hnone

/-- **A request keeps the store and the trace consistent.** -/
theorem Consistent.step (hc : Consistent capacity store tr)
    (hch : Change sample store (tr.own i) ev store') :
    Consistent capacity store' (tr ++ [(i, ev)]) where
  bounded := by
    have := hch.bounded (by rw [hc.capacity]; exact hc.bounded)
    rwa [hc.capacity] at this
  capacity := hch.capacity_eq.trans hc.capacity
  held j s hh := by
    by_cases hij : j = i
    · subst hij
      rw [own_append_self] at hh
      obtain ⟨rfl, ⟨hholds, rfl⟩ | ⟨-, hlookup⟩⟩ := hch.holds hh
      · exact hc.held j s hholds
      · exact hlookup
    · rw [own_append_other tr (Ne.symm hij)] at hh
      exact hc.other hch hij hh
  sole j k s t hs ht hid := by
    by_cases hj : j = i <;> by_cases hk : k = i
    · exact hj.trans hk.symm
    · subst hj
      rw [own_append_self] at hs
      rw [own_append_other tr (Ne.symm hk)] at ht
      exact absurd hid (hc.sole_step hch hk hs ht)
    · subst hk
      rw [own_append_other tr (Ne.symm hj)] at hs
      rw [own_append_self] at ht
      exact absurd hid.symm (hc.sole_step hch hj ht hs)
    · rw [own_append_other tr (Ne.symm hj)] at hs
      rw [own_append_other tr (Ne.symm hk)] at ht
      exact hc.sole j k s t hs ht hid
  published j sampleId result s hev hown := by
    rcases List.mem_append.mp hev with hold | hnew
    · exact hch.keeps (hc.published j sampleId result s hold (hch.own_reserved hold hown))
    · cases List.mem_singleton.mp hnew
      rw [own_append_self] at hown
      generalize hh : tr.own i = h at hch hown
      cases hch with
      | completed hh' =>
        subst hh'
        obtain rfl : s = sample := by simpa [reserved] using hown
        exact AList.lookup_insert _
  succeeds j sampleId result x hev := by
    rcases List.mem_append.mp hev with hold | hnew
    · exact hc.succeeds j sampleId result x hold
    · cases List.mem_singleton.mp hnew
      cases hch

/-! ### What was published, and whose a reservation is -/

/-- What a reservation is answered by once a sample of its id was published. -/
theorem reserve_published {t : Sample} {fp : String} {result : SimulationResult}
    (hlookup : store.entries.lookup t.sampleId = some ⟨fp, some result⟩) :
    (store.reserve t).1 = if fingerprint t = fp then .ok (some result) else .error conflict := by
  simp only [SampleStore.reserve, hlookup]
  by_cases hfp : fingerprint t = fp
  · simp [hfp]
  · simp [hfp, Ne.symm hfp]

/-- What the trace says of the reservations in it. -/
structure Recorded (tr : Trace Service) : Prop where
  /-- Nobody reserves a sample that is reserved. -/
  latest : ∀ i s tr₁ tr₂ j t, Holds s (tr.own i) → tr = tr₁ ++ (i, reserved s) :: tr₂ →
    (j, reserved t) ∈ tr₂ → t.sampleId ≠ s.sampleId
  /-- What was published answers every later reservation. -/
  replays : ∀ tr₁ tr₂ i sampleId result s j t r,
    tr = tr₁ ++ (i, ⟨.complete sampleId result, .ok ()⟩) :: tr₂ → reserved s ∈ tr.own i →
    (j, ⟨.reserve t, r⟩) ∈ tr₂ → t.sampleId = sampleId →
    r = if fingerprint t = fingerprint s then .ok (some result) else .error conflict

theorem Recorded.step (hr : Recorded tr) (hc : Consistent capacity store tr)
    (hch : Change sample store (tr.own i) ev store') : Recorded (tr ++ [(i, ev)]) where
  latest j s tr₁ tr₂ k t hh hsplit hmem := by
    rcases snoc_eq_append_cons hsplit with rfl | ⟨tr₃, rfl, hbefore⟩
    · cases hmem
    · have hown : reserved s ∈ tr.own j := mem_own.mpr (by rw [hbefore]; simp)
      have hholds : Holds s (tr.own j) := by
        by_cases hij : j = i
        · subst hij
          rw [own_append_self] at hh
          rcases holds_snoc hh with ⟨hnil, -⟩ | ⟨hown', -⟩
          · rw [hnil] at hown
            cases hown
          · exact .inl hown'
        · rwa [own_append_other tr (Ne.symm hij)] at hh
      rcases List.mem_append.mp hmem with hmem | hmem
      · exact hr.latest j s tr₁ tr₃ k t hholds hbefore hmem
      · cases List.mem_singleton.mp hmem
        intro hid
        have hlookup := hc.held j s hholds
        generalize tr.own i = h at hch
        cases hch with
        | answered _ hne => exact hne rfl
        | reserved _ hnone =>
          rw [hid, hlookup] at hnone
          cases hnone
  replays tr₁ tr₂ j sampleId result s k t r hsplit hown hmem hid := by
    rcases snoc_eq_append_cons hsplit with rfl | ⟨tr₃, rfl, hbefore⟩
    · cases hmem
    · have hev : (j, ⟨.complete sampleId result, .ok ()⟩) ∈ tr := by
        rw [hbefore]
        simp
      have hold := hch.own_reserved hev hown
      rcases List.mem_append.mp hmem with hmem | hmem
      · exact hr.replays tr₁ tr₃ j sampleId result s k t r hbefore hold hmem hid
      · cases List.mem_singleton.mp hmem
        subst hid
        have hlookup := hc.published j _ result s hev hold
        generalize tr.own i = h at hch
        cases hch with
        | answered _ _ hanswer => rw [← reserve_published hlookup, ← hanswer]
        | reserved _ hnone =>
          rw [hlookup] at hnone
          cases hnone

end Consistent

/-! ### Every interleaving -/

section Reachable

variable [Platform] {capacity : ℕ} {c c' : Config Service SampleStore SimulationResult}

omit [Platform] in
/-- What a request for a sample asks for next. -/
theorem Request.allowed {p q : Program Service SimulationResult} {h : History Service}
    {ev : Event Service} (hp : Request p) (hpath : Path p (h ++ [ev]) q) :
    ∃ role sample, p = processSample role sample ∧ Allowed sample h ev := by
  obtain ⟨role, sample, rfl⟩ := hp
  exact ⟨role, sample, rfl, processSample_follows.event hpath⟩

theorem consistent_new : Consistent capacity (.new capacity) [] where
  bounded := Nat.zero_le _
  capacity := rfl
  held i s hh := by rcases hh with hh | ⟨role, r, hh⟩ <;> cases hh
  sole i j s t hs := by rcases hs with hs | ⟨role, r, hs⟩ <;> cases hs
  published i sampleId result s hev := by cases hev
  succeeds i sampleId result x hev := by cases hev

theorem recorded_nil : Recorded [] where
  latest i s tr₁ tr₂ j t hh := by rcases hh with hh | ⟨role, r, hh⟩ <;> cases hh
  replays tr₁ tr₂ i sampleId result s j t r hsplit := by
    exact absurd hsplit.symm (List.append_ne_nil_of_right_ne_nil _ (List.cons_ne_nil _ _))

theorem Reachable.consistent (h : Reachable service Request (.new capacity) c) :
    Consistent capacity c.shared c.trace ∧ Recorded c.trace := by
  refine h.invariant (fun store tr => Consistent capacity store tr ∧ Recorded tr)
    ⟨consistent_new, recorded_nil⟩ ?_
  rintro store tr i p e r store' q ⟨hc, hr⟩ hp hpath hanswer
  obtain ⟨role, sample, -, hallowed⟩ := hp.allowed hpath
  have hch := hc.change hallowed hanswer
  exact ⟨hc.step hch, hr.step hc hch⟩

/-- The execution of a sample by call `i` is in progress. -/
def Executing (c : Config Service SampleStore SimulationResult) (i : ℕ) (sample : Sample) : Prop :=
  ∃ p role k alive, c.calls[i]? = some ⟨p, .call (.execute role sample) k, alive⟩

theorem Executing.holds (h : Reachable service Request (.new capacity) c) {i : ℕ}
    (hex : Executing c i sample) : Holds sample (c.trace.own i) := by
  obtain ⟨p, role, k, alive, hi⟩ := hex
  have hw := h.wellTraced
  have hpath : Path p (c.trace.own i ++ [⟨.execute role sample, .error conflict⟩]) (k (.error conflict)) :=
    (hw.path i _ hi).trans (.step .refl)
  obtain ⟨-, s, -, rfl, hown⟩ := Request.allowed (hw.start i _ hi) hpath
  exact .inl hown

/-- The idempotency of samples, in a configuration that was reached. -/
structure Idempotent (capacity : ℕ) (c : Config Service SampleStore SimulationResult) : Prop where
  /-- No two executions of one sample id are in progress together. -/
  exclusive : ∀ i j s t, Executing c i s → Executing c j t → s.sampleId = t.sampleId → i = j
  /-- What a call published is what every later call of an identical sample returns, without executing it,
  and any other sample of its id is a conflict. -/
  replayed : ∀ i role s q alive tr₁ tr₂ sampleId result,
    c.calls[i]? = some ⟨processSample role s, q, alive⟩ →
    c.trace = tr₁ ++ (i, ⟨.complete sampleId result, .ok ()⟩) :: tr₂ →
    sampleId = s.sampleId ∧ ∀ j role' t q' alive' r,
      c.calls[j]? = some ⟨processSample role' t, q', alive'⟩ → (j, ⟨.reserve t, r⟩) ∈ tr₂ →
      t.sampleId = sampleId →
      (t = s → c.trace.own j = [⟨.reserve t, .ok (some result)⟩] ∧ q' = done result) ∧
        (t ≠ s → c.trace.own j = [⟨.reserve t, .error conflict⟩] ∧ q' = fail conflict)
  /-- A reservation is removed only by the call that made it, whose execution has failed. -/
  removed : ∀ c' i sampleId r, Step service Request c c' →
    c'.trace = c.trace ++ [(i, ⟨.abandon sampleId, r⟩)] →
    ∃ s role x, s.sampleId = sampleId ∧ c.trace.own i = [reserved s, ⟨.execute role s, .error x⟩] ∧
      c.shared.entries.lookup sampleId = some (pending s) ∧
      (∀ tr₁ tr₂ j t, c.trace = tr₁ ++ (i, reserved s) :: tr₂ → (j, reserved t) ∈ tr₂ →
        t.sampleId ≠ sampleId) ∧
      c'.shared = c.shared.abandon sampleId
  /-- The capacity is never exceeded. -/
  bounded : c.shared.entries.keys.length ≤ capacity
  /-- A completed entry is never dropped. -/
  kept : ∀ c' sampleId fingerprint result, Step service Request c c' →
    c.shared.entries.lookup sampleId = some ⟨fingerprint, some result⟩ →
    c'.shared.entries.lookup sampleId = some ⟨fingerprint, some result⟩

/-- One step, seen from the store: it stays as it is, or a request changes it. -/
theorem Reachable.store_step (h : Reachable service Request (.new capacity) c)
    (hs : Step service Request c c') :
    c'.shared = c.shared ∧ c'.trace = c.trace ∨ ∃ i ev sample, c'.trace = c.trace ++ [(i, ev)] ∧
      Change sample c.shared (c.trace.own i) ev c'.shared := by
  have hw := h.wellTraced
  cases hs with
  | start _ => exact .inl ⟨rfl, rfl⟩
  | @act i p e k r s' hi ha =>
    obtain ⟨role, sample, -, hallowed⟩ :=
      Request.allowed (hw.start i _ hi) ((hw.path i _ hi).trans (.step .refl))
    exact .inr ⟨i, ⟨e, r⟩, sample, rfl, (Reachable.consistent h).1.change hallowed ha⟩
  | crash _ => exact .inl ⟨rfl, rfl⟩

/-- The sample of a call is the one in its events. -/
theorem Reachable.own_allowed (h : Reachable service Request (.new capacity) c) {i : ℕ} {role : Role}
    {q : Program Service SimulationResult} {alive : Bool} {tr₁ tr₂ : Trace Service} {ev : Event Service}
    (hi : c.calls[i]? = some ⟨processSample role sample, q, alive⟩)
    (hsplit : c.trace = tr₁ ++ (i, ev) :: tr₂) : Allowed sample (tr₁.own i) ev := by
  have hpath := h.wellTraced.path i _ hi
  rw [hsplit, own_append, show Trace.own ((i, ev) :: tr₂) i = [ev] ++ Trace.own tr₂ i by simp [Trace.own],
    ← List.append_assoc] at hpath
  obtain ⟨q', hinit⟩ := hpath.initial
  exact processSample_follows.event hinit

/-- **Synthetic sample idempotency**, for every interleaving of calls on one store, whatever their
executions come to. -/
theorem process_sample_idempotent
    (hsha : ∀ s t : Sample, Platform.sha256 s.modelDumpJson = Platform.sha256 t.modelDumpJson →
      s.modelDumpJson = t.modelDumpJson)
    (h : Reachable service Request (.new capacity) c) : Idempotent capacity c := by
  obtain ⟨hc, hr⟩ := Reachable.consistent h
  refine ⟨fun i j s t hi hj hid => ?_, fun i role s q alive tr₁ tr₂ sampleId result hi hsplit => ?_,
    fun c' i sampleId r hs htrace => ?_, hc.bounded,
    fun c' sampleId fingerprint result hs hlookup => ?_⟩
  · exact hc.sole i j s t (hi.holds h) (hj.holds h) hid
  · obtain ⟨rfl, role, hown⟩ : sampleId = s.sampleId ∧ _ := Reachable.own_allowed h hi hsplit
    refine ⟨rfl, fun j role' t q' alive' r hj hmem hid => ?_⟩
    have hreserved : reserved s ∈ c.trace.own i := by
      rw [hsplit, own_append, hown]
      simp
    have hr := hr.replays tr₁ tr₂ i _ result s j t r hsplit hreserved hmem hid
    have hev : ⟨.reserve t, r⟩ ∈ c.trace.own j := mem_own.mpr (by rw [hsplit]; simp [hmem])
    have hanswered := processSample_answered (h.wellTraced.path j _ hj) hev
    constructor
    · rintro rfl
      rw [if_pos rfl] at hr
      subst hr
      exact hanswered.1 result rfl
    · intro hne
      have hfp : fingerprint t ≠ fingerprint s :=
        fun heq => hne (Sample.modelDumpJson_injective hid (hsha t s heq))
      rw [if_neg hfp] at hr
      subst hr
      exact hanswered.2 conflict rfl
  · rcases Reachable.store_step h hs with ⟨-, hsame⟩ | ⟨j, ev, s, htrace', hch⟩
    · rw [hsame] at htrace
      simp at htrace
    · rw [htrace'] at htrace
      cases List.singleton_inj.mp (List.append_cancel_left htrace)
      generalize hown : c.trace.own i = g at hch
      generalize hshared : c'.shared = store' at hch
      cases hch with
      | @abandoned role x hg hpending =>
        subst hg
        refine ⟨s, role, x, rfl, rfl, hpending, fun tr₁ tr₂ j t hsplit hmem => ?_, rfl⟩
        exact hr.latest i s tr₁ tr₂ j t (.inr ⟨role, _, hown⟩) hsplit hmem
  · rcases Reachable.store_step h hs with ⟨hsame, -⟩ | ⟨j, ev, s, -, hch⟩
    · rw [hsame]
      exact hlookup
    · exact hch.keeps hlookup

end Reachable

/-! ### A run -/

/-- A platform whose digests are the texts. -/
@[reducible] def textPlatform : Platform where
  sha256 text := text
  patternWord _ := false
  reWord _ := false
  nesting := 64
  floatRepr text := text

attribute [local instance] textPlatform

/-- Every execution is accepted. -/
def acceptingHandler : Handler Service SampleStore
  | .reserve sample, store => store.reserve sample
  | .execute role sample, store => (.ok ⟨sample.sampleId.val, role, true⟩, store)
  | .complete sampleId result, store => store.complete sampleId result
  | .abandon sampleId, store => (.ok (), store.abandon sampleId)

theorem acceptingHandler_answers (e : SampleEffect) (store : SampleStore) :
    service.answer store e (acceptingHandler e store).1 (acceptingHandler e store).2 := by
  cases e with
  | reserve sample => rfl
  | execute role sample => rfl
  | complete sampleId result => rfl
  | abandon sampleId => exact ⟨rfl, rfl⟩

/-- A sample. -/
def oneSample : Sample := ⟨⟨"synthetic-a", by rfl⟩, .A, .us, .credit⟩

/-- A sample is asked for twice, and then from another region. -/
def threeCalls : Config Service SampleStore SimulationResult :=
  let call (c : Config Service SampleStore SimulationResult) sample :=
    c.ran acceptingHandler (processSample .payments sample)
  call (call (call ⟨.new 1, [], []⟩ oneSample) oneSample) { oneSample with region := .eu }

/-- In that run the second call returns the result of the first, and the third is a conflict. -/
theorem process_sample_idempotent_sample :
    Idempotent 1 threeCalls ∧ threeCalls.calls.map (fun call => call.rest) =
      [done ⟨"synthetic-a", .payments, true⟩, done ⟨"synthetic-a", .payments, true⟩, fail conflict] := by
  have hreached : Reachable service Request (.new 1) threeCalls :=
    ((Reachable.call .refl acceptingHandler_answers ⟨_, _, rfl⟩).call acceptingHandler_answers
      ⟨_, _, rfl⟩).call acceptingHandler_answers ⟨_, _, rfl⟩
  exact ⟨process_sample_idempotent (fun s t h => h) hreached, rfl⟩

end PayOps.Sandbox
