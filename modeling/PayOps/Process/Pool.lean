import PayOps.Process.Runner
import PayOps.Process.Follows

/-!
# Pools of workers with slots

A semaphore counts slots. A call takes a slot without waiting, hands it to a job that it submits to the pool,
and may wait for what becomes of the job; a worker takes the job, with its slot, and gives the slot back when
the job is done. A wait may end before the job does; the slot stays with the job.

## What is proved

* `Reachable.slots` — the free slots, those of queued jobs and those of the calls that hold one are all the
  slots there are, if every call follows `SlotRule`.
* `Reachable.release_ok` — then no slot is given back that was not taken.
* `Reachable.jobs` — jobs are taken in the order in which they were submitted, each once, and what is awaited
  is what became of the job.
-/

namespace PayOps.Process

open Program

/-! ### What a call is at -/

section Asking

variable {I : Interface} {σ α : Type} {M : Machine I σ} {Start : Program I α → Prop} {s₀ : σ}
  {c : Config I σ α}

/-- Call `i` waits for the answer to a request. -/
def Asking (c : Config I σ α) (i : ℕ) (e : I.Effect) : Prop :=
  ∃ (p : Program I α) (k : Except I.Fault (I.Reply e) → Program I α) (alive : Bool),
    c.calls[i]? = some ⟨p, .call e k, alive⟩

/-- A call has come to its end. -/
def Call.Ended (cl : Call I α) : Prop := ∃ r, cl.rest = ofResult r

/-- What a call waits for is the next event of a path. -/
theorem Asking.path {i : ℕ} {e : I.Effect} (h : Reachable M Start s₀ c) (hasking : Asking c i e)
    (r : Except I.Fault (I.Reply e)) : ∃ p q, Start p ∧ Path p (c.trace.own i ++ [⟨e, r⟩]) q := by
  obtain ⟨p, k, alive, hi⟩ := hasking
  have hw := h.wellTraced
  exact ⟨p, k r, hw.start i _ hi, (hw.path i _ hi).trans (.step .refl)⟩

end Asking

/-! ### Requests -/

/-- What is asked of a pool whose jobs `job : J` come to `R job`. -/
inductive PoolEffect (J : Type) (R : J → Type) (F : Type) where
  /-- `slots.acquire(blocking=False)`. -/
  | acquire
  /-- `slots.release()`. -/
  | release
  /-- `pool.submit(job)`: the number of the job. -/
  | submit (job : J)
  /-- A worker takes the next job. -/
  | take
  /-- The worker stores what became of its job. -/
  | finish (id : ℕ) (job : J) (outcome : Except F (R job))
  /-- `future.result(timeout)`. -/
  | await (id : ℕ) (job : J)

variable {J : Type} {R : J → Type}

/-- The reply to a request. -/
abbrev PoolEffect.Reply {F : Type} : PoolEffect J R F → Type
  | acquire => Bool
  | release => Unit
  | submit _ => ℕ
  | take => ℕ × J
  | finish _ _ _ => Unit
  | await _ job => R job

/-- The reply to a request to the pool or to what is beside it. -/
abbrev PoolEffect.ReplyOr (E : Interface) : PoolEffect J R E.Fault ⊕ E.Effect → Type
  | .inl e => e.Reply
  | .inr e => E.Reply e

/-- A pool beside other things. -/
abbrev Pooled (E : Interface) (R : J → Type) : Interface :=
  ⟨PoolEffect J R E.Fault ⊕ E.Effect, PoolEffect.ReplyOr E, E.Fault⟩

/-- What became of a job. -/
structure Finished (R : J → Type) (F : Type) where
  /-- Its number. -/
  id : ℕ
  /-- The job. -/
  job : J
  /-- What became of it. -/
  outcome : Except F (R job)

/-- A pool. -/
structure Pool (R : J → Type) (F : Type) where
  /-- The free slots. -/
  free : ℕ
  /-- The jobs that no worker has taken yet. -/
  queue : List (ℕ × J)
  /-- The number of the next job. -/
  next : ℕ
  /-- What became of jobs. -/
  finished : List (Finished R F)

/-- A pool with `n` free slots. -/
def Pool.new (R : J → Type) (F : Type) (n : ℕ) : Pool R F := ⟨n, [], 0, []⟩

variable {E : Interface} {τ α : Type}

/-- A pool with `n` slots beside `M`; a wait may end with `late`, `submit` may raise, and so may a worker end
without a job. -/
def pooled (n : ℕ) (late : E.Fault) (M : Machine E τ) : Machine (Pooled E R) (Pool R E.Fault × τ) where
  answer s e r s' :=
    match e, r with
    | .inl .acquire, r =>
      if s.1.free = 0 then r = .ok false ∧ s' = s
      else r = .ok true ∧ s' = ({ s.1 with free := s.1.free - 1 }, s.2)
    | .inl .release, r =>
      if s.1.free < n then r = .ok () ∧ s' = ({ s.1 with free := s.1.free + 1 }, s.2)
      else (∃ x, r = .error x) ∧ s' = s
    | .inl (.submit job), .ok id =>
      id = s.1.next ∧ s' = ({ s.1 with queue := s.1.queue ++ [(id, job)], next := id + 1 }, s.2)
    | .inl (.submit _), .error _ => s' = s
    | .inl .take, .ok x => ∃ rest, s.1.queue = x :: rest ∧ s' = ({ s.1 with queue := rest }, s.2)
    | .inl .take, .error _ => s' = s
    | .inl (.finish id job outcome), r =>
      r = .ok () ∧ s' = ({ s.1 with finished := s.1.finished ++ [⟨id, job, outcome⟩] }, s.2)
    | .inl (.await id job), .ok a => ⟨id, job, .ok a⟩ ∈ s.1.finished ∧ s' = s
    | .inl (.await id job), .error x => (x = late ∨ ⟨id, job, .error x⟩ ∈ s.1.finished) ∧ s' = s
    | .inr e, r => s'.1 = s.1 ∧ M.answer s.2 e r s'.2

/-! ### Who holds a slot -/

/-- A slot comes to the call. -/
def gains : Event (Pooled E R) → Bool
  | ⟨.inl .acquire, .ok taken⟩ => taken
  | ⟨.inl .take, .ok _⟩ => true
  | _ => false

/-- A slot leaves the call. -/
def gives : Event (Pooled E R) → Bool
  | ⟨.inl .release, .ok _⟩ => true
  | ⟨.inl (.submit _), .ok _⟩ => true
  | _ => false

/-- A call holds a slot after the events `h`. -/
def Holds (h : History (Pooled E R)) : Prop := h.countP gives < h.countP gains

/-- A call takes one slot at a time, and gives back or hands on only what it has; a worker starts with its
job. -/
def SlotRule (h : History (Pooled E R)) (ev : Event (Pooled E R)) : Prop :=
  match ev.effect with
  | .inl .acquire => h.countP gains = h.countP gives
  | .inl .release => h.countP gains = h.countP gives + 1
  | .inl (.submit _) => h.countP gains = h.countP gives + 1
  | .inl .take => h = []
  | _ => True

/-- A call holds no slot. -/
def Free (h : History (Pooled E R)) : Prop := h.countP gains = h.countP gives

/-- A call holds one slot. -/
def Held (h : History (Pooled E R)) : Prop := h.countP gains = h.countP gives + 1

section Free

variable {h : History (Pooled E R)} {ev : Event (Pooled E R)}

theorem Free.other (hfree : Free h) (hev : gains ev = false ∧ gives ev = false) : Free (h ++ [ev]) := by
  unfold Free at hfree ⊢
  simp only [List.countP_append, List.countP_singleton, hev]
  simpa using hfree

theorem Free.gain (hfree : Free h) (hev : gains ev = true ∧ gives ev = false) : Held (h ++ [ev]) := by
  unfold Free at hfree
  unfold Held
  simp only [List.countP_append, List.countP_singleton, hev]
  simpa using hfree

theorem Held.other (hheld : Held h) (hev : gains ev = false ∧ gives ev = false) : Held (h ++ [ev]) := by
  unfold Held at hheld ⊢
  simp only [List.countP_append, List.countP_singleton, hev]
  simpa using hheld

theorem Held.give (hheld : Held h) (hev : gains ev = false ∧ gives ev = true) : Free (h ++ [ev]) := by
  unfold Held at hheld
  unfold Free
  simp only [List.countP_append, List.countP_singleton, hev]
  simpa using hheld

end Free

/-- Every call follows the rule. -/
def Disciplined (Start : Program (Pooled E R) α → Prop) : Prop :=
  ∀ p h ev q, Start p → Path p (h ++ [ev]) q → SlotRule h ev

variable {h : History (Pooled E R)} {ev : Event (Pooled E R)}

/-- A call holds no slot or one. -/
theorem SlotRule.one (hrule : SlotRule h ev)
    (hone : h.countP gives ≤ h.countP gains ∧ h.countP gains ≤ h.countP gives + 1) :
    (h ++ [ev]).countP gives ≤ (h ++ [ev]).countP gains ∧
      (h ++ [ev]).countP gains ≤ (h ++ [ev]).countP gives + 1 := by
  obtain ⟨e, r⟩ := ev
  simp only [List.countP_append, List.countP_singleton]
  rcases e with (_ | _ | job | _ | ⟨id, job, outcome⟩ | ⟨id, job⟩) | e
  · have hnone : h.countP gains = h.countP gives := hrule
    rcases r with x | taken
    · simpa [gains, gives] using hone
    · cases taken <;> simp [gains, gives] <;> omega
  · have hheld : h.countP gains = h.countP gives + 1 := hrule
    rcases r with x | u <;> simp [gains, gives] <;> omega
  · have hheld : h.countP gains = h.countP gives + 1 := hrule
    rcases r with x | id <;> simp [gains, gives] <;> omega
  · obtain rfl : h = [] := hrule
    rcases r with x | id <;> simp [gains, gives]
  · simpa [gains, gives] using hone
  · simpa [gains, gives] using hone
  · simpa [gains, gives] using hone

theorem Disciplined.one {Start : Program (Pooled E R) α → Prop} (hdisciplined : Disciplined Start)
    {p q : Program (Pooled E R) α} (hp : Start p) (hpath : Path p h q) :
    h.countP gives ≤ h.countP gains ∧ h.countP gains ≤ h.countP gives + 1 := by
  induction h using List.reverseRecOn generalizing q with
  | nil => simp
  | append_singleton h ev ih =>
    obtain ⟨q', hinit⟩ := hpath.initial
    exact SlotRule.one (hdisciplined p h ev q hp hpath) (ih hinit)

section Reachable

variable {n : ℕ} {late : E.Fault} {M : Machine E τ} {Start : Program (Pooled E R) α → Prop} {t₀ : τ}
  {c : Config (Pooled E R) (Pool R E.Fault × τ) α}

/-- What is not held is free or waits with a job. -/
def Balance (n : ℕ) (s : Pool R E.Fault × τ) (tr : Trace (Pooled E R)) : Prop :=
  s.1.free + s.1.queue.length + (tr.countP fun x => gains x.2) = n + tr.countP fun x => gives x.2

theorem Balance.move {s s' : Pool R E.Fault × τ} {tr : Trace (Pooled E R)} {i : ℕ} (hb : Balance n s tr)
    (hmove : s'.1.free + s'.1.queue.length + (if gains ev then 1 else 0) =
      s.1.free + s.1.queue.length + if gives ev then 1 else 0) : Balance n s' (tr ++ [(i, ev)]) := by
  unfold Balance at hb ⊢
  simp only [List.countP_append, List.countP_singleton]
  omega

theorem Balance.step {s s' : Pool R E.Fault × τ} {tr : Trace (Pooled E R)} {i : ℕ}
    {e : (Pooled E R).Effect} {r : Except E.Fault ((Pooled E R).Reply e)} (hb : Balance n s tr)
    (hanswer : (pooled n late M).answer s e r s') : Balance n s' (tr ++ [(i, ⟨e, r⟩)]) := by
  refine hb.move ?_
  rcases e with (_ | _ | job | _ | ⟨id, job, outcome⟩ | ⟨id, job⟩) | e
  · by_cases hfree : s.1.free = 0
    · obtain ⟨rfl, rfl⟩ : r = .ok false ∧ s' = s := by simpa [pooled, hfree] using hanswer
      simp [gains, gives]
    · obtain ⟨rfl, rfl⟩ : r = .ok true ∧ s' = ({ s.1 with free := s.1.free - 1 }, s.2) := by
        simpa [pooled, hfree] using hanswer
      simp [gains, gives]
      omega
  · by_cases hfree : s.1.free < n
    · obtain ⟨rfl, rfl⟩ : r = .ok () ∧ s' = ({ s.1 with free := s.1.free + 1 }, s.2) := by
        simpa [pooled, hfree] using hanswer
      simp [gains, gives]
      omega
    · obtain ⟨⟨x, rfl⟩, rfl⟩ : (∃ x, r = .error x) ∧ s' = s := by simpa [pooled, hfree] using hanswer
      simp [gains, gives]
  · rcases r with x | id
    · obtain rfl : s' = s := hanswer
      simp [gains, gives]
    · obtain ⟨-, rfl⟩ := hanswer
      simp [gains, gives]
      omega
  · rcases r with x | taken
    · obtain rfl : s' = s := hanswer
      simp [gains, gives]
    · obtain ⟨rest, hqueue, rfl⟩ := hanswer
      simp [gains, gives, hqueue]
      omega
  · obtain ⟨rfl, rfl⟩ := hanswer
    simp [gains, gives]
  · have hs : s'.1 = s.1 := by
      rcases r with x | a
      · exact congrArg Prod.fst hanswer.2
      · exact congrArg Prod.fst hanswer.2
    simp [gains, gives, hs]
  · have hs : s'.1 = s.1 := hanswer.1
    simp [gains, gives, hs]

theorem Reachable.balance (h : Reachable (pooled n late M) Start (Pool.new R E.Fault n, t₀) c) :
    Balance n c.shared c.trace := by
  refine h.invariant (Balance n) (by simp [Balance, Pool.new]) ?_
  intro s tr i p e r s' q hb _ _ hanswer
  exact hb.step hanswer

/-- **Every slot is free, or waits with a job, or is held by one call.** -/
theorem Reachable.slots (h : Reachable (pooled n late M) Start (Pool.new R E.Fault n, t₀) c)
    (hdisciplined : Disciplined Start) :
    ∃ holders : Finset ℕ, (∀ i, i ∈ holders ↔ Holds (c.trace.own i)) ∧
      c.shared.1.free + c.shared.1.queue.length + holders.card = n := by
  classical
  have hw := h.wellTraced
  have hone : ∀ i, (c.trace.own i).countP gives ≤ (c.trace.own i).countP gains ∧
      (c.trace.own i).countP gains ≤ (c.trace.own i).countP gives + 1 := by
    intro i
    cases hi : c.calls[i]? with
    | none =>
      have hlen := List.getElem?_eq_none_iff.mp hi
      rw [own_eq_nil fun x hx => (hw.index x hx).trans_le hlen]
      simp
    | some cl => exact hdisciplined.one (hw.start i cl hi) (hw.path i cl hi)
  let holders := (Finset.range c.calls.length).filter fun i => Holds (c.trace.own i)
  refine ⟨holders, fun i => ?_, ?_⟩
  · rw [Finset.mem_filter, Finset.mem_range, and_iff_right_iff_imp]
    intro hholds
    by_contra hlen
    rw [own_eq_nil fun x hx => (hw.index x hx).trans_le (not_lt.mp hlen)] at hholds
    exact absurd hholds (by simp [Holds])
  · have hsum : ∀ i ∈ Finset.range c.calls.length, (c.trace.own i).countP gains =
        (c.trace.own i).countP gives + if Holds (c.trace.own i) then 1 else 0 := by
      intro i _
      have := hone i
      unfold Holds
      split_ifs <;> omega
    have hbalance : Balance n c.shared c.trace := Reachable.balance h
    unfold Balance at hbalance
    rw [countP_eq_sum_own hw.index, countP_eq_sum_own hw.index, Finset.sum_congr rfl hsum,
      Finset.sum_add_distrib, ← Finset.card_filter] at hbalance
    have hcard : holders.card = ((Finset.range c.calls.length).filter fun i => Holds (c.trace.own i)).card := rfl
    omega

/-- **No slot is given back that was not taken.** -/
theorem Reachable.release_ok (h : Reachable (pooled n late M) Start (Pool.new R E.Fault n, t₀) c)
    (hdisciplined : Disciplined Start) (i : ℕ) (x : E.Fault) :
    (i, (⟨.inl .release, .error x⟩ : Event (Pooled E R))) ∉ c.trace := by
  intro hmem
  obtain ⟨tr₁, tr₂, htrace⟩ := List.append_of_mem hmem
  obtain ⟨b, s', hb, rfl, hown, hanswer⟩ := h.before htrace
  obtain ⟨p, q, hp, hpath⟩ := hown
  have hheld : (b.trace.own i).countP gains = (b.trace.own i).countP gives + 1 :=
    hdisciplined p _ _ q hp hpath
  obtain ⟨holders, hholders, hsum⟩ := Reachable.slots hb hdisciplined
  have hpos : 0 < holders.card := Finset.card_pos.mpr ⟨i, (hholders i).mpr (by unfold Holds; omega)⟩
  have hfree : b.shared.1.free < n := by omega
  have : (Except.error x : Except E.Fault Unit) = .ok () := by
    have hans := hanswer
    simp only [pooled, hfree, if_true] at hans
    exact hans.1
  cases this

/-! ### Jobs -/

/-- The number of the job that an event has taken. -/
def tookId : Event (Pooled E R) → Option ℕ
  | ⟨.inl .take, .ok x⟩ => some x.1
  | _ => none

/-- The numbers of the jobs that were taken, in this order. -/
def tookIds (tr : Trace (Pooled E R)) : List ℕ := tr.flatMap fun x => (tookId x.2).toList

@[simp] theorem tookIds_snoc (tr : Trace (Pooled E R)) (i : ℕ) (ev : Event (Pooled E R)) :
    tookIds (tr ++ [(i, ev)]) = tookIds tr ++ (tookId ev).toList := by
  simp [tookIds]

/-- What the pool and the trace say of jobs. -/
structure Jobs (s : Pool R E.Fault × τ) (tr : Trace (Pooled E R)) : Prop where
  /-- Jobs are numbered, and taken in this order. -/
  order : tookIds tr ++ s.1.queue.map Prod.fst = List.range s.1.next
  /-- A job that waits was submitted. -/
  queued : ∀ x ∈ s.1.queue, ∃ i, (i, ⟨.inl (.submit x.2), .ok x.1⟩) ∈ tr
  /-- So was one that was taken. -/
  taken : ∀ j x, (j, ⟨.inl .take, .ok x⟩) ∈ tr → ∃ i, (i, ⟨.inl (.submit x.2), .ok x.1⟩) ∈ tr
  /-- A number was given to one job. -/
  fresh : ∀ i job id, (i, ⟨.inl (.submit job), .ok id⟩) ∈ tr → id < s.1.next
  /-- And by one call. -/
  single : ∀ i i' job job' id, (i, ⟨.inl (.submit job), .ok id⟩) ∈ tr →
    (i', ⟨.inl (.submit job'), .ok id⟩) ∈ tr → i = i' ∧ job = job'
  /-- What a worker has stored, it has stored. -/
  stored : ∀ f ∈ s.1.finished, ∃ j, (j, ⟨.inl (.finish f.id f.job f.outcome), .ok ()⟩) ∈ tr
  /-- What a call got, a worker has stored. -/
  awaited : ∀ i id job a, (i, ⟨.inl (.await id job), .ok a⟩) ∈ tr →
    ∃ j, (j, ⟨.inl (.finish id job (.ok a)), .ok ()⟩) ∈ tr

theorem jobs_new {t : τ} : Jobs (Pool.new R E.Fault n, t) ([] : Trace (Pooled E R)) where
  order := rfl
  queued := by simp [Pool.new]
  taken := by simp
  fresh := by simp
  single := by simp
  stored := by simp [Pool.new]
  awaited := by simp

variable {s s' : Pool R E.Fault × τ} {tr : Trace (Pooled E R)} {i : ℕ}

/-- An event that is no job's. -/
theorem Jobs.other (hj : Jobs s tr) (hsubmit : ∀ job id, ev ≠ ⟨.inl (.submit job), .ok id⟩)
    (htake : ∀ x, ev ≠ ⟨.inl .take, .ok x⟩) (hawait : ∀ id job a, ev = ⟨.inl (.await id job), .ok a⟩ →
      ⟨id, job, .ok a⟩ ∈ s.1.finished)
    (hnext : s'.1.next = s.1.next) (hqueue : s'.1.queue = s.1.queue)
    (hfinished : ∀ f ∈ s'.1.finished, f ∈ s.1.finished ∨ ev = ⟨.inl (.finish f.id f.job f.outcome), .ok ()⟩) :
    Jobs s' (tr ++ [(i, ev)]) where
  order := by
    have hnone : tookId ev = none := by
      cases htook : tookId ev with
      | none => rfl
      | some id =>
        unfold tookId at htook
        split at htook
        next x => exact absurd rfl (htake x)
        next => cases htook
    rw [tookIds_snoc, hnone, hqueue, hnext, Option.toList_none, List.append_nil]
    exact hj.order
  queued x hx := by
    obtain ⟨k, hk⟩ := hj.queued x (hqueue ▸ hx)
    exact ⟨k, List.mem_append_left _ hk⟩
  taken j x hx := by
    rcases List.mem_append.mp hx with hx | hx
    · obtain ⟨k, hk⟩ := hj.taken j x hx
      exact ⟨k, List.mem_append_left _ hk⟩
    · rw [List.mem_singleton] at hx
      exact absurd (Prod.mk.inj hx).2.symm (htake x)
  fresh j job id hx := by
    rcases List.mem_append.mp hx with hx | hx
    · exact hnext ▸ hj.fresh j job id hx
    · rw [List.mem_singleton] at hx
      exact absurd (Prod.mk.inj hx).2.symm (hsubmit job id)
  single j j' job job' id hx hx' := by
    have old : ∀ {j job}, (j, (⟨.inl (.submit job), .ok id⟩ : Event (Pooled E R))) ∈ tr ++ [(i, ev)] →
        (j, (⟨.inl (.submit job), .ok id⟩ : Event (Pooled E R))) ∈ tr := by
      intro j job hx
      rcases List.mem_append.mp hx with hx | hx
      · exact hx
      · rw [List.mem_singleton] at hx
        exact absurd (Prod.mk.inj hx).2.symm (hsubmit job id)
    exact hj.single j j' job job' id (old hx) (old hx')
  stored f hf := by
    rcases hfinished f hf with hf | hf
    · obtain ⟨k, hk⟩ := hj.stored f hf
      exact ⟨k, List.mem_append_left _ hk⟩
    · exact ⟨i, List.mem_append_right _ (by rw [hf]; exact List.mem_singleton_self _)⟩
  awaited j id job a hx := by
    rcases List.mem_append.mp hx with hx | hx
    · obtain ⟨k, hk⟩ := hj.awaited j id job a hx
      exact ⟨k, List.mem_append_left _ hk⟩
    · rw [List.mem_singleton] at hx
      obtain ⟨k, hk⟩ := hj.stored _ (hawait id job a (Prod.mk.inj hx).2.symm)
      exact ⟨k, List.mem_append_left _ hk⟩

/-- **A job is submitted.** -/
theorem Jobs.submit (hj : Jobs s tr) {job : J} :
    Jobs ({ s.1 with queue := s.1.queue ++ [(s.1.next, job)], next := s.1.next + 1 }, s.2)
      (tr ++ [(i, ⟨.inl (.submit job), .ok s.1.next⟩)]) where
  order := by
    have hnone : tookId (⟨.inl (.submit job), .ok s.1.next⟩ : Event (Pooled E R)) = none := rfl
    rw [tookIds_snoc, hnone, Option.toList_none, List.append_nil, List.map_append, ← List.append_assoc,
      hj.order]
    exact List.range_succ.symm
  queued x hx := by
    rcases List.mem_append.mp hx with hx | hx
    · obtain ⟨k, hk⟩ := hj.queued x hx
      exact ⟨k, List.mem_append_left _ hk⟩
    · obtain rfl := List.mem_singleton.mp hx
      exact ⟨i, List.mem_append_right _ (List.mem_singleton_self _)⟩
  taken j x hx := by
    obtain ⟨k, hk⟩ := hj.taken j x (by simpa using hx)
    exact ⟨k, List.mem_append_left _ hk⟩
  fresh j job' id hx := by
    rcases List.mem_append.mp hx with hx | hx
    · exact Nat.lt_succ_of_lt (hj.fresh j job' id hx)
    · rw [List.mem_singleton] at hx
      cases hx
      exact Nat.lt_succ_self _
  single j j' job₁ job₂ id hx hx' := by
    have new : ∀ {j job'}, (j, (⟨.inl (.submit job'), .ok id⟩ : Event (Pooled E R))) ∈
        tr ++ [(i, ⟨.inl (.submit job), .ok s.1.next⟩)] →
        (id < s.1.next ∧ (j, (⟨.inl (.submit job'), .ok id⟩ : Event (Pooled E R))) ∈ tr) ∨
          (id = s.1.next ∧ j = i ∧ job' = job) := by
      intro j job' hx
      rcases List.mem_append.mp hx with hx | hx
      · exact .inl ⟨hj.fresh j job' id hx, hx⟩
      · rw [List.mem_singleton] at hx
        cases hx
        exact .inr ⟨rfl, rfl, rfl⟩
    rcases new hx with ⟨hlt, hx⟩ | ⟨hid, rfl, rfl⟩
    · rcases new hx' with ⟨-, hx'⟩ | ⟨hid', -⟩
      · exact hj.single j j' job₁ job₂ id hx hx'
      · exact absurd hid' (Nat.ne_of_lt hlt)
    · rcases new hx' with ⟨hlt, -⟩ | ⟨-, rfl, rfl⟩
      · exact absurd hid (Nat.ne_of_lt hlt)
      · exact ⟨rfl, rfl⟩
  stored f hf := by
    obtain ⟨k, hk⟩ := hj.stored f hf
    exact ⟨k, List.mem_append_left _ hk⟩
  awaited j id job' a hx := by
    obtain ⟨k, hk⟩ := hj.awaited j id job' a (by simpa using hx)
    exact ⟨k, List.mem_append_left _ hk⟩

/-- **A worker takes a job.** -/
theorem Jobs.take (hj : Jobs s tr) {x : ℕ × J} {rest : List (ℕ × J)} (hqueue : s.1.queue = x :: rest) :
    Jobs ({ s.1 with queue := rest }, s.2) (tr ++ [(i, ⟨.inl .take, .ok x⟩)]) where
  order := by
    have hsome : tookId (⟨.inl .take, .ok x⟩ : Event (Pooled E R)) = some x.1 := rfl
    have horder := hj.order
    rw [hqueue, List.map_cons] at horder
    rw [tookIds_snoc, hsome, Option.toList_some, List.append_assoc]
    exact horder
  queued y hy := by
    obtain ⟨k, hk⟩ := hj.queued y (hqueue ▸ List.mem_cons_of_mem _ hy)
    exact ⟨k, List.mem_append_left _ hk⟩
  taken j y hy := by
    rcases List.mem_append.mp hy with hy | hy
    · obtain ⟨k, hk⟩ := hj.taken j y hy
      exact ⟨k, List.mem_append_left _ hk⟩
    · rw [List.mem_singleton] at hy
      cases hy
      obtain ⟨k, hk⟩ := hj.queued x (hqueue ▸ List.mem_cons_self)
      exact ⟨k, List.mem_append_left _ hk⟩
  fresh j job id hx := hj.fresh j job id (by simpa using hx)
  single j j' job job' id hx hx' := hj.single j j' job job' id (by simpa using hx) (by simpa using hx')
  stored f hf := by
    obtain ⟨k, hk⟩ := hj.stored f hf
    exact ⟨k, List.mem_append_left _ hk⟩
  awaited j id job a hx := by
    obtain ⟨k, hk⟩ := hj.awaited j id job a (by simpa using hx)
    exact ⟨k, List.mem_append_left _ hk⟩

theorem Jobs.step {e : (Pooled E R).Effect} {r : Except E.Fault ((Pooled E R).Reply e)} (hj : Jobs s tr)
    (hanswer : (pooled n late M).answer s e r s') : Jobs s' (tr ++ [(i, ⟨e, r⟩)]) := by
  rcases e with (_ | _ | job | _ | ⟨id, job, outcome⟩ | ⟨id, job⟩) | e
  · by_cases hfree : s.1.free = 0
    · obtain ⟨rfl, rfl⟩ : r = .ok false ∧ s' = s := by simpa [pooled, hfree] using hanswer
      exact hj.other (by simp) (by simp) (by simp) rfl rfl fun f hf => .inl hf
    · obtain ⟨rfl, rfl⟩ : r = .ok true ∧ s' = ({ s.1 with free := s.1.free - 1 }, s.2) := by
        simpa [pooled, hfree] using hanswer
      exact hj.other (by simp) (by simp) (by simp) rfl rfl fun f hf => .inl hf
  · by_cases hfree : s.1.free < n
    · obtain ⟨rfl, rfl⟩ : r = .ok () ∧ s' = ({ s.1 with free := s.1.free + 1 }, s.2) := by
        simpa [pooled, hfree] using hanswer
      exact hj.other (by simp) (by simp) (by simp) rfl rfl fun f hf => .inl hf
    · obtain ⟨⟨x, rfl⟩, rfl⟩ : (∃ x, r = .error x) ∧ s' = s := by simpa [pooled, hfree] using hanswer
      exact hj.other (by simp) (by simp) (by simp) rfl rfl fun f hf => .inl hf
  · rcases r with x | id
    · obtain rfl : s' = s := hanswer
      exact hj.other (by simp) (by simp) (by simp) rfl rfl fun f hf => .inl hf
    · obtain ⟨rfl, rfl⟩ := hanswer
      exact hj.submit
  · rcases r with x | taken
    · obtain rfl : s' = s := hanswer
      exact hj.other (by simp) (by simp) (by simp) rfl rfl fun f hf => .inl hf
    · obtain ⟨rest, hqueue, rfl⟩ := hanswer
      exact hj.take hqueue
  · obtain ⟨rfl, rfl⟩ := hanswer
    refine hj.other (by simp) (by simp) (by simp) rfl rfl fun f hf => ?_
    rcases List.mem_append.mp hf with hf | hf
    · exact .inl hf
    · obtain rfl := List.mem_singleton.mp hf
      exact .inr rfl
  · rcases r with x | a
    · obtain rfl : s' = s := hanswer.2
      exact hj.other (by simp) (by simp) (fun _ _ _ heq => by cases heq) rfl rfl fun f hf => .inl hf
    · obtain ⟨hf, rfl⟩ := hanswer
      refine hj.other (by simp) (by simp) (fun id' job' a' heq => ?_) rfl rfl fun f hf => .inl hf
      cases heq
      exact hf
  · have hs : s'.1 = s.1 := hanswer.1
    exact hj.other (by simp) (by simp) (by simp) (by rw [hs]) (by rw [hs]) fun f hf => .inl (hs ▸ hf)

/-- **What the pool and the trace say of jobs**, in every configuration. -/
theorem Reachable.jobs (h : Reachable (pooled n late M) Start (Pool.new R E.Fault n, t₀) c) :
    Jobs c.shared c.trace := by
  refine h.invariant Jobs jobs_new ?_
  intro s tr i p e r s' q hj _ _ hanswer
  exact hj.step hanswer

end Reachable

/-! ### Running a pool -/

section Handler

variable [DecidableEq J]

/-- What became of a job, or `late`. -/
def Pool.outcome {F : Type} (late : F) (id : ℕ) (job : J) : List (Finished R F) → Except F (R job)
  | [] => .error late
  | f :: fs => if h : f.id = id ∧ f.job = job then h.2 ▸ f.outcome else Pool.outcome late id job fs

/-- A pool that answers at once. -/
def pooledHandler (n : ℕ) (late : E.Fault) (H : Handler E τ) : Handler (Pooled E R) (Pool R E.Fault × τ)
  | .inl .acquire, s =>
    if s.1.free = 0 then (.ok false, s) else (.ok true, ({ s.1 with free := s.1.free - 1 }, s.2))
  | .inl .release, s =>
    if s.1.free < n then (.ok (), ({ s.1 with free := s.1.free + 1 }, s.2)) else (.error late, s)
  | .inl (.submit job), s =>
    (.ok s.1.next, ({ s.1 with queue := s.1.queue ++ [(s.1.next, job)], next := s.1.next + 1 }, s.2))
  | .inl .take, s =>
    match s.1.queue with
    | x :: rest => (.ok x, ({ s.1 with queue := rest }, s.2))
    | [] => (.error late, s)
  | .inl (.finish id job outcome), s =>
    (.ok (), ({ s.1 with finished := s.1.finished ++ [⟨id, job, outcome⟩] }, s.2))
  | .inl (.await id job), s => (Pool.outcome late id job s.1.finished, s)
  | .inr e, s => ((H e s.2).1, (s.1, (H e s.2).2))

theorem Pool.outcome_mem {F : Type} {late : F} {id : ℕ} {job : J} {fs : List (Finished R F)} :
    Pool.outcome late id job fs = .error late ∨ ⟨id, job, Pool.outcome late id job fs⟩ ∈ fs := by
  induction fs with
  | nil => exact .inl rfl
  | cons f fs ih =>
    unfold Pool.outcome
    split_ifs with hf
    · obtain ⟨i, j, out⟩ := f
      obtain ⟨rfl, rfl⟩ := hf
      exact .inr List.mem_cons_self
    · exact ih.imp_right (List.mem_cons_of_mem _)

/-- **What the pool answers, it may answer.** -/
theorem pooledHandler_answers {n : ℕ} {late : E.Fault} {M : Machine E τ} {H : Handler E τ}
    (hH : ∀ e t, M.answer t e (H e t).1 (H e t).2) (e : (Pooled E R).Effect) (s : Pool R E.Fault × τ) :
    (pooled n late M).answer s e (pooledHandler n late H e s).1 (pooledHandler n late H e s).2 := by
  rcases e with (_ | _ | job | _ | ⟨id, job, outcome⟩ | ⟨id, job⟩) | e
  · by_cases hfree : s.1.free = 0
    · simp [pooled, pooledHandler, hfree]
    · simp [pooled, pooledHandler, hfree]
  · by_cases hfree : s.1.free < n
    · simp [pooled, pooledHandler, hfree]
    · simp [pooled, pooledHandler, hfree]
  · exact ⟨rfl, rfl⟩
  · cases hqueue : s.1.queue with
    | nil => simp [pooled, pooledHandler, hqueue]
    | cons x rest => simp [pooled, pooledHandler, hqueue]
  · exact ⟨rfl, rfl⟩
  · rcases (Pool.outcome_mem : Pool.outcome late id job s.1.finished = .error late ∨ _) with hlate | hmem
    · simp [pooled, pooledHandler, hlate]
    · cases hout : Pool.outcome late id job s.1.finished with
      | ok a =>
        rw [hout] at hmem
        simp [pooled, pooledHandler, hout, hmem]
      | error x =>
        rw [hout] at hmem
        simp [pooled, pooledHandler, hout, hmem]
  · exact ⟨rfl, hH e s.2⟩

end Handler

end PayOps.Process
