import PayOps.Process.Runner
import PayOps.Process.Follows

/-!
# Deferred closing

`payops.operator_host.DeferredClose`: operations borrow resources, `close` ends admission at once, and the
resources are closed by whoever is the last to need them: the last operation or `close` itself.

## The model

A section under the lock is one request. `_finish` runs outside of the lock, one closer at a time, so that
the requests of other calls come in between; so may they, here, between the section of a late `add` and its
closer, which the code runs under the lock. A closer and the body of an operation may raise anything.

## What is proved

* `add_follows`, `operation_follows`, `close_follows` — what each call asks for and comes to.
* `Drained.step` — what each answered request keeps of the resources and the trace.
* `deferred_close` — closers run only while no operation is active and none can be any more, in reverse
  order; each once, if no closer raises what is no `Exception`.

## Honest scope

An operation starts with its admission, which is the section that counts it. That waiting for the lock ends
is not modelled.
-/

namespace PayOps.OperatorHost

open Process Program

/-! ### Requests -/

/-- What is raised. -/
structure Raised where
  /-- `type(error).__name__`. -/
  className : String
  /-- `str(error)`. -/
  message : String
  /-- `isinstance(error, Exception)`. -/
  isException : Bool
  deriving DecidableEq

/-- `PermissionError("operator host closed")`. -/
def hostClosed : Raised := ⟨"PermissionError", "operator host closed", true⟩

/-- `RuntimeError("operator resource cleanup failed")`. -/
def cleanupFailed : Raised := ⟨"RuntimeError", "operator resource cleanup failed", true⟩

/-- One request, where closers are of type `K`. -/
inductive LifetimeEffect (K : Type) where
  /-- The section of `add`. -/
  | register (close : K)
  /-- The first section of `operation`. -/
  | enter
  /-- The body of the operation. -/
  | body
  /-- The last section of `operation`. -/
  | leave
  /-- The section of `close`. -/
  | shut
  /-- `close()` in `add`. -/
  | closeLate (close : K)
  /-- `close()` in `_finish`. -/
  | closeOwned (close : K)

/-- The reply to a request. -/
abbrev LifetimeEffect.Reply {K : Type} : LifetimeEffect K → Type
  | register _ => Bool
  | enter => Unit
  | body => Unit
  | leave => List K
  | shut => List K
  | closeLate _ => Unit
  | closeOwned _ => Unit

/-- The interface of a call. -/
abbrev Lease (K : Type) : Interface := ⟨LifetimeEffect K, LifetimeEffect.Reply, Raised⟩

variable {K : Type}

/-- One request. -/
def ask (e : LifetimeEffect K) : Program (Lease K) e.Reply := perform (I := Lease K) e

/-! ### The sections -/

/-- `DeferredClose`. -/
structure DeferredClose (K : Type) where
  /-- `_active`. -/
  active : ℤ
  /-- `_closed`. -/
  closed : Bool
  /-- `_closers`. -/
  closers : List K

namespace DeferredClose

/-- `DeferredClose()`. -/
def new : DeferredClose K := ⟨0, false, []⟩

/-- `_ready`. -/
def ready (s : DeferredClose K) : List K × DeferredClose K :=
  if s.closed = true ∧ s.active = 0 then (s.closers.reverse, { s with closers := [] }) else ([], s)

@[simp] theorem ready_closed (s : DeferredClose K) : s.ready.2.closed = s.closed := by
  unfold ready
  split_ifs <;> rfl

@[simp] theorem ready_active (s : DeferredClose K) : s.ready.2.active = s.active := by
  unfold ready
  split_ifs <;> rfl

theorem ready_kept {s : DeferredClose K} (h : ¬(s.closed = true ∧ s.active = 0)) : s.ready = ([], s) :=
  if_neg h

theorem ready_given {s : DeferredClose K} (h : s.closed = true ∧ s.active = 0) :
    s.ready = (s.closers.reverse, { s with closers := [] }) := if_pos h

/-- The section of `add`; it says whether the closer was registered. -/
def register (s : DeferredClose K) (close : K) : Bool × DeferredClose K :=
  if s.closed then (false, s) else (true, { s with closers := s.closers ++ [close] })

/-- The first section of `operation`. -/
def enter (s : DeferredClose K) : Except Raised Unit × DeferredClose K :=
  if s.closed then (.error hostClosed, s) else (.ok (), { s with active := s.active + 1 })

/-- The last section of `operation`. -/
def leave (s : DeferredClose K) : List K × DeferredClose K := ready { s with active := s.active - 1 }

/-- The section of `close`. -/
def shut (s : DeferredClose K) : List K × DeferredClose K := ready { s with closed := true }

theorem shut_given {s : DeferredClose K} (h : s.active = 0) :
    s.shut = (s.closers.reverse, { s with closed := true, closers := [] }) := if_pos ⟨rfl, h⟩

end DeferredClose

/-- The sections are answered by what they come to; bodies and closers come to anything. -/
def lifetime : Machine (Lease K) (DeferredClose K) where
  answer s e r s' :=
    match e, r with
    | .register close, r => r = .ok (s.register close).1 ∧ s' = (s.register close).2
    | .enter, r => r = s.enter.1 ∧ s' = s.enter.2
    | .body, _ => s' = s
    | .leave, r => r = .ok s.leave.1 ∧ s' = s.leave.2
    | .shut, r => r = .ok s.shut.1 ∧ s' = s.shut.2
    | .closeLate _, _ => s' = s
    | .closeOwned _, _ => s' = s

/-! ### The calls -/

/-- `add`. -/
def add (close : K) : Program (Lease K) Unit := do
  let registered ← ask (.register close)
  if registered then return ()
  else
    ask (.closeLate close)
    throw hostClosed

/-- `_finish`, with the flag `failed` so far. -/
def finish (failed : Bool) : List K → Program (Lease K) Unit
  | [] => raiseIf (failed = true) cleanupFailed
  | close :: closers => do
    match ← (ask (.closeOwned close)).attempt with
    | .ok () => finish failed closers
    | .error x => if x.isException then finish true closers else throw x

/-- `operation`, around its body. -/
def operation : Program (Lease K) Unit := do
  ask .enter
  let outcome ← (ask .body).attempt
  let closers ← ask .leave
  finish false closers
  ofResult outcome

/-- `close`. -/
def close : Program (Lease K) Unit := do
  let closers ← ask .shut
  finish false closers

/-- The calls on a lifetime. -/
inductive Use : Program (Lease K) Unit → Prop
  /-- `add`. -/
  | add (close : K) : Use (add close)
  /-- `operation`. -/
  | operation : Use operation
  /-- `close`. -/
  | close : Use close

/-! ### What a call asks for -/

/-- The closer that an event has registered. -/
def accepted : Event (Lease K) → List K
  | ⟨.register close, .ok true⟩ => [close]
  | _ => []

/-- The closers that an event has taken from the list. -/
def drained : Event (Lease K) → List K
  | ⟨.leave, .ok closers⟩ => closers
  | ⟨.shut, .ok closers⟩ => closers
  | _ => []

/-- The closer that `_finish` has run. -/
def ran : Event (Lease K) → List K
  | ⟨.closeOwned close, _⟩ => [close]
  | _ => []

/-- Admission. -/
def entered : Event (Lease K) := ⟨.enter, .ok ()⟩

/-- A call is inside of its operation. -/
def Inside (h : History (Lease K)) : Prop := entered ∈ h ∧ ∀ r, ⟨.leave, r⟩ ∉ h

/-- No closer has raised what is no `Exception`. -/
def Orderly (h : History (Lease K)) : Prop :=
  ∀ close x, ⟨.closeOwned close, .error x⟩ ∈ h → x.isException = true

/-- Every closer that was taken was run, if no closer has raised what is no `Exception`. -/
def Settled (h : History (Lease K)) : Prop := Orderly h → h.flatMap ran = h.flatMap drained

/-- What a call may ask for after the events `h`. -/
def Allowed (h : History (Lease K)) (ev : Event (Lease K)) : Prop :=
  match ev.effect with
  | .register _ => h = []
  | .enter => h = []
  | .body => h = [entered]
  | .leave => ∃ r, h = [entered, ⟨.body, r⟩]
  | .shut => h = []
  | .closeLate close => h = [⟨.register close, .ok false⟩]
  | .closeOwned close => h.flatMap ran ++ [close] <+: h.flatMap drained

variable {h : History (Lease K)}

/-- **`_finish` runs every closer**, in order, until one raises what is no `Exception`. -/
theorem finish_follows {closers : List K} {failed : Bool}
    (hclosers : h.flatMap drained = h.flatMap ran ++ closers) :
    Follows Allowed (finish failed closers) h fun _ h' => Settled h' := by
  induction closers generalizing failed h with
  | nil =>
    have hsettled : Settled h := fun _ => by simpa using hclosers.symm
    cases failed with
    | false => exact hsettled
    | true => exact hsettled
  | cons close closers ih =>
    refine follows_bind.mpr (follows_attempt.mpr (follows_perform.mpr fun r => ⟨?_, ?_⟩))
    · exact ⟨closers, by rw [hclosers, List.append_assoc]; rfl⟩
    · let ev : Event (Lease K) := ⟨.closeOwned close, r⟩
      have hrest : (h ++ [ev]).flatMap drained = (h ++ [ev]).flatMap ran ++ closers := by
        simp [ev, hclosers, drained, ran]
      cases r with
      | ok u => exact ih hrest
      | error x =>
        by_cases hx : x.isException = true
        · simp only [hx, if_true]
          exact ih hrest
        · simp only [hx, Bool.false_eq_true, if_false]
          exact fun horderly => absurd (horderly close x (by simp)) hx

theorem finish_within {P : LifetimeEffect K → Prop} (hP : ∀ close, P (.closeOwned close))
    {closers : List K} {failed : Bool} : Within P (finish failed closers) := by
  induction closers generalizing failed with
  | nil => exact within_raiseIf
  | cons close closers ih =>
    refine (within_attempt.mpr (within_perform.mpr (hP close))).bind fun out => ?_
    cases out with
    | ok u => exact ih
    | error x =>
      by_cases hx : x.isException = true
      · simp only [hx, if_true]
        exact ih
      · simp only [hx, Bool.false_eq_true, if_false]
        trivial

/-- **What `add` asks for and comes to.** -/
theorem add_follows {close : K} :
    Follows Allowed (add close) [] fun r h =>
      (∃ x, h = [⟨.register close, .error x⟩]) ∨ h = [⟨.register close, .ok true⟩] ∧ r = .ok () ∨
        ∃ out x, h = [⟨.register close, .ok false⟩, ⟨.closeLate close, out⟩] ∧ r = .error x := by
  refine follows_perform_bind.mpr fun r => ⟨rfl, fun x hx => .inl ⟨x, by rw [hx]; rfl⟩, fun registered hr => ?_⟩
  subst hr
  cases registered with
  | true => exact .inr (.inl ⟨rfl, rfl⟩)
  | false =>
    refine follows_perform_bind.mpr fun out => ⟨rfl, fun x hx => ?_, fun _ _ => ?_⟩
    · exact .inr (.inr ⟨out, x, rfl, rfl⟩)
    · exact .inr (.inr ⟨out, hostClosed, rfl, rfl⟩)

/-- **What `operation` asks for and comes to.** -/
theorem operation_follows :
    Follows Allowed (operation (K := K)) [] fun _ h => Settled h ∧ ¬Inside h := by
  refine follows_perform_bind.mpr fun r => ⟨rfl, fun x hx => ?_, fun _ hr => ?_⟩
  · subst hx
    exact ⟨fun _ => rfl, fun hin => by simpa [entered] using hin.1⟩
  subst hr
  refine follows_bind.mpr (follows_attempt.mpr (follows_perform.mpr fun out => ⟨rfl, ?_⟩))
  refine follows_perform_bind.mpr fun r => ⟨⟨out, rfl⟩, fun x hx => ?_, fun closers hr => ?_⟩
  · subst hx
    exact ⟨fun _ => rfl, fun hin => hin.2 (.error x) (by simp)⟩
  subst hr
  have hfinish : Follows Allowed (finish false closers) [entered, ⟨.body, out⟩, ⟨.leave, .ok closers⟩]
      fun _ h' => Settled h' := finish_follows (by simp [drained, ran, entered])
  refine follows_bind.mpr (hfinish.and_runs.mono ?_)
  rintro r h' ⟨hsettled, g, rfl, -⟩
  have hleft : ¬Inside ([entered, ⟨.body, out⟩, ⟨.leave, .ok closers⟩] ++ g : History (Lease K)) :=
    fun hin => hin.2 (.ok closers) (by simp)
  cases r with
  | ok u => exact follows_ofResult.mpr ⟨hsettled, hleft⟩
  | error x => exact ⟨hsettled, hleft⟩

/-- **What `close` asks for and comes to.** -/
theorem close_follows : Follows Allowed (close (K := K)) [] fun _ h => Settled h := by
  refine follows_perform_bind.mpr fun r => ⟨rfl, fun x hx => ?_, fun closers hr => ?_⟩
  · subst hx
    exact fun _ => rfl
  subst hr
  exact finish_follows (by simp [drained, ran])

/-- What every call asks for. -/
theorem Use.allowed {p q : Program (Lease K) Unit} {ev : Event (Lease K)} (hp : Use p)
    (hpath : Path p (h ++ [ev]) q) : Allowed h ev := by
  cases hp with
  | add close => exact add_follows.event hpath
  | operation => exact operation_follows.event hpath
  | close => exact close_follows.event hpath

/-! ### The resources and the trace -/

/-- What the events of a trace have given, in order. -/
def gather (f : Event (Lease K) → List K) (tr : Trace (Lease K)) : List K := tr.flatMap fun x => f x.2

variable {f : Event (Lease K) → List K} {tr : Trace (Lease K)} {i : ℕ} {ev : Event (Lease K)}

@[simp] theorem gather_nil : gather f [] = [] := rfl

@[simp] theorem gather_snoc : gather f (tr ++ [(i, ev)]) = gather f tr ++ f ev := by
  simp [gather]

/-- What no call has given is not there. -/
theorem flatMap_own_eq_nil (hnil : gather f tr = []) (j : ℕ) : (tr.own j).flatMap f = [] := by
  rw [List.flatMap_eq_nil_iff]
  intro ev hev
  exact List.flatMap_eq_nil_iff.mp hnil (j, ev) (mem_own.mp hev)

/-- Where only one call has given something, it has given everything. -/
theorem gather_eq_own (honly : ∀ j, j ≠ i → (tr.own j).flatMap f = []) :
    gather f tr = (tr.own i).flatMap f := by
  induction tr using List.reverseRecOn with
  | nil => rfl
  | append_singleton tr x ih =>
    obtain ⟨k, ev⟩ := x
    have hbefore : ∀ j, j ≠ i → (Trace.own tr j).flatMap f = [] := by
      intro j hj
      have := honly j hj
      rw [own_append, List.flatMap_append, List.append_eq_nil_iff] at this
      exact this.1
    rw [gather_snoc, ih hbefore]
    by_cases hk : k = i
    · subst hk
      rw [own_append_self, List.flatMap_append]
      simp
    · have hev := honly k hk
      rw [own_append_self, List.flatMap_append, List.append_eq_nil_iff] at hev
      rw [own_append_other tr hk]
      simpa using hev.2

/-- `close` has taken the lock. -/
def Shut (tr : Trace (Lease K)) : Prop := ∃ i r, (i, ⟨.shut, r⟩) ∈ tr

/-- An event that lets somebody in. -/
def Admits (ev : Event (Lease K)) : Prop := ev = entered ∨ ∃ close, ev = ⟨.register close, .ok true⟩

/-- What the resources and the trace have to do with each other. -/
structure Drained (s : DeferredClose K) (tr : Trace (Lease K)) : Prop where
  /-- It is closed from the first `close` on. -/
  closed : s.closed = true ↔ Shut tr
  /-- The counter counts the calls that are inside. -/
  active : ∃ inside : Finset ℕ, (∀ i, i ∈ inside ↔ Inside (tr.own i)) ∧ s.active = inside.card
  /-- As long as somebody may come in or is inside, every closer is there. -/
  kept : ¬(s.closed = true ∧ s.active = 0) → s.closers = gather accepted tr ∧ gather drained tr = []
  /-- After that all are taken. -/
  given : s.closed = true ∧ s.active = 0 →
    s.closers = [] ∧ gather drained tr = (gather accepted tr).reverse
  /-- One call has taken them. -/
  drainer : ∃ i, ∀ j, j ≠ i → (tr.own j).flatMap drained = []
  /-- Nobody is let in after `close`. -/
  admitted : ∀ tr₁ tr₂ i ev, tr = tr₁ ++ (i, ev) :: tr₂ → Admits ev → ¬Shut tr₁
  /-- The section of `add` does not raise. -/
  registers : ∀ i close x, (i, ⟨.register close, .error x⟩) ∉ tr

theorem drained_new : Drained (K := K) .new [] where
  closed := by simp [DeferredClose.new, Shut]
  active := ⟨∅, by simp [Inside], rfl⟩
  kept _ := ⟨rfl, rfl⟩
  given h := by simp [DeferredClose.new] at h
  drainer := ⟨0, fun j _ => rfl⟩
  admitted tr₁ tr₂ i ev h := absurd h.symm (List.append_ne_nil_of_right_ne_nil _ (List.cons_ne_nil _ _))
  registers i close x h := by cases h

variable {s : DeferredClose K}

/-- Where one more event stands in a split of the trace. -/
theorem Drained.admitted_snoc (hd : Drained s tr) (hev : Admits ev → s.closed = false) :
    ∀ tr₁ tr₂ j ev', tr ++ [(i, ev)] = tr₁ ++ (j, ev') :: tr₂ → Admits ev' → ¬Shut tr₁ := by
  intro tr₁ tr₂ j ev' hsplit hadmits hshut
  rcases List.eq_nil_or_concat' tr₂ with rfl | ⟨tr₃, x, rfl⟩
  · obtain ⟨rfl, hx⟩ := List.append_inj' hsplit rfl
    cases hx
    have := hd.closed.mpr hshut
    simp [hev hadmits] at this
  · rw [← List.cons_append, ← List.append_assoc] at hsplit
    obtain ⟨rfl, -⟩ := List.append_inj' hsplit rfl
    exact hd.admitted tr₁ tr₃ j ev' rfl hadmits hshut

theorem inside_snoc (hentered : ev ≠ entered) (hleave : ev.effect ≠ .leave) :
    Inside (h ++ [ev]) ↔ Inside h := by
  have hne : ∀ r, (⟨.leave, r⟩ : Event (Lease K)) ≠ ev := by
    rintro r rfl
    exact hleave rfl
  simp [Inside, Ne.symm hentered, hne]

/-- Who is inside after an event that lets nobody in or out. -/
theorem Drained.active_snoc (hd : Drained s tr) (hentered : ev ≠ entered) (hleave : ev.effect ≠ .leave) :
    ∃ inside : Finset ℕ, (∀ j, j ∈ inside ↔ Inside (Trace.own (tr ++ [(i, ev)]) j)) ∧
      s.active = inside.card := by
  obtain ⟨inside, hinside, hcard⟩ := hd.active
  refine ⟨inside, fun j => (hinside j).trans ?_, hcard⟩
  by_cases hij : i = j
  · subst hij
    rw [own_append_self, inside_snoc hentered hleave]
  · rw [own_append_other tr hij]

theorem Drained.drainer_snoc (hd : Drained s tr) (hev : drained ev = [] ∨ gather drained tr = []) :
    ∃ k, ∀ j, j ≠ k → (Trace.own (tr ++ [(i, ev)]) j).flatMap drained = [] := by
  rcases hev with hev | hnil
  · obtain ⟨k, hk⟩ := hd.drainer
    refine ⟨k, fun j hj => ?_⟩
    by_cases hij : i = j
    · subst hij
      rw [own_append_self, List.flatMap_append, hk i hj]
      simpa using hev
    · rw [own_append_other tr hij, hk j hj]
  · refine ⟨i, fun j hj => ?_⟩
    rw [own_append_other tr (Ne.symm hj)]
    exact flatMap_own_eq_nil hnil j

theorem Drained.registers_snoc (hd : Drained s tr) (hev : ∀ close x, ev ≠ ⟨.register close, .error x⟩) :
    ∀ j close x, (j, ⟨.register close, .error x⟩) ∉ tr ++ [(i, ev)] := by
  intro j close x hmem
  rcases List.mem_append.mp hmem with hmem | hmem
  · exact hd.registers j close x hmem
  · cases List.mem_singleton.mp hmem
    exact hev close x rfl

theorem Drained.closed_snoc (hd : Drained s tr) (hev : ev.effect ≠ .shut) :
    s.closed = true ↔ Shut (tr ++ [(i, ev)]) := by
  rw [hd.closed]
  constructor
  · rintro ⟨j, r, hmem⟩
    exact ⟨j, r, List.mem_append_left _ hmem⟩
  · rintro ⟨j, r, hmem⟩
    rcases List.mem_append.mp hmem with hmem | hmem
    · exact ⟨j, r, hmem⟩
    · cases List.mem_singleton.mp hmem
      exact absurd rfl hev

/-- **A request that leaves the resources as they are.** -/
theorem Drained.same (hd : Drained s tr) (hshut : ev.effect ≠ .shut) (hentered : ev ≠ entered)
    (hleave : ev.effect ≠ .leave) (hregister : ∀ close x, ev ≠ ⟨.register close, .error x⟩)
    (haccepted : ∀ close, ev ≠ ⟨.register close, .ok true⟩) : Drained s (tr ++ [(i, ev)]) := by
  have hacc : accepted ev = [] := by
    obtain ⟨e, r⟩ := ev
    cases e with
    | register close =>
      rcases r with x | b
      · rfl
      · cases b
        · rfl
        · exact absurd rfl (haccepted close)
    | _ => rfl
  have hdrained : drained ev = [] := by
    obtain ⟨e, r⟩ := ev
    cases e with
    | leave => exact absurd rfl hleave
    | shut => exact absurd rfl hshut
    | _ => rfl
  refine ⟨hd.closed_snoc hshut, hd.active_snoc hentered hleave, fun h => ?_, fun h => ?_,
    hd.drainer_snoc (.inl hdrained), hd.admitted_snoc ?_, hd.registers_snoc hregister⟩
  · simpa [hacc, hdrained] using hd.kept h
  · simpa [hacc, hdrained] using hd.given h
  · rintro (rfl | ⟨close, rfl⟩)
    · exact absurd rfl hentered
    · exact absurd rfl (haccepted close)

/-- **A registration.** -/
theorem Drained.register (hd : Drained s tr) (hopen : s.closed = false) {close : K} :
    Drained { s with closers := s.closers ++ [close] } (tr ++ [(i, ⟨.register close, .ok true⟩)]) := by
  have hne : ¬(s.closed = true ∧ s.active = 0) := by simp [hopen]
  obtain ⟨hclosers, hdrained⟩ := hd.kept hne
  refine ⟨hd.closed_snoc nofun, hd.active_snoc (by simp [entered]) nofun, fun _ => ?_, fun h => absurd h hne,
    hd.drainer_snoc (.inr hdrained), hd.admitted_snoc fun _ => hopen, hd.registers_snoc (by simp)⟩
  simp [hclosers, hdrained, accepted, drained]

/-- **An admission.** -/
theorem Drained.enter (hd : Drained s tr) (hopen : s.closed = false) (hown : tr.own i = []) :
    Drained { s with active := s.active + 1 } (tr ++ [(i, entered)]) := by
  have hne : ¬(s.closed = true ∧ s.active = 0) := by simp [hopen]
  obtain ⟨hclosers, hdrained⟩ := hd.kept hne
  refine ⟨hd.closed_snoc (by simp [entered]), ?_, fun _ => ?_, fun h => by simp [hopen] at h,
    hd.drainer_snoc (.inr hdrained), hd.admitted_snoc fun _ => hopen, hd.registers_snoc (by simp [entered])⟩
  · obtain ⟨inside, hinside, hcard⟩ := hd.active
    have hi : i ∉ inside := fun hi => by simpa [hown] using ((hinside i).mp hi).1
    refine ⟨insert i inside, fun j => ?_, ?_⟩
    · by_cases hij : i = j
      · subst hij
        rw [own_append_self, hown]
        simp [Inside, entered]
      · rw [own_append_other tr hij, ← hinside j]
        simp [Ne.symm hij]
    · rw [Finset.card_insert_of_notMem hi]
      push_cast
      exact congrArg (· + 1) hcard
  · simp [hclosers, hdrained, accepted, drained, entered]

/-- **The end of an operation.** -/
theorem Drained.leave (hd : Drained s tr) (hin : Inside (tr.own i)) :
    Drained s.leave.2 (tr ++ [(i, ⟨.leave, .ok s.leave.1⟩)]) := by
  obtain ⟨inside, hinside, hcard⟩ := hd.active
  have hi : i ∈ inside := (hinside i).mpr hin
  have hpos : 0 < inside.card := Finset.card_pos.mpr ⟨i, hi⟩
  have hne : ¬(s.closed = true ∧ s.active = 0) := by
    rintro ⟨-, h⟩
    omega
  obtain ⟨hclosers, hdrained⟩ := hd.kept hne
  have hclosed : s.closed = true ↔ Shut (tr ++ [(i, ⟨.leave, .ok s.leave.1⟩)]) := hd.closed_snoc nofun
  refine ⟨by simpa [DeferredClose.leave] using hclosed, ?_, fun h => ?_, fun h => ?_,
    hd.drainer_snoc (.inr hdrained), hd.admitted_snoc (by simp [Admits, entered]),
    hd.registers_snoc (by simp)⟩
  · refine ⟨inside.erase i, fun j => ?_, ?_⟩
    · by_cases hij : i = j
      · subst hij
        have hout : ¬Inside (tr.own i ++ [⟨.leave, .ok s.leave.1⟩]) :=
          fun h => h.2 (.ok s.leave.1) (by simp)
        rw [own_append_self]
        simp [hout]
      · rw [own_append_other tr hij, ← hinside j]
        simp [Ne.symm hij]
    · rw [Finset.card_erase_of_mem hi]
      simp only [DeferredClose.leave, DeferredClose.ready_active]
      omega
  · simp only [DeferredClose.leave, DeferredClose.ready_closed, DeferredClose.ready_active] at h
    rw [DeferredClose.leave, DeferredClose.ready_kept h]
    simp [hclosers, hdrained, accepted, drained]
  · simp only [DeferredClose.leave, DeferredClose.ready_closed, DeferredClose.ready_active] at h
    rw [DeferredClose.leave, DeferredClose.ready_given h]
    simp [hclosers, hdrained, accepted, drained]

/-- **A `close`.** -/
theorem Drained.shut (hd : Drained s tr) : Drained s.shut.2 (tr ++ [(i, ⟨.shut, .ok s.shut.1⟩)]) := by
  have hempty : drained (K := K) ⟨.shut, .ok s.shut.1⟩ = [] ∨ gather drained tr = [] := by
    by_cases h : s.closed = true ∧ s.active = 0
    · refine .inl ?_
      rw [DeferredClose.shut_given h.2]
      simp [drained, (hd.given h).1]
    · exact .inr (hd.kept h).2
  refine ⟨⟨fun _ => ⟨i, _, List.mem_append_right _ (List.mem_singleton.mpr rfl)⟩, fun _ => ?_⟩, ?_,
    fun h => ?_, fun h => ?_, hd.drainer_snoc hempty, hd.admitted_snoc (by simp [Admits, entered]),
    hd.registers_snoc (by simp)⟩
  · simp [DeferredClose.shut]
  · have hactive : ∃ inside : Finset ℕ, (∀ j, j ∈ inside ↔
        Inside (Trace.own (tr ++ [(i, ⟨.shut, .ok s.shut.1⟩)]) j)) ∧ s.active = inside.card :=
      hd.active_snoc (by simp [entered]) nofun
    simpa [DeferredClose.shut] using hactive
  · simp only [DeferredClose.shut, DeferredClose.ready_closed, DeferredClose.ready_active] at h
    have hactive : s.active ≠ 0 := fun h0 => h ⟨trivial, h0⟩
    obtain ⟨hclosers, hdrained⟩ := hd.kept fun h' => hactive h'.2
    rw [DeferredClose.shut, DeferredClose.ready_kept (by simpa using hactive)]
    simp [hclosers, hdrained, accepted, drained]
  · simp only [DeferredClose.shut, DeferredClose.ready_closed, DeferredClose.ready_active] at h
    rw [DeferredClose.shut_given h.2]
    by_cases hclosed : s.closed = true
    · obtain ⟨hclosers, hdrained⟩ := hd.given ⟨hclosed, h.2⟩
      simp [hclosers, hdrained, accepted, drained]
    · obtain ⟨hclosers, hdrained⟩ := hd.kept fun h' => hclosed h'.1
      simp [hclosers, hdrained, accepted, drained]

/-- **What each answered request keeps.** -/
theorem Drained.step {s' : DeferredClose K} (hd : Drained s tr) (hev : Allowed (tr.own i) ev)
    (hanswer : lifetime.answer s ev.effect ev.reply s') : Drained s' (tr ++ [(i, ev)]) := by
  obtain ⟨e, r⟩ := ev
  cases e with
  | register close =>
    obtain ⟨rfl, rfl⟩ : r = .ok (s.register close).1 ∧ s' = (s.register close).2 := hanswer
    by_cases hclosed : s.closed = true
    · rw [DeferredClose.register, if_pos hclosed]
      exact hd.same nofun (by simp [entered]) nofun (by simp) (by simp)
    · rw [DeferredClose.register, if_neg hclosed]
      exact hd.register (by simpa using hclosed)
  | enter =>
    obtain ⟨rfl, rfl⟩ : r = s.enter.1 ∧ s' = s.enter.2 := hanswer
    by_cases hclosed : s.closed = true
    · rw [DeferredClose.enter, if_pos hclosed]
      exact hd.same nofun (by simp [entered]) nofun (by simp) (by simp)
    · rw [DeferredClose.enter, if_neg hclosed]
      exact hd.enter (by simpa using hclosed) hev
  | leave =>
    obtain ⟨rfl, rfl⟩ : r = .ok s.leave.1 ∧ s' = s.leave.2 := hanswer
    obtain ⟨out, hown⟩ : ∃ out, tr.own i = [entered, ⟨.body, out⟩] := hev
    exact hd.leave (by rw [hown]; simp [Inside, entered])
  | shut =>
    obtain ⟨rfl, rfl⟩ : r = .ok s.shut.1 ∧ s' = s.shut.2 := hanswer
    exact hd.shut
  | body =>
    obtain rfl : s' = s := hanswer
    exact hd.same nofun (by simp [entered]) nofun (by simp) (by simp)
  | closeLate close =>
    obtain rfl : s' = s := hanswer
    exact hd.same nofun (by simp [entered]) nofun (by simp) (by simp)
  | closeOwned close =>
    obtain rfl : s' = s := hanswer
    exact hd.same nofun (by simp [entered]) nofun (by simp) (by simp)

/-! ### Every interleaving -/

/-- **A call runs closers in the order in which it has taken them.** -/
theorem Use.ran_initial {p q : Program (Lease K) Unit} (hp : Use p) (hpath : Path p h q) :
    h.flatMap ran <+: h.flatMap drained := by
  induction h using List.reverseRecOn generalizing q with
  | nil => exact List.nil_prefix
  | append_singleton h ev ih =>
    obtain ⟨q', hinit⟩ := hpath.initial
    have hbefore := ih hinit
    have hallowed := hp.allowed hpath
    rw [List.flatMap_append, List.flatMap_append]
    obtain ⟨e, r⟩ := ev
    cases e with
    | closeOwned close => exact hallowed.trans (List.prefix_append _ _)
    | _ => simpa [ran] using hbefore.trans (List.prefix_append _ _)

/-- **What a call that has come to its end leaves.** -/
theorem Use.settled {p : Program (Lease K) Unit} {r : Except Raised Unit} (hp : Use p)
    (hruns : Runs p h r) : Settled h ∧ ¬Inside h := by
  cases hp with
  | add close =>
    have hend := add_follows.runs hruns
    rw [List.nil_append] at hend
    rcases hend with ⟨x, rfl⟩ | ⟨rfl, -⟩ | ⟨out, x, rfl, -⟩
    · exact ⟨fun _ => rfl, by simp [Inside, entered]⟩
    · exact ⟨fun _ => rfl, by simp [Inside, entered]⟩
    · exact ⟨fun _ => rfl, by simp [Inside, entered]⟩
  | operation => exact operation_follows.runs hruns
  | close =>
    refine ⟨close_follows.runs hruns, fun hin => ?_⟩
    -- a call of `close` never enters
    have hwithin : Within (fun e : LifetimeEffect K => e ≠ .enter) (OperatorHost.close (K := K)) := by
      refine (within_perform.mpr (by simp)).bind fun closers => ?_
      exact finish_within (by simp)
    exact (hwithin.path hruns).1 _ hin.1 rfl

section Reachable

variable {c : Config (Lease K) (DeferredClose K) Unit}

theorem Reachable.drained (h : Reachable lifetime Use .new c) : Drained c.shared c.trace := by
  refine h.invariant Drained drained_new ?_
  intro s tr i p e r s' q hd hp hpath hanswer
  exact hd.step (hp.allowed hpath) hanswer

/-- Call `i` waits for the answer to a request. -/
def Running (c : Config (Lease K) (DeferredClose K) Unit) (i : ℕ) (e : LifetimeEffect K) : Prop :=
  ∃ (p : Program (Lease K) Unit) (k : Except Raised e.Reply → Program (Lease K) Unit) (alive : Bool),
    c.calls[i]? = some ⟨p, .call e k, alive⟩

/-- A call has come to its end. -/
def Ended (q : Program (Lease K) Unit) : Prop := ∃ r, q = ofResult r

/-- Deferred closing, in a configuration that was reached. -/
structure Deferred (c : Config (Lease K) (DeferredClose K) Unit) : Prop where
  /-- No closer runs while an operation is active. -/
  idle : ∀ i close, Running c i (.closeOwned close) → c.shared.active = 0 ∧ ∀ j, ¬Inside (c.trace.own j)
  /-- Closers are run in reverse order, each at most once, -/
  reverse : gather ran c.trace <+: (gather accepted c.trace).reverse
  /-- and after `close`, when no operation is active and every call has come to its end, all of them. -/
  all : Shut c.trace → c.shared.active = 0 → (∀ cl ∈ c.calls, Ended cl.rest) →
    gather ran c.trace = (gather accepted c.trace).reverse
  /-- Bodies run in operations, -/
  bodies : ∀ i, Running c i .body → c.trace.own i = [entered]
  /-- none of which starts after `close`. -/
  closed : ∀ tr₁ tr₂ i, c.trace = tr₁ ++ (i, entered) :: tr₂ → ¬Shut tr₁
  /-- A closer that comes after `close` is run once, and refused. -/
  late : ∀ i close q alive tr₁ tr₂ r, c.calls[i]? = some ⟨add close, q, alive⟩ →
    c.trace = tr₁ ++ (i, ⟨.register close, r⟩) :: tr₂ → Shut tr₁ → Ended q →
    ∃ out x, c.trace.own i = [⟨.register close, .ok false⟩, ⟨.closeLate close, out⟩] ∧ q = fail x

/-- What a call waits for is what it may ask for. -/
theorem Running.allowed (h : Reachable lifetime Use .new c) {i : ℕ} {e : LifetimeEffect K}
    (hrunning : Running c i e) (r : Except Raised e.Reply) : Allowed (c.trace.own i) ⟨e, r⟩ := by
  obtain ⟨p, k, alive, hi⟩ := hrunning
  have hw := h.wellTraced
  exact Use.allowed (hw.start i _ hi) ((hw.path i _ hi).trans (.step .refl))

theorem Reachable.ran_initial (h : Reachable lifetime Use .new c) (i : ℕ) :
    (c.trace.own i).flatMap ran <+: (c.trace.own i).flatMap PayOps.OperatorHost.drained := by
  have hw := h.wellTraced
  cases hi : c.calls[i]? with
  | none =>
    have hlen := List.getElem?_eq_none_iff.mp hi
    rw [own_eq_nil fun x hx => (hw.index x hx).trans_le hlen]
    exact List.nil_prefix
  | some cl => exact (hw.start i cl hi).ran_initial (hw.path i cl hi)

/-- The call that has taken the closers runs them. -/
theorem Reachable.ran_own (h : Reachable lifetime Use .new c) :
    ∃ i, gather ran c.trace = (c.trace.own i).flatMap ran ∧
      gather PayOps.OperatorHost.drained c.trace = (c.trace.own i).flatMap PayOps.OperatorHost.drained := by
  obtain ⟨i, hdrainer⟩ := (Reachable.drained h).drainer
  refine ⟨i, gather_eq_own fun j hj => ?_, gather_eq_own hdrainer⟩
  have := Reachable.ran_initial h j
  rw [hdrainer j hj] at this
  exact List.prefix_nil.mp this

/-- Closers are taken only when nobody is inside or may come in. -/
theorem Reachable.idle (h : Reachable lifetime Use .new c)
    (hne : gather PayOps.OperatorHost.drained c.trace ≠ []) : c.shared.closed = true ∧ c.shared.active = 0 := by
  by_contra hopen
  exact hne ((Reachable.drained h).kept hopen).2

theorem Reachable.settled (h : Reachable lifetime Use .new c) (hended : ∀ cl ∈ c.calls, Ended cl.rest)
    (i : ℕ) : Settled (c.trace.own i) := by
  have hw := h.wellTraced
  cases hi : c.calls[i]? with
  | none =>
    have hlen := List.getElem?_eq_none_iff.mp hi
    rw [own_eq_nil fun x hx => (hw.index x hx).trans_le hlen]
    exact fun _ => rfl
  | some cl =>
    obtain ⟨r, hr⟩ := hended cl (List.mem_of_getElem? hi)
    have hpath := hw.path i cl hi
    rw [hr] at hpath
    exact ((hw.start i cl hi).settled hpath).1

/-- **Deferred closing**, for every interleaving of the calls: in every run in which no closer raises what is
no `Exception`, all of it; only that every closer is run depends on that. -/
theorem deferred_close (h : Reachable lifetime Use .new c)
    (horderly : ∀ i close x, (i, ⟨.closeOwned close, .error x⟩) ∈ c.trace → x.isException = true) :
    Deferred c := by
  have hd := Reachable.drained h
  obtain ⟨k, hran, hdrained⟩ := Reachable.ran_own h
  refine ⟨fun i close hrunning => ?_, ?_, fun hshut hactive hended => ?_, fun i hrunning => ?_,
    fun tr₁ tr₂ i hsplit => hd.admitted tr₁ tr₂ i _ hsplit (.inl rfl),
    fun i close q alive tr₁ tr₂ r hi hsplit hshut hend => ?_⟩
  · have hprefix : (c.trace.own i).flatMap ran ++ [close] <+: (c.trace.own i).flatMap _ :=
      hrunning.allowed h (.ok ())
    have hne : gather PayOps.OperatorHost.drained c.trace ≠ [] := by
      intro hnil
      rw [flatMap_own_eq_nil hnil i] at hprefix
      simp at hprefix
    obtain ⟨-, hactive⟩ := Reachable.idle h hne
    refine ⟨hactive, fun j hin => ?_⟩
    obtain ⟨inside, hinside, hcard⟩ := hd.active
    have := Finset.card_pos.mpr ⟨j, (hinside j).mpr hin⟩
    omega
  · by_cases hidle : c.shared.closed = true ∧ c.shared.active = 0
    · rw [← (hd.given hidle).2, hran, hdrained]
      exact Reachable.ran_initial h k
    · have hprefix := Reachable.ran_initial h k
      rw [← hdrained, (hd.kept hidle).2, ← hran] at hprefix
      rw [List.prefix_nil.mp hprefix]
      exact List.nil_prefix
  · rw [← (hd.given ⟨hd.closed.mpr hshut, hactive⟩).2, hran, hdrained]
    exact Reachable.settled h hended k fun close x hmem => horderly k close x (mem_own.mp hmem)
  · exact hrunning.allowed h (.ok ())
  · have hw := h.wellTraced
    obtain ⟨out, hq⟩ := hend
    have hpath := hw.path i _ hi
    simp only [hq] at hpath
    have hfollows := add_follows.runs hpath
    have hev : ⟨.register close, r⟩ ∈ c.trace.own i := mem_own.mpr (by rw [hsplit]; simp)
    rw [List.nil_append] at hfollows
    rcases hfollows with ⟨x, hown⟩ | ⟨hown, -⟩ | ⟨out', x, hown, hout⟩
    · exact absurd (mem_own.mp (by rw [hown]; simp)) (hd.registers i close x)
    · rw [hown, List.mem_singleton] at hev
      cases hev
      exact absurd hshut (hd.admitted tr₁ tr₂ i _ hsplit (.inr ⟨close, rfl⟩))
    · exact ⟨out', x, hown, by rw [hq, hout]; rfl⟩

end Reachable

/-! ### Two runs -/

/-- Closers answer by `closing`, and bodies return. -/
def closingHandler (closing : String → Except Raised Unit) : Handler (Lease String) (DeferredClose String)
  | .register close, s => (.ok (s.register close).1, (s.register close).2)
  | .enter, s => s.enter
  | .body, s => (.ok (), s)
  | .leave, s => (.ok s.leave.1, s.leave.2)
  | .shut, s => (.ok s.shut.1, s.shut.2)
  | .closeLate close, s => (closing close, s)
  | .closeOwned close, s => (closing close, s)

theorem closingHandler_answers (closing : String → Except Raised Unit) (e : LifetimeEffect String)
    (s : DeferredClose String) :
    lifetime.answer s e (closingHandler closing e s).1 (closingHandler closing e s).2 := by
  cases e with
  | body => rfl
  | closeLate close => rfl
  | closeOwned close => rfl
  | _ => exact ⟨rfl, rfl⟩

/-- Two clients are registered and closed, and a third comes late. -/
def closedRun (closing : String → Except Raised Unit) : Config (Lease String) (DeferredClose String) Unit :=
  let call (c : Config (Lease String) (DeferredClose String) Unit) p := c.ran (closingHandler closing) p
  call (call (call (call ⟨.new, [], []⟩ (add "first")) (add "second")) close) (add "late")

theorem closedRun_reached (closing : String → Except Raised Unit) :
    Reachable lifetime Use .new (closedRun closing) :=
  (((Reachable.call .refl (closingHandler_answers closing) (.add _)).call (closingHandler_answers closing)
    (.add _)).call (closingHandler_answers closing) .close).call (closingHandler_answers closing) (.add _)

/-- A closer that raises `RuntimeError` keeps no other from being run. -/
theorem deferred_close_failing :
    let c := closedRun fun close =>
      if close = "second" then .error ⟨"RuntimeError", "private", true⟩ else .ok ()
    Deferred c ∧ gather ran c.trace = ["second", "first"] := by
  intro c
  have htrace : c.trace = [(0, ⟨.register "first", .ok true⟩), (1, ⟨.register "second", .ok true⟩),
      (2, ⟨.shut, .ok ["second", "first"]⟩),
      (2, ⟨.closeOwned "second", .error ⟨"RuntimeError", "private", true⟩⟩),
      (2, ⟨.closeOwned "first", .ok ()⟩), (3, ⟨.register "late", .ok false⟩),
      (3, ⟨.closeLate "late", .ok ()⟩)] := by rfl
  refine ⟨deferred_close (closedRun_reached _) fun i close x hmem => ?_, by rfl⟩
  rw [htrace] at hmem
  simp only [List.mem_cons, Prod.mk.injEq, Event.mk.injEq] at hmem
  obtain ⟨-, hclose, hx⟩ : i = 2 ∧ close = "second" ∧ x = ⟨"RuntimeError", "private", true⟩ := by
    simpa using hmem
  rw [hx]

/-- A closer that raises `SystemExit` keeps the others from being run. -/
theorem close_interrupted :
    let c := closedRun fun close => if close = "second" then .error ⟨"SystemExit", "", false⟩ else .ok ()
    Reachable lifetime Use .new c ∧ c.shared.active = 0 ∧ Shut c.trace ∧
      (∀ cl ∈ c.calls, Ended cl.rest) ∧ gather accepted c.trace = ["first", "second"] ∧
      gather ran c.trace = ["second"] ∧ ¬Deferred c := by
  intro c
  have hshut : Shut c.trace := ⟨2, .ok ["second", "first"], List.mem_of_getElem? (i := 2) rfl⟩
  have hended : ∀ cl ∈ c.calls, Ended cl.rest := by
    intro cl hcl
    simp only [c, closedRun, Config.ran, List.nil_append, List.cons_append, List.mem_cons,
      List.not_mem_nil, or_false] at hcl
    rcases hcl with rfl | rfl | rfl | rfl <;> (dsimp only; exact ⟨_, rfl⟩)
  refine ⟨closedRun_reached _, by rfl, hshut, hended, by rfl, by rfl, fun hd => ?_⟩
  have hall := hd.all hshut rfl hended
  have hran : gather ran c.trace = ["second"] := by rfl
  have haccepted : gather accepted c.trace = ["first", "second"] := by rfl
  rw [hran, haccepted] at hall
  revert hall
  decide

end PayOps.OperatorHost
