import PayOps.Orchestrator.Reports

/-!
# Restarts of an investigation

An investigation is started and resumed any number of times, and may be cut off at any point of any
node. Attempts are counted by files and in the state, the state is saved between the nodes only, and the
collection has a marker of its own.

## The model

`Accounts` is what the files and the checkpoint of an incident have in common. `Restarted` is the
guarantee of every step of a call. A history is any `Serial` one of the calls on one incident.

## What is proved

* `call_restarts` — **every step of every call is in the guarantee**, from any state with the invariant.
* `restarts_bounded` — **main result**: one collection, at most `max_steps` attempts, nothing given back,
  and no collection before its attempt and its reservation are durable.
-/

namespace PayOps.Orchestrator

open Process Program Evidence

variable [Platform]

/-- What holds between the attempt files and the checkpoint of an incident. -/
structure Accounts (root : String) (incidentId : Identifier) (s : Durable) : Prop where
  /-- The checkpoint is of the incident. -/
  own : ∀ cp, s.checkpoints incidentId.val = some cp → cp.state.incident.incidentId = incidentId
  /-- The attempts are distinct, -/
  distinct : (s.attempts (attemptsDirectory root incidentId)).Nodup
  /-- and within the allowance of the checkpoint. -/
  bounded : ∀ n ∈ s.attempts (attemptsDirectory root incidentId),
    ∃ cp, s.checkpoints incidentId.val = some cp ∧ 1 ≤ n ∧ n ≤ cp.state.budget.maxSteps.val

/-- A collection may run: its reservation is in the checkpoint, and its attempt file is there. -/
structure Ready (root : String) (incidentId : Identifier) (s : Durable) (cp : Checkpoint) (n : ℕ) : Prop where
  /-- The node before it is saved. -/
  saved : s.checkpoints incidentId.val = some cp
  /-- The collection comes next. -/
  next : cp.next = some .collect
  /-- The reads are reserved, -/
  toolCalls : 20 ≤ cp.state.toolCallsReserved.val
  /-- with what is behind them. -/
  backendReads : cp.state.collectionProfile.backendReads ≤ cp.state.backendReadsReserved.val
  /-- The attempt file is there, -/
  attempted : n ∈ s.attempts (attemptsDirectory root incidentId)
  /-- and is none of the attempts before. -/
  fresh : cp.state.stepsUsed.val < n

/-- The files and the checkpoints of two states are the same. -/
structure Durable.Same (s s' : Durable) : Prop where
  /-- The checkpoints. -/
  checkpoints : s'.checkpoints = s.checkpoints
  /-- The attempts. -/
  attempts : s'.attempts = s.attempts

/-- From one state to a later one nothing is given back. -/
structure Later (root : String) (incidentId : Identifier) (s s' : Durable) : Prop where
  /-- The checkpoint keeps its inputs, and only takes. -/
  advances : ∀ cp, s.checkpoints incidentId.val = some cp →
    ∃ cp', s'.checkpoints incidentId.val = some cp' ∧ Advances cp.state cp'.state
  /-- The attempts stay, in their order. -/
  attempts : s.attempts (attemptsDirectory root incidentId) <+: s'.attempts (attemptsDirectory root incidentId)

/-- The guarantee of every step. -/
structure Restarted (root : String) (incidentId : Identifier) (h : History Host) (s : Durable)
    (ev : Event Host) (s' : Durable) : Prop where
  /-- The invariant is kept, -/
  accounts : Accounts root incidentId s'
  /-- and nothing is given back. -/
  later : Later root incidentId s s'
  /-- A collection runs when it may, right after its marker was created. -/
  collects : ∀ incident r, ev = ⟨.collect incident, r⟩ → (∃ cp n, Ready root incidentId s cp n) ∧
    ∃ g v, h = g ++ [⟨.createMarker (incidentDirectory root incidentId), .ok v⟩]

section Lemmas

variable {root : String} {incidentId : Identifier} {s s' s'' : Durable}

theorem Durable.Same.refl (s : Durable) : s.Same s := ⟨rfl, rfl⟩

theorem Durable.Same.trans (h : s.Same s') (h' : s'.Same s'') : s.Same s'' :=
  ⟨h'.checkpoints.trans h.checkpoints, h'.attempts.trans h.attempts⟩

theorem Accounts.same (h : Accounts root incidentId s) (hs : s.Same s') : Accounts root incidentId s' :=
  ⟨hs.checkpoints ▸ h.own, hs.attempts ▸ h.distinct, hs.attempts ▸ hs.checkpoints ▸ h.bounded⟩

theorem Ready.same {cp : Checkpoint} {n : ℕ} (h : Ready root incidentId s cp n) (hs : s.Same s') :
    Ready root incidentId s' cp n :=
  ⟨hs.checkpoints ▸ h.saved, h.next, h.toolCalls, h.backendReads, hs.attempts ▸ h.attempted, h.fresh⟩

theorem Later.same (hs : s.Same s') : Later root incidentId s s' :=
  ⟨fun cp hcp => ⟨cp, hs.checkpoints ▸ hcp, .refl _⟩, hs.attempts ▸ List.prefix_rfl⟩

theorem Later.trans (h : Later root incidentId s s') (h' : Later root incidentId s' s'') :
    Later root incidentId s s'' := by
  refine ⟨fun cp hcp => ?_, h.attempts.trans h'.attempts⟩
  obtain ⟨cp', hcp', hadvances⟩ := h.advances cp hcp
  obtain ⟨cp'', hcp'', hadvances'⟩ := h'.advances cp' hcp'
  exact ⟨cp'', hcp'', hadvances.trans hadvances'⟩

variable [Retention]

/-- A quiet request changes neither the attempts nor the checkpoints. -/
theorem Durable.Answer.same {e : Effect} {r : Except Fault e.Reply} (h : s.Answer e r s')
    (he : e.quiet = true) : s.Same s' := by
  obtain ⟨hcheckpoints, hattempts, -, -⟩ := h.filed
  constructor
  · rcases hcheckpoints with hsame | ⟨_, _, rfl, _⟩
    · exact hsame
    · cases he
  · rcases hattempts with hsame | ⟨_, _, rfl, _⟩
    · exact hsame
    · cases he

omit [Retention] in
/-- A step that changes neither, and is no collection, is in the guarantee. -/
theorem Restarted.same {h : History Host} {e : Effect} {r : Except Fault e.Reply}
    (hs : Accounts root incidentId s) (hsame : s.Same s') (he : e.quiet = true) :
    Restarted root incidentId h s ⟨e, r⟩ s' := by
  refine ⟨hs.same hsame, .same hsame, fun incident r' hev => ?_⟩
  cases congrArg Event.effect hev
  cases he

/-- A quiet program is in the guarantee. -/
theorem quiet_assures {α : Type} {p : Program Host α} {h : History Host}
    (hp : Within (fun e : Effect => e.quiet = true) p) (hs : Accounts root incidentId s) :
    Assures Environment (Restarted root incidentId) p h s fun _ _ t => s.Same t := by
  refine Assures.within (R := fun _ t => s.Same t) hp (.refl s) fun h t e r t' hsame he ha => ?_
  have hstep := Durable.Answer.same ha he
  exact ⟨.same (hs.same hsame) hstep he, hsame.trans hstep⟩

/-- A quiet program, and what follows it. -/
theorem quiet_bind {α β : Type} {p : Program Host α} {f : α → Program Host β} {h : History Host}
    {P : α → Prop} {Q : Except Fault β → History Host → Durable → Prop}
    (hp : Within (fun e : Effect => e.quiet = true) p) (hreturns : Returns P p)
    (hs : Accounts root incidentId s) (herror : ∀ x h' t, s.Same t → Q (.error x) h' t)
    (hok : ∀ a h' t, P a → s.Same t → Assures Environment (Restarted root incidentId) (f a) h' t Q) :
    Assures Environment (Restarted root incidentId) (p.bind f) h s Q := by
  refine assures_bind.mpr ((quiet_assures hp hs).and_runs.mono fun r h' t ht => ?_)
  obtain ⟨hsame, g, -, hruns⟩ := ht
  cases r with
  | ok a => exact hok a h' t (hreturns.runs hruns) hsame
  | error x => exact herror x h' t hsame

/-- A quiet request, and what follows it. -/
theorem quiet_perform_bind {e : Effect} {β : Type} {f : e.Reply → Program Host β} {h : History Host}
    {Q : Except Fault β → History Host → Durable → Prop} (he : e.quiet = true)
    (hs : Accounts root incidentId s) (herror : ∀ x h' t, s.Same t → Q (.error x) h' t)
    (hok : ∀ a h' t, s.Same t → Assures Environment (Restarted root incidentId) (f a) h' t Q) :
    Assures Environment (Restarted root incidentId) ((perform (I := Host) e).bind f) h s Q :=
  quiet_bind (within_perform.mpr he) (returns_true _) hs herror fun a h' t _ => hok a h' t

/-! ### The attempts -/

/-- An attempt that was not denied: the state takes its number, and its file is there. -/
structure Attempted (root : String) (incidentId : Identifier) (state reserved : InvestigationState)
    (s : Durable) : Prop where
  /-- Only the number is taken. -/
  taken : reserved = { state with stepsUsed := reserved.stepsUsed }
  /-- The file is there. -/
  filed : reserved.stepsUsed.val ∈ s.attempts (attemptsDirectory root incidentId)
  /-- The number is new. -/
  fresh : state.stepsUsed.val < reserved.stepsUsed.val

omit [Retention] in
theorem Attempted.same {state reserved : InvestigationState}
    (h : Attempted root incidentId state reserved s) (hs : s.Same s') :
    Attempted root incidentId state reserved s' := ⟨h.taken, hs.attempts ▸ h.filed, h.fresh⟩

/-- The checkpoint of the incident is before a node. -/
structure At (incidentId : Identifier) (s : Durable) (cp : Checkpoint) : Prop where
  /-- It is saved. -/
  saved : s.checkpoints incidentId.val = some cp
  /-- It is of the incident. -/
  own : cp.state.incident.incidentId = incidentId

/-- Creating an attempt file within the allowance is in the guarantee. -/
theorem createAttempt_restarted {h : History Host} {cp : Checkpoint} {n : ℕ} {r : Except Fault Unit}
    (hs : Accounts root incidentId s) (hat : At incidentId s cp) (hpos : 1 ≤ n)
    (hmax : n ≤ cp.state.budget.maxSteps.val)
    (ha : s.Answer (.createAttempt (attemptsDirectory root incidentId) n) r s') :
    Restarted root incidentId h s ⟨.createAttempt (attemptsDirectory root incidentId) n, r⟩ s' ∧
      s'.checkpoints = s.checkpoints := by
  obtain ⟨hcheckpoints, hattempts, -, -⟩ := ha.filed
  have hsame : s'.checkpoints = s.checkpoints := by
    rcases hcheckpoints with hsame | ⟨_, _, hsave, _⟩
    · exact hsame
    · cases hsave
  refine ⟨?_, hsame⟩
  have hcollects : ∀ incident r', (⟨.createAttempt (attemptsDirectory root incidentId) n, r⟩ : Event Host) =
      ⟨.collect incident, r'⟩ → (∃ cp n, Ready root incidentId s cp n) ∧
        ∃ g v, h = g ++ [⟨.createMarker (incidentDirectory root incidentId), .ok v⟩] :=
    fun incident r' hev => by cases congrArg Event.effect hev
  rcases hattempts with hunchanged | ⟨_, _, hcreate, -, hnew, hfiled⟩
  · have hstep : s.Same s' := ⟨hsame, hunchanged⟩
    exact ⟨hs.same hstep, .same hstep, hcollects⟩
  · cases hcreate
    have hnow : s'.attempts (attemptsDirectory root incidentId) =
        s.attempts (attemptsDirectory root incidentId) ++ [n] := by rw [hfiled, Function.update_self]
    refine ⟨⟨hsame ▸ hs.own, ?_, fun m hm => ?_⟩, ⟨fun cp' hcp' => ⟨cp', hsame ▸ hcp', .refl _⟩, ?_⟩, hcollects⟩
    · rw [hnow]
      exact List.nodup_append.mpr ⟨hs.distinct, List.nodup_singleton n, fun a ha b hb hab =>
        hnew (List.mem_singleton.mp hb ▸ hab ▸ ha)⟩
    · rw [hnow] at hm
      rw [hsame]
      rcases List.mem_append.mp hm with hold | hm
      · exact hs.bounded m hold
      · obtain rfl := List.mem_singleton.mp hm
        exact ⟨cp, hat.saved, hpos, hmax⟩
    · rw [hnow]
      exact List.prefix_append _ _

/-- What a program leaves that takes attempts: the checkpoint stays. -/
def Attempts (root : String) (incidentId : Identifier) (s t : Durable) : Prop :=
  t.checkpoints = s.checkpoints ∧ Accounts root incidentId t

/-- **An attempt is in the guarantee**, and it is denied or has its file. -/
theorem reserveAttempt_assures {h : History Host} {cp : Checkpoint} {node : Node}
    (hs : Accounts root incidentId s) (hat : At incidentId s cp) :
    Assures Environment (Restarted root incidentId) (reserveAttempt root cp.state node) h s
      fun r _ t => Attempts root incidentId s t ∧ ∀ reserved, r = .ok reserved → reserved.terminal = none →
        Attempted root incidentId cp.state reserved t := by
  have keeps : ∀ t, s.Same t → Attempts root incidentId s t := fun t ht => ⟨ht.checkpoints, hs.same ht⟩
  have raises : ∀ (x : Fault) (h' : History Host) (t : Durable), s.Same t → Attempts root incidentId s t ∧
      ∀ reserved, Except.error x = .ok reserved → reserved.terminal = none →
        Attempted root incidentId cp.state reserved t := fun x _ t ht => ⟨keeps t ht, by simp⟩
  unfold reserveAttempt
  rw [hat.own]
  refine quiet_perform_bind rfl hs raises fun _ h₁ s₁ hsame₁ => ?_
  refine quiet_perform_bind rfl (hs.same hsame₁) (fun x h' t ht => raises x h' t (hsame₁.trans ht))
    fun files h₂ s₂ hsame₂ => ?_
  have hallowed : Returns (fun allowed => allowed = true → max cp.state.stepsUsed.val files <
      cp.state.budget.maxSteps.val) (mayStart cp.state (max cp.state.stepsUsed.val files)) := by
    unfold mayStart
    split_ifs with hspent
    · simp
    · exact returns_bind fun _ _ => Nat.lt_of_not_le hspent
  have hquiet : Within (fun e : Effect => e.quiet = true)
      (mayStart cp.state (max cp.state.stepsUsed.val files)) := by
    unfold mayStart
    split_ifs
    · trivial
    · have hnow : Within (fun e : Effect => e.quiet = true) (ask .utcNow) := within_perform.mpr rfl
      exact hnow.bind fun _ => trivial
  have hsame₁₂ := hsame₁.trans hsame₂
  refine quiet_bind hquiet hallowed (hs.same hsame₁₂) (fun x h' t ht => raises x h' t (hsame₁₂.trans ht))
    fun allowed h₃ s₃ hmax hsame₃ => ?_
  have hsame : s.Same s₃ := hsame₁₂.trans hsame₃
  split_ifs with hallow
  swap
  · -- the attempt is denied
    refine assures_ofResult_bind.mpr ⟨fun x _ => raises x h₃ s₃ hsame, fun k _ => ⟨keeps s₃ hsame, ?_⟩⟩
    rintro reserved ⟨⟩ hterminal
    cases hterminal
  · refine quiet_perform_bind rfl (hs.same hsame) (fun x h' t ht => raises x h' t (hsame.trans ht))
      fun _ h₄ s₄ hsame₄ => ?_
    have hnow := hsame.trans hsame₄
    refine assures_perform_bind.mpr fun r s₅ ha => ?_
    have hat₄ : At incidentId s₄ cp := ⟨hnow.checkpoints ▸ hat.saved, hat.own⟩
    obtain ⟨hstep, hcheckpoints⟩ := createAttempt_restarted (h := h₄) (hs.same hnow) hat₄ (Nat.le_add_left 1 _)
      (hmax hallow) ha
    have hkept : Attempts root incidentId s s₅ := ⟨hcheckpoints.trans hnow.checkpoints, hstep.accounts⟩
    refine ⟨hstep, fun x _ => ⟨hkept, by simp⟩, fun created hcreated => ?_⟩
    subst hcreated
    have hfiled := Durable.Answer.attempted ha
    refine quiet_perform_bind rfl hstep.accounts (fun x h' t ht => ?_) fun _ h₆ s₆ hsame₆ => ?_
    · exact ⟨⟨ht.checkpoints.trans hkept.1, hkept.2.same ht⟩, by simp⟩
    · have hlast : Attempts root incidentId s s₆ :=
        ⟨hsame₆.checkpoints.trans hkept.1, hkept.2.same hsame₆⟩
      refine assures_ofResult_bind.mpr ⟨fun x _ => ⟨hlast, by simp⟩, fun k hk => ⟨hlast, ?_⟩⟩
      rintro reserved ⟨⟩ -
      have hnumber : k.val = max cp.state.stepsUsed.val files + 1 := UpTo.validate_eq_ok.mp hk
      refine ⟨rfl, ?_, ?_⟩
      · show k.val ∈ _
        rw [hsame₆.attempts, hfiled, Function.update_self, hnumber]
        simp
      · show cp.state.stepsUsed.val < k.val
        omega

/-! ### The nodes -/

variable [SourceChecks]

theorem collected_quiet (root : String) (state : InvestigationState) (result : Collection) :
    Within (fun e : Effect => e.quiet = true) (collected root state result) :=
  within_raiseIf.bind fun _ => ((reading_quiet _ _).mono Effect.quiet_of_reasons).bind fun _ => trivial

/-- A collection that may run is in the guarantee. -/
theorem dispatchCollection_assures {h : History Host} {cp : Checkpoint} {n : ℕ}
    {state : InvestigationState} (hs : Accounts root incidentId s) (hready : Ready root incidentId s cp n)
    (hown : state.incident.incidentId = incidentId) :
    Assures Environment (Restarted root incidentId) (dispatchCollection root state) h s
      fun _ _ t => s.Same t := by
  unfold dispatchCollection
  rw [hown]
  refine assures_perform_bind.mpr fun r₁ s₁ ha₁ => ?_
  have hsame₁ : s.Same s₁ := Durable.Answer.same ha₁ rfl
  refine ⟨.same hs hsame₁ rfl, fun x _ => hsame₁, fun v hv => ?_⟩
  subst hv
  refine assures_perform_bind.mpr fun r₂ s₂ ha₂ => ?_
  have hsame₂ : s₁.Same s₂ := by
    obtain ⟨hcheckpoints, hattempts, -, -⟩ := Durable.Answer.filed ha₂
    constructor
    · rcases hcheckpoints with hsame | ⟨_, _, hsave, _⟩
      · exact hsame
      · cases hsave
    · rcases hattempts with hsame | ⟨_, _, hcreate, _⟩
      · exact hsame
      · cases hcreate
  have hsame := hsame₁.trans hsame₂
  refine ⟨⟨hs.same hsame, .same hsame₂, fun incident r' hev => ?_⟩, fun x _ => hsame, fun result _ => ?_⟩
  · exact ⟨⟨cp, n, hready.same hsame₁⟩, h, v, rfl⟩
  refine quiet_perform_bind rfl (hs.same hsame) (fun x h' t ht => hsame.trans ht) fun _ h₃ s₃ hsame₃ => ?_
  have hthird := hsame.trans hsame₃
  refine quiet_perform_bind rfl (hs.same hthird) (fun x h' t ht => hthird.trans ht) fun _ h₄ s₄ hsame₄ => ?_
  have hfourth := hthird.trans hsame₄
  exact (quiet_assures (collected_quiet root state result) (hs.same hfourth)).mono fun _ _ t ht =>
    hfourth.trans ht

/-- **A collection is in the guarantee.** -/
theorem collect_assures {h : History Host} {cp : Checkpoint} {state : InvestigationState}
    (hs : Accounts root incidentId s) (hat : At incidentId s cp) (hnext : cp.next = some .collect)
    (hattempted : Attempted root incidentId cp.state state s) :
    Assures Environment (Restarted root incidentId) (collect root state) h s fun _ _ t => s.Same t := by
  have hown : state.incident.incidentId = incidentId := by
    rw [hattempted.taken]
    exact hat.own
  unfold collect
  split_ifs with hreserved
  · exact .refl s
  have hready : Ready root incidentId s cp state.stepsUsed.val := by
    rw [hattempted.taken] at hreserved
    simp only [not_or, not_lt] at hreserved
    exact ⟨hat.saved, hnext, hreserved.1, hreserved.2, hattempted.filed, hattempted.fresh⟩
  refine quiet_perform_bind rfl hs (fun x h' t ht => ht) fun _ h₁ s₁ hsame₁ => ?_
  refine assures_tryCatch.mpr (Assures.mono (Q := fun _ _ t => s.Same t) ?_ fun r h' t ht => ?_)
  · refine quiet_perform_bind rfl (hs.same hsame₁) (fun x h' t ht => hsame₁.trans ht)
      fun retained h₂ s₂ hsame₂ => ?_
    have hsame := hsame₁.trans hsame₂
    cases retained with
    | true =>
      refine quiet_perform_bind rfl (hs.same hsame) (fun x h' t ht => hsame.trans ht)
        fun result h₃ s₃ hsame₃ => ?_
      exact (quiet_assures (collected_quiet root state result) (hs.same (hsame.trans hsame₃))).mono
        fun _ _ t ht => (hsame.trans hsame₃).trans ht
    | false =>
      exact (dispatchCollection_assures (hs.same hsame) (hready.same hsame) hown).mono
        fun _ _ t ht => hsame.trans ht
  · cases r with
    | ok a => exact ht
    | error x => exact assures_ofResult.mpr ht

omit [SourceChecks] in
/-- A node is in the guarantee if its operation is. -/
theorem step_assures {h : History Host} {cp : Checkpoint} {node : Node}
    {operation : InvestigationState → Program Host InvestigationState}
    (hs : Accounts root incidentId s) (hat : At incidentId s cp)
    (hop : ∀ reserved h' t, Accounts root incidentId t → At incidentId t cp →
      Attempted root incidentId cp.state reserved t →
        Assures Environment (Restarted root incidentId) (operation reserved) h' t fun _ _ u => t.Same u) :
    Assures Environment (Restarted root incidentId) (step root cp.state node operation) h s
      fun _ _ t => Attempts root incidentId s t := by
  have later : ∀ {t u : Durable}, Attempts root incidentId s t → t.Same u → Attempts root incidentId s u :=
    fun ht hu => ⟨hu.checkpoints.trans ht.1, ht.2.same hu⟩
  refine assures_bind.mpr ((reserveAttempt_assures hs hat).mono fun r h₁ s₁ hr => ?_)
  obtain ⟨hkept, hattempted⟩ := hr
  cases r with
  | error x => exact hkept
  | ok reserved =>
  refine assures_bind.mpr (Assures.mono (Q := fun _ _ t => s₁.Same t) ?_ fun r h₂ s₂ hsame₂ => ?_)
  · unfold operate
    split_ifs with hterminal
    · exact .refl s₁
    · have hat₁ : At incidentId s₁ cp := ⟨hkept.1 ▸ hat.saved, hat.own⟩
      exact hop reserved h₁ s₁ hkept.2 hat₁
        (hattempted reserved rfl (Option.not_isSome_iff_eq_none.mp hterminal))
  · have hkept₂ := later hkept hsame₂
    cases r with
    | error x => exact hkept₂
    | ok result =>
    refine quiet_perform_bind rfl hkept₂.2 (fun x h' t ht => later hkept₂ ht) fun _ h₃ s₃ hsame₃ => ?_
    have hkept₃ := later hkept₂ hsame₃
    exact quiet_perform_bind rfl hkept₃.2 (fun x h' t ht => later hkept₃ ht)
      fun _ h₄ s₄ hsame₄ => later hkept₃ hsame₄

variable [Rendering] [BaselineTexts]

/-- **A node is in the guarantee**, and leaves the checkpoint as it is. -/
theorem run_assures {N : InvestigationNodes} (hroot : N.root = root) {h : History Host} {cp : Checkpoint}
    {node : Node} (hs : Accounts root incidentId s) (hat : At incidentId s cp)
    (hnode : cp.next = some node) :
    Assures Environment (Restarted root incidentId) (N.run node cp.state) h s
      fun _ _ t => Attempts root incidentId s t := by
  subst hroot
  have quietly : ∀ {operation : InvestigationState → Program Host InvestigationState},
      (∀ reserved, Within (fun e : Effect => e.quiet = true) (operation reserved)) →
        Assures Environment (Restarted N.root incidentId) (step N.root cp.state node operation) h s
          fun _ _ t => Attempts N.root incidentId s t :=
    fun hop => step_assures hs hat fun reserved h' t ht _ _ => quiet_assures (hop reserved) ht
  cases node with
  | triage => exact quietly fun _ => trivial
  | reserve => exact quietly fun _ => within_ofResult _
  | collect => exact step_assures hs hat fun reserved h' t ht hat' hattempted =>
      collect_assures ht hat' hnode hattempted
  | rank => exact quietly fun reserved => (rank_reasons N reserved).mono Effect.quiet_of_reasons
  | finish =>
    have hfinish : Within (fun e : Effect => e.quiet = true) (finish cp.state) :=
      Within.bind (within_perform.mpr rfl) fun _ => (within_ofResult _).bind fun _ => trivial
    exact (quiet_assures hfinish hs).mono fun _ _ t ht => ⟨ht.checkpoints, hs.same ht⟩

/-! ### The calls -/

omit [SourceChecks] [Rendering] [BaselineTexts] in
/-- Saving a state that advances on the saved one is in the guarantee. -/
theorem saveCheckpoint_restarted {h : History Host} {cp : Checkpoint} {r : Except Fault Unit}
    (hs : Accounts root incidentId s) (hown : cp.state.incident.incidentId = incidentId)
    (hadvances : ∀ old, s.checkpoints incidentId.val = some old → Advances old.state cp.state)
    (ha : s.Answer (.saveCheckpoint incidentId.val cp) r s') :
    Restarted root incidentId h s ⟨.saveCheckpoint incidentId.val cp, r⟩ s' := by
  obtain ⟨hcheckpoints, hattempts, -, -⟩ := ha.filed
  have hsame : s'.attempts = s.attempts := by
    rcases hattempts with hsame | ⟨_, _, hcreate, _⟩
    · exact hsame
    · cases hcreate
  have hcollects : ∀ incident r', (⟨.saveCheckpoint incidentId.val cp, r⟩ : Event Host) =
      ⟨.collect incident, r'⟩ → (∃ cp n, Ready root incidentId s cp n) ∧
        ∃ g v, h = g ++ [⟨.createMarker (incidentDirectory root incidentId), .ok v⟩] :=
    fun incident r' hev => by cases congrArg Event.effect hev
  rcases hcheckpoints with hunchanged | ⟨_, _, hsave, hsaved⟩
  · have hstep : s.Same s' := ⟨hunchanged, hsame⟩
    exact ⟨hs.same hstep, .same hstep, hcollects⟩
  · cases hsave
    have hnow : s'.checkpoints incidentId.val = some cp := by rw [hsaved, Function.update_self]
    refine ⟨⟨fun new hnew => ?_, hsame ▸ hs.distinct, fun n hn => ?_⟩,
      ⟨fun old hold => ⟨cp, hnow, hadvances old hold⟩, hsame ▸ List.prefix_rfl⟩, hcollects⟩
    · obtain rfl := Option.some.inj (hnow.symm.trans hnew)
      exact hown
    · rw [hsame] at hn
      obtain ⟨old, hold, hpos, hmax⟩ := hs.bounded n hn
      exact ⟨cp, hnow, hpos, (hadvances old hold).budget ▸ hmax⟩

/-- **The graph is in the guarantee.** -/
theorem drive_assures {W : InvestigationWorker} (hroot : W.nodes.root = root) {limit : ℕ} {entered : Bool}
    {node : Node} {state : InvestigationState} {h : History Host} (hs : Accounts root incidentId s)
    (hat : At incidentId s ⟨state, some node⟩) :
    Assures Environment (Restarted root incidentId) (W.drive incidentId.val limit entered node state) h s
      fun _ _ _ => True := by
  induction limit generalizing entered node state h s with
  | zero => trivial
  | succ limit ih =>
    unfold InvestigationWorker.drive
    split_ifs
    · trivial
    refine assures_bind.mpr ((run_assures hroot hs hat rfl).and_runs.mono fun r h₁ s₁ hr => ?_)
    obtain ⟨⟨hcheckpoints, hs₁⟩, g, -, hruns⟩ := hr
    cases r with
    | error x => trivial
    | ok state' =>
    have hadvances : Advances state state' := (run_advances W.nodes node state).runs hruns
    refine assures_ofResult_bind.mpr ⟨fun _ _ => trivial, fun next _ => ?_⟩
    have hown : state'.incident.incidentId = incidentId := by
      rw [hadvances.incident]
      exact hat.own
    refine assures_perform_bind.mpr fun r s₂ ha => ?_
    have hstep : Restarted root incidentId h₁ s₁ ⟨.saveCheckpoint incidentId.val ⟨state', next⟩, r⟩ s₂ := by
      refine saveCheckpoint_restarted hs₁ hown (fun old hold => ?_) ha
      rw [hcheckpoints, hat.saved] at hold
      obtain rfl := Option.some.inj hold
      exact hadvances
    refine ⟨hstep, fun _ _ => trivial, fun saved hsaved => ?_⟩
    subst hsaved
    have hnow : s₂.checkpoints incidentId.val = some ⟨state', next⟩ := by
      rw [Durable.Answer.saved ha, Function.update_self]
    cases next with
    | none => trivial
    | some node' => exact ih hstep.accounts ⟨hnow, hown⟩

theorem invoke_assures {W : InvestigationWorker} (hroot : W.nodes.root = root)
    {initial : Option InvestigationState} (hinitial : ∀ state ∈ initial, state.incident.incidentId = incidentId)
    {h : History Host} (hs : Accounts root incidentId s) :
    Assures Environment (Restarted root incidentId) (W.invoke incidentId initial) h s fun _ _ _ => True := by
  refine quiet_perform_bind rfl hs (fun _ _ _ _ => trivial) fun _ h₁ s₁ hsame₁ => ?_
  refine assures_perform_bind.mpr fun r s₂ ha => ?_
  have hsame₂ := Durable.Answer.same ha rfl
  have hs₂ := (hs.same hsame₁).same hsame₂
  refine ⟨.same (hs.same hsame₁) hsame₂ rfl, fun _ _ => trivial, fun found hfound => ?_⟩
  subst hfound
  have hloaded : found = s₂.checkpoints incidentId.val := hsame₂.checkpoints ▸ Durable.Answer.loaded ha
  cases found with
  | some snapshot =>
    refine assures_ofResult_bind.mpr ⟨fun _ _ => trivial, fun _ _ => ?_⟩
    cases initial with
    | some state => exact assures_raiseIf_bind.mpr ⟨fun _ => trivial, fun _ => trivial⟩
    | none =>
      dsimp only
      split_ifs
      · trivial
      cases hnext : snapshot.next with
      | none => trivial
      | some node =>
        refine drive_assures hroot hs₂ ⟨?_, hs₂.own snapshot hloaded.symm⟩
        rw [← hnext]
        exact hloaded.symm
  | none =>
    cases initial with
    | none => trivial
    | some state =>
      refine assures_perform_bind.mpr fun r s₃ hsave => ?_
      have hstep : ∀ g, Restarted root incidentId g s₂
          ⟨.saveCheckpoint incidentId.val ⟨state, some .triage⟩, r⟩ s₃ := by
        refine fun g => saveCheckpoint_restarted hs₂ (hinitial state rfl) (fun old hold => ?_) hsave
        rw [← hloaded] at hold
        cases hold
      refine ⟨hstep _, fun _ _ => trivial, fun saved hsaved => ?_⟩
      subst hsaved
      refine drive_assures hroot (hstep []).accounts ⟨?_, hinitial state rfl⟩
      rw [Durable.Answer.saved hsave, Function.update_self]

/-- **Every step of every call is in the guarantee.** -/
theorem call_restarts {p : Program Host InvestigationState} (hp : GraphCall root incidentId p)
    (hs : Accounts root incidentId s) :
    Assures Environment (Restarted root incidentId) p [] s fun _ _ _ => True := by
  cases hp with
  | start W incident budget hroot hown =>
    subst hown
    have hinitial : ∀ b, ∀ state ∈ some (W.initial incident b),
        state.incident.incidentId = incident.incidentId := by
      rintro b state ⟨⟩
      rfl
    cases budget with
    | some budget => exact invoke_assures hroot (hinitial budget) hs
    | none =>
      exact quiet_perform_bind rfl hs (fun _ _ _ _ => trivial) fun now h₁ s₁ hsame =>
        invoke_assures hroot (hinitial _) (hs.same hsame)
  | resume W hroot => exact invoke_assures hroot (by simp) hs

end Lemmas

/-! ### Histories -/

/-- The collector is invoked. -/
def collects : Event Host → Bool
  | ⟨.collect _, _⟩ => true
  | _ => false

/-- The dispatch marker is created. -/
def marks (directory : String) : Event Host → Bool
  | ⟨.createMarker d, .ok _⟩ => d == directory
  | _ => false

/-- An attempt file is created. -/
def attempts (directory : String) : Event Host → Bool
  | ⟨.createAttempt d _, .ok _⟩ => d == directory
  | _ => false

section Histories

variable {root : String} {incidentId : Identifier} {s₀ : Durable}
  {c c' : Sessions Host Durable InvestigationState}

/-- Distinct attempts within an allowance are no more than it. -/
theorem Accounts.length_le {s : Durable} (h : Accounts root incidentId s) {cp : Checkpoint}
    (hcp : s.checkpoints incidentId.val = some cp) :
    (s.attempts (attemptsDirectory root incidentId)).length ≤ cp.state.budget.maxSteps.val := by
  have hsub : s.attempts (attemptsDirectory root incidentId) ⊆ List.range' 1 cp.state.budget.maxSteps.val := by
    intro n hn
    obtain ⟨cp', hcp', hpos, hmax⟩ := h.bounded n hn
    obtain rfl := Option.some.inj (hcp.symm.trans hcp')
    rw [List.mem_range'_1]
    omega
  have hlen := (h.distinct.subperm hsub).length_le
  rwa [List.length_range'] at hlen

theorem Accounts.length_eq_zero {s : Durable} (h : Accounts root incidentId s)
    (hnone : s.checkpoints incidentId.val = none) :
    (s.attempts (attemptsDirectory root incidentId)).length = 0 := by
  rw [List.length_eq_zero_iff, List.eq_nil_iff_forall_not_mem]
  intro n hn
  obtain ⟨cp, hcp, -⟩ := h.bounded n hn
  rw [hnone] at hcp
  cases hcp

variable [Retention]

/-- The marker is created once. -/
theorem marks_le (Start : Program Host InvestigationState → Prop) (directory : String)
    (h : Serial Environment Start s₀ c) : c.events.countP (marks directory) ≤ 1 := by
  have hcount : c.events.countP (marks directory) ≤ (c.shared.marker directory).toNat := by
    refine Serial.invariant (fun s tr => tr.countP (marks directory) ≤ (s.marker directory).toNat) h
      (Nat.zero_le _) fun s tr p e r s' g q hinv _ _ ha => ?_
    rw [List.countP_append, List.countP_singleton]
    by_cases hmarks : marks directory ⟨e, r⟩ = true
    · rw [if_pos hmarks]
      unfold marks at hmarks
      split at hmarks
      · rename_i d v hev
        cases hev
        obtain rfl := beq_iff_eq.mp hmarks
        obtain ⟨hbefore, hafter⟩ := Durable.Answer.marked ha
        rw [hbefore] at hinv
        rw [hafter]
        exact Nat.add_le_add_right hinv 1
      · cases hmarks
    · rw [if_neg hmarks, Nat.add_zero]
      refine hinv.trans ?_
      rcases (Durable.Answer.filed ha).marker with hsame | ⟨d, -, hbefore, hafter⟩
      · rw [hsame]
      · rw [hafter]
        by_cases hd : directory = d
        · subst hd
          rw [Function.update_self, hbefore]
          exact Nat.zero_le _
        · rw [Function.update_of_ne hd]
  exact hcount.trans (Bool.toNat_le _)

/-- Every attempt that was made has its file. -/
theorem attempts_le (Start : Program Host InvestigationState → Prop) (directory : String)
    (h : Serial Environment Start s₀ c) :
    c.events.countP (attempts directory) ≤ (c.shared.attempts directory).length := by
  refine Serial.invariant (fun s tr => tr.countP (attempts directory) ≤ (s.attempts directory).length) h
    (Nat.zero_le _) fun s tr p e r s' g q hinv _ _ ha => ?_
  rw [List.countP_append, List.countP_singleton]
  by_cases hattempts : attempts directory ⟨e, r⟩ = true
  · rw [if_pos hattempts]
    unfold attempts at hattempts
    split at hattempts
    · rename_i d n v hev
      cases hev
      obtain rfl := beq_iff_eq.mp hattempts
      rw [Durable.Answer.attempted ha, Function.update_self, List.length_append]
      exact Nat.add_le_add_right hinv 1
    · cases hattempts
  · rw [if_neg hattempts, Nat.add_zero]
    refine hinv.trans ?_
    rcases (Durable.Answer.filed ha).attempts with hsame | ⟨d, n, -, -, -, hafter⟩
    · rw [hsame]
    · rw [hafter]
      by_cases hd : directory = d
      · subst hd
        rw [Function.update_self, List.length_append]
        exact Nat.le_add_right _ _
      · rw [Function.update_of_ne hd]

omit [Retention] in
/-- An attempt that is not denied has created its file. -/
theorem reserveAttempt_files {state reserved : InvestigationState} {node : Node} {g : History Host}
    (hruns : Runs (reserveAttempt root state node) g (.ok reserved)) (hterminal : reserved.terminal = none) :
    g.countP (attempts (attemptsDirectory root state.incident.incidentId)) = 1 := by
  unfold reserveAttempt at hruns
  obtain ⟨_, g₁, rfl, h₁⟩ := runs_perform_bind_ok.mp hruns
  obtain ⟨files, g₂, rfl, h₂⟩ := runs_perform_bind_ok.mp h₁
  obtain ⟨allowed, g₃, g₄, rfl, hallowed, h₃⟩ := runs_bind_ok.mp h₂
  have hnone : g₃.countP (attempts (attemptsDirectory root state.incident.incidentId)) = 0 := by
    unfold mayStart at hallowed
    split_ifs at hallowed
    · obtain ⟨rfl, -⟩ := runs_done.mp hallowed
      rfl
    · obtain ⟨now, g', rfl, hnow⟩ := runs_perform_bind_ok.mp hallowed
      obtain ⟨rfl, -⟩ := runs_done.mp hnow
      rfl
  cases allowed with
  | false =>
    obtain ⟨k, -, h₄⟩ := runs_ofResult_bind_ok.mp h₃
    obtain ⟨-, hreserved⟩ := runs_done.mp h₄
    cases hreserved
    cases hterminal
  | true =>
    obtain ⟨now, g₅, rfl, h₄⟩ := runs_perform_bind_ok.mp h₃
    obtain ⟨_, g₆, rfl, h₅⟩ := runs_perform_bind_ok.mp h₄
    obtain ⟨_, g₇, rfl, h₆⟩ := runs_perform_bind_ok.mp h₅
    obtain ⟨k, -, h₇⟩ := runs_ofResult_bind_ok.mp h₆
    obtain ⟨rfl, -⟩ := runs_done.mp h₇
    simp [List.countP_append, attempts, hnone]

variable [SourceChecks] [Rendering] [BaselineTexts]

/-- **Restarts refill nothing.** In every history of starts and resumptions of an incident that had
neither a checkpoint nor an attempt, cut off anywhere:
* the collector is invoked once at most;
* the attempts are at most the `max_steps` of the checkpoint, and there are none without it: an attempt
  that passes `reserve_attempt` is one of these;
* whatever follows keeps the inputs and the allowances of the checkpoint, and gives neither a reservation
  nor an attempt back;
* when the collector is about to be invoked, the checkpoint before the collection and its reservation are
  durable, and so is the file of the attempt. -/
theorem restarts_bounded (hcheckpoint : s₀.checkpoints incidentId.val = none)
    (hattempts : s₀.attempts (attemptsDirectory root incidentId) = [])
    (h : Serial Environment (GraphCall root incidentId) s₀ c) :
    c.events.countP collects ≤ 1 ∧
      ((∀ cp, c.shared.checkpoints incidentId.val = some cp →
          c.events.countP (attempts (attemptsDirectory root incidentId)) ≤ cp.state.budget.maxSteps.val) ∧
        (c.shared.checkpoints incidentId.val = none →
          c.events.countP (attempts (attemptsDirectory root incidentId)) = 0) ∧
        ∀ state node g reserved, Runs (reserveAttempt root state node) g (.ok reserved) →
          reserved.terminal = none →
            g.countP (attempts (attemptsDirectory root state.incident.incidentId)) = 1) ∧
      (∀ c', Relation.ReflTransGen (SerialStep Environment (GraphCall root incidentId)) c c' →
        Later root incidentId c.shared c'.shared) ∧
      ∀ log p g incident k, c.log = log ++ [⟨p, g, call (.collect incident) k⟩] →
        ∃ cp n, Ready root incidentId c.shared cp n := by
  have hstart : Accounts root incidentId s₀ := by
    refine ⟨fun cp hcp => ?_, hattempts ▸ List.nodup_nil, fun n hn => ?_⟩
    · rw [hcheckpoint] at hcp
      cases hcp
    · rw [hattempts] at hn
      cases hn
  have hassures : ∀ p s, GraphCall root incidentId p → Accounts root incidentId s →
      Assures Environment (Restarted root incidentId) p [] s fun _ _ _ => True := fun _ _ => call_restarts
  have hkeep : ∀ g s ev s', Accounts root incidentId s → Restarted root incidentId g s ev s' →
      Accounts root incidentId s' := fun _ _ _ _ _ hstep => hstep.accounts
  obtain ⟨haccounts, hlast⟩ := h.guarded hstart hkeep hassures
  refine ⟨?_, ⟨fun cp hcp => ?_, fun hnone => ?_, fun state node g reserved => reserveAttempt_files⟩,
    fun c' => ?_, ?_⟩
  · refine (Serial.preceded_le (B := marks (incidentDirectory root incidentId)) h hstart hkeep hassures
      (fun ev hev => ?_) fun g s ev s' _ hstep hev => ?_).1.trans (marks_le _ _ h)
    · unfold marks at hev
      split at hev
      · rfl
      · cases hev
    · unfold collects at hev
      split at hev
      · rename_i incident r
        obtain ⟨-, g', v, hg⟩ := hstep.collects incident r rfl
        exact ⟨g', _, hg, beq_self_eq_true _⟩
      · cases hev
  · exact (attempts_le _ _ h).trans (haccounts.length_le hcp)
  · have := attempts_le _ (attemptsDirectory root incidentId) h
    rw [haccounts.length_eq_zero hnone] at this
    exact Nat.le_zero.mp this
  · exact h.later hstart hkeep hassures (fun s => .same (.refl s)) (fun _ _ _ => .trans)
      (fun _ _ _ _ _ hstep => hstep.later)
  · intro log p g incident k hlog
    have hfault : Durable.Answer c.shared (.collect incident) (.error (.other "")) c.shared :=
      .fault (.refl _)
    exact (((hlast log _ hlog) _ _ hfault).1.collects incident _ rfl).1

end Histories

end PayOps.Orchestrator

namespace PayOps.Orchestrator

open Process Program Evidence

attribute [local instance] plainPlatform plainRetention plainRendering plainChecks plainTexts

/-- In the investigation that ends in a report the collector is invoked once at most. -/
theorem restarts_bounded_sample : (collectorRun [sampleItem]).events.countP collects ≤ 1 := by
  have hserial : Serial Environment (GraphCall "incidents" sandboxIncident.incidentId) .empty
      (collectorRun [sampleItem]) :=
    Serial.call .refl (collectorHost_answer [sampleItem]) (.start sampleWorker sandboxIncident _ rfl rfl)
  exact (restarts_bounded rfl rfl hserial).1

end PayOps.Orchestrator
