import PayOps.Process.Runner
import PayOps.Traffic.Control

/-!
# The history of a traffic source

Any number of workers register sources, admit attempts and pause. Every transaction is atomic, so
that the trace of a run is a sequential history of the rows (`Change`), whatever the calls
interleave.

## What is proved

* `answer_change` — what one answer does to the row of a source.
* `Account` — the row of a source is what its history adds up to, and nothing is admitted after a
  pause; `reached_account` — it holds of every run.
* `pause_step` — what a step of a pause leaves.
* `traffic_linearizable` — **main result**.
-/

namespace PayOps.Traffic

open Process Program Policy Remediation

/-! ### Events -/

/-- An admission of the source was granted. -/
def admits (uid : String) : Event Host → Bool
  | ⟨.admitRow u _ _, .ok true⟩ => u == uid
  | _ => false

/-- A pause of the source was committed. -/
def pauses (uid : String) : Event Host → Bool
  | ⟨.pauseRow u _ _ _, .ok (some _)⟩ => u == uid
  | _ => false

/-- A request of an attempt was sent. -/
def sends : Event Host → Bool
  | ⟨.send _, _⟩ => true
  | _ => false

/-- What an answered request does to the row of a source. -/
inductive Change (uid : String) (old : Option TrafficRow) : Event Host → Option TrafficRow → Prop
  /-- Nothing. -/
  | same {ev : Event Host} : admits uid ev = false → pauses uid ev = false → Change uid old ev old
  /-- The source is registered. -/
  | added {service : String} {mode : OperationMode} : old = none →
    Change uid old ⟨.addRow uid service mode, .ok ()⟩ (some { service, mode })
  /-- An attempt is admitted. -/
  | admitted {row : TrafficRow} : old = some row → row.paused = false →
    Change uid old ⟨.admitRow uid row.service row.mode, .ok true⟩
      (some { row with admitted := row.admitted + 1 })
  /-- The source is paused. -/
  | paused {row : TrafficRow} : old = some row → row.paused = false →
    Change uid old ⟨.pauseRow uid row.service row.mode (toString row.version), .ok (some (row.version + 1))⟩
      (some { row with paused := true, version := row.version + 1 })

/-- **What one answer does to the row of a source.** -/
theorem answer_change {s s' : Rows} {e : Effect} {r : Except Fault e.Reply} (h : Answer s e r s')
    (uid : String) : Change uid (s uid) ⟨e, r⟩ (s' uid) := by
  cases h with
  | fault => exact .same (by cases e <;> rfl) (by cases e <;> rfl)
  | outside hnone =>
    have hrows : exec s e = none → admits uid ⟨e, r⟩ = false ∧ pauses uid ⟨e, r⟩ = false := by
      cases e <;> intro hnone <;> first | exact ⟨rfl, rfl⟩ | skip
      all_goals
        simp only [exec] at hnone
        (repeat' split at hnone) <;> cases hnone
    exact .same (hrows hnone).1 (hrows hnone).2
  | exec hexec =>
    cases e with
    | addRow u service mode =>
      simp only [exec] at hexec
      split_ifs at hexec with hrow <;> cases hexec
      · exact .same rfl rfl
      · by_cases hu : uid = u
        · subst hu
          rw [Function.update_self]
          exact .added (Option.not_isSome_iff_eq_none.mp hrow)
        · rw [Function.update_of_ne hu]
          exact .same rfl rfl
    | admitRow u service mode =>
      simp only [exec] at hexec
      split at hexec
      · cases hexec
        exact .same rfl rfl
      · rename_i row hrow
        split_ifs at hexec with hguard <;> cases hexec
        · obtain ⟨rfl, rfl, hpaused⟩ := hguard
          by_cases hu : uid = u
          · subst hu
            rw [Function.update_self]
            exact .admitted hrow hpaused
          · rw [Function.update_of_ne hu]
            exact .same (by simpa [admits] using Ne.symm hu) rfl
        · exact .same rfl rfl
    | pauseRow u service mode expectedVersion =>
      simp only [exec] at hexec
      split at hexec
      · cases hexec
        exact .same rfl rfl
      · rename_i row hrow
        split_ifs at hexec with hguard <;> cases hexec
        · obtain ⟨rfl, rfl, rfl, hpaused⟩ := hguard
          by_cases hu : uid = u
          · subst hu
            rw [Function.update_self]
            exact .paused hrow hpaused
          · rw [Function.update_of_ne hu]
            exact .same rfl (by simpa [pauses] using Ne.symm hu)
        · exact .same rfl rfl
    | getRow u =>
      cases hexec
      exact .same rfl rfl
    | _ => cases hexec

/-! ### The account of a source -/

/-- The row of a source is what its history adds up to. -/
structure Account (uid : String) (s : Rows) (tr : Trace Host) : Prop where
  /-- A source that is not registered has no history. -/
  absent : s uid = none → ∀ x ∈ tr, admits uid x.2 = false ∧ pauses uid x.2 = false
  /-- Its admissions are counted, -/
  admitted : ∀ row, s uid = some row → row.admitted = tr.countP fun x => admits uid x.2
  /-- and its pauses; -/
  version : ∀ row, s uid = some row → row.version = tr.countP fun x => pauses uid x.2
  /-- it is paused after the first one, and there is no second. -/
  paused : ∀ row, s uid = some row → row.version = if row.paused then 1 else 0
  /-- Its service and its mode are those of its registration, -/
  registered : ∀ row, s uid = some row →
    ∃ i, (i, ⟨.addRow uid row.service row.mode, .ok ()⟩) ∈ tr
  /-- and of every admission. -/
  scope : ∀ row, s uid = some row → ∀ i service mode,
    (i, ⟨.admitRow uid service mode, .ok true⟩) ∈ tr → service = row.service ∧ mode = row.mode
  /-- A pause leads to version 1. -/
  first : ∀ i service mode expected n,
    (i, ⟨.pauseRow uid service mode expected, .ok (some n)⟩) ∈ tr → n = 1
  /-- Nothing is admitted or paused after a pause. -/
  closed : tr.Pairwise fun x y => pauses uid x.2 = true → admits uid y.2 = false ∧ pauses uid y.2 = false

/-- A source that is not paused has no pause in its history. -/
theorem Account.unpaused {uid : String} {s : Rows} {tr : Trace Host} (h : Account uid s tr)
    {row : TrafficRow} (hrow : s uid = some row) (hpaused : row.paused = false) :
    row.version = 0 ∧ ∀ x ∈ tr, pauses uid x.2 = false := by
  have hzero : row.version = 0 := by simpa [hpaused] using h.paused row hrow
  have hcount := h.version row hrow
  rw [hzero, eq_comm, List.countP_eq_zero] at hcount
  exact ⟨hzero, fun x hx => by simpa using hcount x hx⟩

/-- One more event keeps what a history is like, if it is no admission or pause after a pause. -/
theorem closed_snoc {uid : String} {tr : Trace Host} {x : ℕ × Event Host}
    (h : tr.Pairwise fun x y => pauses uid x.2 = true → admits uid y.2 = false ∧ pauses uid y.2 = false)
    (hx : (∀ y ∈ tr, pauses uid y.2 = false) ∨ admits uid x.2 = false ∧ pauses uid x.2 = false) :
    (tr ++ [x]).Pairwise fun x y => pauses uid x.2 = true → admits uid y.2 = false ∧ pauses uid y.2 = false := by
  refine List.pairwise_append.mpr ⟨h, List.pairwise_singleton _ _, fun y hy z hz hp => ?_⟩
  obtain rfl := List.mem_singleton.mp hz
  rcases hx with hnone | hx
  · rw [hnone y hy] at hp
    cases hp
  · exact hx

/-- **One answer keeps the account of a source.** -/
theorem Account.step {uid : String} {s s' : Rows} {tr : Trace Host} {i : ℕ} {ev : Event Host}
    (h : Account uid s tr) (hc : Change uid (s uid) ev (s' uid)) : Account uid s' (tr ++ [(i, ev)]) := by
  have mem : ∀ {x}, x ∈ tr ++ [(i, ev)] → x ∈ tr ∨ x = (i, ev) := fun hx => by simpa using hx
  generalize hnew : s' uid = new at hc
  cases hc with
  | same hadmits hpauses =>
    have hsame : s' uid = s uid := hnew
    refine ⟨?_, ?_, ?_, ?_, ?_, ?_, ?_, closed_snoc h.closed (.inr ⟨hadmits, hpauses⟩)⟩
    · intro hnone x hx
      rcases mem hx with hx | rfl
      · exact h.absent (hsame ▸ hnone) x hx
      · exact ⟨hadmits, hpauses⟩
    · intro row hrow
      simp [List.countP_append, hadmits, h.admitted row (hsame ▸ hrow)]
    · intro row hrow
      simp [List.countP_append, hpauses, h.version row (hsame ▸ hrow)]
    · exact fun row hrow => h.paused row (hsame ▸ hrow)
    · intro row hrow
      obtain ⟨j, hj⟩ := h.registered row (hsame ▸ hrow)
      exact ⟨j, List.mem_append_left _ hj⟩
    · intro row hrow j service mode hj
      rcases mem hj with hj | hj
      · exact h.scope row (hsame ▸ hrow) j service mode hj
      · cases hj
        simp [admits] at hadmits
    · intro j service mode expected n hj
      rcases mem hj with hj | hj
      · exact h.first j service mode expected n hj
      · cases hj
        simp [pauses] at hpauses
  | @added service mode hold =>
    have hnone := h.absent hold
    have heq : ∀ row, s' uid = some row → row = { service, mode } := fun row hrow =>
      (Option.some.inj (hnew.symm.trans hrow)).symm
    have hzero : ∀ A : String → Event Host → Bool, (∀ x ∈ tr, A uid x.2 = false) →
        tr.countP (fun x => A uid x.2) = 0 := fun A hA =>
      List.countP_eq_zero.mpr fun x hx => by simp [hA x hx]
    refine ⟨?_, ?_, ?_, ?_, ?_, ?_, ?_, closed_snoc h.closed (.inr ⟨rfl, rfl⟩)⟩
    · intro hnone'
      rw [hnew] at hnone'
      cases hnone'
    · intro row hrow
      rw [heq row hrow, List.countP_append, hzero admits fun x hx => (hnone x hx).1]
      rfl
    · intro row hrow
      rw [heq row hrow, List.countP_append, hzero pauses fun x hx => (hnone x hx).2]
      rfl
    · intro row hrow
      simp [heq row hrow]
    · intro row hrow
      exact ⟨i, by simp [heq row hrow]⟩
    · intro row hrow j service' mode' hj
      rcases mem hj with hj | hj
      · have := (hnone _ hj).1
        simp [admits] at this
      · cases hj
    · intro j service' mode' expected n hj
      rcases mem hj with hj | hj
      · exact h.first j service' mode' expected n hj
      · cases hj
  | @admitted old hold hpaused =>
    obtain ⟨hzero, hquiet⟩ := h.unpaused hold hpaused
    have heq : ∀ row, s' uid = some row → row = { old with admitted := old.admitted + 1 } :=
      fun row hrow => (Option.some.inj (hnew.symm.trans hrow)).symm
    refine ⟨?_, ?_, ?_, ?_, ?_, ?_, ?_, closed_snoc h.closed (.inl hquiet)⟩
    · intro hnone
      rw [hnew] at hnone
      cases hnone
    · intro row hrow
      rw [heq row hrow, List.countP_append, ← h.admitted old hold]
      simp [admits]
    · intro row hrow
      rw [heq row hrow, List.countP_append, ← h.version old hold]
      simp [pauses]
    · intro row hrow
      simp [heq row hrow, hzero, hpaused]
    · intro row hrow
      obtain ⟨j, hj⟩ := h.registered old hold
      exact ⟨j, by rw [heq row hrow]; exact List.mem_append_left _ hj⟩
    · intro row hrow j service mode hj
      rw [heq row hrow]
      rcases mem hj with hj | hj
      · exact h.scope old hold j service mode hj
      · cases hj
        exact ⟨rfl, rfl⟩
    · intro j service mode expected n hj
      rcases mem hj with hj | hj
      · exact h.first j service mode expected n hj
      · cases hj
  | @paused old hold hpaused =>
    obtain ⟨hzero, hquiet⟩ := h.unpaused hold hpaused
    have heq : ∀ row, s' uid = some row → row = { old with paused := true, version := old.version + 1 } :=
      fun row hrow => (Option.some.inj (hnew.symm.trans hrow)).symm
    refine ⟨?_, ?_, ?_, ?_, ?_, ?_, ?_, closed_snoc h.closed (.inl hquiet)⟩
    · intro hnone
      rw [hnew] at hnone
      cases hnone
    · intro row hrow
      rw [heq row hrow, List.countP_append, ← h.admitted old hold]
      simp [admits]
    · intro row hrow
      rw [heq row hrow, List.countP_append, ← h.version old hold]
      simp [pauses]
    · intro row hrow
      simp [heq row hrow, hzero]
    · intro row hrow
      obtain ⟨j, hj⟩ := h.registered old hold
      exact ⟨j, by rw [heq row hrow]; exact List.mem_append_left _ hj⟩
    · intro row hrow j service mode hj
      rw [heq row hrow]
      rcases mem hj with hj | hj
      · exact h.scope old hold j service mode hj
      · cases hj
    · intro j service mode expected n hj
      rcases mem hj with hj | hj
      · exact h.first j service mode expected n hj
      · cases hj
        rw [hzero]

variable [Platform]

/-- **The account of every source holds of every run.** -/
theorem reached_account {c : Config Host Rows Reply} (h : Reached c) (uid : String) :
    Account uid c.shared c.trace := by
  refine Reachable.invariant (Account uid) h ?_ fun s tr i p e r s' q hinv _ _ ha =>
    hinv.step (answer_change ha uid)
  exact ⟨by simp, nofun, nofun, nofun, nofun, nofun, by simp, List.Pairwise.nil⟩

/-! ### Calls -/

/-- **What a call of `admit` has come to**: nothing was asked yet, or its `UPDATE` was answered and it
has returned the answer. -/
theorem admit_path {uid service : String} {mode : OperationMode} {h : History Host}
    {q : Program Host Reply} (hp : Path (admitCall uid service mode) h q) :
    q = .done (.admitted true) ↔ ∃ ev ∈ h, admits uid ev = true := by
  rw [admitCall, TrafficControl.admitAttempt, bind_eq, bind_assoc] at hp
  rcases path_raiseIf_bind.mp hp with ⟨-, rfl, rfl⟩ | ⟨-, hp⟩
  · simp
  rcases path_call.mp hp with ⟨rfl, rfl⟩ | ⟨r, h', rfl, hrest⟩
  · simp
  cases r with
  | error x =>
    obtain ⟨rfl, rfl⟩ := path_fail.mp hrest
    simp [admits]
  | ok granted =>
    obtain ⟨rfl, rfl⟩ := path_done.mp hrest
    cases granted <;> simp [admits]

/-- What a pause may ask for: its `UPDATE` only under the digest of its action. -/
def PauseRequest (action : Action) (key : String) (e : Effect) : Prop :=
  (∃ uid, e = .getRow uid) ∨ e = .utcNow ∨ key = actionDigest action ∧
    e = .pauseRow action.resourceUid.val action.service.val action.mode action.expectedVersion.val

theorem snapshot_within (action : Action) :
    Within (fun e : Effect => (∃ uid, e = .getRow uid) ∨ e = .utcNow) (TrafficControl.snapshot action) := by
  refine within_raiseIf.bind fun _ => (within_perform.mpr (.inl ⟨_, rfl⟩)).bind fun row => ?_
  cases row with
  | none => trivial
  | some row =>
    refine within_raiseIf.bind fun _ => (within_perform.mpr (.inr rfl)).bind fun now => ?_
    cases Identifier.validate (toString row.version) <;> trivial

theorem pause_within (action : Action) (key : String) :
    Within (PauseRequest action key) (pauseCall action key) := by
  refine Within.bind ?_ fun _ => trivial
  refine ((snapshot_within action).mono fun e he => he.imp_right .inl).bind fun _ => ?_
  refine within_raiseIf_bind fun hkey => ?_
  exact (within_perform.mpr (.inr (.inr ⟨not_not.mp hkey, rfl⟩))).bind fun changed => within_ofResult _

/-- The first version of a pause is a valid one. -/
theorem pauseReceipt_one (action : Action) :
    ∃ receipt, TrafficControl.pauseReceipt action (some 1) = .ok receipt := by
  have hone : Identifier.validate (toString 1) = some ⟨"1", rfl⟩ := Identifier.validate_eq_some.mpr rfl
  rw [TrafficControl.pauseReceipt, hone]
  exact ⟨_, rfl⟩

/-- **A pause has returned a receipt if and only if it has paused its source.** -/
theorem pause_path {action : Action} {key : String} {h : History Host} {q : Program Host Reply}
    (hp : Path (pauseCall action key) h q)
    (hfirst : ∀ service mode expected n,
      ⟨.pauseRow action.resourceUid.val service mode expected, .ok (some n)⟩ ∈ h → n = 1) :
    (∃ receipt, q = .done (.paused receipt)) ↔ ∃ ev ∈ h, pauses action.resourceUid.val ev = true := by
  simp only [pauseCall, TrafficControl.pause, bind_eq, bind_assoc] at hp
  constructor
  · rintro ⟨receipt, rfl⟩
    obtain ⟨a, h₁, h₂, rfl, -, hrest⟩ := runs_bind_ok.mp (show Runs _ h (.ok _) from hp)
    obtain ⟨-, hrest⟩ := runs_raiseIf_bind_ok.mp hrest
    obtain ⟨changed, h₃, rfl, hlast⟩ := runs_perform_bind_ok.mp hrest
    refine ⟨_, List.mem_append_right _ List.mem_cons_self, ?_⟩
    cases changed with
    | none => simp [TrafficControl.pauseReceipt, ofResult] at hlast
    | some n => simp [pauses]
  · rintro ⟨ev, hev, hpauses⟩
    have hout : ¬((∃ uid, ev.effect = .getRow uid) ∨ ev.effect = .utcNow) := by
      obtain ⟨e, r⟩ := ev
      rintro (⟨uid, rfl⟩ | rfl) <;> cases hpauses
    obtain ⟨a, h₁, h₂, rfl, -, hrest, hev₂⟩ := (snapshot_within action).past hp hev hout
    rcases path_raiseIf_bind.mp hrest with ⟨-, rfl, -⟩ | ⟨-, hrest⟩
    · cases hev₂
    rcases path_call.mp hrest with ⟨rfl, -⟩ | ⟨r, h₃, rfl, hlast⟩
    · cases hev₂
    cases r with
    | error x =>
      obtain ⟨rfl, -⟩ := path_fail.mp hlast
      obtain rfl := List.mem_singleton.mp hev₂
      cases hpauses
    | ok changed =>
      cases changed with
      | none =>
        obtain ⟨rfl, -⟩ := path_fail.mp hlast
        obtain rfl := List.mem_singleton.mp hev₂
        cases hpauses
      | some n =>
        obtain rfl := hfirst _ _ _ n (List.mem_append_right _ List.mem_cons_self)
        obtain ⟨receipt, hreceipt⟩ := pauseReceipt_one action
        simp only [done_bind, hreceipt, ofResult] at hlast
        exact ⟨receipt, (path_done.mp hlast).2⟩

/-- **An attempt sends its request only after an admission of its own.** -/
theorem attempt_covered (driver : ManagedTrafficDriver) (role : TrafficRole) (index : ℕ) :
    Covered sends (admits driver.uid) (attemptCall driver role index) := by
  have record : ∀ {outcome status}, Covered sends (admits driver.uid) (ask (.record index outcome status)) :=
    covered_perform fun _ => rfl
  have quiet : ∀ {c : Prop} [Decidable c] {x : Fault},
      Covered sends (admits driver.uid) (raiseIf c x : Program Host Unit) := fun {c} _ {x} =>
    Covered.of_within (within_raiseIf (P := fun _ => False)) fun _ => False.elim
  refine Covered.bind ?_ fun _ => covered_done _
  refine Covered.bind (Covered.attempt ?_) fun out => ?_
  · refine (covered_perform fun _ => rfl).bind fun _ => ?_
    have hadmission : Covered sends (admits driver.uid) (driver.admission role) :=
      quiet.bind fun _ => quiet.bind fun _ => covered_perform fun _ => rfl
    refine Covered.earn (m := fun admitted => if admitted then 1 else 0) hadmission ?_ fun admitted => ?_
    · intro admitted h hr
      obtain ⟨-, hr⟩ := runs_raiseIf_bind_ok.mp hr
      obtain ⟨-, hr⟩ := runs_raiseIf_bind_ok.mp hr
      obtain rfl := runs_perform.mp hr
      cases admitted <;> simp [sends, admits]
    · cases admitted with
      | true => exact debt_perform.bind fun _ => (covered_done _).debt 0
      | false => exact (covered_done _).debt 0
  · cases out with
    | ok out => exact record
    | error x => exact record.bind fun _ => quiet

/-! ### The main result -/

section Reached

variable {c c' : Config Host Rows Reply}

/-- **What a step of a pause leaves**: every row as it is, or its source paused, which was the
action's own, at the version the action expects, not paused, and under the action's digest. -/
theorem pause_step (h : Reached c) (hs : Step Environment TrafficCall c c') {i : ℕ} {ev : Event Host}
    (htr : c'.trace = c.trace ++ [(i, ev)]) {action : Action} {key : String} {q : Program Host Reply}
    (hcall : c.calls[i]? = some ⟨pauseCall action key, q, true⟩) :
    c'.shared = c.shared ∨ key = actionDigest action ∧ ∃ row,
      c.shared action.resourceUid.val = some row ∧ row.service = action.service.val ∧
        row.mode = action.mode ∧ toString row.version = action.expectedVersion.val ∧ row.paused = false ∧
        c'.shared = Function.update c.shared action.resourceUid.val
          (some { row with paused := true, version := row.version + 1 }) := by
  have hpath := (Reachable.wellTraced h).path i _ hcall
  have hq := ((pause_within action key).path hpath).2
  cases hs with
  | start _ => simp at htr
  | crash _ => simp at htr
  | @act j p e k r s' hj ha =>
    obtain ⟨rfl, -⟩ := Prod.mk.inj (List.cons.inj (List.append_cancel_left htr)).1
    rw [hcall] at hj
    cases hj
    change Answer c.shared e r s' at ha
    cases ha with
    | fault => exact .inl rfl
    | outside _ => exact .inl rfl
    | exec hexec =>
      rcases hq.1 with ⟨uid, rfl⟩ | rfl | ⟨hkey, rfl⟩
      · cases hexec
        exact .inl rfl
      · cases hexec
      · simp only [exec] at hexec
        split at hexec
        · cases hexec
          exact .inl rfl
        · rename_i row hrow
          split_ifs at hexec with hguard <;> cases hexec
          · obtain ⟨hservice, hmode, hversion, hpaused⟩ := hguard
            exact .inr ⟨hkey, row, hrow, hservice, hmode, hversion, hpaused, rfl⟩
          · exact .inl rfl

/-- **Main result**: whatever calls of `register`, `admit`, `pause` and attempts interleave, after a
pause of a source nothing is admitted to it; its counter is the number of its admissions, which are
all of its registered service and mode, and its version is the number of its pauses, of which there is
one at most; an `admit` has returned `True` if and only if it was counted, and a pause has returned a
receipt if and only if it was committed; a pause leaves every row as it is unless its digest, its
source, its service, its mode and its version are the right ones and the source is not paused; and an
attempt sends its request only after an admission of its own. -/
theorem traffic_linearizable (h : Reached c) :
    (∀ uid tr₁ x tr₂, c.trace = tr₁ ++ x :: tr₂ → pauses uid x.2 = true →
      ∀ y ∈ tr₂, admits uid y.2 = false) ∧
    (∀ uid row, c.shared uid = some row →
      row.admitted = (c.trace.countP fun x => admits uid x.2) ∧
      row.version = (c.trace.countP fun x => pauses uid x.2) ∧ row.version ≤ 1 ∧
      (∃ i, (i, ⟨.addRow uid row.service row.mode, .ok ()⟩) ∈ c.trace) ∧
      ∀ i service mode, (i, ⟨.admitRow uid service mode, .ok true⟩) ∈ c.trace →
        service = row.service ∧ mode = row.mode) ∧
    (∀ i uid service mode q alive, c.calls[i]? = some ⟨admitCall uid service mode, q, alive⟩ →
      (q = .done (.admitted true) ↔ ∃ ev ∈ c.trace.own i, admits uid ev = true)) ∧
    (∀ i action key q alive, c.calls[i]? = some ⟨pauseCall action key, q, alive⟩ →
      ((∃ receipt, q = .done (.paused receipt)) ↔
        ∃ ev ∈ c.trace.own i, pauses action.resourceUid.val ev = true)) ∧
    (∀ i action key q c' ev, c.calls[i]? = some ⟨pauseCall action key, q, true⟩ →
      Step Environment TrafficCall c c' → c'.trace = c.trace ++ [(i, ev)] →
      c'.shared = c.shared ∨ key = actionDigest action ∧ ∃ row,
        c.shared action.resourceUid.val = some row ∧ row.service = action.service.val ∧
          row.mode = action.mode ∧ toString row.version = action.expectedVersion.val ∧
          row.paused = false ∧ c'.shared = Function.update c.shared action.resourceUid.val
            (some { row with paused := true, version := row.version + 1 })) ∧
    (∀ i driver role index q alive, c.calls[i]? = some ⟨attemptCall driver role index, q, alive⟩ →
      ∀ g, g <+: c.trace.own i → g.countP sends ≤ g.countP (admits driver.uid)) := by
  refine ⟨?_, ?_, ?_, ?_, ?_, ?_⟩
  · intro uid tr₁ x tr₂ htr hpause y hy
    have hclosed := (reached_account h uid).closed
    rw [htr] at hclosed
    have hlater := (List.pairwise_append.mp hclosed).2.1
    exact ((List.pairwise_cons.mp hlater).1 y hy hpause).1
  · intro uid row hrow
    have ha := reached_account h uid
    refine ⟨ha.admitted row hrow, ha.version row hrow, ?_, ha.registered row hrow, ha.scope row hrow⟩
    rw [ha.paused row hrow]
    split_ifs <;> simp
  · intro i uid service mode q alive hcall
    exact admit_path ((Reachable.wellTraced h).path i _ hcall)
  · intro i action key q alive hcall
    refine pause_path ((Reachable.wellTraced h).path i _ hcall) fun service mode expected n hev => ?_
    exact (reached_account h action.resourceUid.val).first i service mode expected n (mem_own.mp hev)
  · intro i action key q c' ev hcall hs htr
    exact pause_step h hs htr hcall
  · intro i driver role index q alive hcall g hprefix
    have hpath := (Reachable.wellTraced h).path i _ hcall
    obtain ⟨rest, hown⟩ := hprefix
    obtain ⟨mid, hg⟩ := Path.initial (hown ▸ hpath)
    exact attempt_covered driver role index g mid hg

end Reached

end PayOps.Traffic

namespace PayOps.Traffic

open Process Program Policy

/-! ### A run -/

/-- A platform whose digests are all the same. -/
@[reducible] def quietPlatform : Platform where
  sha256 _ := "0"
  patternWord _ := false
  reWord _ := false
  nesting := 64
  floatRepr text := text

attribute [local instance] quietPlatform

/-- A host that names every source alike and whose requests are accepted. -/
def sampleHandler : Handler Host Rows := fun e s =>
  (exec s e).getD (match e with
    | .newUid => (.ok "source-1", s)
    | .slot _ => (.ok (), s)
    | .send _ => (.ok (.accepted, 200), s)
    | .record _ _ _ => (.ok (), s)
    | .utcNow => (.ok 0, s)
    | _ => (.error (.other ""), s))

theorem sampleHandler_answers (e : Effect) (s : Rows) :
    Environment.answer s e (sampleHandler e s).1 (sampleHandler e s).2 := by
  unfold sampleHandler
  cases h : exec s e with
  | some answered => exact .exec h
  | none => cases e <;> exact .outside h

/-- The pause of the source. -/
def samplePause : Action where
  incidentId := ⟨"inc-1", by decide⟩
  nameSpace := ⟨"payops-sandbox", by decide⟩
  service := ⟨"payments-api", by decide⟩
  resourceUid := ⟨"source-1", by decide⟩
  expectedVersion := ⟨"0", by decide⟩
  evidenceIds := [⟨"ev-1", by decide⟩]
  mode := .fixtureReplay
  effect := .pause
  evidence_bounded := by decide
  evidence_nodup := by decide

/-- A source is registered, admits once, is paused, and is asked for another admission. -/
def sampleTraffic : Config Host Rows Reply :=
  let call (c : Config Host Rows Reply) p := c.ran sampleHandler p
  call (call (call (call ⟨fun _ => none, [], []⟩
    ((TrafficControl.register "payments-api" .fixtureReplay).bind fun uid => .done (.registered uid)))
    (admitCall "source-1" "payments-api" .fixtureReplay)) (pauseCall samplePause "0"))
    (admitCall "source-1" "payments-api" .fixtureReplay)

theorem sampleTraffic_reached : Reached sampleTraffic :=
  (((Reachable.call .refl sampleHandler_answers (.register ..)).call sampleHandler_answers
    (.admission ..)).call sampleHandler_answers (.pause ..)).call sampleHandler_answers (.admission ..)

/-- In that run one attempt was admitted, and the source was paused once. -/
theorem traffic_linearizable_sample : ∃ row, sampleTraffic.shared "source-1" = some row ∧
    row.admitted = 1 ∧ row.version ≤ 1 ∧
      (sampleTraffic.trace.countP fun x => pauses "source-1" x.2) = 1 := by
  have hrow : sampleTraffic.shared "source-1" =
      some ⟨"payments-api", .fixtureReplay, 1, true, 1⟩ := by decide +kernel
  obtain ⟨-, hversion, hle, -⟩ := (traffic_linearizable sampleTraffic_reached).2.1 _ _ hrow
  exact ⟨_, hrow, rfl, hle, hversion.symm⟩

end PayOps.Traffic
