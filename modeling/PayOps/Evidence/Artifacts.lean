import PayOps.Orchestrator.Host

/-!
# Retained artifacts

`ArtifactStore` of `payops.evidence.artifacts`, and the verification of evidence against it
(`payops.evidence.verification`).

## The model

What only reads artifacts is a `Reading`: it reads one artifact after the other and ends with a
value or a fault; it cannot go on without an artifact it reads. A reading is a function of what
is retained (`Reading.eval`), and a program of the host (`Reading.program`).

`SourceChecks` are the verifications of derived evidence (payment windows, trace spans, trace
logs, retrieved passages), with the facts they yield, and the diagnostic predicates over facts.
They are readings and functions, whichever they are.

## What is proved

* `Reading.eval_mono` — **what was read stays so while nothing retained is replaced**.
-/

namespace PayOps.Evidence

open Process Program Orchestrator

variable [Platform]

/-! ### Readings -/

/-- A computation that reads artifacts. -/
inductive Reading (α : Type) where
  /-- It returns. -/
  | done (a : α)
  /-- It raises. -/
  | fail (x : Fault)
  /-- It reads an artifact; `missing` is raised if there is none. -/
  | read (digest : Digest) (missing : Fault) (k : Artifact → Reading α)

namespace Reading

variable {α β : Type}

/-- Sequential composition. -/
def bind : Reading α → (α → Reading β) → Reading β
  | done a, f => f a
  | fail x, _ => fail x
  | read digest missing k, f => read digest missing fun content => (k content).bind f

instance : Monad Reading where
  pure := done
  bind := bind

/-- Replace the faults of a reading, also that of a missing artifact. -/
def relabel (f : Fault → Fault) : Reading α → Reading α
  | done a => done a
  | fail x => fail (f x)
  | read digest missing k => read digest (f missing) fun content => (k content).relabel f

/-- What a reading comes to, where `held` is retained. -/
def eval (held : Digest → Option Artifact) : Reading α → Except Fault α
  | done a => .ok a
  | fail x => .error x
  | read digest missing k =>
    match held digest with
    | none => .error missing
    | some content => (k content).eval held

/-- A reading as a program; an artifact that cannot be opened is a missing one. -/
def program (root : String) : Reading α → Program Host α
  | done a => .done a
  | fail x => .fail x
  | read digest missing k => .call (.readArtifact root digest) fun
    | .ok (some content) => (k content).program root
    | .ok none => .fail missing
    | .error x => .fail (if x.isOs then missing else x)

@[simp] theorem pure_eq (a : α) : (pure a : Reading α) = done a := rfl

@[simp] theorem bind_eq (r : Reading α) (f : α → Reading β) : (r >>= f) = r.bind f := rfl

@[simp] theorem eval_bind (held : Digest → Option Artifact) (r : Reading α) (f : α → Reading β) :
    (r.bind f).eval held = (r.eval held).bind fun a => (f a).eval held := by
  induction r with
  | done a => rfl
  | fail x => rfl
  | read digest missing k ih =>
    simp only [bind, eval]
    cases held digest with
    | none => rfl
    | some content => exact ih content

/-- **What was read stays so while nothing retained is replaced.** -/
theorem eval_mono {held later : Digest → Option Artifact}
    (h : ∀ digest content, held digest = some content → later digest = some content)
    {r : Reading α} {a : α} (hr : r.eval held = .ok a) : r.eval later = .ok a := by
  induction r with
  | done b => exact hr
  | fail x => exact hr
  | read digest missing k ih =>
    rw [eval] at hr ⊢
    cases hd : held digest with
    | none => rw [hd] at hr; cases hr
    | some content =>
      rw [hd] at hr
      rw [h digest content hd]
      exact ih content hr

/-- A reading asks for artifacts only. -/
theorem within_program (root : String) (r : Reading α) :
    Within (fun e : Effect => ∃ digest, e = .readArtifact root digest) (r.program root) := by
  induction r with
  | done a => trivial
  | fail x => trivial
  | read digest missing k ih =>
    rw [program, within_call]
    refine ⟨⟨digest, rfl⟩, fun answer => ?_⟩
    match answer with
    | .ok (some content) => exact ih content
    | .ok none => trivial
    | .error x => trivial

/-- What a reading returns satisfies `Q`, whatever is retained. -/
def Returns (Q : α → Prop) : Reading α → Prop
  | done a => Q a
  | fail _ => True
  | read _ _ k => ∀ content, (k content).Returns Q

theorem Returns.bind {Q : α → Prop} {Q' : β → Prop} {r : Reading α} {f : α → Reading β}
    (hr : r.Returns Q) (hf : ∀ a, Q a → (f a).Returns Q') : (r.bind f).Returns Q' := by
  induction r with
  | done a => exact hf a hr
  | fail x => trivial
  | read digest missing k ih => exact fun content => ih content (hr content)

theorem Returns.mono {Q Q' : α → Prop} {r : Reading α} (hr : r.Returns Q) (h : ∀ a, Q a → Q' a) :
    r.Returns Q' := by
  induction r with
  | done a => exact h a hr
  | fail x => trivial
  | read digest missing k ih => exact fun content => ih content (hr content)

theorem returns_true (r : Reading α) : r.Returns fun _ => True := by
  induction r with
  | done a => trivial
  | fail x => trivial
  | read digest missing k ih => exact ih

/-- The same of a reading as a program. -/
theorem Returns.program {Q : α → Prop} {r : Reading α} (hr : r.Returns Q) (root : String) :
    Process.Returns Q (r.program root) := by
  induction r with
  | done a => exact hr
  | fail x => trivial
  | read digest missing k ih =>
    rw [Reading.program]
    intro answer
    match answer with
    | .ok (some content) => exact ih content (hr content)
    | .ok none => trivial
    | .error x => trivial

end Reading

/-! ### The store -/

variable [Retention]

/-- The checks of every artifact that is read: its length and its digest. -/
def intact (digest : Digest) (content : Artifact) : Bool :=
  Retention.bytes content ≤ MAX_ARTIFACT_BYTES && Retention.digest content == digest

namespace ArtifactStore

/-- `write`: the digest that names the content. -/
def write (root : String) (content : Artifact) : Program Host Digest := do
  raiseIf (MAX_ARTIFACT_BYTES < Retention.bytes content) (.integrity "artifact exceeds byte budget")
  ask (.writeArtifact root content)

/-- `verify`: the other fields of the envelope. -/
def verify (item : EvidenceItem) : Reading JsonObject :=
  if item.artifactUri.val ≠ "sha256://" ++ item.artifactSha256.val then
    .fail (.integrity "artifact URI and digest disagree")
  else .read item.artifactSha256 (.integrity "artifact unavailable") fun content =>
    if !intact item.artifactSha256 content then .fail (.integrity "artifact digest mismatch")
    else match content with
      | .envelope evidence fields =>
        if evidence = item.metadata then .done fields
        else .fail (.integrity "artifact metadata mismatch")
      | _ => .fail (.integrity "artifact metadata mismatch")

end ArtifactStore

/-! ### Derived evidence -/

/-- The verifications of derived evidence, and the diagnostic predicates. -/
class SourceChecks where
  /-- `verify_payment_window`, with the facts of the window. -/
  paymentWindow : EvidenceItem → Reading JsonObject
  /-- `verify_trace_span`, with the facts of the span. -/
  traceSpan : EvidenceItem → Reading JsonObject
  /-- `verify_trace_log`. -/
  traceLog : EvidenceItem → Reading Unit
  /-- `verify_retrieval_evidence`, with the facts of the passage. -/
  retrieval : EvidenceItem → Reading JsonObject
  /-- `support_index`: the causes that facts support, with the evidence for each. -/
  supportIndex : List (Identifier × Identifier × JsonObject) → Except Fault (List (String × List Identifier))

variable [SourceChecks]

/-- `LOG_QUERY`. -/
def LOG_QUERY : String := "trace.console-log.v1"

/-- `verify_evidence`: the item, and the sources it is derived from. -/
def verifyEvidence (item : EvidenceItem) : Reading Unit :=
  let checked : Reading Unit := do
    let _ ← ArtifactStore.verify item
    match item.source with
    | .payment => let _ ← SourceChecks.paymentWindow item
    | .trace => let _ ← SourceChecks.traceSpan item
    | .log => if item.query.val = LOG_QUERY then SourceChecks.traceLog item
    | .runbook => let _ ← SourceChecks.retrieval item
    | .memory => let _ ← SourceChecks.retrieval item
    | _ => pure ()
  checked.relabel fun x => if x.isValue then .integrity "evidence source verification failed" else x

end PayOps.Evidence
