import PayOps.Evidence.Artifacts

/-!
# The registry of reads

`ReadRegistry.dispatch` of `payops.tools.registry`: a batch is validated and charged as a whole,
then each read is handed to the pool, awaited up to its deadline, and its result published under
a fresh grant.

## The model

`Reads` is the transport a registry is made with: how a read is handed to the pool and awaited,
and how a publication is refreshed. The checks on what a handler found, and the grants around it,
are the registry's own (`authorizedRead`).
-/

namespace PayOps.Orchestrator

open Process Program Evidence

variable [Platform] [Retention] [SourceChecks]

/-- The transport of a registry. -/
structure Reads where
  /-- Hand a read to the pool: whether there was a slot. -/
  submit : Identifier → ReadRequest → Program Host Bool
  /-- What became of it by its deadline. -/
  await : Identifier → ReadRequest → Program Host Awaited
  /-- `_publication_status`. -/
  refresh : Identifier → Program Host Authority

namespace ReadRegistry

/-- A result without evidence. -/
def bare (request : ReadRequest) (status : ReadStatus) : ReadResult := ⟨request, status, [], by simp⟩

/-- Every item found is the incident's and the service's own, and verified. -/
def verifyFound (root : String) (incidentId : Identifier) (request : ReadRequest) :
    List EvidenceItem → Program Host Unit
  | [] => return ()
  | item :: items => do
    raiseIf (item.incidentId ≠ incidentId ∨ item.resource.val ≠ request.service.name)
      (.value "foreign incident or service evidence")
    (verifyEvidence item).program root
    verifyFound root incidentId request items

/-- `_authorized_read`: the grant before the handler, what it found, and the grant after it. -/
def authorizedRead (root : String) (incidentId : Identifier) (request : ReadRequest)
    (before : Except Fault Bool) (found : Except Fault (List EvidenceItem))
    (after : Except Fault Bool) : Program Host ReadResult := do
  try
    if (← ofResult before) then
      let evidence ← ofResult found
      if h : evidence.length ≤ 64 then
        raiseIf (¬(evidence.map EvidenceItem.evidenceId).Nodup) (.value "invalid evidence count")
        verifyFound root incidentId request evidence
        if (← ofResult after) then pure ⟨request, .ok, evidence, h⟩
        else pure (bare request .denied)
      else throw (.value "invalid evidence count")
    else pure (bare request .denied)
  catch
    | .permission _ => pure (bare request .denied)
    | _ => pure (bare request .error)

variable (reads : Reads) (root : String) (incidentId operation : Identifier)

/-- `_submit` for every read of a batch. -/
def submitAll : List ReadRequest → Program Host (List (ReadRequest × Bool))
  | [] => return []
  | request :: requests => do
    let submitted ← reads.submit operation request
    let rest ← submitAll requests
    return (request, submitted) :: rest

/-- `_result`. -/
def result (request : ReadRequest) (submitted : Bool) : Program Host ReadResult :=
  if submitted then do
    try
      match ← reads.await operation request with
      | .late => pure (bare request .timeout)
      | .raised => pure (bare request .error)
      | .completed before found after => authorizedRead root incidentId request before found after
    catch _ => pure (bare request .error)
  else return bare request .busy

/-- `_result` for every read of a batch. -/
def resultAll : List (ReadRequest × Bool) → Program Host (List ReadResult)
  | [] => return []
  | (request, submitted) :: pending => do
    let first ← result reads root incidentId operation request submitted
    let rest ← resultAll pending
    return first :: rest

/-- `_publish`: no success survives a revoked or unavailable grant. -/
def publish (results : List ReadResult) : Program Host (List ReadResult) :=
  if results.any fun item => item.status == .ok then do
    let status := (← reads.refresh operation).status
    return results.map fun item =>
      if item.status = .ok ∧ status ≠ .ok then bare item.request status else item
  else return results

/-- `dispatch`: nothing is handed to the pool before the whole batch is charged. -/
def dispatch (requests : List ReadRequest) (reserve : List ReadRequest → ℕ → Program Host Bool) :
    Program Host (List ReadResult) := do
  raiseIf (¬(1 ≤ requests.length ∧ requests.length ≤ 2) ∨ ¬requests.Nodup)
    (.value "read batch must contain one or two distinct requests")
  if (← reserve requests (backendCost requests)) then
    let pending ← submitAll reads operation requests
    let results ← resultAll reads root incidentId operation pending
    publish reads operation results
  else return requests.map fun x => bare x .budgetExhausted

end ReadRegistry

end PayOps.Orchestrator
