import PayOps.Evidence.Bundle

/-!
# The order of recent evidence

`_ordered` with `recent`: sources and resources take turns, with their best items first. What is
best depends on the causes that the whole evidence supports (`support_index` of
`payops.evidence.diagnostic_support`).

## The model

The causes that one observation supports are functions of `Diagnostics`, whichever they are; which
observations support a cause in the end, and which cause suppresses another, is the source's.

## What is proved

* `ordered_turns`, `ordered_signaled` — sources and resources take turns, and what is signaled comes
  first in its own.
* `supportIndex_perm` — what is signaled does not depend on the order of the observations.
* `recent_order` — **the order is fair, and the bundle is the same for every order of the evidence**.

## Honest scope

Times are compared exactly. The source compares them as floats of seconds, which tie only for times
that differ by microseconds and lie centuries ahead; ties are broken as here.
-/

namespace PayOps.Evidence

open Orchestrator

/-! ### Sorting and filtering -/

/-- What is sorted already, among other items, is left as it is. -/
theorem filter_insertionSort {α : Type} (r : α → α → Prop) [DecidableRel r] (p : α → Bool) {l : List α}
    (h : (l.filter p).Pairwise r) : (l.insertionSort r).filter p = l.filter p := by
  have hkept : (l.filter p).Sublist ((l.insertionSort r).filter p) := by
    have hsub := (List.sublist_insertionSort h List.filter_sublist).filter p
    simpa [List.filter_filter] using hsub
  exact (hkept.eq_of_length (((List.perm_insertionSort r l).filter p).length_eq).symm).symm

variable [Platform]

/-! ### The first sort -/

section Sorted

variable (preferred signaled : List Identifier)

theorem recentLe_iff (a b : EvidenceItem) : recentLe preferred signaled a b = true ↔
    toLex (recentKey preferred signaled a, a.evidenceId.val) ≤
      toLex (recentKey preferred signaled b, b.evidenceId.val) := by
  rw [Prod.Lex.toLex_le_toLex]
  simp [recentLe]

instance : Std.Total fun a b => recentLe preferred signaled a b = true where
  total a b := by
    simp only [recentLe_iff]
    exact le_total _ _

instance : IsTrans EvidenceItem fun a b => recentLe preferred signaled a b = true where
  trans a b c := by
    simp only [recentLe_iff]
    exact le_trans

/-- What is signaled comes before what is not. -/
theorem recentLe_signaled {a b : EvidenceItem} (ha : a.evidenceId ∉ signaled) (hb : b.evidenceId ∈ signaled) :
    recentLe preferred signaled a b = false := by
  suffices h : recentKey preferred signaled b < recentKey preferred signaled a by
    simp [recentLe, h.not_gt, h.ne']
  simp only [recentKey, ha, hb, not_false_eq_true, not_true_eq_false, decide_true, decide_false, if_true,
    Bool.false_eq_true, if_false]
  exact List.cons_lt_cons_iff.mpr (.inl zero_lt_one)

end Sorted

/-! ### The depth of an item -/

/-- The source and the resource of an item. -/
def groupOf (item : EvidenceItem) : Source × Identifier := (item.source, item.resource)

/-- The depths in a group count up from what was seen of it. -/
theorem depths_group (g : Source × Identifier) (seen : List (Source × Identifier)) (items : List EvidenceItem) :
    ((depths seen items).filter fun row => groupOf row.2 = g).map Prod.fst =
      List.range' (seen.count g) ((depths seen items).filter fun row => groupOf row.2 = g).length := by
  induction items generalizing seen with
  | nil => rfl
  | cons item items ih =>
    have hnext : depths seen (item :: items) =
        (seen.count (groupOf item), item) :: depths (groupOf item :: seen) items := rfl
    rw [hnext]
    by_cases hg : groupOf item = g
    · rw [List.filter_cons_of_pos (by simpa using hg), List.map_cons, List.length_cons, List.range'_succ, ih,
        hg, List.count_cons_self]
    · rw [List.filter_cons_of_neg (by simpa using hg), ih, List.count_cons_of_ne hg]

/-! ### The second sort -/

section Ranked

variable (evidence : List EvidenceItem) (preferred signaled : List Identifier)

/-- The items with their depths, in the order of the first sort. -/
def ranked : List (ℕ × EvidenceItem) :=
  depths [] (evidence.insertionSort fun a b => recentLe preferred signaled a b)

/-- The same in their final order. -/
def rows : List (ℕ × EvidenceItem) := (ranked evidence preferred signaled).insertionSort fun a b => a.1 ≤ b.1

theorem ordered_eq : ordered evidence true preferred signaled =
    (rows evidence preferred signaled).map Prod.snd := rfl

/-- The rows are sorted by depth. -/
theorem rows_sorted : (rows evidence preferred signaled).Pairwise fun a b => a.1 ≤ b.1 := by
  have : Std.Total fun a b : ℕ × EvidenceItem => a.1 ≤ b.1 := ⟨fun a b => le_total a.1 b.1⟩
  have : IsTrans (ℕ × EvidenceItem) fun a b => a.1 ≤ b.1 := ⟨fun a b c => le_trans⟩
  exact List.pairwise_insertionSort _ _

/-- In a group the second sort changes nothing. -/
theorem rows_group (g : Source × Identifier) :
    (rows evidence preferred signaled).filter (fun row => groupOf row.2 = g) =
      (ranked evidence preferred signaled).filter fun row => groupOf row.2 = g := by
  refine filter_insertionSort _ _ ?_
  refine (List.pairwise_map (f := Prod.fst) (R := (· ≤ ·))).mp ?_
  rw [ranked, depths_group]
  exact List.pairwise_le_range'

/-- In a group the depths count up from zero. -/
theorem rows_depths (g : Source × Identifier) :
    ((rows evidence preferred signaled).filter fun row => groupOf row.2 = g).map Prod.fst =
      List.range ((rows evidence preferred signaled).filter fun row => groupOf row.2 = g).length := by
  rw [rows_group, ranked, depths_group, List.count_nil, List.range_eq_range']

/-- In a group the items are in the order of the first sort. -/
theorem ordered_group (g : Source × Identifier) :
    ((ordered evidence true preferred signaled).filter fun item => groupOf item = g).Pairwise
      fun a b => recentLe preferred signaled a b = true := by
  have hsorted := List.pairwise_insertionSort (fun a b => recentLe preferred signaled a b = true) evidence
  have hgroup : (ordered evidence true preferred signaled).filter (fun item => groupOf item = g) =
      (evidence.insertionSort fun a b => recentLe preferred signaled a b).filter fun item => groupOf item = g := by
    have hrows := congrArg (List.map Prod.snd) (rows_group evidence preferred signaled g)
    have hsnd (l : List (ℕ × EvidenceItem)) : (l.filter fun row => groupOf row.2 = g).map Prod.snd =
        (l.map Prod.snd).filter fun item => groupOf item = g := by
      rw [List.filter_map]
      rfl
    rw [hsnd, hsnd, ranked, depths_snd] at hrows
    exact hrows
  rw [hgroup]
  exact hsorted.filter _

/-- The item at a position is the `k`-th of its source and resource. -/
def NthOf (items : List EvidenceItem) (g : Source × Identifier) (k i : ℕ) : Prop :=
  ∃ item, items[i]? = some item ∧ groupOf item = g ∧
    ((items.take i).filter fun item => groupOf item = g).length = k

variable {evidence preferred signaled}

/-- The `k`-th item of a group has depth `k`. -/
theorem NthOf.depth {g : Source × Identifier} {k i : ℕ}
    (h : NthOf (ordered evidence true preferred signaled) g k i) :
    ∃ row, (rows evidence preferred signaled)[i]? = some row ∧ row.1 = k := by
  obtain ⟨item, hitem, hg, hbefore⟩ := h
  rw [ordered_eq, List.getElem?_map, Option.map_eq_some_iff] at hitem
  obtain ⟨row, hrow, rfl⟩ := hitem
  obtain ⟨hi, hrow'⟩ := List.getElem?_eq_some_iff.mp hrow
  refine ⟨row, hrow, ?_⟩
  have hsplit : rows evidence preferred signaled =
      (rows evidence preferred signaled).take i ++ row :: (rows evidence preferred signaled).drop (i + 1) := by
    rw [← hrow', List.getElem_cons_drop, List.take_append_drop]
  have hfilter := congrArg (List.filter fun row => groupOf row.2 = g) hsplit
  rw [List.filter_append, List.filter_cons_of_pos (by simpa using hg)] at hfilter
  have hlength : (((rows evidence preferred signaled).take i).filter fun row => groupOf row.2 = g).length = k := by
    rw [← hbefore, ordered_eq, ← List.map_take, List.filter_map, List.length_map]
    rfl
  have hget : (((rows evidence preferred signaled).filter fun row => groupOf row.2 = g).map Prod.fst)[k]? =
      some row.1 := by
    rw [hfilter, List.map_append, List.getElem?_append_right (by simp [hlength])]
    simp [hlength]
  rw [rows_depths evidence preferred signaled g] at hget
  obtain ⟨hk, hvalue⟩ := List.getElem?_eq_some_iff.mp hget
  rw [← hvalue, List.getElem_range]

/-- **Sources and resources take turns**: what is less deep comes first. -/
theorem ordered_turns {g g' : Source × Identifier} {k i j : ℕ}
    (hi : NthOf (ordered evidence true preferred signaled) g k i)
    (hj : NthOf (ordered evidence true preferred signaled) g' (k + 1) j) : i < j := by
  obtain ⟨row, hrow, hk⟩ := hi.depth
  obtain ⟨row', hrow', hk'⟩ := hj.depth
  obtain ⟨hlt, rfl⟩ := List.getElem?_eq_some_iff.mp hrow
  obtain ⟨hlt', rfl⟩ := List.getElem?_eq_some_iff.mp hrow'
  by_contra hle
  rcases Nat.lt_or_eq_of_le (Nat.not_lt.mp hle) with hbefore | rfl
  · have := List.pairwise_iff_getElem.mp (rows_sorted evidence preferred signaled) j i hlt' hlt hbefore
    omega
  · omega

/-- **What is signaled comes first** in its source and resource. -/
theorem ordered_signaled {i j : ℕ} {a b : EvidenceItem}
    (ha : (ordered evidence true preferred signaled)[i]? = some a)
    (hb : (ordered evidence true preferred signaled)[j]? = some b) (hgroup : groupOf a = groupOf b)
    (hsignaled : a.evidenceId ∈ signaled) (hunsignaled : b.evidenceId ∉ signaled) : i < j := by
  have hpairs := List.pairwise_filter.mp (ordered_group evidence preferred signaled (groupOf b))
  obtain ⟨hlt, rfl⟩ := List.getElem?_eq_some_iff.mp ha
  obtain ⟨hlt', rfl⟩ := List.getElem?_eq_some_iff.mp hb
  by_contra hle
  rcases Nat.lt_or_eq_of_le (Nat.not_lt.mp hle) with hbefore | rfl
  · have hle' := List.pairwise_iff_getElem.mp hpairs j i hlt' hlt hbefore (by simp) (by simpa using hgroup)
    rw [recentLe_signaled preferred signaled hunsignaled hsignaled] at hle'
    cases hle'
  · exact hunsignaled hsignaled

end Ranked

/-! ### What the evidence supports -/

/-- The causes that one observation supports. -/
structure Diagnostics where
  /-- `supported_causes`. -/
  supportedCauses : JsonObject → Identifier → Except Fault (List String)
  /-- `slice_causes`. -/
  sliceCauses : JsonObject → Except Fault (List String)
  /-- `http_causes`. -/
  httpCauses : JsonObject → Except Fault (List String)

/-- `sorted(supported_causes(value, resource) | slice_causes(value) | http_causes(value))`. -/
def Diagnostics.causes (D : Diagnostics) (value : JsonObject) (resource : Identifier) :
    Except Fault (List String) := do
  let supported ← D.supportedCauses value resource
  let sliced ← D.sliceCauses value
  let http ← D.httpCauses value
  return (supported ++ sliced ++ http).dedup.insertionSort (· ≤ ·)

/-- A mapping of causes to the evidence for them. -/
abbrev Support := List (String × List Identifier)

/-- `result.setdefault(cause, []).append(identifier)`. -/
def addSupport (identifier : Identifier) : Support → String → Support
  | [], cause => [(cause, [identifier])]
  | entry :: result, cause =>
    if entry.1 = cause then (entry.1, entry.2 ++ [identifier]) :: result
    else entry :: addSupport identifier result cause

/-- The loop of `support_index`. -/
def collectSupport (D : Diagnostics) : Support → List (Identifier × Identifier × JsonObject) → Except Fault Support
  | result, [] => .ok result
  | result, (identifier, resource, value) :: observations => do
    let causes ← D.causes value resource
    collectSupport D (causes.foldl (addSupport identifier) result) observations

/-- `MEMORY_LEAK` and `CONCURRENCY_MEMORY_PRESSURE`. -/
def specific (cause : String) : Bool := cause == "MEMORY_LEAK" || cause == "CONCURRENCY_MEMORY_PRESSURE"

/-- A specific mechanism suppresses the symptom it shares. -/
def suppress (result : Support) : Support :=
  if result.any fun entry => specific entry.1 then
    result.filter fun entry => entry.1 != "MEMORY_LIMIT_BELOW_WORKING_SET"
  else result

/-- `support_index`. -/
def supportIndex (D : Diagnostics) (observations : List (Identifier × Identifier × JsonObject)) :
    Except Fault Support :=
  (collectSupport D [] observations).map fun result =>
    ((suppress result).insertionSort fun a b => a.1 ≤ b.1).map fun entry =>
      (entry.1, entry.2.reverse.dedup.reverse)

/-- The evidence is named for the cause. -/
def Named (result : Support) (cause : String) (identifier : Identifier) : Prop :=
  ∃ entry ∈ result, entry.1 = cause ∧ identifier ∈ entry.2

/-- The cause is in the mapping. -/
def Keyed (result : Support) (cause : String) : Prop := ∃ entry ∈ result, entry.1 = cause

theorem addSupport_named {identifier i : Identifier} {result : Support} {cause c : String} :
    Named (addSupport identifier result cause) c i ↔ Named result c i ∨ (c = cause ∧ i = identifier) := by
  induction result with
  | nil => simp [addSupport, Named, eq_comm]
  | cons entry result ih =>
    unfold Named at ih ⊢
    rw [addSupport]
    split_ifs with hsame
    · subst hsame
      simp only [List.exists_mem_cons_iff, List.mem_append, List.mem_singleton]
      grind
    · simp only [List.exists_mem_cons_iff, ih, or_assoc]

theorem addSupport_keyed {identifier : Identifier} {result : Support} {cause c : String} :
    Keyed (addSupport identifier result cause) c ↔ Keyed result c ∨ c = cause := by
  induction result with
  | nil => simp [addSupport, Keyed, eq_comm]
  | cons entry result ih =>
    unfold Keyed at ih ⊢
    rw [addSupport]
    split_ifs with hsame
    · subst hsame
      simp only [List.exists_mem_cons_iff]
      grind
    · simp only [List.exists_mem_cons_iff, ih, or_assoc]

/-- The observation supports the cause. -/
def Supports (D : Diagnostics) (o : Identifier × Identifier × JsonObject) (cause : String) : Prop :=
  ∃ causes, D.causes o.2.2 o.2.1 = .ok causes ∧ cause ∈ causes

theorem foldl_addSupport (identifier : Identifier) (causes : List String) (result : Support) (c : String) :
    (∀ i, Named (causes.foldl (addSupport identifier) result) c i ↔
      Named result c i ∨ (c ∈ causes ∧ i = identifier)) ∧
    (Keyed (causes.foldl (addSupport identifier) result) c ↔ Keyed result c ∨ c ∈ causes) := by
  induction causes generalizing result with
  | nil => simp
  | cons cause causes ih =>
    obtain ⟨hnamed, hkeyed⟩ := ih (addSupport identifier result cause)
    rw [List.foldl_cons]
    refine ⟨fun i => ?_, ?_⟩
    · rw [hnamed, addSupport_named, List.mem_cons]
      tauto
    · rw [hkeyed, addSupport_keyed, List.mem_cons]
      tauto

/-- What is collected is what the observations support. -/
theorem collectSupport_ok {D : Diagnostics} {observations : List (Identifier × Identifier × JsonObject)}
    {result collected : Support} (h : collectSupport D result observations = .ok collected) (c : String) :
    (∀ i, Named collected c i ↔ Named result c i ∨ ∃ o ∈ observations, o.1 = i ∧ Supports D o c) ∧
    (Keyed collected c ↔ Keyed result c ∨ ∃ o ∈ observations, Supports D o c) := by
  induction observations generalizing result with
  | nil =>
    cases h
    simp
  | cons o observations ih =>
    obtain ⟨identifier, resource, value⟩ := o
    rw [collectSupport] at h
    cases hcauses : D.causes value resource with
    | error x => rw [hcauses] at h; cases h
    | ok causes =>
      rw [hcauses] at h
      obtain ⟨hnamed, hkeyed⟩ := ih h
      obtain ⟨hnamed', hkeyed'⟩ := foldl_addSupport identifier causes result c
      have hsupports : Supports D (identifier, resource, value) c ↔ c ∈ causes := by
        simp [Supports, hcauses]
      refine ⟨fun i => ?_, ?_⟩
      · rw [hnamed, hnamed', List.exists_mem_cons_iff, hsupports]
        tauto
      · rw [hkeyed, hkeyed', List.exists_mem_cons_iff, hsupports]
        tauto

/-- It is collected exactly if the causes of every observation can be read. -/
theorem collectSupport_isOk {D : Diagnostics} {observations : List (Identifier × Identifier × JsonObject)}
    (result : Support) : (∃ collected, collectSupport D result observations = .ok collected) ↔
      ∀ o ∈ observations, ∃ causes, D.causes o.2.2 o.2.1 = .ok causes := by
  induction observations generalizing result with
  | nil => simp [collectSupport]
  | cons o observations ih =>
    obtain ⟨identifier, resource, value⟩ := o
    rw [collectSupport, List.forall_mem_cons]
    cases hcauses : D.causes value resource with
    | error x => simp [bind, Except.bind]
    | ok causes => simpa [bind, Except.bind] using ih _

/-- Evidence is signaled if it supports a cause that nothing suppresses. -/
theorem supportIndex_signaled {D : Diagnostics} {observations : List (Identifier × Identifier × JsonObject)}
    {index : Support} (h : supportIndex D observations = .ok index) (i : Identifier) :
    i ∈ index.flatMap Prod.snd ↔ ∃ o ∈ observations, o.1 = i ∧ ∃ c, Supports D o c ∧
      ((∃ o' ∈ observations, ∃ c', Supports D o' c' ∧ specific c' = true) →
        c ≠ "MEMORY_LIMIT_BELOW_WORKING_SET") := by
  unfold supportIndex at h
  cases hcollected : collectSupport D [] observations with
  | error x => rw [hcollected] at h; cases h
  | ok collected =>
    rw [hcollected] at h
    cases h
    have hall (c : String) := collectSupport_ok hcollected c
    have hkept : i ∈ (((suppress collected).insertionSort fun a b => a.1 ≤ b.1).map fun entry =>
        (entry.1, entry.2.reverse.dedup.reverse)).flatMap Prod.snd ↔
        ∃ entry ∈ suppress collected, i ∈ entry.2 := by
      simp
    have hspecific : (collected.any fun entry => specific entry.1) = true ↔
        ∃ o' ∈ observations, ∃ c', Supports D o' c' ∧ specific c' = true := by
      rw [List.any_eq_true]
      constructor
      · rintro ⟨entry, hentry, hc⟩
        obtain ⟨o', ho', hsupports⟩ :=
          ((hall entry.1).2.mp ⟨entry, hentry, rfl⟩).resolve_left (by simp [Keyed])
        exact ⟨o', ho', entry.1, hsupports, hc⟩
      · rintro ⟨o', ho', c', hsupports, hc⟩
        obtain ⟨entry, hentry, rfl⟩ := (hall c').2.mpr (.inr ⟨o', ho', hsupports⟩)
        exact ⟨entry, hentry, hc⟩
    have hnamed : (∃ entry ∈ suppress collected, i ∈ entry.2) ↔ ∃ c, Named collected c i ∧
        ((collected.any fun entry => specific entry.1) = true → c ≠ "MEMORY_LIMIT_BELOW_WORKING_SET") := by
      unfold suppress
      split_ifs with hany
      · simp [Named, hany, and_assoc, and_comm, and_left_comm]
      · simp [Named, hany]
    rw [hkept, hnamed, hspecific]
    constructor
    · rintro ⟨c, hc, hunsuppressed⟩
      obtain ⟨o, ho, hi, hsupports⟩ := ((hall c).1 i |>.mp hc).resolve_left (by simp [Named])
      exact ⟨o, ho, hi, c, hsupports, hunsuppressed⟩
    · rintro ⟨o, ho, hi, c, hsupports, hunsuppressed⟩
      exact ⟨c, ((hall c).1 i).mpr (.inr ⟨o, ho, hi, hsupports⟩), hunsuppressed⟩

/-- **The signaled evidence does not depend on the order of the observations.** -/
theorem supportIndex_perm {D : Diagnostics} {observations observations' : List (Identifier × Identifier × JsonObject)}
    (hperm : observations.Perm observations') {index : Support} (h : supportIndex D observations = .ok index) :
    ∃ index', supportIndex D observations' = .ok index' ∧
      ∀ i, i ∈ index'.flatMap Prod.snd ↔ i ∈ index.flatMap Prod.snd := by
  have hread : ∀ o ∈ observations', ∃ causes, D.causes o.2.2 o.2.1 = .ok causes := by
    have hcollected : ∃ collected, collectSupport D [] observations = .ok collected := by
      unfold supportIndex at h
      cases hc : collectSupport D [] observations with
      | error x => rw [hc] at h; cases h
      | ok collected => exact ⟨collected, rfl⟩
    intro o ho
    exact (collectSupport_isOk []).mp hcollected o (hperm.mem_iff.mpr ho)
  obtain ⟨collected', hcollected'⟩ := (collectSupport_isOk []).mpr hread
  obtain ⟨index', hindex'⟩ : ∃ index', supportIndex D observations' = .ok index' := by
    rw [supportIndex, hcollected']
    exact ⟨_, rfl⟩
  refine ⟨index', hindex', fun i => ?_⟩
  rw [supportIndex_signaled hindex', supportIndex_signaled h]
  simp only [hperm.mem_iff]

/-! ### The order of the evidence -/

/-- The sort reads of the signaled evidence whether an item is in it. -/
theorem ordered_congr {evidence : List EvidenceItem} {preferred signaled signaled' : List Identifier}
    (h : ∀ i, i ∈ signaled' ↔ i ∈ signaled) :
    ordered evidence true preferred signaled' = ordered evidence true preferred signaled := by
  have hkey : recentKey preferred signaled' = recentKey preferred signaled := by
    funext item
    have hflag : decide (item.evidenceId ∉ signaled') = decide (item.evidenceId ∉ signaled) :=
      decide_eq_decide.mpr (not_congr (h item.evidenceId))
    unfold recentKey
    rw [hflag]
  have hle : recentLe preferred signaled' = recentLe preferred signaled := by
    funext a b
    unfold recentLe
    rw [hkey]
  unfold ordered
  rw [hle]

/-- **The order does not depend on the order of the input**, where names are distinct. -/
theorem ordered_of_perm {evidence evidence' : List EvidenceItem} {preferred signaled : List Identifier}
    (hids : (evidence.map EvidenceItem.evidenceId).Nodup) (hperm : evidence.Perm evidence') :
    ordered evidence' true preferred signaled = ordered evidence true preferred signaled := by
  have hsorted : (evidence'.insertionSort fun a b => recentLe preferred signaled a b) =
      evidence.insertionSort fun a b => recentLe preferred signaled a b := by
    refine List.Perm.eq_of_pairwise ?_ (List.pairwise_insertionSort _ _) (List.pairwise_insertionSort _ _)
      (((List.perm_insertionSort _ _).trans hperm.symm).trans (List.perm_insertionSort _ _).symm)
    intro a b ha hb hab hba
    rw [recentLe_iff] at hab hba
    have hkey := toLex.injective (le_antisymm hab hba)
    have ha' : a ∈ evidence := hperm.mem_iff.mpr ((List.perm_insertionSort _ _).mem_iff.mp ha)
    have hb' : b ∈ evidence := (List.perm_insertionSort _ _).mem_iff.mp hb
    exact List.inj_on_of_nodup_map hids ha' hb' (Subtype.ext (Prod.mk.inj hkey).2)
  unfold ordered
  rw [hsorted, if_pos rfl, if_pos rfl]

theorem fill_congr [Rendering] {factsFor factsFor' : EvidenceItem → JsonObject} {maxItems limit : ℕ}
    {items : List EvidenceItem} (h : ∀ item ∈ items, factsFor' item = factsFor item) (bundle : ReasoningContext) :
    fill factsFor' maxItems limit bundle items = fill factsFor maxItems limit bundle items := by
  induction items generalizing bundle with
  | nil => rfl
  | cons item items ih =>
    obtain ⟨hitem, hitems⟩ := List.forall_mem_cons.mp h
    rw [fill, fill, hitem, ih hitems]

variable [Retention] [Rendering]

/-- The checks, with the diagnostic predicates of the source. -/
@[reducible] def SourceChecks.diagnosed (checks : SourceChecks) (D : Diagnostics) : SourceChecks :=
  { checks with supportIndex := Evidence.supportIndex D }

/-- `build_context`, with `support_index`. -/
def contextFor (checks : SourceChecks) (D : Diagnostics) (evidence : List EvidenceItem)
    (incidentId : Identifier) (b : ContextBudget) : Reading ReasoningContext :=
  @buildContext _ _ (checks.diagnosed D) _ evidence incidentId b

section Permuted

variable (checks : SourceChecks) (D : Diagnostics) {held : Digest → Option Artifact}

omit [Rendering] in
theorem allFacts_perm {structured : Bool} {evidence evidence' : List EvidenceItem}
    {facts : List (EvidenceItem × JsonObject)} [SourceChecks] (hids : (evidence.map EvidenceItem.evidenceId).Nodup)
    (hperm : evidence.Perm evidence') (h : (allFacts structured evidence).eval held = .ok facts) :
    ∃ facts', (allFacts structured evidence').eval held = .ok facts' ∧ facts.Perm facts' ∧
      ∀ item ∈ evidence, lookupFacts facts' item = lookupFacts facts item := by
  obtain ⟨rfl, hread⟩ := allFacts_eval.mp h
  have hfacts : facts = (facts.map Prod.fst).map fun item => (item, lookupFacts facts item) := by
    rw [List.map_map]
    refine (List.map_id facts).symm.trans (List.map_congr_left fun f hf => ?_)
    show f = (f.1, lookupFacts facts f.1)
    rw [lookupFacts_eq hids hf]
  refine ⟨evidence'.map fun item => (item, lookupFacts facts item), allFacts_eval.mpr ⟨?_, ?_⟩, ?_, ?_⟩
  · simp [Function.comp_def]
  · intro f hf
    obtain ⟨item, hitem, rfl⟩ := List.mem_map.mp hf
    obtain ⟨g, hg, rfl⟩ := List.mem_map.mp (hperm.mem_iff.mpr hitem)
    show (factsOf g.1 structured).eval held = .ok (lookupFacts facts g.1)
    rw [lookupFacts_eq hids hg]
    exact hread g hg
  · exact (List.Perm.of_eq hfacts).trans (hperm.map _)
  · intro item hitem
    have hids' : (((evidence'.map fun item => (item, lookupFacts facts item)).map Prod.fst).map
        EvidenceItem.evidenceId).Nodup := by
      simpa [Function.comp_def] using (hperm.map _).nodup_iff.mp hids
    exact lookupFacts_eq hids' (List.mem_map_of_mem (f := fun item => (item, lookupFacts facts item))
      (hperm.mem_iff.mp hitem))

omit [Retention] [Rendering] in
theorem signaledIds_perm {facts facts' : List (EvidenceItem × JsonObject)} (hperm : facts.Perm facts')
    {signaled : List Identifier} (h : @signaledIds _ (checks.diagnosed D) true facts = .ok signaled) :
    ∃ signaled', @signaledIds _ (checks.diagnosed D) true facts' = .ok signaled' ∧
      ∀ i, i ∈ signaled' ↔ i ∈ signaled := by
  unfold signaledIds at h ⊢
  rw [if_pos rfl] at h ⊢
  change (supportIndex D _).map _ = _ at h
  change ∃ signaled', (supportIndex D _).map _ = _ ∧ _
  cases hindex : supportIndex D ((facts.filter fun f => !retrieved f.1.source).map fun f =>
      (f.1.evidenceId, f.1.resource, f.2)) with
  | error x => rw [hindex] at h; cases h
  | ok index =>
    rw [hindex] at h
    cases h
    obtain ⟨index', hindex', hsame⟩ := supportIndex_perm
      ((hperm.filter fun f => !retrieved f.1.source).map fun f => (f.1.evidenceId, f.1.resource, f.2)) hindex
    exact ⟨_, by rw [hindex']; rfl, hsame⟩

/-- **The bundle does not depend on the order of the evidence.** -/
theorem contextFor_perm {evidence evidence' : List EvidenceItem} (hperm : evidence.Perm evidence')
    (incidentId : Identifier) {b : ContextBudget} (hrecent : b.recentFirst = true) (bundle : ReasoningContext)
    (h : (contextFor checks D evidence incidentId b).eval held = .ok bundle) :
    (contextFor checks D evidence' incidentId b).eval held = .ok bundle := by
  let _ := checks.diagnosed D
  obtain ⟨hbounds, hids, hverified, facts, signaled, hfacts, hsignaled, rfl⟩ := buildContext_eval.mp h
  rw [hrecent] at hfacts hsignaled
  obtain ⟨facts', hfacts', hfactsPerm, hlookup⟩ := allFacts_perm hids hperm hfacts
  obtain ⟨signaled', hsignaled', hsame⟩ := signaledIds_perm checks D hfactsPerm hsignaled
  refine buildContext_eval.mpr ⟨?_, (hperm.map _).nodup_iff.mp hids, ?_, facts', signaled', ?_, ?_, ?_⟩
  · rw [← hperm.length_eq]
    exact hbounds
  · refine verifyAll_eval.mpr fun item hitem => ?_
    exact verifyAll_eval.mp hverified item (hperm.mem_iff.mpr hitem)
  · rw [hrecent]
    exact hfacts'
  · rw [hrecent]
    exact hsignaled'
  · rw [hrecent, ordered_congr hsame, ordered_of_perm hids hperm, hperm.length_eq]
    exact (fill_congr (fun item hitem => hlookup item (ordered_perm.mem_iff.mp hitem)) _).symm

/-- **The recent order is fair, and the bundle does not depend on the order of the evidence.** -/
theorem recent_order (held : Digest → Option Artifact) (evidence : List EvidenceItem)
    (preferred signaled : List Identifier) :
    (ordered evidence true preferred signaled).Perm evidence ∧
    (∀ g g' (k i j : ℕ), NthOf (ordered evidence true preferred signaled) g k i →
      NthOf (ordered evidence true preferred signaled) g' (k + 1) j → i < j) ∧
    (∀ (i j : ℕ) (a b : EvidenceItem), (ordered evidence true preferred signaled)[i]? = some a →
      (ordered evidence true preferred signaled)[j]? = some b → groupOf a = groupOf b →
      a.evidenceId ∈ signaled → b.evidenceId ∉ signaled → i < j) ∧
    ∀ evidence', evidence.Perm evidence' → ∀ incidentId b, b.recentFirst = true → ∀ bundle,
      (contextFor checks D evidence incidentId b).eval held = .ok bundle ↔
        (contextFor checks D evidence' incidentId b).eval held = .ok bundle := by
  refine ⟨ordered_perm, fun g g' k i j => ordered_turns, fun i j a b => ordered_signaled, ?_⟩
  intro evidence' hperm incidentId b hrecent bundle
  exact ⟨contextFor_perm checks D hperm incidentId hrecent bundle,
    contextFor_perm checks D hperm.symm incidentId hrecent bundle⟩

end Permuted

end PayOps.Evidence

namespace PayOps.Evidence

open Orchestrator

/-! ### The two items in both orders -/

section Sampled

attribute [local instance] bundlePlatform bundleRetention bundleRendering

/-- A log that has lines supports a cause. -/
def lineDiagnostics : Diagnostics where
  supportedCauses value _ := .ok (if (Json.field value "records").isSome then ["NOISY_LOG"] else [])
  sliceCauses _ := .ok []
  httpCauses _ := .ok []

/-- An earlier read of the log. -/
def earlierLog : EvidenceItem :=
  { logItem with evidenceId := ⟨"lines-1", by decide⟩, observedAt := seconds 15 }

/-- The earlier log is signaled, so it comes before the later one; the rollout comes in between. -/
theorem recent_order_both :
    ordered [deploymentItem, logItem, earlierLog] true [] [earlierLog.evidenceId] =
      [earlierLog, deploymentItem, logItem] ∧
    (∀ i j, NthOf [earlierLog, deploymentItem, logItem] (groupOf deploymentItem) 0 i →
      NthOf [earlierLog, deploymentItem, logItem] (groupOf logItem) 1 j → i < j) ∧
    ∃ bundle, (contextFor bundleChecks lineDiagnostics [deploymentItem, logItem] deploymentItem.incidentId
        { recentFirst := true }).eval heldItems = .ok bundle ∧
      (contextFor bundleChecks lineDiagnostics [logItem, deploymentItem] deploymentItem.incidentId
        { recentFirst := true }).eval heldItems = .ok bundle ∧
      bundle.evidenceIds = [logItem.evidenceId, deploymentItem.evidenceId] := by
  have hordered : ordered [deploymentItem, logItem, earlierLog] true [] [earlierLog.evidenceId] =
      [earlierLog, deploymentItem, logItem] := by decide +kernel
  have hfair := (recent_order bundleChecks lineDiagnostics heldItems
    [deploymentItem, logItem, earlierLog] [] [earlierLog.evidenceId]).2.1
  rw [hordered] at hfair
  have hbuilt : (match (contextFor bundleChecks lineDiagnostics [deploymentItem, logItem]
      deploymentItem.incidentId { recentFirst := true }).eval heldItems with
    | .ok bundle => bundle.evidenceIds == [logItem.evidenceId, deploymentItem.evidenceId]
    | .error _ => false) = true := by decide +kernel
  refine ⟨hordered, hfair _ _ 0, ?_⟩
  split at hbuilt
  · rename_i bundle hbundle
    have hsame := (recent_order bundleChecks lineDiagnostics heldItems [deploymentItem, logItem] [] []).2.2.2
      [logItem, deploymentItem] (List.Perm.swap _ _ _) deploymentItem.incidentId { recentFirst := true } rfl bundle
    exact ⟨bundle, hbundle, hsame.mp hbundle, beq_iff_eq.mp hbuilt⟩
  · cases hbuilt

end Sampled

end PayOps.Evidence
