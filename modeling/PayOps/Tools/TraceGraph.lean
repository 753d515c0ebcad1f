import PayOps.Evidence.TraceSpan

/-!
# The graph of the observed spans

`summarize_graph` of `payops.tools.traces`: spans that name each other as parents.

## The model

`Nodes` is the dictionary of the source, with its items in insertion order. The loop over the parents of a span is
`walk`; it ends because each of its steps sees one more observed span.

## What is proved

* `collect_cases` — the dictionary holds each span once, unless two spans share an identity.
* `walk_error`, `walk_ok` — a walk raises just where the parents of its span lead back to a span.
* `trace_graph` — **main result**: which spans are refused, and what is counted of the others, in any order.
-/

namespace PayOps.Tools.TraceGraph

open Evidence.Trace Relation

/-- The identity of a span. -/
abbrev SpanKey := TraceId × SpanId

/-- `(span.trace_id, span.span_id)`. -/
def keyOf (span : SourceSpan) : SpanKey := (span.traceId, span.spanId)

/-- `(span.trace_id, span.parent_id)`, if there is a parent. -/
def parentKey (span : SourceSpan) : Option SpanKey := span.parentId.map fun p => (span.traceId, p)

/-- `dict[tuple[str, str], SourceSpan]`. -/
abbrev Nodes := List (SpanKey × SourceSpan)

/-- `GraphSummary`. -/
structure GraphSummary where
  /-- `span_count`. -/
  spanCount : ℕ
  /-- `trace_count`. -/
  traceCount : ℕ
  /-- `resolved_parent_edges`. -/
  resolvedParentEdges : ℕ
  /-- `unresolved_parent_edges`. -/
  unresolvedParentEdges : ℤ
  /-- `null_parents`. -/
  nullParents : ℕ
  /-- `duplicate_records`. -/
  duplicateRecords : ℤ
  /-- `Field(le=MAX_SPANS)`, `Field(le=32)`, `Field(ge=0)`. -/
  bounded : spanCount ≤ MAX_SPANS ∧ traceCount ≤ 32 ∧ 0 ≤ unresolvedParentEdges ∧ 0 ≤ duplicateRecords
  deriving DecidableEq

/-! ### The summary -/

/-- The dictionary, after the first loop. -/
def collect (nodes : Nodes) : List SourceSpan → Except Fault Nodes
  | [] => .ok nodes
  | span :: spans =>
    match nodes.lookup (keyOf span) with
    | none => collect (nodes ++ [(keyOf span, span)]) spans
    | some other =>
      if other ≠ span then .error (.integrity "conflicting duplicate trace span")
      else collect (nodes.map fun n => if n.1 = keyOf span then (n.1, span) else n) spans

/-- The keys of the dictionary that were not seen. -/
def unseen (nodes : Nodes) (seen : List SpanKey) : List SpanKey := (nodes.map Prod.fst).filter (· ∉ seen)

theorem unseen_lt {nodes : Nodes} {seen : List SpanKey} {key : SpanKey} {span : SourceSpan} (hnew : key ∉ seen)
    (hfound : nodes.lookup key = some span) : (unseen nodes (key :: seen)).length < (unseen nodes seen).length := by
  obtain ⟨l₁, l₂, rfl, -⟩ := List.lookup_eq_some_iff.mp hfound
  have hmem : key ∈ unseen (l₁ ++ (key, span) :: l₂) seen := by simp [unseen, hnew]
  have hsub : (unseen (l₁ ++ (key, span) :: l₂) (key :: seen)).Sublist
      ((unseen (l₁ ++ (key, span) :: l₂) seen).filter (· ≠ key)) := by
    unfold unseen
    rw [List.filter_filter]
    exact List.monotone_filter_right _ (by simp)
  exact hsub.length_le.trans_lt (List.length_filter_lt_length_iff_exists.mpr ⟨key, hmem, by simp⟩)

/-- The loop over the parents of a span. -/
def walk (nodes : Nodes) (seen : List SpanKey) (current : SourceSpan) : Except Fault Unit :=
  match parentKey current with
  | none => .ok ()
  | some parent =>
    if _hseen : parent ∈ seen then .error (.integrity "trace parent cycle")
    else match _hfound : nodes.lookup parent with
    | none => .ok ()
    | some next => walk nodes (parent :: seen) next
termination_by (unseen nodes seen).length
decreasing_by exact unseen_lt _hseen _hfound

/-- The second loop. -/
def walkAll (nodes : Nodes) : Nodes → Except Fault Unit
  | [] => .ok ()
  | n :: rest => do
    walk nodes [n.1] n.2
    walkAll nodes rest

/-- `GraphSummary(…)`. -/
def GraphSummary.validate (spanCount traceCount resolved nullParents records : ℕ) : Except Fault GraphSummary :=
  let unresolved : ℤ := spanCount - resolved - nullParents
  let duplicates : ℤ := records - spanCount
  if h : spanCount ≤ MAX_SPANS ∧ traceCount ≤ 32 ∧ 0 ≤ unresolved ∧ 0 ≤ duplicates then
    .ok ⟨spanCount, traceCount, resolved, unresolved, nullParents, duplicates, h⟩
  else .error (.value "ValidationError")

/-- The parent of a span is observed. -/
def parentObserved (nodes : Nodes) (span : SourceSpan) : Bool :=
  (parentKey span).any fun parent => (nodes.lookup parent).isSome

/-- `summarize_graph`. -/
def summarizeGraph (spans : List SourceSpan) : Except Fault GraphSummary :=
  if MAX_SPANS < spans.length then .error (.value "aggregate span budget exceeded")
  else do
    let nodes ← collect [] spans
    walkAll nodes nodes
    GraphSummary.validate nodes.length (nodes.map fun n => n.1.1).dedup.length
      (nodes.countP fun n => parentObserved nodes n.2) (nodes.countP fun n => n.2.parentId == none) spans.length

/-! ### What it says of the spans -/

/-- Two different spans share an identity. -/
def Conflict (spans : List SourceSpan) : Prop := ∃ a ∈ spans, ∃ b ∈ spans, keyOf a = keyOf b ∧ a ≠ b

/-- The second span is observed, and the first one names it as its parent. -/
def Link (spans : List SourceSpan) (a b : SourceSpan) : Prop := b ∈ spans ∧ parentKey a = some (keyOf b)

/-- Following the parents of an observed span leads back to a span. -/
def Cyclic (spans : List SourceSpan) : Prop :=
  ∃ a ∈ spans, ∃ b, ReflTransGen (Link spans) a b ∧ TransGen (Link spans) b b

/-- The parent of a span is among the spans. -/
def Resolved (spans : List SourceSpan) (span : SourceSpan) : Prop := ∃ b ∈ spans, parentKey span = some (keyOf b)

/-- The dictionary of spans: each under its identity. -/
structure Collected (nodes : Nodes) (spans : List SourceSpan) : Prop where
  /-- The key of a span is its identity. -/
  keyed : ∀ n ∈ nodes, n.1 = keyOf n.2
  /-- No key is there twice. -/
  nodup : (nodes.map Prod.fst).Nodup
  /-- The spans are those that were read. -/
  spans : ∀ span, span ∈ nodes.map Prod.snd ↔ span ∈ spans

theorem Collected.nil : Collected [] [] := ⟨by simp, by simp, by simp⟩

theorem Collected.lookup {nodes : Nodes} {spans : List SourceSpan} (h : Collected nodes spans) {key : SpanKey}
    {span : SourceSpan} : nodes.lookup key = some span ↔ span ∈ spans ∧ keyOf span = key := by
  rw [← h.spans, List.lookup_eq_some_iff]
  constructor
  · rintro ⟨l₁, l₂, rfl, -⟩
    have hkey := h.keyed (key, span) (by simp)
    exact ⟨by simp, hkey.symm⟩
  · rintro ⟨hmem, rfl⟩
    obtain ⟨⟨key, span'⟩, hn, rfl⟩ := List.mem_map.mp hmem
    obtain rfl : key = keyOf span' := h.keyed _ hn
    obtain ⟨l₁, l₂, rfl⟩ := List.append_of_mem hn
    refine ⟨l₁, l₂, rfl, fun p hp => ?_⟩
    have hnodup := h.nodup
    rw [List.map_append, List.map_cons, List.nodup_append] at hnodup
    have hne : p.1 ≠ keyOf span' := hnodup.2.2 _ (List.mem_map_of_mem hp) _ List.mem_cons_self
    simpa using hne.symm

/-- No two spans of a dictionary share an identity. -/
theorem Collected.not_conflict {nodes : Nodes} {spans : List SourceSpan} (h : Collected nodes spans) :
    ¬Conflict spans := by
  rintro ⟨a, ha, b, hb, hkey, hne⟩
  have hfound : nodes.lookup (keyOf b) = some a := h.lookup.mpr ⟨ha, hkey⟩
  have hfound' : nodes.lookup (keyOf b) = some b := h.lookup.mpr ⟨hb, rfl⟩
  rw [hfound'] at hfound
  exact hne (Option.some.inj hfound).symm

/-- A new span is added to the dictionary. -/
theorem Collected.snoc {nodes : Nodes} {spans : List SourceSpan} (h : Collected nodes spans) {span : SourceSpan}
    (hnew : nodes.lookup (keyOf span) = none) :
    Collected (nodes ++ [(keyOf span, span)]) (spans ++ [span]) := by
  refine ⟨fun n hn => ?_, ?_, fun other => ?_⟩
  · rcases List.mem_append.mp hn with hn | hn
    · exact h.keyed n hn
    · rw [List.mem_singleton.mp hn]
  · rw [List.map_append, List.nodup_append]
    refine ⟨h.nodup, by simp, fun key hkey key' hkey' hsame => ?_⟩
    obtain rfl : key' = keyOf span := by simpa using hkey'
    obtain ⟨n, hn, rfl⟩ := List.mem_map.mp hkey
    exact absurd hsame.symm (by simpa using List.lookup_eq_none_iff.mp hnew n hn)
  · rw [List.map_append, List.mem_append, h.spans, List.mem_append]
    simp

/-- **The first loop**: it ends with the dictionary of the spans, unless two of them share an identity. -/
theorem collect_cases {nodes : Nodes} {past : List SourceSpan} (h : Collected nodes past) (spans : List SourceSpan) :
    (collect nodes spans = .error (.integrity "conflicting duplicate trace span") ∧ Conflict (past ++ spans)) ∨
      ∃ nodes', collect nodes spans = .ok nodes' ∧ Collected nodes' (past ++ spans) := by
  induction spans generalizing nodes past with
  | nil => exact .inr ⟨nodes, rfl, by simpa using h⟩
  | cons span spans ih =>
    have hsplit : past ++ span :: spans = past ++ [span] ++ spans := by simp
    cases hfound : nodes.lookup (keyOf span) with
    | none =>
      simp only [collect, hfound, hsplit]
      exact ih (h.snoc hfound)
    | some other =>
      obtain ⟨hmem, hkey⟩ := h.lookup.mp hfound
      simp only [collect, hfound]
      split_ifs with hother
      · exact .inl ⟨rfl, other, by simp [hmem], span, by simp, hkey, hother⟩
      · obtain rfl : other = span := not_not.mp hother
        have hsame : (nodes.map fun n => if n.1 = keyOf other then (n.1, other) else n) = nodes := by
          rw [List.map_congr_left (g := id), List.map_id]
          intro n hn
          split_ifs with hn'
          · have hn₂ : nodes.lookup (keyOf other) = some n.2 :=
              h.lookup.mpr ⟨(h.spans _).mp (List.mem_map_of_mem hn), by rw [← hn', h.keyed n hn]⟩
            have hsame : other = n.2 := Option.some.inj (hfound.symm.trans hn₂)
            exact Prod.ext rfl hsame
          · rfl
        rw [hsame, hsplit]
        refine ih ⟨h.keyed, h.nodup, fun s => ?_⟩
        rw [h.spans, List.mem_append, List.mem_singleton]
        exact ⟨.inl, fun hs => hs.elim id fun heq => heq ▸ hmem⟩

/-! ### Following the parents -/

/-- Following the parents of a span leads back to a span. -/
def Returns (spans : List SourceSpan) (a : SourceSpan) : Prop :=
  ∃ b, ReflTransGen (Link spans) a b ∧ TransGen (Link spans) b b

/-- Only a span with an observed parent leads back to a span. -/
theorem Returns.link {spans : List SourceSpan} {a : SourceSpan} (h : Returns spans a) : ∃ b, Link spans a b := by
  obtain ⟨b, hab, hbb⟩ := h
  rcases hab.cases_head with rfl | ⟨c, hac, -⟩
  · obtain ⟨c, hac, -⟩ := TransGen.head'_iff.mp hbb
    exact ⟨c, hac⟩
  · exact ⟨c, hac⟩

/-- The parent of a span that leads back to a span leads back to a span, as a span has one parent. -/
theorem Returns.parent {spans : List SourceSpan} {a b : SourceSpan} (h : Returns spans a)
    (honly : ∀ c, Link spans a c → c = b) : Returns spans b := by
  obtain ⟨d, had, hdd⟩ := h
  rcases had.cases_head with rfl | ⟨c, hac, hcd⟩
  · obtain ⟨c, hac, hca⟩ := TransGen.head'_iff.mp hdd
    obtain rfl := honly c hac
    exact ⟨a, hca, hdd⟩
  · obtain rfl := honly c hac
    exact ⟨d, hcd, hdd⟩

/-- The links of a span, from the dictionary. -/
theorem Collected.link_iff {nodes : Nodes} {spans : List SourceSpan} (h : Collected nodes spans) {a b : SourceSpan} :
    Link spans a b ↔ ∃ parent, parentKey a = some parent ∧ nodes.lookup parent = some b := by
  simp only [h.lookup]
  constructor
  · rintro ⟨hb, hparent⟩
    exact ⟨keyOf b, hparent, hb, rfl⟩
  · rintro ⟨_, hparent, hb, rfl⟩
    exact ⟨hb, hparent⟩

/-- **A walk that ends** started at a span that does not lead back to a span. -/
theorem walk_ok {nodes : Nodes} {spans : List SourceSpan} (h : Collected nodes spans) (seen : List SpanKey)
    (current : SourceSpan) (hok : walk nodes seen current = .ok ()) : ¬Returns spans current := by
  induction seen, current using walk.induct nodes with
  | case1 seen current hparent =>
    intro hreturns
    obtain ⟨b, hlink⟩ := hreturns.link
    simp [h.link_iff, hparent] at hlink
  | case2 seen current parent hparent hseen =>
    rw [walk] at hok
    simp [hparent, hseen] at hok
  | case3 seen current parent hparent hseen hfound =>
    intro hreturns
    obtain ⟨b, hlink⟩ := hreturns.link
    simp [h.link_iff, hparent, hfound] at hlink
  | case4 seen current parent hparent hseen next hfound ih =>
    rw [walk] at hok
    simp only [hparent, hseen, dite_false] at hok
    split at hok
    · simp_all
    · rename_i next' hnext
      obtain rfl : next' = next := Option.some.inj (hnext.symm.trans hfound)
      intro hreturns
      refine ih hok (hreturns.parent fun c hlink => ?_)
      obtain ⟨_, hparent', hc⟩ := h.link_iff.mp hlink
      obtain rfl := Option.some.inj (hparent.symm.trans hparent')
      exact Option.some.inj (hc.symm.trans hfound)

/-- **A walk that raises** started at a span that leads back to a span: the walk came from every span it has seen. -/
theorem walk_error {nodes : Nodes} {spans : List SourceSpan} (h : Collected nodes spans) (seen : List SpanKey)
    (current : SourceSpan)
    (hseen : ∀ key ∈ seen, ∃ s ∈ spans, keyOf s = key ∧ ReflTransGen (Link spans) s current) {fault : Fault}
    (herror : walk nodes seen current = .error fault) :
    fault = .integrity "trace parent cycle" ∧ Returns spans current := by
  induction seen, current using walk.induct nodes with
  | case1 seen current hparent =>
    rw [walk] at herror
    simp [hparent] at herror
  | case2 seen current parent hparent hold =>
    rw [walk] at herror
    simp only [hparent, hold, dite_true, Except.error.injEq] at herror
    obtain ⟨s, hs, hkey, hpath⟩ := hseen parent hold
    have hlink : Link spans current s := ⟨hs, by rw [hparent, hkey]⟩
    exact ⟨herror.symm, current, .refl, TransGen.head' hlink hpath⟩
  | case3 seen current parent hparent hold hfound =>
    rw [walk] at herror
    simp only [hparent, hold, dite_false] at herror
    split at herror <;> simp_all
  | case4 seen current parent hparent hold next hfound ih =>
    rw [walk] at herror
    simp only [hparent, hold, dite_false] at herror
    split at herror
    · simp_all
    · rename_i next' hnext
      obtain rfl : next' = next := Option.some.inj (hnext.symm.trans hfound)
      have hlink : Link spans current next' := h.link_iff.mpr ⟨parent, hparent, hfound⟩
      have hseen' : ∀ key ∈ parent :: seen, ∃ s ∈ spans, keyOf s = key ∧ ReflTransGen (Link spans) s next' := by
        intro key hkey
        rcases List.mem_cons.mp hkey with rfl | hkey
        · obtain ⟨hmem, hkey⟩ := h.lookup.mp hfound
          exact ⟨next', hmem, hkey, .refl⟩
        · obtain ⟨s, hs, hkey, hpath⟩ := hseen key hkey
          exact ⟨s, hs, hkey, hpath.tail hlink⟩
      obtain ⟨hfault, b, hpath, hcycle⟩ := ih hseen' herror
      exact ⟨hfault, b, .head hlink hpath, hcycle⟩

/-- **The second loop**: it ends, unless some span leads back to a span. -/
theorem walkAll_cases {nodes : Nodes} {spans : List SourceSpan} (h : Collected nodes spans) (rest : Nodes)
    (hrest : rest ⊆ nodes) :
    (walkAll nodes rest = .error (.integrity "trace parent cycle") ∧ ∃ n ∈ rest, Returns spans n.2) ∨
      (walkAll nodes rest = .ok () ∧ ∀ n ∈ rest, ¬Returns spans n.2) := by
  induction rest with
  | nil => exact .inr ⟨rfl, by simp⟩
  | cons n rest ih =>
    obtain ⟨hn, hrest⟩ := List.cons_subset.mp hrest
    cases hwalk : walk nodes [n.1] n.2 with
    | error fault =>
      have hstart : ∀ key ∈ [n.1], ∃ s ∈ spans, keyOf s = key ∧ ReflTransGen (Link spans) s n.2 := by
        intro key hkey
        rw [List.mem_singleton.mp hkey, h.keyed n hn]
        exact ⟨n.2, (h.spans _).mp (List.mem_map_of_mem hn), rfl, .refl⟩
      obtain ⟨rfl, hreturns⟩ := walk_error h _ _ hstart hwalk
      exact .inl ⟨by simp [walkAll, hwalk, bind, Except.bind], n, by simp, hreturns⟩
    | ok u =>
      have hno := walk_ok h _ _ hwalk
      have hstep : walkAll nodes (n :: rest) = walkAll nodes rest := by
        simp [walkAll, hwalk, bind, Except.bind]
      rw [hstep]
      rcases ih hrest with ⟨herror, m, hm, hreturns⟩ | ⟨hok, hall⟩
      · exact .inl ⟨herror, m, List.mem_cons_of_mem _ hm, hreturns⟩
      · exact .inr ⟨hok, List.forall_mem_cons.mpr ⟨hno, hall⟩⟩

/-! ### Counting the spans -/

instance (spans : List SourceSpan) : Decidable (Conflict spans) :=
  inferInstanceAs (Decidable (∃ a ∈ spans, ∃ b ∈ spans, keyOf a = keyOf b ∧ a ≠ b))

instance (spans : List SourceSpan) : DecidablePred (Resolved spans) :=
  fun span => inferInstanceAs (Decidable (∃ b ∈ spans, parentKey span = some (keyOf b)))

/-- The dictionary holds each of the spans once. -/
theorem Collected.values {nodes : Nodes} {spans : List SourceSpan} (h : Collected nodes spans) :
    (nodes.map Prod.snd).Nodup ∧ (nodes.map Prod.snd).toFinset = spans.toFinset := by
  constructor
  · apply List.Nodup.of_map keyOf
    have hkeys : (nodes.map Prod.snd).map keyOf = nodes.map Prod.fst := by
      rw [List.map_map]
      exact List.map_congr_left fun n hn => (h.keyed n hn).symm
    rw [hkeys]
    exact h.nodup
  · ext span
    simp only [List.mem_toFinset, h.spans]

/-- Counting the nodes is counting the spans, each of them once. -/
theorem Collected.countP {nodes : Nodes} {spans : List SourceSpan} (h : Collected nodes spans)
    (p : SourceSpan → Prop) [DecidablePred p] :
    (nodes.countP fun n => decide (p n.2)) = (spans.toFinset.filter p).card := by
  obtain ⟨hnodup, hvalues⟩ := h.values
  have hfilter : spans.toFinset.filter p = ((nodes.map Prod.snd).filter (decide <| p ·)).toFinset := by
    rw [List.toFinset_filter, hvalues]
    simp
  rw [hfilter, List.toFinset_card_of_nodup (hnodup.filter _), ← List.countP_eq_length_filter, List.countP_map]
  rfl

theorem Collected.length {nodes : Nodes} {spans : List SourceSpan} (h : Collected nodes spans) :
    nodes.length = spans.toFinset.card := by
  obtain ⟨hnodup, hvalues⟩ := h.values
  rw [← hvalues, List.toFinset_card_of_nodup hnodup, List.length_map]

/-- The parent of a span is in the dictionary just if it is among the spans. -/
theorem Collected.parentObserved {nodes : Nodes} {spans : List SourceSpan} (h : Collected nodes spans)
    (span : SourceSpan) : parentObserved nodes span = decide (Resolved spans span) := by
  rw [Bool.eq_iff_iff, decide_eq_true_iff, TraceGraph.parentObserved]
  cases hparent : parentKey span with
  | none => simp [Resolved, hparent]
  | some parent =>
    simp only [Option.any_some, Option.isSome_iff_exists, h.lookup, Resolved, hparent, Option.some.injEq]
    exact exists_congr fun b => and_congr_right fun _ => eq_comm

/-- **`summarize_graph`**: the three ways it ends. -/
theorem summarize_cases (spans : List SourceSpan) (hlen : spans.length ≤ MAX_SPANS) :
    (Conflict spans ∧ summarizeGraph spans = .error (.integrity "conflicting duplicate trace span")) ∨
      (¬Conflict spans ∧ Cyclic spans ∧ summarizeGraph spans = .error (.integrity "trace parent cycle")) ∨
      (¬Conflict spans ∧ ¬Cyclic spans ∧
        summarizeGraph spans = GraphSummary.validate spans.toFinset.card (spans.map (·.traceId)).toFinset.card
          (spans.toFinset.filter (Resolved spans)).card (spans.toFinset.filter (·.parentId = none)).card
          spans.length) := by
  have hsmall : ¬MAX_SPANS < spans.length := not_lt.mpr hlen
  simp only [summarizeGraph, hsmall, if_false]
  rcases collect_cases .nil spans with ⟨herror, hconflict⟩ | ⟨nodes, hok, h⟩
  · exact .inl ⟨hconflict, by simp [herror, bind, Except.bind]⟩
  · rw [List.nil_append] at h
    simp only [hok, bind, Except.bind]
    refine .inr ?_
    rcases walkAll_cases h nodes (List.Subset.refl _) with ⟨herror, n, hn, hreturns⟩ | ⟨hok, hall⟩
    · exact .inl ⟨h.not_conflict, ⟨n.2, (h.spans _).mp (List.mem_map_of_mem hn), hreturns⟩, by simp [herror]⟩
    · refine .inr ⟨h.not_conflict, ?_, ?_⟩
      · rintro ⟨a, ha, hreturns⟩
        obtain ⟨n, hn, rfl⟩ := List.mem_map.mp ((h.spans a).mpr ha)
        exact hall n hn hreturns
      · have htraces : (nodes.map fun n => n.1.1).dedup.length = (spans.map (·.traceId)).toFinset.card := by
          rw [← List.card_toFinset]
          congr 1
          ext trace
          simp only [List.mem_toFinset, List.mem_map, ← h.spans]
          constructor
          · rintro ⟨n, hn, rfl⟩
            exact ⟨n.2, ⟨n, hn, rfl⟩, by rw [h.keyed n hn]; rfl⟩
          · rintro ⟨_, ⟨n, hn, rfl⟩, rfl⟩
            exact ⟨n, hn, by rw [h.keyed n hn]; rfl⟩
        have hroots : (nodes.countP fun n => n.2.parentId == none) =
            (spans.toFinset.filter (·.parentId = none)).card := by
          rw [← h.countP]
          simp only [beq_eq_decide]
        simp only [hok, h.length, htraces, hroots, h.parentObserved, h.countP]

/-- A permutation has the same links. -/
theorem Link.perm {spans spans' : List SourceSpan} (hperm : spans.Perm spans') : Link spans = Link spans' := by
  funext a b
  simp only [Link, hperm.mem_iff]

theorem Conflict.perm {spans spans' : List SourceSpan} (hperm : spans.Perm spans') :
    Conflict spans ↔ Conflict spans' := by
  simp only [Conflict, hperm.mem_iff]

theorem Cyclic.perm {spans spans' : List SourceSpan} (hperm : spans.Perm spans') : Cyclic spans ↔ Cyclic spans' := by
  simp only [Cyclic, hperm.mem_iff, Link.perm hperm]

/-- The order of the spans does not matter. -/
theorem summarize_perm {spans spans' : List SourceSpan} (hlen : spans.length ≤ MAX_SPANS)
    (hperm : spans.Perm spans') : summarizeGraph spans' = summarizeGraph spans := by
  have hlen' : spans'.length ≤ MAX_SPANS := hperm.length_eq ▸ hlen
  have hcases' := summarize_cases spans' hlen'
  rw [← Conflict.perm hperm, ← Cyclic.perm hperm] at hcases'
  rcases summarize_cases spans hlen with ⟨hconflict, h⟩ | ⟨hconflict, hcyclic, h⟩ | ⟨hconflict, hcyclic, h⟩
  · simp only [hconflict, not_true, false_and, or_false, true_and] at hcases'
    rw [h, hcases']
  · simp only [hconflict, hcyclic, not_false_iff, not_true, false_and, or_false, false_or, true_and] at hcases'
    rw [h, hcases']
  · simp only [hconflict, hcyclic, not_false_iff, false_and, false_or, true_and] at hcases'
    have hresolved : ∀ span ∈ spans.toFinset, Resolved spans' span ↔ Resolved spans span := by
      simp only [Resolved, hperm.mem_iff, implies_true]
    rw [h, hcases', ← List.toFinset_eq_of_perm _ _ hperm, ← List.toFinset_eq_of_perm _ _ (hperm.map (·.traceId)),
      ← hperm.length_eq, Finset.filter_congr hresolved]

/-- Spans without a parent, and spans whose parent is observed, are different ones. -/
theorem resolved_add_roots_le (spans : List SourceSpan) :
    (spans.toFinset.filter (Resolved spans)).card + (spans.toFinset.filter (·.parentId = none)).card ≤
      spans.toFinset.card := by
  rw [← Finset.card_union_of_disjoint]
  · apply Finset.card_le_card
    exact Finset.union_subset (Finset.filter_subset _ _) (Finset.filter_subset _ _)
  · apply Finset.disjoint_filter.mpr
    rintro span - ⟨b, -, hparent⟩ hroot
    simp [parentKey, hroot] at hparent

/-- If no two spans share an identity, there are as many of them as identities. -/
theorem card_identities {spans : List SourceSpan} (h : ¬Conflict spans) :
    (spans.map keyOf).toFinset.card = spans.toFinset.card := by
  have himage : (spans.map keyOf).toFinset = spans.toFinset.image keyOf := by
    ext key
    simp
  rw [himage, Finset.card_image_of_injOn]
  intro a ha b hb hkey
  by_contra hne
  exact h ⟨a, by simpa using ha, b, by simpa using hb, hkey, hne⟩

/-- The counts of at most 128 spans in at most 32 traces are within their bounds. -/
theorem counts_valid {spans : List SourceSpan} (hlen : spans.length ≤ MAX_SPANS)
    (htraces : (spans.map (·.traceId)).toFinset.card ≤ 32) :
    ∃ summary, GraphSummary.validate spans.toFinset.card (spans.map (·.traceId)).toFinset.card
        (spans.toFinset.filter (Resolved spans)).card (spans.toFinset.filter (·.parentId = none)).card
        spans.length = .ok summary ∧
      summary.spanCount = spans.toFinset.card ∧
      summary.resolvedParentEdges = (spans.toFinset.filter (Resolved spans)).card ∧
      summary.nullParents = (spans.toFinset.filter (·.parentId = none)).card ∧
      summary.unresolvedParentEdges =
        summary.spanCount - summary.resolvedParentEdges - summary.nullParents ∧
      summary.duplicateRecords = spans.length - summary.spanCount := by
  have hcount := resolved_add_roots_le spans
  have hdistinct := List.toFinset_card_le spans
  exact ⟨_, dif_pos ⟨hdistinct.trans hlen, htraces, by omega, by omega⟩, rfl, rfl, rfl, rfl, rfl⟩

/-- **The graph of the observed spans.** Of at most 128 spans in at most 32 traces, those with a conflict or with a
cycle are refused, and only those; of the others the parents are counted, and the records that were there before. The
order of the spans does not matter. -/
theorem trace_graph (spans : List SourceSpan) (hlen : spans.length ≤ 128)
    (htraces : (spans.map (·.traceId)).toFinset.card ≤ 32) :
    (summarizeGraph spans = .error (.integrity "conflicting duplicate trace span") ↔ Conflict spans) ∧
      (¬Conflict spans →
        (summarizeGraph spans = .error (.integrity "trace parent cycle") ↔ Cyclic spans)) ∧
      (¬Conflict spans → ¬Cyclic spans →
        ∃ summary, summarizeGraph spans = .ok summary ∧
          (summary.spanCount : ℤ) =
            summary.resolvedParentEdges + summary.unresolvedParentEdges + summary.nullParents ∧
          summary.spanCount = (spans.map keyOf).toFinset.card ∧
          summary.resolvedParentEdges = (spans.toFinset.filter (Resolved spans)).card ∧
          summary.nullParents = (spans.toFinset.filter (·.parentId = none)).card ∧
          summary.duplicateRecords = spans.length - (spans.map keyOf).toFinset.card) ∧
      ∀ spans', spans.Perm spans' → summarizeGraph spans' = summarizeGraph spans := by
  refine ⟨?_, fun hconflict => ?_, fun hconflict hcyclic => ?_, fun spans' hperm => summarize_perm hlen hperm⟩
  all_goals
    obtain ⟨summary, hvalid, hspans, hresolved, hroots, hunresolved, hduplicates⟩ := counts_valid hlen htraces
    have hcases := summarize_cases spans hlen
    rw [hvalid] at hcases
  · rcases hcases with ⟨hconflict, h⟩ | ⟨hconflict, -, h⟩ | ⟨hconflict, -, h⟩
    · simp [h, hconflict]
    · simp [h, hconflict]
    · simp [h, hconflict]
  · rcases hcases with ⟨hconflict', -⟩ | ⟨-, hcyclic, h⟩ | ⟨-, hcyclic, h⟩
    · exact absurd hconflict' hconflict
    · simp [h, hcyclic]
    · simp [h, hcyclic]
  · rcases hcases with ⟨hconflict', -⟩ | ⟨-, hcyclic', -⟩ | ⟨-, -, h⟩
    · exact absurd hconflict' hconflict
    · exact absurd hcyclic' hcyclic
    · rw [card_identities hconflict, ← hspans]
      exact ⟨summary, h, by omega, rfl, hresolved, hroots, hduplicates⟩

theorem observed_name : 1 ≤ "sandbox.payments".toList.length ∧ "sandbox.payments".toList.length ≤ 80 := by decide

theorem observed_service :
    1 ≤ "payops-sandbox-payments".toList.length ∧ "payops-sandbox-payments".toList.length ≤ 80 := by decide

theorem observed_child : hexId 16 "0x00000000000000b2" = true := by decide

/-- A payment, and the call to the ledger it made. -/
def observedPair : List SourceSpan :=
  [⟨⟨"sandbox.payments", observed_name⟩, ⟨"0x000000000000000000000000000000a1", by decide⟩,
      ⟨"0x00000000000000b1", by decide⟩, none, .server, 0, 9, .ok, ⟨"payops-sandbox-payments", observed_service⟩,
      by decide⟩,
    ⟨⟨"sandbox.call.ledger", by decide⟩, ⟨"0x000000000000000000000000000000a1", by decide⟩,
      ⟨"0x00000000000000b2", observed_child⟩, some ⟨"0x00000000000000b1", by decide⟩, .client, 1, 5, .ok,
      ⟨"payops-sandbox-payments", observed_service⟩, by decide⟩]

/-- The graph of the pair, read in either order. -/
theorem trace_graph_pair :
    ∃ summary, summarizeGraph observedPair = .ok summary ∧ summarizeGraph observedPair.reverse = .ok summary ∧
      summary.resolvedParentEdges = 1 := by
  obtain ⟨-, -, hok, hperm⟩ := trace_graph observedPair (by decide) (by decide +kernel)
  have hroot : ∀ a ∈ observedPair, ∀ b ∈ observedPair, parentKey a = some (keyOf b) → b.parentId = none := by decide
  have hacyclic : ¬Cyclic observedPair := by
    rintro ⟨-, -, b, -, hreturn⟩
    obtain ⟨d, hbd, hdb⟩ := TransGen.tail'_iff.mp hreturn
    obtain ⟨c, hbc, hcb⟩ := TransGen.head'_iff.mp hreturn
    have hparent : parentKey c = none := by simp [parentKey, hroot b hdb.1 c hbc.1 hbc.2]
    rcases hcb.cases_head with rfl | ⟨e, hce, -⟩
    · simp [hbc.2] at hparent
    · simp [hce.2] at hparent
  obtain ⟨summary, h, -, -, hresolved, -⟩ := hok (by decide) hacyclic
  exact ⟨summary, h, by rw [hperm _ (List.reverse_perm _).symm, h], by rw [hresolved]; decide +kernel⟩

end PayOps.Tools.TraceGraph
