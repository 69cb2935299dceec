import IcebergCxx.RowFilterCache

/-!
# Which filter a batch is filtered with

The texts of a call are stored before it is compiled. When that fails, the next call with these texts
is taken for a repeated one and returns without a filter. Where no call follows a failed one in this
way, and equal texts are those of one condition and schema, a call that succeeds leaves its own filter.
-/

namespace IcebergCxx.Proofs

open Lib RowFilterCache

section

variable {Resolver Condition Schema : Type} {gandiva : Gandiva Resolver Condition Schema}
  {calls : List (BuildFilterCall Resolver Schema)}

variable (gandiva) in
/-- The ways a call can end: it fails and changes nothing, it finds its texts, or it compiles. -/
lemma buildFilter_cases (rowFilter : RowFilter Condition Schema) (call : BuildFilterCall Resolver Schema) :
    (∃ e, buildFilter gandiva rowFilter call = (rowFilter, .error e) ∧
        ((∃ e, call.registered = .error e) ∨ ∃ e, gandiva.visit call.resolver = .error e)) ∨
      ∃ condition, call.registered = .ok () ∧ gandiva.visit call.resolver = .ok condition ∧
        ((isLast gandiva rowFilter condition call.batchSchema = true ∧
            buildFilter gandiva rowFilter call = (rowFilter, .ok ())) ∨
          (isLast gandiva rowFilter condition call.batchSchema = false ∧
            buildFilter gandiva rowFilter call = compileFilter gandiva condition call)) := by
  unfold buildFilter
  cases hregistered : call.registered with
  | error e => exact .inl ⟨e, rfl, .inl ⟨e, rfl⟩⟩
  | ok u =>
    cases hvisit : gandiva.visit call.resolver with
    | error e => exact .inl ⟨e, rfl, .inr ⟨e, rfl⟩⟩
    | ok condition =>
      refine .inr ⟨condition, rfl, rfl, ?_⟩
      cases hlast : isLast gandiva rowFilter condition call.batchSchema with
      | true => exact .inl ⟨rfl, by simp only [hlast, if_true]⟩
      | false => exact .inr ⟨rfl, by simp only [hlast, Bool.false_eq_true, if_false]⟩

/-- Equal texts are those of one condition and schema, among the calls of a run. -/
def TextsIdentify (gandiva : Gandiva Resolver Condition Schema) (calls : List (BuildFilterCall Resolver Schema)) : Prop :=
  ∀ call ∈ calls, ∀ call' ∈ calls, ∀ condition condition', gandiva.visit call.resolver = .ok condition →
    gandiva.visit call'.resolver = .ok condition' →
    gandiva.conditionToString condition = gandiva.conditionToString condition' →
    gandiva.schemaToString call.batchSchema = gandiva.schemaToString call'.batchSchema →
    condition = condition' ∧ call.batchSchema = call'.batchSchema

/-- The call does not find its texts where there is no filter. -/
def FindsFilter (gandiva : Gandiva Resolver Condition Schema) (rowFilter : RowFilter Condition Schema)
    (call : BuildFilterCall Resolver Schema) : Prop :=
  rowFilter.filter = none → call.registered = .ok () → ∀ condition, gandiva.visit call.resolver = .ok condition →
    isLast gandiva rowFilter condition call.batchSchema = false

/-- A call that succeeds leaves the filter compiled from its own condition and schema. -/
def LeavesItsFilter (gandiva : Gandiva Resolver Condition Schema) (rowFilter : RowFilter Condition Schema)
    (call : BuildFilterCall Resolver Schema) : Prop :=
  (buildFilter gandiva rowFilter call).2 = .ok () →
    ∃ condition, gandiva.visit call.resolver = .ok condition ∧
      (buildFilter gandiva rowFilter call).1.filter = some (condition, call.batchSchema)

/-- The property at every call of a run. -/
def AtEveryCall (gandiva : Gandiva Resolver Condition Schema)
    (P : RowFilter Condition Schema → BuildFilterCall Resolver Schema → Prop)
    (calls : List (BuildFilterCall Resolver Schema)) : Prop :=
  ∀ before call after, calls = before ++ call :: after → P (rowFilterAfter gandiva before) call

/-- The filter that is set was compiled in some call, whose texts are stored. -/
structure FilterInvariant (gandiva : Gandiva Resolver Condition Schema) (calls : List (BuildFilterCall Resolver Schema))
    (rowFilter : RowFilter Condition Schema) : Prop where
  stored : ∀ condition schema, rowFilter.filter = some (condition, schema) →
    gandiva.conditionToString condition = rowFilter.lastConditionAsStr ∧
      gandiva.schemaToString schema = rowFilter.lastSchemaAsStr ∧
      ∃ call ∈ calls, gandiva.visit call.resolver = .ok condition ∧ call.batchSchema = schema

lemma FilterInvariant.mono {rowFilter : RowFilter Condition Schema} {calls' : List (BuildFilterCall Resolver Schema)}
    (h : FilterInvariant gandiva calls rowFilter) (hsub : ∀ call ∈ calls, call ∈ calls') :
    FilterInvariant gandiva calls' rowFilter := by
  constructor
  intro condition schema hfilter
  obtain ⟨h1, h2, call, hcall, hrest⟩ := h.stored condition schema hfilter
  exact ⟨h1, h2, call, hsub call hcall, hrest⟩

lemma compileFilter_invariant {call : BuildFilterCall Resolver Schema} {condition : Condition} (hcall : call ∈ calls)
    (hvisit : gandiva.visit call.resolver = .ok condition) :
    FilterInvariant gandiva calls (compileFilter gandiva condition call).1 := by
  constructor
  intro condition' schema hfilter
  unfold compileFilter at hfilter ⊢
  cases hmade : call.made with
  | error e =>
    simp only [hmade] at hfilter
    cases hfilter
  | ok u =>
    simp only [hmade] at hfilter ⊢
    cases hfilter
    exact ⟨rfl, rfl, call, hcall, hvisit, rfl⟩

lemma buildFilter_invariant {rowFilter : RowFilter Condition Schema} {call : BuildFilterCall Resolver Schema}
    (h : FilterInvariant gandiva calls rowFilter) (hcall : call ∈ calls) :
    FilterInvariant gandiva calls (buildFilter gandiva rowFilter call).1 := by
  rcases buildFilter_cases gandiva rowFilter call with ⟨e, heq, -⟩ | ⟨condition, -, hvisit, ⟨-, heq⟩ | ⟨-, heq⟩⟩
  · rw [heq]
    exact h
  · rw [heq]
    exact h
  · rw [heq]
    exact compileFilter_invariant hcall hvisit

lemma rowFilterAfter_concat (before : List (BuildFilterCall Resolver Schema)) (call : BuildFilterCall Resolver Schema) :
    rowFilterAfter gandiva (before ++ [call]) = (buildFilter gandiva (rowFilterAfter gandiva before) call).1 := by
  unfold rowFilterAfter
  rw [List.foldl_append]
  rfl

lemma rowFilterAfter_invariant (calls : List (BuildFilterCall Resolver Schema)) :
    FilterInvariant gandiva calls (rowFilterAfter gandiva calls) := by
  induction calls using List.reverseRecOn with
  | nil => exact ⟨fun condition schema h => by cases h⟩
  | append_singleton before call ih =>
    rw [rowFilterAfter_concat]
    apply buildFilter_invariant
    · exact ih.mono (fun c hc => List.mem_append_left _ hc)
    · exact List.mem_append_right _ List.mem_cons_self

/-- At one call: the filter it leaves is its own exactly when it does not find its texts without a
filter. -/
lemma leavesItsFilter_iff {rowFilter : RowFilter Condition Schema} {call : BuildFilterCall Resolver Schema}
    (htexts : TextsIdentify gandiva calls) (hcall : call ∈ calls) (hinv : FilterInvariant gandiva calls rowFilter) :
    LeavesItsFilter gandiva rowFilter call ↔ FindsFilter gandiva rowFilter call := by
  rcases buildFilter_cases gandiva rowFilter call with
    ⟨e, heq, hfails⟩ | ⟨condition, hregistered, hvisit, ⟨hlast, heq⟩ | ⟨hlast, heq⟩⟩
  · -- The call fails before its texts are compared.
    constructor
    · intro _ _ hregistered condition hvisit
      rcases hfails with ⟨e', h⟩ | ⟨e', h⟩
      · rw [h] at hregistered
        cases hregistered
      · rw [h] at hvisit
        cases hvisit
    · intro _ hok
      rw [heq] at hok
      cases hok
  · -- The texts are those of the last call that was compiled.
    constructor
    · intro hleaves hnone
      obtain ⟨condition', -, hfilter⟩ := hleaves (by rw [heq])
      rw [heq, hnone] at hfilter
      cases hfilter
    · intro hfinds _
      cases hfilter : rowFilter.filter with
      | none =>
        have := hfinds hfilter hregistered condition hvisit
        rw [hlast] at this
        cases this
      | some compiled =>
        obtain ⟨condition', schema'⟩ := compiled
        obtain ⟨htext, hschema, call', hcall', hvisit', rfl⟩ := hinv.stored condition' schema' hfilter
        simp only [isLast, Bool.and_eq_true, decide_eq_true_eq] at hlast
        obtain ⟨rfl, hsame⟩ := htexts call hcall call' hcall' condition condition' hvisit hvisit'
          (hlast.1.trans htext.symm) (hlast.2.trans hschema.symm)
        rw [heq, hsame]
        exact ⟨condition, hvisit, hfilter⟩
  · -- The call compiles its condition.
    constructor
    · intro _ _ _ condition' hvisit'
      rw [hvisit] at hvisit'
      cases hvisit'
      exact hlast
    · intro _ hok
      refine ⟨condition, hvisit, ?_⟩
      rw [heq] at hok ⊢
      unfold compileFilter at hok ⊢
      cases hmade : call.made with
      | error e =>
        simp only [hmade] at hok
        cases hok
      | ok u => rfl

/-- In a run where equal texts are those of one condition and schema, every successful call leaves its
own filter exactly when no call finds its texts without a filter, as after a failed compilation. -/
theorem leavesItsFilter_run (gandiva : Gandiva Resolver Condition Schema)
    (calls : List (BuildFilterCall Resolver Schema)) (htexts : TextsIdentify gandiva calls) :
    AtEveryCall gandiva (LeavesItsFilter gandiva) calls ↔ AtEveryCall gandiva (FindsFilter gandiva) calls := by
  have hcall : ∀ before call after, calls = before ++ call :: after →
      (LeavesItsFilter gandiva (rowFilterAfter gandiva before) call ↔
        FindsFilter gandiva (rowFilterAfter gandiva before) call) := by
    intro before call after heq
    apply leavesItsFilter_iff htexts
    · rw [heq]
      exact List.mem_append_right _ List.mem_cons_self
    · apply (rowFilterAfter_invariant before).mono
      intro c hc
      rw [heq]
      exact List.mem_append_left _ hc
  constructor
  · intro h before call after heq
    exact (hcall before call after heq).mp (h before call after heq)
  · intro h before call after heq
    exact (hcall before call after heq).mpr (h before call after heq)

end

/-! ### A filter on one boolean column -/

/-- The root is the column `b`, whose text is that of a Gandiva field. -/
def columnFilter : Gandiva (ArrowFieldResolver × SignedInt 64) GandivaNode Bytes :=
  gandivaOf (fun _ => none) (.variable .bool (bytes "b")) (fun _ => bytes "(bool) b") id

def columnCall (made : Except String Unit) : BuildFilterCall (ArrowFieldResolver × SignedInt 64) Bytes where
  resolver := (fun _ => some (bytes "b", .boolean), toInt64 0)
  batchSchema := bytes "b: bool"
  made := made

lemma visit_columnCall (made : Except String Unit) :
    columnFilter.visit (columnCall made).resolver = .ok (.field (bytes "b") .boolean) := rfl

lemma textsIdentify_columnCalls {calls : List (BuildFilterCall (ArrowFieldResolver × SignedInt 64) Bytes)}
    (h : ∀ call ∈ calls, ∃ made, call = columnCall made) : TextsIdentify columnFilter calls := by
  intro call hcall call' hcall' condition condition' hvisit hvisit' _ _
  obtain ⟨made, rfl⟩ := h call hcall
  obtain ⟨made', rfl⟩ := h call' hcall'
  rw [visit_columnCall] at hvisit hvisit'
  cases hvisit
  cases hvisit'
  exact ⟨rfl, rfl⟩

/-- A compiled filter is found again by the same call. -/
theorem leavesItsFilter_repeated :
    AtEveryCall columnFilter (LeavesItsFilter columnFilter) [columnCall (.ok ()), columnCall (.ok ())] := by
  have htexts : TextsIdentify columnFilter [columnCall (.ok ()), columnCall (.ok ())] := by
    apply textsIdentify_columnCalls
    intro call hcall
    simp only [List.mem_cons, List.not_mem_nil, or_false, or_self] at hcall
    exact ⟨.ok (), hcall⟩
  apply (leavesItsFilter_run columnFilter _ htexts).mpr
  intro before call after heq hnone _ condition hvisit
  cases before with
  | nil =>
    simp only [List.nil_append, List.cons.injEq] at heq
    rw [← heq.1]
    rfl
  | cons first before =>
    cases before with
    | nil =>
      simp only [List.cons_append, List.nil_append, List.cons.injEq] at heq
      rw [← heq.1] at hnone
      cases hnone
    | cons second before => simp at heq

/-- A compilation fails; the same call again succeeds without a filter, and no batch can be filtered. -/
theorem not_leavesItsFilter_afterFailure :
    (¬∀ calls, AtEveryCall columnFilter (LeavesItsFilter columnFilter) calls) ∧
      (buildFilter columnFilter (rowFilterAfter columnFilter [columnCall (.error "out of memory")])
        (columnCall (.ok ()))).2 = .ok () ∧
      applyFilter (fun _ (batch : Unit) => .ok batch)
        (rowFilterAfter columnFilter [columnCall (.error "out of memory"), columnCall (.ok ())]) () =
        .error "RowFilter (ApplyFilter): filter is not set" := by
  refine ⟨?_, rfl, rfl⟩
  intro h
  obtain ⟨condition, -, hfilter⟩ := h [columnCall (.error "out of memory"), columnCall (.ok ())]
    [columnCall (.error "out of memory")] (columnCall (.ok ())) [] rfl rfl
  cases hfilter

end IcebergCxx.Proofs
