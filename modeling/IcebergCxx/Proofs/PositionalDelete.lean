import IcebergCxx.Proofs.DeleteReaders

/-!
# Correctness of the positional delete stream

A reader's position bounds all its unread records from below, so the queue answers records
in ascending order and a round drops only records that no later query asks for.
-/

namespace IcebergCxx.Proofs

open Lib PositionalDeleteStream

variable {Q : MinQueue Reader.getPosition}

/-! ### One query -/

/-- The position `(url, pos)`. -/
def spotOf (url : Bytes) (pos : Int) : Position := position (url : WithBot Bytes) (pos : WithBot Int)

section
variable (F : Int → DeleteCell → Prop) (query : Query) (dataLayer : Int)

/-- Some delete file of a high enough layer holds the record. -/
def Deletes (pos : Int) : Prop := ∃ layer, dataLayer ≤ layer ∧ F layer (some query.url, some pos)

/-- The invariant of the loop of `GetDeleted` over delete files with records `F`. -/
structure LoopInv (s : LoopState) : Prop where
  ok : ∀ r ∈ s.2, ReaderOk r
  kept : ∀ layer c, spotOf query.url query.finish ≤ cellPosition c → (Pending s.2 layer c ↔ F layer c)
  found : ∀ p, query.begin ≤ p → p < query.finish → (Deletes F query dataLayer p ↔
    p ∈ s.1 ∨ ∃ layer, dataLayer ≤ layer ∧ Pending s.2 layer (some query.url, some p))
  range : ∀ p ∈ s.1, query.begin ≤ p ∧ p < query.finish
  increasing : s.1.Pairwise (· < ·)
  ahead : ∀ p ∈ s.1, ∀ layer c, Pending s.2 layer c → spotOf query.url p ≤ cellPosition c

/-- What the loop leaves: the answer, and every record from the end of the query on. -/
structure LoopEnd (s : LoopState) : Prop where
  ok : ∀ r ∈ s.2, ReaderOk r
  kept : ∀ layer c, spotOf query.url query.finish ≤ cellPosition c → (Pending s.2 layer c ↔ F layer c)
  increasing : s.1.Pairwise (· < ·)
  exact : ∀ p, p ∈ s.1 ↔ query.begin ≤ p ∧ p < query.finish ∧ Deletes F query dataLayer p

end

section
variable {F : Int → DeleteCell → Prop} {query : Query} {dataLayer : Int}

lemma spotOf_le_iff {url url' : Bytes} {p p' : Int} : spotOf url p ≤ spotOf url' p' ↔ url < url' ∨ url = url' ∧ p ≤ p' :=
  position_le_iff url url' p p'

lemma spotOf_lt_iff {url url' : Bytes} {p p' : Int} : spotOf url p < spotOf url' p' ↔ url < url' ∨ url = url' ∧ p < p' := by
  rw [spotOf, spotOf, position, position, Prod.Lex.toLex_lt_toLex]
  simp

lemma not_spotOf_le_self {url : Bytes} {p q : Int} (h : p < q) : ¬spotOf url q ≤ spotOf url p := by
  rw [spotOf_le_iff]
  rintro (h' | ⟨-, h'⟩)
  · exact lt_irrefl _ h'
  · omega

/-- The loop ends where no record before the end of the query is pending. -/
lemma LoopInv.finish {s : LoopState} (h : LoopInv F query dataLayer s)
    (hp : ∀ layer c, Pending s.2 layer c → spotOf query.url query.finish ≤ cellPosition c) :
    LoopEnd F query dataLayer s := by
  refine ⟨h.ok, h.kept, h.increasing, ?_⟩
  intro p
  constructor
  · intro hmem
    obtain ⟨h1, h2⟩ := h.range p hmem
    exact ⟨h1, h2, (h.found p h1 h2).mpr (.inl hmem)⟩
  · rintro ⟨h1, h2, hdel⟩
    rcases (h.found p h1 h2).mp hdel with hmem | ⟨layer, -, hpend⟩
    · exact hmem
    · exact absurd (hp layer _ hpend) (not_spotOf_le_self h2)

/-- The loop breaks at a reader whose position is behind the query. -/
lemma LoopInv.break_at {rows : List Int} {queue queue' : List Reader} {r : Reader}
    (h : LoopInv F query dataLayer (rows, queue)) (hpop : Q.pop queue = some (r, queue'))
    (hr : spotOf query.url query.finish ≤ r.getPosition) :
    LoopEnd F query dataLayer (rows, Q.push queue' r) := by
  have hpend : ∀ layer c, Pending (Q.push queue' r) layer c ↔ Pending queue layer c := by
    intro layer c
    rw [pending_push, pending_of_pop hpop]
  have hmem : ∀ x, x ∈ Q.push queue' r ↔ x ∈ queue := by
    intro x
    rw [Q.mem_push, Q.mem_of_pop hpop]
  have hinv : LoopInv F query dataLayer (rows, Q.push queue' r) := by
    refine ⟨?_, ?_, ?_, h.range, h.increasing, ?_⟩
    · intro x hx
      exact h.ok x ((hmem x).mp hx)
    · intro layer c hc
      rw [hpend]
      exact h.kept layer c hc
    · intro p h1 h2
      simp only [hpend]
      exact h.found p h1 h2
    · intro p hp layer c hc
      exact h.ahead p hp layer c ((hpend layer c).mp hc)
  apply hinv.finish
  rintro layer c ⟨x, hx, -, hc⟩
  have hle : r.getPosition ≤ x.getPosition := by
    rcases Q.mem_push.mp hx with rfl | hx
    · exact le_refl _
    · exact Q.pop_le hpop x hx
  exact (hr.trans hle).trans (getPosition_le (hinv.ok x hx) hc)

/-- A round in which the popped reader gives away the records `gone`. -/
lemma LoopInv.advance {rows rows' : List Int} {queue queue' : List Reader} {r : Reader}
    (h : LoopInv F query dataLayer (rows, queue)) (hpop : Q.pop queue = some (r, queue'))
    {gone cells : List DeleteCell} (hcells : unread r = gone ++ cells) {stepped : Bool × Reader}
    (hstep : StepsTo r.layer r.work cells stepped)
    (hgone : ∀ c ∈ gone, cellPosition c < spotOf query.url query.finish)
    (hrows : ∀ p, query.begin ≤ p → p < query.finish →
      (p ∈ rows' ↔ p ∈ rows ∨ (dataLayer ≤ r.layer ∧ (some query.url, some p) ∈ gone)))
    (hrange : ∀ p ∈ rows', query.begin ≤ p ∧ p < query.finish) (hincr : rows'.Pairwise (· < ·))
    (hahead : ∀ p ∈ rows', ∀ layer c, Pending queue layer c → spotOf query.url p ≤ cellPosition c) :
    LoopInv F query dataLayer (rows', enqueueIf Q queue' stepped) ∧
      loopWork (rows', enqueueIf Q queue' stepped) < loopWork (rows, queue) := by
  have hwork : 0 < r.work := by
    unfold Reader.work
    omega
  have hok' : ∀ x ∈ queue', ReaderOk x := fun x hx => h.ok x ((Q.mem_of_pop hpop).mpr (.inr hx))
  obtain ⟨h1, h2, h3⟩ := enqueueIf_spec (Q := Q) hstep hwork hok' rows'
  have hpend : ∀ layer c, Pending queue layer c ↔
      (r.layer = layer ∧ c ∈ gone) ∨ Pending (enqueueIf Q queue' stepped) layer c := by
    intro layer c
    rw [h2, pending_of_pop hpop, hcells, List.mem_append]
    tauto
  refine ⟨⟨h1, ?_, ?_, hrange, hincr, ?_⟩, ?_⟩
  · intro layer c hc
    rw [← h.kept layer c hc, hpend]
    constructor
    · exact fun hq => .inr hq
    · rintro (⟨-, hg⟩ | hq)
      · exact absurd hc (not_le.mpr (hgone c hg))
      · exact hq
  · intro p hb he
    rw [h.found p hb he, hrows p hb he]
    simp only [hpend]
    constructor
    · rintro (hp | ⟨layer, hl, ⟨rfl, hg⟩ | hq⟩)
      · exact .inl (.inl hp)
      · exact .inl (.inr ⟨hl, hg⟩)
      · exact .inr ⟨layer, hl, hq⟩
    · rintro ((hp | ⟨hl, hg⟩) | ⟨layer, hl, hq⟩)
      · exact .inl hp
      · exact .inr ⟨r.layer, hl, .inl ⟨rfl, hg⟩⟩
      · exact .inr ⟨layer, hl, .inr hq⟩
  · intro p hp layer c hc
    exact hahead p hp layer c ((hpend layer c).mpr (.inr hc))
  · rw [@work_of_pop Q rows rows' queue queue' r hpop]
    exact h3

/-- A round that gives away only records before the query. -/
lemma LoopInv.skip {rows : List Int} {queue queue' : List Reader} {r : Reader}
    (h : LoopInv F query dataLayer (rows, queue)) (hpop : Q.pop queue = some (r, queue'))
    (hquery : query.begin ≤ query.finish) (gone : List DeleteCell) {cells : List DeleteCell}
    (hcells : unread r = gone ++ cells)
    {stepped : Bool × Reader} (hstep : StepsTo r.layer r.work cells stepped)
    (hgone : ∀ c ∈ gone, cellPosition c < spotOf query.url query.begin) :
    LoopInv F query dataLayer (rows, enqueueIf Q queue' stepped) ∧
      loopWork (rows, enqueueIf Q queue' stepped) < loopWork (rows, queue) := by
  have hle : spotOf query.url query.begin ≤ spotOf query.url query.finish := spotOf_le_iff.mpr (.inr ⟨rfl, hquery⟩)
  refine h.advance hpop hcells hstep (fun c hc => (hgone c hc).trans_le hle) ?_ h.range h.increasing h.ahead
  intro p hb he
  constructor
  · exact fun hp => .inl hp
  · rintro (hp | ⟨-, hg⟩)
    · exact hp
    · exact absurd (hgone _ hg) (not_lt.mpr (spotOf_le_iff.mpr (.inr ⟨rfl, hb⟩)))

/-- The answer after a record of the query: the last answered position is not repeated. -/
lemma LoopInv.take {rows : List Int} {queue queue' : List Reader} {r : Reader}
    (h : LoopInv F query dataLayer (rows, queue)) (hpop : Q.pop queue = some (r, queue'))
    {pos : Int} (hb : query.begin ≤ pos) (he : pos < query.finish) {cells : List DeleteCell}
    (hcells : unread r = (some query.url, some pos) :: cells) (hpos : r.getPosition = spotOf query.url pos)
    {stepped : Bool × Reader} (hstep : StepsTo r.layer r.work cells stepped) :
    LoopInv F query dataLayer
        (if rows.getLast? ≠ some pos ∧ dataLayer ≤ r.layer then rows ++ [pos] else rows, enqueueIf Q queue' stepped) ∧
      loopWork (if rows.getLast? ≠ some pos ∧ dataLayer ≤ r.layer then rows ++ [pos] else rows,
        enqueueIf Q queue' stepped) < loopWork (rows, queue) := by
  have hown : (some query.url, some pos) ∈ unread r := by
    rw [hcells]
    exact List.mem_cons_self
  have hbefore : ∀ p ∈ rows, p ≤ pos := by
    intro p hp
    have hle := h.ahead p hp r.layer _ ((pending_of_pop hpop).mpr (.inl ⟨rfl, hown⟩))
    rcases spotOf_le_iff.mp hle with hlt | ⟨-, hle⟩
    · exact absurd hlt (lt_irrefl _)
    · exact hle
  have hlast : rows.getLast? = some pos ↔ pos ∈ rows := by
    constructor
    · exact List.mem_of_getLast?
    · intro hp
      obtain ⟨front, last, rfl⟩ := List.eq_nil_or_concat' rows |>.resolve_left (List.ne_nil_of_mem hp)
      rw [List.getLast?_append, List.getLast?_singleton, Option.some_or]
      rcases List.mem_append.mp hp with hf | hl
      · have h1 := (List.pairwise_append.mp h.increasing).2.2 pos hf last (List.mem_singleton_self _)
        have h2 := hbefore last (List.mem_append_right _ (List.mem_singleton_self _))
        omega
      · rw [List.mem_singleton.mp hl]
  have hall : ∀ layer c, Pending queue layer c → spotOf query.url pos ≤ cellPosition c := by
    rintro layer c ⟨x, hx, -, hc⟩
    have hle : r.getPosition ≤ x.getPosition := by
      rcases (Q.mem_of_pop hpop).mp hx with rfl | hx
      · exact le_refl _
      · exact Q.pop_le hpop x hx
    exact hpos ▸ hle.trans (getPosition_le (h.ok x hx) hc)
  have hgone : ∀ c ∈ [((some query.url, some pos) : DeleteCell)], cellPosition c < spotOf query.url query.finish := by
    intro c hc
    rw [List.mem_singleton.mp hc]
    exact spotOf_lt_iff.mpr (.inr ⟨rfl, he⟩)
  have hmem : ∀ p, (some query.url, some p) ∈ [((some query.url, some pos) : DeleteCell)] ↔ p = pos := by
    intro p
    simp
  split_ifs with hc
  · refine h.advance hpop hcells hstep hgone ?_ ?_ ?_ ?_
    · intro p _ _
      rw [hmem, List.mem_append, List.mem_singleton, and_iff_right hc.2]
    · intro p hp
      rcases List.mem_append.mp hp with hp | hp
      · exact h.range p hp
      · rw [List.mem_singleton.mp hp]
        exact ⟨hb, he⟩
    · rw [List.pairwise_append]
      refine ⟨h.increasing, List.pairwise_singleton _ _, ?_⟩
      intro p hp q hq
      rw [List.mem_singleton.mp hq]
      have hne : p ≠ pos := fun heq => hc.1 (hlast.mpr (heq ▸ hp))
      have := hbefore p hp
      omega
    · intro p hp layer c hpend
      rcases List.mem_append.mp hp with hp | hp
      · exact h.ahead p hp layer c hpend
      · rw [List.mem_singleton.mp hp]
        exact hall layer c hpend
  · refine h.advance hpop hcells hstep hgone ?_ h.range h.increasing h.ahead
    intro p _ _
    rw [hmem]
    constructor
    · exact fun hp => .inl hp
    · rintro (hp | ⟨hl, rfl⟩)
      · exact hp
      · by_contra hn
        exact hc ⟨fun heq => hn (hlast.mp heq), hl⟩

/-- A row group before the query holds only records before it. -/
lemma rowGroupState_less {group : DeleteRowGroup} (h : rowGroupState group query = .less)
    (hv : ValidStatistics group) (hr : ∀ c ∈ group.rows, IsRecord c) :
    ∀ c ∈ group.rows, cellPosition c < spotOf query.url query.begin := by
  intro c hc
  obtain ⟨path, pos, rfl, -⟩ := hr c hc
  apply spotOf_lt_iff.mpr
  unfold rowGroupState at h
  split at h
  · rename_i minValue maxValue posMinMax hpath hpos
    obtain ⟨h1, h2⟩ := hv.1 _ _ hpath _ hc path rfl
    split_ifs at h with hmax hmin hne
    · exact .inl (h2.trans_lt hmax)
    · split at h
      · cases h
      · rename_i minPos maxPos
        obtain ⟨-, h4⟩ := hv.2 _ _ hpos _ hc pos rfl
        split_ifs at h with hlt
        have heq : path = query.url := by
          rw [not_ne_iff] at hne
          rw [not_lt] at hmax hmin
          exact le_antisymm (h2.trans (hne ▸ hmin)) (hmax.trans (hne ▸ h1))
        exact .inr ⟨heq, h4.trans_lt hlt⟩
  · cases h

/-- A row group behind the query has its position there. -/
lemma rowGroupState_greater {group : DeleteRowGroup} (h : rowGroupState group query = .greater) :
    spotOf query.url query.finish ≤ DeleteRowGroup.position group := by
  unfold rowGroupState at h
  split at h
  · rename_i minValue maxValue posMinMax hpath hpos
    have hbehind : query.url < minValue → spotOf query.url query.finish ≤ DeleteRowGroup.position group := by
      intro hlt
      unfold DeleteRowGroup.position
      rw [hpath, hpos]
      cases posMinMax <;> exact Prod.Lex.toLex_le_toLex.mpr (.inl (WithBot.coe_lt_coe.mpr hlt))
    split_ifs at h with hmax hmin hne
    · exact hbehind hmin
    · split at h
      · cases h
      · rename_i minPos maxPos
        split_ifs at h with hlt hge
        rw [not_ne_iff] at hne
        rw [not_lt] at hmax hmin
        have heq : query.url = minValue := le_antisymm (hne ▸ hmax) hmin
        unfold DeleteRowGroup.position
        rw [hpath, hpos]
        exact spotOf_le_iff.mpr (.inr ⟨heq, hge⟩)
  · cases h

/-- One round of `GetDeleted` keeps the invariant and comes closer to the end, or ends. -/
lemma getDeletedStep_spec (hquery : query.begin ≤ query.finish) (s : LoopState) (h : LoopInv F query dataLayer s) :
    (∃ s', getDeletedStep Q query dataLayer s = .ok (.inl s') ∧ LoopInv F query dataLayer s' ∧
      loopWork s' < loopWork s) ∨
    ∃ t, getDeletedStep Q query dataLayer s = .ok (.inr t) ∧ LoopEnd F query dataLayer t := by
  obtain ⟨rows, queue⟩ := s
  unfold getDeletedStep
  cases hpop : Q.pop queue with
  | none =>
    refine .inr ⟨_, rfl, h.finish ?_⟩
    rintro layer c ⟨r, hr, -⟩
    rw [Q.pop_none hpop] at hr
    exact absurd hr List.not_mem_nil
  | some popped =>
    obtain ⟨r, queue'⟩ := popped
    have hr : ReaderOk r := h.ok r ((Q.mem_of_pop hpop).mpr (.inl rfl))
    cases hr with
    | @waiting layer group groups ho hv hb =>
      have hstarted : (waiting layer group groups).isStarted = false := rfl
      simp only [hstarted, if_true]
      cases hstate : rowGroupState (waiting layer group groups).currentRowGroup query with
      | less =>
        refine .inl ⟨_, rfl, h.skip hpop hquery group.rows (unread_waiting _ _ _) (nextRowGroup_waiting ho hv hb) ?_⟩
        exact rowGroupState_less hstate (hv group List.mem_cons_self)
          (fun c hc => ho.records c (List.mem_append_left _ hc))
      | greater => exact .inr ⟨_, rfl, h.break_at hpop (rowGroupState_greater hstate)⟩
      | inter =>
        obtain ⟨stepped, hnext, hstep⟩ := @next_waiting layer group groups ho hv hb
        simp only [advance, hnext, ok_bind]
        refine .inl ⟨_, rfl, h.skip hpop hquery [] (unread_waiting _ _ _) hstep ?_⟩
        intro c hc
        exact absurd hc List.not_mem_nil
    | @reading layer group groups path pos cells ho hv hb =>
      have hstarted : (reading layer group groups path pos cells).isStarted = true := rfl
      obtain ⟨stepped, hnext, hstep⟩ := @next_reading layer group groups path pos cells ho hv hb
      have hpath : (reading layer group groups path pos cells).currentFilePath.getD [] = path := rfl
      have hpos : (reading layer group groups path pos cells).currentPos.getD 0 = pos := rfl
      have hposition : (reading layer group groups path pos cells).getPosition = spotOf path pos := rfl
      simp only [hstarted, Bool.true_eq_false, if_false, hpath, hpos]
      by_cases hlt : query.url < path
      · rw [if_pos hlt]
        exact .inr ⟨_, rfl, h.break_at hpop (hposition ▸ spotOf_le_iff.mpr (.inl hlt))⟩
      · rw [if_neg hlt]
        by_cases hin : query.url = path ∧ query.begin ≤ pos
        · rw [if_pos hin]
          obtain ⟨rfl, hbegin⟩ := hin
          by_cases hfin : pos < query.finish
          · rw [if_pos hfin]
            simp only [advance, hnext, ok_bind]
            exact .inl ⟨_, rfl, h.take hpop hbegin hfin (unread_reading _ _ _ _ _ _) hposition hstep⟩
          · rw [if_neg hfin]
            exact .inr ⟨_, rfl, h.break_at hpop (hposition ▸ spotOf_le_iff.mpr (.inr ⟨rfl, not_lt.mp hfin⟩))⟩
        · rw [if_neg hin]
          simp only [advance, hnext, ok_bind]
          refine .inl ⟨_, rfl, h.skip hpop hquery [(some path, some pos)] (unread_reading _ _ _ _ _ _)
            hstep ?_⟩
          intro c hc
          rw [List.mem_singleton.mp hc]
          apply spotOf_lt_iff.mpr
          rcases (not_lt.mp hlt).eq_or_lt with heq | hless
          · exact .inr ⟨heq, lt_of_not_ge (fun hge => hin ⟨heq.symm, hge⟩)⟩
          · exact .inl hless

end

/-! ### A run of queries -/

/-- The position from which on the stream still needs its records. -/
def threshold : Option Query → Position
  | none => position ⊥ ⊥
  | some last => spotOf last.url last.finish

/-- The stream holds every record of the delete files that a later query can ask for. -/
structure StreamInv (F : Int → DeleteCell → Prop) (stream : PositionalDeleteStream) : Prop where
  ok : ∀ r ∈ stream.queue, ReaderOk r
  kept : ∀ layer c, threshold stream.lastQuery ≤ cellPosition c → (Pending stream.queue layer c ↔ F layer c)

/-- The answer to a query: the deleted positions of the range, once each, in ascending order. -/
def IsAnswer (F : Int → DeleteCell → Prop) (query : Query × Int) (rows : List Int) : Prop :=
  rows.Pairwise (· < ·) ∧
    ∀ p, p ∈ rows ↔ query.1.begin ≤ p ∧ p < query.1.finish ∧ Deletes F query.1 query.2 p

section
variable {F : Int → DeleteCell → Prop}

lemma threshold_le {last : Option Query} {query : Query} (h : inOrder last query = true) :
    threshold last ≤ spotOf query.url query.begin := by
  cases last with
  | none => exact bot_le_position (some query.url, some query.begin)
  | some last =>
    apply spotOf_le_iff.mpr
    simpa [inOrder] using h

/-- The loop starts with every record the query can ask for. -/
lemma StreamInv.loopInv {stream : PositionalDeleteStream} (h : StreamInv F stream) {query : Query} (dataLayer : Int)
    (hquery : query.begin ≤ query.finish) (horder : inOrder stream.lastQuery query = true) :
    LoopInv F query dataLayer ([], stream.queue) := by
  have hbegin := threshold_le horder
  have hend : threshold stream.lastQuery ≤ spotOf query.url query.finish :=
    hbegin.trans (spotOf_le_iff.mpr (.inr ⟨rfl, hquery⟩))
  refine ⟨h.ok, fun layer c hc => h.kept layer c (hend.trans hc), ?_, ?_, List.Pairwise.nil, ?_⟩
  · intro p hp _
    have hle : threshold stream.lastQuery ≤ cellPosition (some query.url, some p) :=
      hbegin.trans (spotOf_le_iff.mpr (.inr ⟨rfl, hp⟩))
    simp [Deletes, h.kept _ _ hle]
  · intro p hp
    exact absurd hp List.not_mem_nil
  · intro p hp
    exact absurd hp List.not_mem_nil

lemma getDeleted_spec {stream : PositionalDeleteStream} (h : StreamInv F stream) {query : Query} (dataLayer : Int)
    (hquery : query.begin ≤ query.finish) (horder : inOrder stream.lastQuery query = true) :
    ∃ rows stream', getDeleted Q stream query dataLayer = .ok (rows, stream') ∧ StreamInv F stream' ∧
      stream'.lastQuery = some query ∧ IsAnswer F (query, dataLayer) rows := by
  obtain ⟨t, hrun, hend⟩ := boundedWhile_total (getDeletedStep_spec (Q := Q) hquery)
    (h.loopInv dataLayer hquery horder) (Nat.lt_succ_self _)
  refine ⟨t.1, ⟨t.2, some query⟩, ?_, ⟨hend.ok, hend.kept⟩, rfl, hend.increasing, hend.exact⟩
  simp only [getDeleted, horder, ensure_true, ok_bind, hrun]

/-- The stream's own check on a sequence of queries. -/
def passesOrderingCheck (last : Option Query) : List (Query × Int) → Bool
  | [] => true
  | (query, _) :: queries => inOrder last query && passesOrderingCheck (some query) queries

lemma getDeletedAll_spec {stream : PositionalDeleteStream} (h : StreamInv F stream) {queries : List (Query × Int)}
    (hquery : ∀ q ∈ queries, q.1.begin ≤ q.1.finish) (horder : passesOrderingCheck stream.lastQuery queries = true) :
    ∃ answers stream', getDeletedAll Q stream queries = .ok (answers, stream') ∧
      List.Forall₂ (IsAnswer F) queries answers := by
  induction queries generalizing stream with
  | nil => exact ⟨[], stream, rfl, .nil⟩
  | cons q queries ih =>
    obtain ⟨query, dataLayer⟩ := q
    simp only [passesOrderingCheck, Bool.and_eq_true] at horder
    obtain ⟨rows, stream₁, h1, hinv, hlast, hans⟩ :=
      getDeleted_spec (Q := Q) h dataLayer (hquery _ List.mem_cons_self) horder.1
    obtain ⟨answers, stream₂, h2, hall⟩ := ih hinv (fun q hq => hquery q (List.mem_cons_of_mem _ hq))
      (by rw [hlast]; exact horder.2)
    refine ⟨rows :: answers, stream₂, ?_, .cons hans hall⟩
    simp only [getDeletedAll, h1, ok_bind, h2]

end

/-- Some delete file of the layer holds the record. -/
def FilesHold (files : List (Int × DeleteFile)) (layer : Int) (c : DeleteCell) : Prop :=
  ∃ f ∈ files, f.1 = layer ∧ c ∈ cellsOf f.2.rowGroups

lemma make_ok {file : DeleteFile} (h : WellFormedDeleteFile file) (layer : Int) :
    Reader.make file layer = .ok { layer, rowGroups := file.rowGroups } := by
  rcases h.columns with hc | ⟨t, hc⟩
  · simp [Reader.make, hc, ensure]
  · simp [Reader.make, hc, ensure]

lemma openFiles_spec {cb : Bytes → DeleteFile} {files : List (Int × Bytes)}
    (hwf : ∀ f ∈ files, WellFormedDeleteFile (cb f.2)) (hbounds : ∀ f ∈ files, EmptyGroupsInBounds (cb f.2))
    {queue : List Reader} (hq : ∀ r ∈ queue, ReaderOk r) :
    ∃ queue', files.foldlM (openFile Q cb) queue = .ok queue' ∧ (∀ r ∈ queue', ReaderOk r) ∧
      ∀ layer c, Pending queue' layer c ↔
        Pending queue layer c ∨ FilesHold (files.map (fun f => (f.1, cb f.2))) layer c := by
  induction files generalizing queue with
  | nil =>
    refine ⟨queue, rfl, hq, ?_⟩
    intro layer c
    simp [FilesHold]
  | cons f files ih =>
    obtain ⟨layer, url⟩ := f
    have hfile := hwf _ List.mem_cons_self
    have hb := bounded_of_wellFormed hfile.records hfile.sorted hfile.statistics (hbounds _ List.mem_cons_self)
    have hstep := @nextRowGroup_stepsTo { layer, rowGroups := (cb url).rowGroups } layer _ rfl
      ⟨hfile.records, hfile.sorted⟩ hfile.statistics hb (Nat.lt_succ_self _)
    obtain ⟨h1, h2, -⟩ := enqueueIf_spec (Q := Q) hstep (Nat.succ_pos _) hq []
    obtain ⟨queue', hrun, hok, hpend⟩ := ih (fun g hg => hwf g (List.mem_cons_of_mem _ hg))
      (fun g hg => hbounds g (List.mem_cons_of_mem _ hg)) h1
    refine ⟨queue', ?_, hok, ?_⟩
    · rw [List.foldlM_cons, openFile, make_ok hfile, ok_bind, ok_bind]
      exact hrun
    · intro l c
      rw [hpend, h2]
      simp only [FilesHold, List.map_cons, List.mem_cons, or_and_right, exists_or, exists_eq_left]
      tauto

/-- Every run of ordered queries over well-formed delete files, none with an empty row group whose
statistics start behind a later record, answers each query exactly. -/
theorem getDeleted_exact (Q : MinQueue Reader.getPosition) (urls : OrdMap Int (List Bytes)) (cb : Bytes → DeleteFile)
    (hwf : ∀ f ∈ filesOf urls, WellFormedDeleteFile (cb f.2))
    (hbounds : ∀ f ∈ filesOf urls, EmptyGroupsInBounds (cb f.2))
    (queries : List (Query × Int)) (hquery : ∀ q ∈ queries, q.1.begin ≤ q.1.finish)
    (horder : passesOrderingCheck none queries = true) :
    ∃ stream, make Q urls cb = .ok stream ∧
      ∃ answers stream', getDeletedAll Q stream queries = .ok (answers, stream') ∧
        List.Forall₂ (IsAnswer (FilesHold ((filesOf urls).map (fun f => (f.1, cb f.2))))) queries answers := by
  obtain ⟨queue, hopen, hok, hpend⟩ :=
    openFiles_spec (Q := Q) hwf hbounds (fun r hr => absurd hr List.not_mem_nil)
  have hinv : StreamInv (FilesHold ((filesOf urls).map (fun f => (f.1, cb f.2)))) { queue := queue } := by
    refine ⟨hok, ?_⟩
    intro layer c _
    rw [hpend]
    simp [Pending]
  refine ⟨{ queue }, ?_, getDeletedAll_spec hinv hquery horder⟩
  simp only [make, hopen, ok_bind]

/-- A file with an empty row group between two records, and one with statistics. -/
def exampleDeleteFile (url : Bytes) : DeleteFile :=
  if url = bytes "d0" then
    { rowGroups := [
        { rows := [(some (bytes "a"), some 1)] },
        { filePathStatistics := some none },
        { rows := [(some (bytes "b"), some 0)] }] }
  else
    { rowGroups := [{
        rows := [(some (bytes "a"), some 1), (some (bytes "a"), some 3)]
        filePathStatistics := some (some (bytes "a", bytes "a"))
        posStatistics := some (some (1, 3)) }] }

def exampleUrls : OrdMap Int (List Bytes) := OrdMap.insert (OrdMap.insert {} 0 [bytes "d0"]) 1 [bytes "d1"]

def exampleQueries : List (Query × Int) :=
  [({ url := bytes "a", begin := 0, finish := 2 }, 0), ({ url := bytes "a", begin := 2, finish := 4 }, 1),
    ({ url := bytes "b", begin := 0, finish := 1 }, 0)]

theorem getDeleted_exact_twoFiles :
    ((do
      let stream ← make (firstMin Reader.getPosition) exampleUrls exampleDeleteFile
      let r ← getDeletedAll (firstMin Reader.getPosition) stream exampleQueries
      .ok r.1 : Except String (List (List Int))) = .ok [[1], [3], [0]]) ∧
    ∃ stream, make (firstMin Reader.getPosition) exampleUrls exampleDeleteFile = .ok stream ∧
      ∃ answers stream', getDeletedAll (firstMin Reader.getPosition) stream exampleQueries = .ok (answers, stream') ∧
        List.Forall₂ (IsAnswer (FilesHold ((filesOf exampleUrls).map (fun f => (f.1, exampleDeleteFile f.2)))))
          exampleQueries answers := by
  have hfiles : filesOf exampleUrls = [(0, bytes "d0"), (1, bytes "d1")] := by decide
  refine ⟨by decide, getDeleted_exact _ exampleUrls exampleDeleteFile ?_ ?_ exampleQueries (by decide) (by decide)⟩
  · intro f hf
    rw [hfiles, List.mem_cons, List.mem_singleton] at hf
    rcases hf with rfl | rfl
    · refine ⟨.inl rfl, ?_, by decide, ?_⟩
      · simp [cellsOf, exampleDeleteFile, IsRecord, bytes]
      · simp [exampleDeleteFile, ValidStatistics]
    · have hfile : exampleDeleteFile (bytes "d1") = { rowGroups := [{
          rows := [(some (bytes "a"), some 1), (some (bytes "a"), some 3)]
          filePathStatistics := some (some (bytes "a", bytes "a"))
          posStatistics := some (some (1, 3)) }] } := by decide
      rw [hfile]
      refine ⟨.inl rfl, ?_, by decide, ?_⟩
      · simp [cellsOf, IsRecord, bytes]
      · intro group hgroup
        rw [List.mem_singleton.mp hgroup]
        constructor
        · rintro lo hi ⟨⟩ c hc path hpath
          have hall : ∀ c ∈ [((some (bytes "a"), some 1) : DeleteCell), (some (bytes "a"), some 3)],
              c.1 = some (bytes "a") := by decide
          have heq : bytes "a" = path := Option.some.inj ((hall c hc).symm.trans hpath)
          exact ⟨heq.le, heq.ge⟩
        · rintro lo hi ⟨⟩ c hc pos hpos
          have hall : ∀ c ∈ [((some (bytes "a"), some 1) : DeleteCell), (some (bytes "a"), some 3)],
              c.2 = some 1 ∨ c.2 = some 3 := by decide
          have hcell := hall c hc
          rw [hpos, Option.some.injEq, Option.some.injEq] at hcell
          omega
  · intro f hf
    rw [hfiles, List.mem_cons, List.mem_singleton] at hf
    intro before group after hsplit hrows c hc
    have hpos : DeleteRowGroup.position group = position ⊥ ⊥ := by
      have hmem : group ∈ (exampleDeleteFile f.2).rowGroups := by
        rw [hsplit]
        exact List.mem_append_right _ List.mem_cons_self
      have hall : ∀ url ∈ [bytes "d0", bytes "d1"], ∀ g ∈ (exampleDeleteFile url).rowGroups, g.rows = [] →
          DeleteRowGroup.position g = position ⊥ ⊥ := by decide
      rcases hf with rfl | rfl
      · exact hall _ (by decide) group hmem hrows
      · exact hall _ (by decide) group hmem hrows
    rw [hpos]
    exact bot_le_position c

/-- A delete file whose empty first row group carries statistics behind its only record. -/
def strayDeleteFile : DeleteFile :=
  { rowGroups := [
      { filePathStatistics := some (some (bytes "b", bytes "b"))
        posStatistics := some (some (0, 0)) },
      { rows := [(some (bytes "a"), some 1)] }] }

def strayUrls : OrdMap Int (List Bytes) := OrdMap.insert {} 0 [bytes "d"]

/-- The record of such a file is lost: the stream takes the empty row group for the end. -/
theorem getDeleted_loses_record :
    ∃ queries : List (Query × Int), (∀ q ∈ queries, q.1.begin ≤ q.1.finish) ∧
      passesOrderingCheck none queries = true ∧ (∀ f ∈ filesOf strayUrls, WellFormedDeleteFile strayDeleteFile) ∧
      ¬∃ stream, make (firstMin Reader.getPosition) strayUrls (fun _ => strayDeleteFile) = .ok stream ∧
        ∃ answers stream', getDeletedAll (firstMin Reader.getPosition) stream queries = .ok (answers, stream') ∧
          List.Forall₂ (IsAnswer (FilesHold ((filesOf strayUrls).map (fun f => (f.1, strayDeleteFile)))))
            queries answers := by
  refine ⟨[({ url := bytes "a", begin := 0, finish := 2 }, 0)], by decide, by decide, ?_, ?_⟩
  · intro f _
    refine ⟨.inl rfl, ?_, by decide, ?_⟩
    · simp [cellsOf, strayDeleteFile, IsRecord, bytes]
    · simp [strayDeleteFile, ValidStatistics]
  · rintro ⟨stream, hmake, answers, stream', hrun, hans⟩
    have hanswer : answers = [[]] := by
      have hmodel : (do
          let s ← make (firstMin Reader.getPosition) strayUrls (fun _ => strayDeleteFile)
          let r ← getDeletedAll (firstMin Reader.getPosition) s [({ url := bytes "a", begin := 0, finish := 2 }, 0)]
          .ok r.1 : Except String (List (List Int))) = .ok [[]] := by decide
      rw [hmake, ok_bind, hrun, ok_bind] at hmodel
      exact Except.ok.inj hmodel
    rw [hanswer] at hans
    obtain ⟨-, hexact⟩ := (List.forall₂_cons.mp hans).1
    have hheld : FilesHold ((filesOf strayUrls).map (fun f => (f.1, strayDeleteFile))) 0 (some (bytes "a"), some 1) :=
      ⟨(0, strayDeleteFile), by decide, rfl, by decide⟩
    exact absurd ((hexact 1).mpr ⟨by decide, by decide, 0, le_refl _, hheld⟩) List.not_mem_nil

end IcebergCxx.Proofs
