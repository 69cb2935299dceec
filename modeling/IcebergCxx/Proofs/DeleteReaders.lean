import IcebergCxx.PositionalDelete

/-!
# Readers of delete files

What a well-formed delete file is, which records a reader still holds, and that the reader's
position bounds them from below.
-/

namespace IcebergCxx.Proofs

open Lib PositionalDeleteStream

/-! ### Delete files -/

abbrev DeleteCell := Option Bytes × Option Int

def cellPosition (c : DeleteCell) : Position := position c.1 c.2

def IsRecord (c : DeleteCell) : Prop := ∃ path pos, c = (some path, some pos) ∧ path ≠ []

/-- The statistics of both columns, where they are set, bound the values of the row group. -/
def ValidStatistics (group : DeleteRowGroup) : Prop :=
  (∀ lo hi, group.filePathStatistics = some (some (lo, hi)) →
    ∀ c ∈ group.rows, ∀ path, c.1 = some path → lo ≤ path ∧ path ≤ hi) ∧
  (∀ lo hi, group.posStatistics = some (some (lo, hi)) →
    ∀ c ∈ group.rows, ∀ pos, c.2 = some pos → lo ≤ pos ∧ pos ≤ hi)

def cellsOf (groups : List DeleteRowGroup) : List DeleteCell := groups.flatMap DeleteRowGroup.rows

/-- A delete file as the table format asks for it. -/
structure WellFormedDeleteFile (file : DeleteFile) : Prop where
  columns : file.columnTypes = [.byteArray, .int64] ∨ ∃ t, file.columnTypes = [.byteArray, .int64, t]
  records : ∀ c ∈ cellsOf file.rowGroups, IsRecord c
  sorted : (cellsOf file.rowGroups).Pairwise (fun a b => cellPosition a ≤ cellPosition b)
  statistics : ∀ group ∈ file.rowGroups, ValidStatistics group

/-- The statistics of an empty row group do not start behind a later record of the file. -/
def EmptyGroupsInBounds (file : DeleteFile) : Prop :=
  ∀ before group after, file.rowGroups = before ++ group :: after → group.rows = [] →
    ∀ c ∈ cellsOf after, DeleteRowGroup.position group ≤ cellPosition c

/-- Every row group's statistics bound the records from there on. -/
def Bounded : List DeleteRowGroup → Prop
  | [] => True
  | group :: groups =>
    (∀ c ∈ cellsOf (group :: groups), DeleteRowGroup.position group ≤ cellPosition c) ∧ Bounded groups

lemma position_le_iff (a b : Bytes) (x y : Int) :
    position (a : WithBot Bytes) (x : WithBot Int) ≤ position (b : WithBot Bytes) (y : WithBot Int) ↔
      a < b ∨ a = b ∧ x ≤ y := by
  rw [position, position, Prod.Lex.toLex_le_toLex]
  simp

lemma bot_le_position (c : DeleteCell) : position ⊥ ⊥ ≤ cellPosition c := by
  apply Prod.Lex.toLex_le_toLex.mpr
  rcases eq_or_lt_of_le (@bot_le (WithBot Bytes) _ _ c.1) with h | h
  · exact .inr ⟨h, bot_le⟩
  · exact .inl h

/-- The statistics of a row group bound its own records. -/
lemma position_le_of_mem {group : DeleteRowGroup} (hv : ValidStatistics group) (hr : ∀ c ∈ group.rows, IsRecord c)
    {c : DeleteCell} (hc : c ∈ group.rows) : DeleteRowGroup.position group ≤ cellPosition c := by
  obtain ⟨path, pos, rfl, -⟩ := hr c hc
  unfold DeleteRowGroup.position
  split
  · rename_i minPath maxPath minPos maxPos hp hx
    have h1 := (hv.1 _ _ hp _ hc path rfl).1
    have h2 := (hv.2 _ _ hx _ hc pos rfl).1
    apply (position_le_iff _ _ _ _).mpr
    rcases h1.eq_or_lt with h | h
    · exact .inr ⟨h, h2⟩
    · exact .inl h
  · rename_i minPath maxPath hp hx
    have h1 := (hv.1 _ _ hp _ hc path rfl).1
    apply Prod.Lex.toLex_le_toLex.mpr
    rcases h1.eq_or_lt with h | h
    · exact .inr ⟨congrArg WithBot.some h, bot_le⟩
    · exact .inl (WithBot.coe_lt_coe.mpr h)
  · exact bot_le_position _

lemma bounded_of_wellFormed {groups : List DeleteRowGroup} (hr : ∀ c ∈ cellsOf groups, IsRecord c)
    (hs : (cellsOf groups).Pairwise (fun a b => cellPosition a ≤ cellPosition b))
    (hv : ∀ group ∈ groups, ValidStatistics group)
    (he : ∀ before group after, groups = before ++ group :: after → group.rows = [] →
      ∀ c ∈ cellsOf after, DeleteRowGroup.position group ≤ cellPosition c) : Bounded groups := by
  induction groups with
  | nil => trivial
  | cons group groups ih =>
    have hcons : cellsOf (group :: groups) = group.rows ++ cellsOf groups := rfl
    rw [hcons] at hr hs
    obtain ⟨-, hs2, hcross⟩ := List.pairwise_append.mp hs
    have hown : ∀ c ∈ group.rows, DeleteRowGroup.position group ≤ cellPosition c := fun c hc =>
      position_le_of_mem (hv group List.mem_cons_self) (fun d hd => hr d (List.mem_append_left _ hd)) hc
    refine ⟨?_, ih (fun c hc => hr c (List.mem_append_right _ hc)) hs2
      (fun g hg => hv g (List.mem_cons_of_mem _ hg))
      (fun before g after hsplit => he (group :: before) g after (by rw [hsplit]; rfl))⟩
    intro c hc
    rcases List.mem_append.mp hc with hc | hc
    · exact hown c hc
    · -- a later record: behind a record of this row group, or the row group is empty
      cases hrows : group.rows with
      | nil => exact he [] group groups rfl hrows c hc
      | cons d rows =>
        have hd : d ∈ group.rows := by rw [hrows]; exact List.mem_cons_self
        exact (hown d hd).trans (hcross d hd c hc)

/-! ### Readers -/

/-- A reader before a row group it has not opened. -/
def waiting (layer : Int) (group : DeleteRowGroup) (groups : List DeleteRowGroup) : Reader :=
  { layer, rowGroups := groups, currentRowGroup := group }

/-- A reader at a record. -/
def reading (layer : Int) (group : DeleteRowGroup) (groups : List DeleteRowGroup) (path : Bytes) (pos : Int)
    (rows : List DeleteCell) : Reader :=
  { layer
    rowGroups := groups
    currentRowGroup := group
    columnReaders := some rows
    currentFilePath := some path
    currentPos := some pos }

/-- The records a reader has not given away. -/
def unread (r : Reader) : List DeleteCell :=
  (if r.isStarted then [(r.currentFilePath, r.currentPos)] else []) ++
    r.columnReaders.getD r.currentRowGroup.rows ++ cellsOf r.rowGroups

lemma unread_waiting (layer : Int) (group : DeleteRowGroup) (groups : List DeleteRowGroup) :
    unread (waiting layer group groups) = group.rows ++ cellsOf groups := rfl

lemma unread_reading (layer : Int) (group : DeleteRowGroup) (groups : List DeleteRowGroup) (path : Bytes) (pos : Int)
    (rows : List DeleteCell) :
    unread (reading layer group groups path pos rows) = (some path, some pos) :: (rows ++ cellsOf groups) := rfl

/-- What the records of a queued reader look like. -/
structure Ordered (cells : List DeleteCell) : Prop where
  records : ∀ c ∈ cells, IsRecord c
  sorted : cells.Pairwise (fun a b => cellPosition a ≤ cellPosition b)

lemma Ordered.suffix {a b : List DeleteCell} (h : Ordered (a ++ b)) : Ordered b :=
  ⟨fun c hc => h.records c (List.mem_append_right _ hc), (List.pairwise_append.mp h.sorted).2.1⟩

/-- A reader of the queue: before a row group or at a record, with bounded row groups ahead. -/
inductive ReaderOk : Reader → Prop
  | waiting {layer : Int} {group : DeleteRowGroup} {groups : List DeleteRowGroup}
      (ho : Ordered (group.rows ++ cellsOf groups)) (hv : ∀ g ∈ group :: groups, ValidStatistics g)
      (hb : Bounded (group :: groups)) : ReaderOk (waiting layer group groups)
  | reading {layer : Int} {group : DeleteRowGroup} {groups : List DeleteRowGroup} {path : Bytes} {pos : Int}
      {rows : List DeleteCell} (ho : Ordered ((some path, some pos) :: (rows ++ cellsOf groups)))
      (hv : ∀ g ∈ groups, ValidStatistics g) (hb : Bounded groups) :
      ReaderOk (reading layer group groups path pos rows)

/-- `GetPosition` is a lower bound of what the reader still holds. -/
lemma getPosition_le {r : Reader} (h : ReaderOk r) {c : DeleteCell} (hc : c ∈ unread r) :
    r.getPosition ≤ cellPosition c := by
  cases h with
  | waiting ho hv hb => exact hb.1 c hc
  | reading ho hv hb =>
    rw [unread_reading] at hc
    rcases List.mem_cons.mp hc with rfl | hc
    · exact le_refl _
    · exact (List.pairwise_cons.mp ho.sorted).1 c hc

/-- A step of a reader that gives the queue a reader of `cells`, or none when there are no more. -/
structure StepsTo (layer : Int) (work : Nat) (cells : List DeleteCell) (stepped : Bool × Reader) : Prop where
  ok : stepped.1 = true → ReaderOk stepped.2 ∧ stepped.2.layer = layer ∧ unread stepped.2 = cells ∧
    stepped.2.work < work
  done : stepped.1 = false → cells = []

lemma nextRowGroup_stepsTo {r : Reader} {layer : Int} {work : Nat} (hlayer : r.layer = layer)
    (ho : Ordered (cellsOf r.rowGroups)) (hv : ∀ g ∈ r.rowGroups, ValidStatistics g)
    (hb : Bounded r.rowGroups) (hw : (r.rowGroups.map (fun group => group.rows.length + 1)).sum < work) :
    StepsTo layer work (cellsOf r.rowGroups) r.nextRowGroup := by
  cases hg : r.rowGroups with
  | nil =>
    have hnext : r.nextRowGroup.1 = false := by simp [Reader.nextRowGroup, hg]
    exact ⟨fun h => absurd (hnext.symm.trans h) Bool.false_ne_true, fun _ => rfl⟩
  | cons group groups =>
    have hnext : r.nextRowGroup = (true, waiting layer group groups) := by
      simp [Reader.nextRowGroup, hg, waiting, hlayer]
    rw [hg] at ho hv hb hw
    rw [hnext]
    refine ⟨fun _ => ⟨.waiting ho hv hb, rfl, unread_waiting _ _ _, ?_⟩, fun h => absurd h.symm Bool.false_ne_true⟩
    simpa [waiting, Reader.work] using hw

lemma nextRowGroup_waiting {layer : Int} {group : DeleteRowGroup} {groups : List DeleteRowGroup}
    (ho : Ordered (group.rows ++ cellsOf groups)) (hv : ∀ g ∈ group :: groups, ValidStatistics g)
    (hb : Bounded (group :: groups)) :
    StepsTo layer (waiting layer group groups).work (cellsOf groups) (waiting layer group groups).nextRowGroup := by
  apply @nextRowGroup_stepsTo (waiting layer group groups) layer _ rfl ho.suffix
    (fun g hg => hv g (List.mem_cons_of_mem _ hg)) hb.2
  simp only [waiting, Reader.work, Option.getD_none]
  omega

/-- `Next` on a reader whose open columns hold `rows`. -/
lemma next_stepsTo {r : Reader} {rows : List DeleteCell} (hrows : r.columnReaders.getD r.currentRowGroup.rows = rows)
    (hvalue : r.currentFilePathValue = []) (ho : Ordered (rows ++ cellsOf r.rowGroups))
    (hv : ∀ g ∈ r.rowGroups, ValidStatistics g) (hb : Bounded r.rowGroups) :
    ∃ stepped, r.next = .ok stepped ∧ StepsTo r.layer r.work (rows ++ cellsOf r.rowGroups) stepped := by
  cases rows with
  | nil =>
    have hnext : r.next = .ok { r with columnReaders := some [] }.nextRowGroup := by
      simp only [Reader.next, hrows]
    refine ⟨_, hnext, ?_⟩
    apply @nextRowGroup_stepsTo { r with columnReaders := some [] } r.layer _ rfl ho hv hb
    simp only [Reader.work, hrows, List.length_nil]
    omega
  | cons c rows =>
    obtain ⟨path, pos, rfl, hpath⟩ := ho.records c List.mem_cons_self
    have hnext : r.next = .ok (true, reading r.layer r.currentRowGroup r.rowGroups path pos rows) := by
      simp only [Reader.next, hrows, readValueNotNull, ok_bind, hvalue, if_neg (Ne.symm hpath), reading]
    refine ⟨_, hnext, fun _ => ⟨.reading ho hv hb, rfl, rfl, ?_⟩, fun h => absurd h.symm Bool.false_ne_true⟩
    simp only [reading, Reader.work, hrows, Option.getD_some, List.length_cons]
    omega

lemma next_waiting {layer : Int} {group : DeleteRowGroup} {groups : List DeleteRowGroup}
    (ho : Ordered (group.rows ++ cellsOf groups)) (hv : ∀ g ∈ group :: groups, ValidStatistics g)
    (hb : Bounded (group :: groups)) :
    ∃ stepped, (waiting layer group groups).next = .ok stepped ∧
      StepsTo layer (waiting layer group groups).work (group.rows ++ cellsOf groups) stepped :=
  @next_stepsTo (waiting layer group groups) group.rows rfl rfl ho (fun g hg => hv g (List.mem_cons_of_mem _ hg)) hb.2

lemma next_reading {layer : Int} {group : DeleteRowGroup} {groups : List DeleteRowGroup} {path : Bytes} {pos : Int}
    {rows : List DeleteCell} (ho : Ordered ((some path, some pos) :: (rows ++ cellsOf groups)))
    (hv : ∀ g ∈ groups, ValidStatistics g) (hb : Bounded groups) :
    ∃ stepped, (reading layer group groups path pos rows).next = .ok stepped ∧
      StepsTo layer (reading layer group groups path pos rows).work (rows ++ cellsOf groups) stepped :=
  @next_stepsTo (reading layer group groups path pos rows) rows rfl rfl (@Ordered.suffix [_] _ ho) hv hb

/-! ### The queue -/

/-- Some queued reader of the layer still holds the record. -/
def Pending (queue : List Reader) (layer : Int) (c : DeleteCell) : Prop :=
  ∃ r ∈ queue, r.layer = layer ∧ c ∈ unread r

variable {Q : MinQueue Reader.getPosition}

lemma pending_push {queue : List Reader} {r : Reader} {layer : Int} {c : DeleteCell} :
    Pending (Q.push queue r) layer c ↔ (r.layer = layer ∧ c ∈ unread r) ∨ Pending queue layer c := by
  simp only [Pending, Q.mem_push, or_and_right, exists_or, exists_eq_left]

lemma pending_of_pop {queue queue' : List Reader} {r : Reader} (h : Q.pop queue = some (r, queue')) {layer : Int}
    {c : DeleteCell} : Pending queue layer c ↔ (r.layer = layer ∧ c ∈ unread r) ∨ Pending queue' layer c := by
  simp only [Pending, Q.mem_of_pop h, or_and_right, exists_or, exists_eq_left]

lemma work_of_pop {rows rows' : List Int} {queue queue' : List Reader} {r : Reader}
    (h : Q.pop queue = some (r, queue')) : loopWork (rows, queue) = r.work + loopWork (rows', queue') := by
  simp only [loopWork, ((Q.pop_perm h).map Reader.work).sum_eq, List.map_cons, List.sum_cons]

/-- The queue after a step of the popped reader. -/
lemma enqueueIf_spec {queue : List Reader} {stepped : Bool × Reader} {layer : Int} {work : Nat}
    {cells : List DeleteCell} (h : StepsTo layer work cells stepped) (hwork : 0 < work)
    (hq : ∀ r ∈ queue, ReaderOk r) (rows : List Int) :
    (∀ r ∈ enqueueIf Q queue stepped, ReaderOk r) ∧
    (∀ l c, Pending (enqueueIf Q queue stepped) l c ↔ (layer = l ∧ c ∈ cells) ∨ Pending queue l c) ∧
    loopWork (rows, enqueueIf Q queue stepped) < work + loopWork (rows, queue) := by
  obtain ⟨more, r⟩ := stepped
  cases more with
  | false =>
    have hcells : cells = [] := h.done rfl
    subst hcells
    refine ⟨hq, ?_, ?_⟩
    · intro l c
      simp [enqueueIf]
    · simp only [enqueueIf]
      omega
  | true =>
    obtain ⟨hok, hlayer, hcells, hless⟩ := h.ok rfl
    simp only at hok hlayer hcells hless
    refine ⟨?_, ?_, ?_⟩
    · intro x hx
      rcases Q.mem_push.mp hx with rfl | hx
      · exact hok
      · exact hq x hx
    · intro l c
      rw [enqueueIf, pending_push, hlayer, hcells]
    · have hsum := ((Q.push_perm queue r).map Reader.work).sum_eq
      simp only [enqueueIf, loopWork, hsum, List.map_cons, List.sum_cons]
      omega

end IcebergCxx.Proofs
