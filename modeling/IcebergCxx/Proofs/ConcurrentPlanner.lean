import IcebergCxx.ConcurrentPlanner
import IcebergCxx.Lib.Run
import IcebergCxx.Proofs.Planner
import IcebergCxx.Proofs.Rearrangement

/-!
# The order of arrival

One call of `AddEntry` is two steps, each under a mutex of its own. Steps of different entries commute up
to the order inside the layers, unless both store a deletion vector for the same partition key, sequence
number and data file. So every order of the entries, and every interleaving of their steps, gives the same plan.
-/

namespace IcebergCxx.Proofs

open Lib

/-! ### Sub-steps -/

/-- What a call does while it holds a mutex. -/
inductive SubStep
  | note (entry : ManifestEntry)
  | store (entry : ManifestEntry)

def runSubStep (p : ReferencedDataFileAwareScanPlanner) : SubStep → Except String ReferencedDataFileAwareScanPlanner
  | .note entry => p.noteEntry entry
  | .store entry => do
    let builder ← p.builder.addEntry entry
    .ok { p with builder := builder }

def subStepsOf (entry : ManifestEntry) : List SubStep :=
  if entry.status = .deleted then [] else [.note entry, .store entry]

lemma eq_of_store_mem {entry entry' : ManifestEntry} (h : .store entry ∈ subStepsOf entry') : entry = entry' := by
  unfold subStepsOf at h
  split_ifs at h
  · cases h
  · simpa using h

lemma addEntry_subSteps (p : ReferencedDataFileAwareScanPlanner) (entry : ManifestEntry) :
    p.addEntry entry = (subStepsOf entry).foldlM runSubStep p := by
  unfold ReferencedDataFileAwareScanPlanner.addEntry subStepsOf
  split_ifs
  · rfl
  · simp only [List.foldlM_cons, List.foldlM_nil, runSubStep, bind_pure]

lemma addEntries_subSteps (p : ReferencedDataFileAwareScanPlanner) (entries : List ManifestEntry) :
    p.addEntries entries = (entries.flatMap subStepsOf).foldlM runSubStep p := by
  unfold ReferencedDataFileAwareScanPlanner.addEntries
  induction entries generalizing p with
  | nil => rfl
  | cons entry entries ih =>
    rw [List.foldlM_cons, List.flatMap_cons, List.foldlM_append, addEntry_subSteps]
    simp only [ih]

/-! ### The step of the planner -/

/-- The data file that an annotated delete file, no deletion vector, belongs to. -/
def noteReference (m : OrdMap Bytes Bytes) (entry : ManifestEntry) : Except String (OrdMap Bytes Bytes) :=
  match entry.dataFile.content, entry.dataFile.referencedDataFile with
  | .positionDeletes, some referencedDataFile =>
    if entry.dataFile.fileFormat = deletionVectorFormat then .ok m
    else m.insertNew entry.dataFile.filePath referencedDataFile
      ("Two delete files with same path: " ++ text entry.dataFile.filePath)
  | _, _ => .ok m

/-- The flags after an entry, with another map of references. -/
def flagged (p : ReferencedDataFileAwareScanPlanner) (entry : ManifestEntry) (m : OrdMap Bytes Bytes) :
    ReferencedDataFileAwareScanPlanner where
  builder := p.builder
  deleteFilePathToReferencedDataFilePath := m
  allPosDeletesAnnotatedWithReferencedDataFile := p.allPosDeletesAnnotatedWithReferencedDataFile &&
    !(entry.dataFile.content = .positionDeletes && entry.dataFile.referencedDataFile.isNone)
  hasEqualityDelete := p.hasEqualityDelete || entry.dataFile.content = .equalityDeletes
  hasReferencedDataFile := p.hasReferencedDataFile ||
    (entry.dataFile.content = .positionDeletes && entry.dataFile.referencedDataFile.isSome)

lemma builder_flagged (p : ReferencedDataFileAwareScanPlanner) (entry : ManifestEntry) (m : OrdMap Bytes Bytes) :
    (flagged p entry m).builder = p.builder := rfl

lemma noteEntry_eq (p : ReferencedDataFileAwareScanPlanner) (entry : ManifestEntry) :
    p.noteEntry entry =
      (noteReference p.deleteFilePathToReferencedDataFilePath entry >>= fun m => .ok (flagged p entry m)) := by
  unfold ReferencedDataFileAwareScanPlanner.noteEntry noteReference flagged
  cases hcontent : entry.dataFile.content with
  | data => simp
  | equalityDeletes => simp
  | positionDeletes =>
    cases hreferenced : entry.dataFile.referencedDataFile with
    | none => simp
    | some referencedDataFile =>
      simp only [ReferencedDataFileAwareScanPlanner.handlePositionDelete, OrdMap.insertNew]
      split_ifs <;> simp

lemma noteReference_comm (m : OrdMap Bytes Bytes) (a b : ManifestEntry) :
    Agree Eq (noteReference m a >>= fun m₁ => noteReference m₁ b)
      (noteReference m b >>= fun m₁ => noteReference m₁ a) := by
  have hcases : ∀ entry, (∀ m, noteReference m entry = .ok m) ∨
      ∃ path referenced message, ∀ m, noteReference m entry = m.insertNew path referenced message := by
    intro entry
    unfold noteReference
    split
    · split_ifs
      · exact .inl (fun _ => rfl)
      · exact .inr ⟨_, _, _, fun _ => rfl⟩
    · exact .inl (fun _ => rfl)
  rcases hcases a with ha | ⟨path, referenced, message, ha⟩
  · simp only [ha, ok_bind]
    cases noteReference m b with
    | error message => exact .error _ _
    | ok m₁ => exact .ok rfl
  · rcases hcases b with hb | ⟨path', referenced', message', hb⟩
    · simp only [hb, ok_bind]
      cases noteReference m a with
      | error message => exact .error _ _
      | ok m₁ => exact .ok rfl
    · simp only [ha, hb]
      exact OrdMap.insertNew_comm _ _ _ _ _ _ _

/-! ### The step of the builder -/

lemma builder_equivalence : Equivalence BuilderRearranged where
  refl _ := ⟨rfl, (OrdMap.Rel.equivalence (OrdMap.Rel.equivalence rearranged_equivalence)).refl _,
    OrdMap.Rel.refl List.Perm.refl _⟩
  symm h := ⟨h.tableMetadata.symm,
    (OrdMap.Rel.equivalence (OrdMap.Rel.equivalence rearranged_equivalence)).symm h.partitions,
    h.globalEqualityDeletes.symm (fun _ _ => List.Perm.symm)⟩
  trans h h' := ⟨h.tableMetadata.trans h'.tableMetadata,
    (OrdMap.Rel.equivalence (OrdMap.Rel.equivalence rearranged_equivalence)).trans h.partitions h'.partitions,
    h.globalEqualityDeletes.trans (fun _ _ _ => List.Perm.trans) h'.globalEqualityDeletes⟩

section Builder

variable {b b' : ScanMetadataBuilder} {f g : LayerWithExtraInfo → LayerWithExtraInfo}

lemma modifyLayer_rearranged (h : BuilderRearranged b b') (key : Bytes) (level : SequenceNumber)
    (hf : ∀ layer layer', Rearranged layer layer' → Rearranged (f layer) (f layer')) :
    BuilderRearranged (b.modifyLayer key level f) (b'.modifyLayer key level f) := by
  refine ⟨h.tableMetadata, h.partitions.alter ?_ key, h.globalEqualityDeletes⟩
  intro layers layers' hlayers
  have hsame : (layers.getD ∅).Rel Rearranged (layers'.getD ∅) := by
    cases hlayers with
    | none => exact OrdMap.Rel.refl rearranged_equivalence.refl _
    | some hlayers => exact hlayers
  apply hsame.alter
  intro layer layer' hlayer
  cases hlayer with
  | none => exact hf _ _ (rearranged_equivalence.refl _)
  | some hlayer => exact hf _ _ hlayer

lemma modifyLayer_comm (b : ScanMetadataBuilder) {key key' : Bytes} {level level' : SequenceNumber}
    (h : key = key' → level = level' → ∀ layer, Rearranged (g (f layer)) (f (g layer))) :
    BuilderRearranged ((b.modifyLayer key level f).modifyLayer key' level' g)
      ((b.modifyLayer key' level' g).modifyLayer key level f) := by
  refine ⟨rfl, OrdMap.rel_alter_comm (OrdMap.Rel.refl rearranged_equivalence.refl) _ ?_,
    OrdMap.Rel.refl List.Perm.refl _⟩
  intro hkey layers
  apply OrdMap.rel_alter_comm rearranged_equivalence.refl
  intro hlevel layer
  exact h hkey hlevel (layer.getD {})

/-- The partition key and level of the layer that a slot is placed in. -/
def Slot.home : Slot → Option (Bytes × SequenceNumber)
  | .data key level _ | .positional key level _ | .equality key level _ | .vector key level _ _ => some (key, level)
  | .global _ _ => none

/-- What a slot makes of its layer. -/
def Slot.update : Slot → LayerWithExtraInfo → LayerWithExtraInfo
  | .data _ _ entry, layer => { layer with dataEntries := layer.dataEntries ++ [entry] }
  | .positional _ _ del, layer => { layer with positionalDeleteEntries := layer.positionalDeleteEntries ++ [del] }
  | .equality _ _ del, layer => { layer with equalityDeleteEntries := layer.equalityDeleteEntries ++ [del] }
  | .vector _ _ path dv, layer => { layer with dvEntries := layer.dvEntries.insert path dv }
  | .global _ _, layer => layer

def Slot.vectorPath : Slot → Option Bytes
  | .vector _ _ path _ => some path
  | _ => none

lemma place_of_home {slot : Slot} {key : Bytes} {level : SequenceNumber} (h : slot.home = some (key, level))
    (b : ScanMetadataBuilder) : place b slot = b.modifyLayer key level slot.update := by
  cases slot <;> cases h <;> rfl

lemma update_rearranged (slot : Slot) {layer layer' : LayerWithExtraInfo} (h : Rearranged layer layer') :
    Rearranged (slot.update layer) (slot.update layer') := by
  cases slot with
  | data => exact ⟨h.data.append_right _, h.positional, h.equality, h.vectors⟩
  | positional => exact ⟨h.data, h.positional.append_right _, h.equality, h.vectors⟩
  | equality => exact ⟨h.data, h.positional, h.equality.append_right _, h.vectors⟩
  | global => exact h
  | vector => exact ⟨h.data, h.positional, h.equality, by simp only [Slot.update, h.vectors]⟩

lemma update_comm {s t : Slot} (h : ∀ path, s.vectorPath = some path → t.vectorPath ≠ some path)
    (layer : LayerWithExtraInfo) : Rearranged (t.update (s.update layer)) (s.update (t.update layer)) := by
  cases s with
  | data =>
    cases t with
    | data => exact ⟨concat_concat_perm _ _ _, .refl _, .refl _, rfl⟩
    | _ => exact rearranged_equivalence.refl _
  | positional =>
    cases t with
    | positional => exact ⟨.refl _, concat_concat_perm _ _ _, .refl _, rfl⟩
    | _ => exact rearranged_equivalence.refl _
  | equality =>
    cases t with
    | equality => exact ⟨.refl _, .refl _, concat_concat_perm _ _ _, rfl⟩
    | _ => exact rearranged_equivalence.refl _
  | global => exact rearranged_equivalence.refl _
  | vector key level path dv =>
    cases t with
    | vector key' level' path' dv' =>
      have hpath : path ≠ path' := by
        rintro rfl
        exact h _ rfl rfl
      exact ⟨.refl _, .refl _, .refl _, OrdMap.insert_comm _ hpath _ _⟩
    | _ => exact rearranged_equivalence.refl _

lemma place_rearranged (h : BuilderRearranged b b') (slot : Slot) :
    BuilderRearranged (place b slot) (place b' slot) := by
  cases hhome : slot.home with
  | some home =>
    rw [place_of_home hhome, place_of_home hhome]
    exact modifyLayer_rearranged h _ _ (fun _ _ => update_rearranged slot)
  | none =>
    cases slot with
    | global level del =>
      refine ⟨h.tableMetadata, h.partitions, h.globalEqualityDeletes.alter ?_ level⟩
      intro deletes deletes' hdeletes
      cases hdeletes with
      | none => exact .refl _
      | some hdeletes => exact hdeletes.append_right _
    | _ => cases hhome

/-- Two slots, placed in either order. -/
lemma place_comm (b : ScanMetadataBuilder) {s t : Slot}
    (h : s.home = t.home → ∀ path, s.vectorPath = some path → t.vectorPath ≠ some path) :
    BuilderRearranged (place (place b s) t) (place (place b t) s) := by
  cases hs : s.home with
  | some home =>
    cases ht : t.home with
    | some home' =>
      rw [place_of_home hs, place_of_home ht, place_of_home hs, place_of_home ht]
      apply modifyLayer_comm b
      intro hkey hlevel layer
      apply update_comm (h _)
      rw [hs, ht, Prod.ext hkey hlevel]
    | none =>
      cases t with
      | global =>
        cases s with
        | global => cases hs
        | _ => exact builder_equivalence.refl _
      | _ => cases ht
  | none =>
    cases s with
    | global level del =>
      cases t with
      | global level' del' =>
        refine ⟨rfl, (builder_equivalence.refl b).partitions, OrdMap.rel_alter_comm List.Perm.refl _ ?_⟩
        intro _ deletes
        exact concat_concat_perm _ _ _
      | _ => exact builder_equivalence.refl _
    | _ => cases hs

end Builder

lemma store_eq (p : ReferencedDataFileAwareScanPlanner) (entry : ManifestEntry) :
    runSubStep p (.store entry) = (validateEntry p.builder.tableMetadata entry >>= fun _ =>
      .ok { p with builder := (slotOf entry).elim p.builder (place p.builder) }) := by
  rw [runSubStep, addEntry_eq]
  cases validateEntry p.builder.tableMetadata entry with
  | error message => rfl
  | ok u => rfl

/-! ### Sub-steps commute -/

/-- The partition key, sequence number and data file of a live deletion vector. -/
def vectorKey (entry : ManifestEntry) : Option (Bytes × SequenceNumber × Bytes) :=
  if entry.status ≠ .deleted ∧ entry.dataFile.content = .positionDeletes ∧
      entry.dataFile.fileFormat = deletionVectorFormat then
    match entry.sequenceNumber, entry.dataFile.referencedDataFile with
    | some sequenceNumber, some referencedDataFile =>
      some (serializePartitionTuple entry.dataFile.partitionTuple, sequenceNumber, referencedDataFile)
    | _, _ => none
  else none

lemma vectorKey_of_slot {tableMetadata : TableMetadata} {entry : ManifestEntry} {slot : Slot} {key path : Bytes}
    {level : SequenceNumber} (hvalid : validateEntry tableMetadata entry = .ok ()) (hslot : slotOf entry = some slot)
    (hhome : slot.home = some (key, level)) (hpath : slot.vectorPath = some path) :
    vectorKey entry = some (key, level, path) := by
  cases slot with
  | vector key' level' path' dv =>
    cases hhome
    cases hpath
    by_cases hdeleted : entry.status = .deleted
    · rw [slotOf, if_pos hdeleted] at hslot
      cases hslot
    · rw [slotOf, if_neg hdeleted] at hslot
      cases hcontent : entry.dataFile.content with
      | data =>
        rw [hcontent] at hslot
        cases hslot
      | equalityDeletes =>
        simp only [hcontent] at hslot
        split_ifs at hslot <;> cases hslot
      | positionDeletes =>
        simp only [hcontent] at hslot
        split_ifs at hslot with hformat
        · cases hslot
          rw [validateEntry, if_neg hdeleted] at hvalid
          obtain ⟨u, -, hvalid⟩ := bind_ok hvalid
          cases hseq : entry.sequenceNumber with
          | none =>
            rw [hseq] at hvalid
            cases hvalid
          | some sequenceNumber =>
            simp only [hseq, hcontent, hformat, and_self, if_true] at hvalid
            cases href : entry.dataFile.referencedDataFile with
            | none =>
              rw [href] at hvalid
              cases hvalid
            | some referencedDataFile =>
              simp [vectorKey, hdeleted, hcontent, hformat, hseq, href, keyOf, seqOf, referencedOf]
        · cases hslot
  | _ => cases hpath

/-- Not both store a deletion vector under the same key. -/
def Independent : SubStep → SubStep → Prop
  | .store a, .store b => ∀ key, vectorKey a = some key → vectorKey b ≠ some key
  | _, _ => True

lemma Independent.symm {a b : SubStep} (h : Independent a b) : Independent b a := by
  cases a with
  | note => cases b <;> trivial
  | store a =>
    cases b with
    | note => trivial
    | store b => exact fun key hb ha => h key ha hb

lemma planner_equivalence : Equivalence PlannerRearranged where
  refl _ := ⟨builder_equivalence.refl _, rfl, rfl, rfl, rfl⟩
  symm h := ⟨builder_equivalence.symm h.builder, h.referenced.symm, h.allAnnotated.symm, h.equality.symm,
    h.annotated.symm⟩
  trans h h' := ⟨builder_equivalence.trans h.builder h'.builder, h.referenced.trans h'.referenced,
    h.allAnnotated.trans h'.allAnnotated, h.equality.trans h'.equality, h.annotated.trans h'.annotated⟩

/-- A sub-step of two planners with the same files. -/
lemma runSubStep_rearranged {p p' : ReferencedDataFileAwareScanPlanner} (h : PlannerRearranged p p') (a : SubStep) :
    Agree PlannerRearranged (runSubStep p a) (runSubStep p' a) := by
  cases a with
  | note entry =>
    simp only [runSubStep, noteEntry_eq]
    rw [h.referenced]
    apply (Agree.of_eq rfl).bind
    rintro m _ rfl
    apply Agree.ok
    refine ⟨h.builder, rfl, ?_, ?_, ?_⟩
    · simp only [flagged, h.allAnnotated]
    · simp only [flagged, h.equality]
    · simp only [flagged, h.annotated]
  | store entry =>
    rw [store_eq, store_eq, h.builder.tableMetadata]
    apply (Agree.of_eq rfl).bind
    rintro u _ rfl
    apply Agree.ok
    refine ⟨?_, h.referenced, h.allAnnotated, h.equality, h.annotated⟩
    cases slotOf entry with
    | none => exact h.builder
    | some slot => exact place_rearranged h.builder slot

lemma tableMetadata_stored (b : ScanMetadataBuilder) (slot : Option Slot) :
    (slot.elim b (place b)).tableMetadata = b.tableMetadata := by
  cases slot with
  | none => rfl
  | some slot => exact tableMetadata_place b slot

lemma note_note_comm (p : ReferencedDataFileAwareScanPlanner) (a b : ManifestEntry) :
    Agree PlannerRearranged (p.noteEntry a >>= (·.noteEntry b)) (p.noteEntry b >>= (·.noteEntry a)) := by
  have hboth : ∀ a b : ManifestEntry, (p.noteEntry a >>= (·.noteEntry b)) =
      ((noteReference p.deleteFilePathToReferencedDataFilePath a >>= fun m => noteReference m b) >>= fun m =>
        .ok (flagged (flagged p a m) b m)) := by
    intro a b
    simp only [noteEntry_eq, bind_assoc, ok_bind]
    rfl
  rw [hboth, hboth]
  apply (noteReference_comm _ a b).bind
  rintro m _ rfl
  apply Agree.ok
  refine ⟨builder_equivalence.refl _, rfl, ?_, ?_, ?_⟩
  · simp only [flagged, Bool.and_right_comm]
  · simp only [flagged, Bool.or_right_comm]
  · simp only [flagged, Bool.or_right_comm]

lemma note_store_comm (p : ReferencedDataFileAwareScanPlanner) (a b : ManifestEntry) :
    Agree PlannerRearranged (p.noteEntry a >>= (runSubStep · (.store b)))
      (runSubStep p (.store b) >>= (·.noteEntry a)) := by
  simp only [noteEntry_eq, store_eq, bind_assoc, ok_bind, builder_flagged]
  apply Agree.bind_swap
  intro m u _ _
  exact .ok (planner_equivalence.refl _)

lemma store_store_comm (p : ReferencedDataFileAwareScanPlanner) {a b : ManifestEntry}
    (h : Independent (.store a) (.store b)) :
    Agree PlannerRearranged (runSubStep p (.store a) >>= (runSubStep · (.store b)))
      (runSubStep p (.store b) >>= (runSubStep · (.store a))) := by
  simp only [store_eq, bind_assoc, ok_bind, tableMetadata_stored]
  apply Agree.bind_swap
  intro u u' ha hb
  apply Agree.ok
  refine ⟨?_, rfl, rfl, rfl, rfl⟩
  cases hs : slotOf a with
  | none => exact builder_equivalence.refl _
  | some s =>
    cases ht : slotOf b with
    | none => exact builder_equivalence.refl _
    | some t =>
      apply place_comm
      intro hhome path hpath hpath'
      cases hkey : s.home with
      | none =>
        cases s with
        | global => cases hpath
        | _ => cases hkey
      | some home => exact h _ (vectorKey_of_slot ha hs hkey hpath) (vectorKey_of_slot hb ht (hhome ▸ hkey) hpath')

/-- Two sub-steps, in either order. -/
lemma runSubStep_comm (p : ReferencedDataFileAwareScanPlanner) {a b : SubStep} (h : Independent a b) :
    Agree PlannerRearranged (runSubStep p a >>= (runSubStep · b)) (runSubStep p b >>= (runSubStep · a)) := by
  cases a with
  | note entry =>
    cases b with
    | note entry' => exact note_note_comm p entry entry'
    | store entry' => exact note_store_comm p entry entry'
  | store entry =>
    cases b with
    | note entry' => exact (note_store_comm p entry' entry).symm (fun _ _ => planner_equivalence.symm)
    | store entry' => exact store_store_comm p h

/-- The entries whose deletion vectors have different keys. -/
def VectorsApart (entries : List ManifestEntry) : Prop := (entries.filterMap vectorKey).Nodup

instance (entries : List ManifestEntry) : Decidable (VectorsApart entries) := inferInstanceAs (Decidable (List.Nodup _))

lemma subSteps_pairwise {entries : List ManifestEntry} (h : VectorsApart entries) :
    (entries.flatMap subStepsOf).Pairwise Independent := by
  rw [List.pairwise_flatMap]
  constructor
  · intro entry _
    unfold subStepsOf
    split_ifs
    · exact .nil
    · simp [Independent]
  · have hkeys := List.pairwise_filterMap.mp h
    apply hkeys.imp
    intro a b hab x hx y hy
    cases x with
    | note => trivial
    | store entry =>
      cases y with
      | note => trivial
      | store entry' =>
        obtain rfl := eq_of_store_mem hx
        obtain rfl := eq_of_store_mem hy
        intro key hkey hkey'
        exact hab key hkey key hkey' rfl

/-- The plans of two orders of the same sub-steps. -/
lemma subSteps_agree (tableMetadata : TableMetadata) {steps steps' : List SubStep} (hperm : steps.Perm steps')
    (hapart : steps.Pairwise Independent) :
    Agree SamePlan
      (steps.foldlM runSubStep (.make tableMetadata) >>= ReferencedDataFileAwareScanPlanner.getResult)
      (steps'.foldlM runSubStep (.make tableMetadata) >>= ReferencedDataFileAwareScanPlanner.getResult) := by
  have hplanners : Agree PlannerRearranged (steps.foldlM runSubStep (.make tableMetadata))
      (steps'.foldlM runSubStep (.make tableMetadata)) := by
    apply foldlM_perm planner_equivalence (fun _ _ a hst => runSubStep_rearranged hst a) (fun _ _ => Independent.symm)
      (fun s _ _ hab => runSubStep_comm s hab) hperm hapart (planner_equivalence.refl _)
  apply hplanners.bind
  exact fun _ _ => planner_getResult_rearranged

/-! ### Interleavings -/

/-- What is left of a call that has not failed. -/
def pendingSubSteps (call : AddEntryCall) : List SubStep :=
  match call.phase with
  | .called => subStepsOf call.entry
  | .noted => [.store call.entry]
  | .returned | .failed _ => []

/-- The sub-steps taken so far and those that are left. As long as no call has failed the planner is what the
first made of it, and afterwards they have failed. -/
structure Interleaved (tableMetadata : TableMetadata) (entries : List ManifestEntry)
    (s : ReferencedDataFileAwareScanPlannerMT) (taken left : List SubStep) : Prop where
  perm : (taken ++ left).Perm (entries.flatMap subStepsOf)
  running : s.calls.findSome? AddEntryCall.failure = none →
    left = s.calls.flatMap pendingSubSteps ∧ taken.foldlM runSubStep (.make tableMetadata) = .ok s.planner
  failed : s.calls.findSome? AddEntryCall.failure ≠ none →
    ∃ message, taken.foldlM runSubStep (.make tableMetadata) = .error message

open ReferencedDataFileAwareScanPlannerMT

/-- What a step of a call can do: return at once for a deleted entry, or take the next sub-step. -/
lemma stepCall_cases {p p' : ReferencedDataFileAwareScanPlanner} {call : AddEntryCall} {phase : AddEntryPhase}
    (h : stepCall p call = some (p', phase)) :
    call.failure = none ∧
      ((pendingSubSteps call = [] ∧ p' = p ∧ phase = .returned) ∨
        ∃ a rest, pendingSubSteps call = a :: rest ∧
          ((runSubStep p a = .ok p' ∧ AddEntryCall.failure { call with phase := phase } = none ∧
              pendingSubSteps { call with phase := phase } = rest) ∨
            ((∃ message, runSubStep p a = .error message) ∧ ∃ message, phase = .failed message))) := by
  obtain ⟨entry, callPhase⟩ := call
  cases callPhase with
  | returned => cases h
  | failed message => cases h
  | called =>
    refine ⟨rfl, ?_⟩
    simp only [stepCall] at h
    by_cases hdeleted : entry.status = .deleted
    · rw [if_pos hdeleted] at h
      cases h
      exact .inl ⟨by simp [pendingSubSteps, subStepsOf, hdeleted], rfl, rfl⟩
    · rw [if_neg hdeleted] at h
      refine .inr ⟨.note entry, [.store entry], by simp [pendingSubSteps, subStepsOf, hdeleted], ?_⟩
      cases hnote : p.noteEntry entry with
      | ok noted =>
        rw [hnote] at h
        cases h
        exact .inl ⟨hnote, rfl, rfl⟩
      | error message =>
        rw [hnote] at h
        cases h
        exact .inr ⟨⟨message, hnote⟩, message, rfl⟩
  | noted =>
    refine ⟨rfl, .inr ⟨.store entry, [], rfl, ?_⟩⟩
    simp only [stepCall] at h
    cases hstore : p.builder.addEntry entry with
    | ok builder =>
      rw [hstore] at h
      cases h
      refine .inl ⟨?_, rfl, rfl⟩
      rw [runSubStep, hstore]
      rfl
    | error message =>
      rw [hstore] at h
      cases h
      refine .inr ⟨⟨message, ?_⟩, message, rfl⟩
      rw [runSubStep, hstore]
      rfl

/-- A step rewrites one call and leaves the others. -/
lemma step_split {s s' : ReferencedDataFileAwareScanPlannerMT} {index : Nat} (h : s.step index = some s') :
    ∃ before call after phase, s.calls = before ++ call :: after ∧
      stepCall s.planner call = some (s'.planner, phase) ∧
      s'.calls = before ++ { call with phase := phase } :: after := by
  unfold ReferencedDataFileAwareScanPlannerMT.step at h
  cases hcall : s.calls[index]? with
  | none =>
    rw [hcall] at h
    cases h
  | some call =>
    obtain ⟨hlt, hget⟩ := List.getElem?_eq_some_iff.mp hcall
    simp only [hcall] at h
    obtain ⟨⟨planner, phase⟩, hstep, rfl⟩ := Option.map_eq_some_iff.mp h
    refine ⟨s.calls.take index, call, s.calls.drop (index + 1), phase, ?_, hstep, ?_⟩
    · rw [← hget, ← List.drop_eq_getElem_cons hlt, List.take_append_drop]
    · change s.calls.set index { call with phase := phase } = _
      rw [List.set_eq_take_append_cons_drop, if_pos hlt]

lemma findSome?_failure_split {before after : List AddEntryCall} {call : AddEntryCall} :
    (before ++ call :: after).findSome? AddEntryCall.failure = none ↔
      call.failure = none ∧ (before ++ after).findSome? AddEntryCall.failure = none := by
  simp only [List.findSome?_eq_none_iff, List.mem_append, List.mem_cons]
  grind

lemma Interleaved.step {tableMetadata : TableMetadata} {entries : List ManifestEntry}
    {s s' : ReferencedDataFileAwareScanPlannerMT} {taken left : List SubStep} {index : Nat}
    (hs : Interleaved tableMetadata entries s taken left) (h : s.step index = some s') :
    ∃ taken' left', Interleaved tableMetadata entries s' taken' left' := by
  obtain ⟨before, call, after, phase, hcalls, hstep, hcalls'⟩ := step_split h
  obtain ⟨hfailure, hcases⟩ := stepCall_cases hstep
  have hsame : s.calls.findSome? AddEntryCall.failure = none ↔
      (before ++ after).findSome? AddEntryCall.failure = none := by
    rw [hcalls, findSome?_failure_split, and_iff_right hfailure]
  by_cases hrunning : (before ++ after).findSome? AddEntryCall.failure = none
  · obtain ⟨hleft, hplanner⟩ := hs.running (hsame.mpr hrunning)
    have hperm := hs.perm
    rw [hleft, hcalls, List.flatMap_append, List.flatMap_cons] at hperm
    have htaken : ∀ a, (taken ++ [a]).foldlM runSubStep (.make tableMetadata) = runSubStep s.planner a := by
      intro a
      rw [List.foldlM_append, hplanner]
      simp
    rcases hcases with ⟨hpending, hsamePlanner, rfl⟩ | ⟨a, rest, hpending, hrest⟩
    · rw [hpending, List.nil_append] at hperm
      refine ⟨taken, before.flatMap pendingSubSteps ++ after.flatMap pendingSubSteps, hperm, fun _ => ⟨?_, ?_⟩, ?_⟩
      · rw [hcalls', List.flatMap_append, List.flatMap_cons]
        rfl
      · rw [hsamePlanner]
        exact hplanner
      · rw [hcalls', Ne, findSome?_failure_split]
        exact fun hne => absurd ⟨rfl, hrunning⟩ hne
    · have hperm' : ((taken ++ [a]) ++
          (before.flatMap pendingSubSteps ++ (rest ++ after.flatMap pendingSubSteps))).Perm
          (entries.flatMap subStepsOf) := by
        rw [hpending, List.cons_append] at hperm
        have hmiddle := @List.perm_middle _ a (before.flatMap pendingSubSteps) (rest ++ after.flatMap pendingSubSteps)
        rw [List.append_assoc]
        exact (hmiddle.symm.append_left taken).trans hperm
      refine ⟨taken ++ [a], _, hperm', ?_, ?_⟩
      · intro hnone
        rw [hcalls', findSome?_failure_split] at hnone
        rcases hrest with ⟨hrun, -, hpending'⟩ | ⟨-, message, rfl⟩
        · refine ⟨?_, by rw [htaken, hrun]⟩
          rw [hcalls', List.flatMap_append, List.flatMap_cons, hpending']
        · cases hnone.1
      · intro hne
        rw [hcalls', Ne, findSome?_failure_split] at hne
        rcases hrest with ⟨-, hnone, -⟩ | ⟨⟨message, hrun⟩, -⟩
        · exact absurd ⟨hnone, hrunning⟩ hne
        · exact ⟨message, by rw [htaken, hrun]⟩
  · -- the failure of another call stays
    refine ⟨taken, left, hs.perm, fun hnone => ?_, fun _ => hs.failed (fun hnone => hrunning (hsame.mp hnone))⟩
    rw [hcalls', findSome?_failure_split] at hnone
    exact absurd hnone.2 hrunning

lemma interleaved_start (tableMetadata : TableMetadata) (entries : List ManifestEntry) :
    Interleaved tableMetadata entries (start tableMetadata entries) [] (entries.flatMap subStepsOf) where
  perm := .refl _
  running _ := by
    refine ⟨?_, rfl⟩
    rw [start, List.flatMap_map]
    rfl
  failed hne := by
    refine absurd ?_ hne
    rw [List.findSome?_eq_none_iff]
    intro call hcall
    obtain ⟨entry, -, rfl⟩ := List.mem_map.mp hcall
    rfl

/-- The result of finished calls is that of the sub-steps in some order. -/
lemma Interleaved.result_agree {tableMetadata : TableMetadata} {entries : List ManifestEntry}
    {s : ReferencedDataFileAwareScanPlannerMT} {taken left : List SubStep}
    (hs : Interleaved tableMetadata entries s taken left) (hfinished : s.finished = true) :
    Agree Eq s.result
      ((taken ++ left).foldlM runSubStep (.make tableMetadata) >>= ReferencedDataFileAwareScanPlanner.getResult) := by
  rw [List.foldlM_append]
  unfold ReferencedDataFileAwareScanPlannerMT.result
  cases hfailure : s.calls.findSome? AddEntryCall.failure with
  | some message =>
    obtain ⟨message', htaken⟩ := hs.failed (by rw [hfailure]; exact Option.some_ne_none _)
    rw [htaken]
    exact .error _ _
  | none =>
    obtain ⟨hleft, htaken⟩ := hs.running hfailure
    have hnothing : left = [] := by
      rw [hleft, List.flatMap_eq_nil_iff]
      intro call hcall
      have hcalled := List.all_eq_true.mp hfinished call hcall
      obtain ⟨entry, phase⟩ := call
      cases phase with
      | called => cases hcalled
      | noted => cases hcalled
      | returned => rfl
      | failed message => rfl
    rw [htaken, hnothing]
    exact .of_eq rfl

/-- The results that the planner can give for some entries: one call after another, or with their steps interleaved. -/
inductive PlansTo (tableMetadata : TableMetadata) (entries : List ManifestEntry) : Except String ScanMetadata → Prop
  | inOrder : PlansTo tableMetadata entries (getScanMetadata tableMetadata entries)
  | interleaved {schedule : List Nat} {s : ReferencedDataFileAwareScanPlannerMT}
      (hrun : schedule.foldlM step (start tableMetadata entries) = some s) (hfinished : s.finished = true) :
      PlansTo tableMetadata entries s.result

/-- Every such result is that of the sub-steps in some order. -/
lemma PlansTo.subSteps {tableMetadata : TableMetadata} {entries : List ManifestEntry}
    {result : Except String ScanMetadata} (h : PlansTo tableMetadata entries result) :
    ∃ steps : List SubStep, steps.Perm (entries.flatMap subStepsOf) ∧ Agree Eq result
      (steps.foldlM runSubStep (.make tableMetadata) >>= ReferencedDataFileAwareScanPlanner.getResult) := by
  cases h with
  | inOrder =>
    refine ⟨_, .refl _, ?_⟩
    rw [getScanMetadata, addEntries_subSteps]
    exact .of_eq rfl
  | @interleaved schedule s hrun hfinished =>
    obtain ⟨taken, left, hs⟩ := foldlM_invariant
      (P := fun s => ∃ taken left, Interleaved tableMetadata entries s taken left)
      ⟨_, _, interleaved_start tableMetadata entries⟩
      (fun s index s' hs hstep => hs.elim (fun taken hs => hs.elim (fun left hs => hs.step hstep))) hrun
    exact ⟨taken ++ left, hs.perm, hs.result_agree hfinished⟩

lemma samePlan_equivalence : Equivalence SamePlan := by
  have hlayers : Equivalence SameLayer :=
    ⟨fun _ => ⟨.refl _, .refl _, .refl _⟩, fun h => ⟨h.data.symm, h.positional.symm, h.equality.symm⟩,
      fun h h' => ⟨h.data.trans h'.data, h.positional.trans h'.positional, h.equality.trans h'.equality⟩⟩
  have hpartitions := forall₂_equivalence (forall₂_equivalence hlayers)
  exact ⟨fun _ => ⟨rfl, hpartitions.refl _⟩, fun h => ⟨h.schema.symm, hpartitions.symm h.partitions⟩,
    fun h h' => ⟨h.schema.trans h'.schema, hpartitions.trans h.partitions h'.partitions⟩⟩

/-- Neither the order of the entries nor the interleaving of concurrent calls matters: both runs fail, or both
give the same plan up to the order of the entries inside each layer. -/
theorem plansTo_agree (tableMetadata : TableMetadata) (entries entries' : List ManifestEntry)
    (hperm : entries.Perm entries') (hvectors : VectorsApart entries) (result result' : Except String ScanMetadata)
    (h : PlansTo tableMetadata entries result) (h' : PlansTo tableMetadata entries' result') :
    Agree SamePlan result result' := by
  obtain ⟨steps, hsteps, hresult⟩ := h.subSteps
  obtain ⟨steps', hsteps', hresult'⟩ := h'.subSteps
  have htrans : ∀ a b c, SamePlan a b → SamePlan b c → SamePlan a c := fun _ _ _ => samePlan_equivalence.trans
  have hof : ∀ {x y : Except String ScanMetadata}, Agree Eq x y → Agree SamePlan x y := by
    intro x y hxy
    apply hxy.imp
    rintro a _ rfl
    exact samePlan_equivalence.refl a
  have hsame : steps.Perm steps' := hsteps.trans ((hperm.flatMap_right _).trans hsteps'.symm)
  have hapart : steps.Pairwise Independent :=
    (hsteps.pairwise_iff (fun {_ _} => Independent.symm)).mpr (subSteps_pairwise hvectors)
  apply (hof hresult).trans htrans
  apply (subSteps_agree tableMetadata hsame hapart).trans htrans
  exact hof (hresult'.symm (fun _ _ => Eq.symm))

/-- Four calls that all note their entries before the first one stores its file. -/
theorem annotatedEntries_interleaved_agree : ∃ s plan plan',
    [0, 1, 2, 3, 3, 2, 1, 0].foldlM step (start flatTable annotatedEntries.reverse) = some s ∧
      getScanMetadata flatTable annotatedEntries = .ok plan ∧ s.result = .ok plan' ∧ SamePlan plan plan' := by
  have hrun : ([0, 1, 2, 3, 3, 2, 1, 0].foldlM step (start flatTable annotatedEntries.reverse)).map
      ReferencedDataFileAwareScanPlannerMT.finished = some true := by rfl
  obtain ⟨s, hs, hfinished⟩ := Option.map_eq_some_iff.mp hrun
  obtain ⟨plan, hplan⟩ : ∃ plan, getScanMetadata flatTable annotatedEntries = .ok plan := ⟨_, rfl⟩
  have hagree := plansTo_agree flatTable annotatedEntries annotatedEntries.reverse
    (List.reverse_perm _).symm (by decide) _ _ .inOrder (.interleaved hs hfinished)
  rw [hplan] at hagree
  generalize hresult : s.result = result at hagree
  cases hagree with
  | ok h => exact ⟨s, plan, _, hs, hplan, hresult, h⟩

end IcebergCxx.Proofs
