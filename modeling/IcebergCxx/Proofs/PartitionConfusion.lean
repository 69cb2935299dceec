import IcebergCxx.Proofs.PartitionKey
import IcebergCxx.Proofs.PlanLaw

/-!
# When partitions are not confused

Serialized keys separate the tuples of a specification, and the plan keeps the partitions
apart, exactly when at most one field of the specification has values of variable length.
-/

namespace IcebergCxx.Proofs

open Lib

/-- A data file of the plan has only deletes of its own partition tuple, apart from the
equality deletes without a partition. -/
structure OwnPartition (es : List ManifestEntry) (e : ManifestEntry)
    (item : Reach DataEntry PositionalDeleteInfo EqualityDeleteInfo) : Prop where
  path : item.item.path = e.dataFile.filePath
  positional : item.first ≤ ((es.filter (fun x => isPositional x &&
    decide (x.dataFile.partitionTuple = e.dataFile.partitionTuple))).map
      (fun x => ⟨x.dataFile.filePath⟩) : List PositionalDeleteInfo)
  equality : item.second ≤ ((es.filter (fun x => isEquality x && (x.dataFile.partitionTuple.fields.isEmpty ||
    decide (x.dataFile.partitionTuple = e.dataFile.partitionTuple)))).map equalityOf : List EqualityDeleteInfo)
  vector : ∀ dv, item.item.dv = some dv → ∃ x ∈ es, isVector x = true ∧
    x.dataFile.partitionTuple = e.dataFile.partitionTuple ∧ dv = vectorOf x

/-- Partition keys are not confused: equal keys are keys of equal tuples, the empty key is the
key of the empty tuple, and no plan mixes partitions. -/
structure NotConfused (decimalSize : Int → Nat) (spec : List PartitionKeyField) : Prop where
  injective : ∀ t t' : PartitionTuple, Conforms decimalSize spec t → Conforms decimalSize spec t' →
    serializePartitionTuple t = serializePartitionTuple t' → t = t'
  empty : ∀ t : PartitionTuple, Conforms decimalSize spec t → serializePartitionTuple t = [] → t.fields = []
  apart : ∀ (tableMetadata : TableMetadata) (es : List ManifestEntry) (b : ScanMetadataBuilder)
    (result : ScanMetadata), (∀ e ∈ es, Conforms decimalSize spec e.dataFile.partitionTuple) →
    ({ tableMetadata := tableMetadata } : ScanMetadataBuilder).addEntries es = .ok b →
    b.getResult = .ok result →
    Multiset.Rel (OwnPartition es) (es.filter isData : List ManifestEntry) (planReach result.partitions)

lemma map_filter_le {A B : Type} {p q : A → Bool} (f : A → B) (l : List A) (h : ∀ a ∈ l, p a = true → q a = true) :
    ((l.filter p).map f : Multiset B) ≤ ((l.filter q).map f : List B) := by
  refine Multiset.coe_le.mpr (List.Sublist.subperm (List.Sublist.map f ?_))
  have heq : l.filter p = (l.filter q).filter p := by
    rw [List.filter_filter]
    refine List.filter_congr (fun a ha => ?_)
    cases hp : p a with
    | false => rfl
    | true => simp [h a ha hp]
  rw [heq]
  exact List.filter_sublist

/-- Keys that separate the tuples separate the partitions of every plan. -/
lemma ownPartition_of_injective {tableMetadata : TableMetadata} {es : List ManifestEntry} {b : ScanMetadataBuilder}
    {result : ScanMetadata}
    (hinj : ∀ x ∈ es, ∀ y ∈ es, keyOf x = keyOf y → x.dataFile.partitionTuple = y.dataFile.partitionTuple)
    (hadd : ({ tableMetadata := tableMetadata } : ScanMetadataBuilder).addEntries es = .ok b)
    (hres : b.getResult = .ok result) :
    Multiset.Rel (OwnPartition es) (es.filter isData : List ManifestEntry) (planReach result.partitions) := by
  obtain ⟨-, hb⟩ := addEntries_ok_iff.mp hadd
  change b = builderOf tableMetadata es at hb
  subst hb
  have hshrinks := getResult_shrinks hres
  rw [dataContents_builderOf, Multiset.map_coe, List.map_map, ← Multiset.map_coe, Multiset.rel_map_left] at hshrinks
  refine hshrinks.mono (fun e he item _ hitem => ?_)
  obtain ⟨h1, h2, h3⟩ := hitem
  have hes : e ∈ es := (List.mem_filter.mp he).1
  simp only [Function.comp_apply] at h1 h2 h3
  rw [first_builderItem, Multiset.map_coe, List.map_map] at h3
  rw [second_builderItem] at h2
  obtain ⟨hpath, -, -, hdv⟩ :=
    @item_builderItem tableMetadata es (keyOf e) (seqOf e) (dataEntryOf e) rfl
  refine ⟨by rw [h1, hpath]; rfl, h3.trans ?_, h2.le.trans ?_, ?_⟩
  · refine map_filter_le _ _ (fun x hx hp => ?_)
    simp only [Bool.and_eq_true, decide_eq_true_eq] at hp ⊢
    exact ⟨hp.1.1, hinj x hx e hes hp.1.2⟩
  · refine map_filter_le _ _ (fun x hx hp => ?_)
    simp only [Bool.and_eq_true, Bool.or_eq_true, decide_eq_true_eq, List.isEmpty_iff] at hp ⊢
    refine ⟨hp.1.1, ?_⟩
    rcases hp.2 with hk | hk
    · exact .inl (serializeFields_eq_nil hk)
    · exact .inr (hinj x hx e hes hk)
  · intro dv h
    rw [h1] at h
    obtain ⟨x, hx, hv, hk, -, -, rfl⟩ := hdv dv h
    exact ⟨x, hx, hv, hinj x hx e hes hk, rfl⟩

/-- Partition keys of a specification are not confused if and only if at most one of its
fields has string or binary values. -/
theorem notConfused_iff (decimalSize : Int → Nat) (spec : List PartitionKeyField) :
    NotConfused decimalSize spec ↔ (spec.filter (·.isVariable)).length ≤ 1 := by
  constructor
  · intro h
    by_contra hlen
    obtain ⟨t, t', ht, ht', heq, hne⟩ := @exists_confused decimalSize _
      (show 2 ≤ (spec.filter (·.isVariable)).length by exact Nat.lt_of_not_le hlen)
    exact hne (h.injective t t' ht ht' heq)
  · intro hlen
    have hinj : ∀ t t' : PartitionTuple, Conforms decimalSize spec t → Conforms decimalSize spec t' →
        serializePartitionTuple t = serializePartitionTuple t' → t = t' := by
      intro t t' ht ht' heq
      have hfields : t.fields = t'.fields := serializeFields_inj hlen ht ht' heq
      cases t; cases t'
      exact congrArg _ hfields
    refine ⟨hinj, fun t _ h => serializeFields_eq_nil h, ?_⟩
    intro tableMetadata es b result hconf hadd hres
    exact ownPartition_of_injective (fun x hx y hy hk => hinj _ _ (hconf x hx) (hconf y hy) hk) hadd hres

/-- Two string fields, of names of one letter. -/
def twoStrings : List PartitionKeyField := [⟨bytes "a", some .string⟩, ⟨bytes "b", some .string⟩]

def confusedTuple (v w : Bytes) : PartitionTuple :=
  ⟨[⟨bytes "a", .string v, some .string⟩, ⟨bytes "b", .string w, some .string⟩]⟩

/-- The first value of the second tuple contains the length of the first key and the head of the second. -/
theorem twoStrings_confused :
    let x := List.replicate 90 (48 : Byte)
    let t := confusedTuple [] (x ++ bytes "107" ++ bytes "bstring6" ++ bytes "000")
    let t' := confusedTuple (bytes "8bstring6" ++ x) (bytes "0001")
    Conforms (fun _ => 0) twoStrings t ∧ Conforms (fun _ => 0) twoStrings t' ∧
      serializePartitionTuple t = serializePartitionTuple t' ∧ t ≠ t' ∧ ¬NotConfused (fun _ => 0) twoStrings := by
  intro x t t'
  have ht : Conforms (fun _ => 0) twoStrings t := .cons rfl (.cons rfl .nil)
  have ht' : Conforms (fun _ => 0) twoStrings t' := .cons rfl (.cons rfl .nil)
  have heq : serializePartitionTuple t = serializePartitionTuple t' := by decide +kernel
  have hne : t ≠ t' := by decide
  exact ⟨ht, ht', heq, hne, fun h => hne (h.injective t t' ht ht' heq)⟩

end IcebergCxx.Proofs
