import IcebergCxx.Proofs.MetadataTree

/-!
# Moving metadata trees

`FixLocation` renames the location, the metadata files and the data and delete files. The statistics files and the data
files that delete entries reference keep their old paths.
-/

namespace IcebergCxx.Proofs

open Lib

variable {fix : StringFix} {tree : MetadataTree} {trees : List MetadataTree} {path rest str : Bytes}

/-! ### The paths of a tree -/

def statisticsPaths (tree : MetadataTree) : List Bytes :=
  tree.metadataFile.statistics.map Statistics.statisticsPath

def treeEntries (tree : MetadataTree) : List ManifestEntry := tree.manifests.values.flatMap Manifest.entries

/-- The data files that delete entries reference. -/
def referencedPaths (tree : MetadataTree) : List Bytes :=
  (treeEntries tree).filterMap (fun entry => entry.dataFile.referencedDataFile)

/-- The paths of the metadata side of a tree. -/
def metaStrings (tree : MetadataTree) : List Bytes := tree.metaPaths ++ statisticsPaths tree

/-- The paths in its manifests. -/
def dataStrings (tree : MetadataTree) : List Bytes := tree.dataPaths ++ referencedPaths tree

def treePaths (tree : MetadataTree) : List Bytes := tree.metadataFile.location :: (metaStrings tree ++ dataStrings tree)

/-- The paths that are renamed, and those that are not. -/
def fixedPaths (tree : MetadataTree) : List Bytes := tree.metadataFile.location :: (tree.metaPaths ++ tree.dataPaths)

def forgottenPaths (tree : MetadataTree) : List Bytes := statisticsPaths tree ++ referencedPaths tree

lemma mem_treePaths : path ∈ treePaths tree ↔ path ∈ fixedPaths tree ∨ path ∈ forgottenPaths tree := by
  simp only [treePaths, fixedPaths, forgottenPaths, metaStrings, dataStrings, List.mem_cons, List.mem_append]
  tauto

/-! ### Renaming -/

/-- The text stands in the path only at its start. -/
def OnlyAsPrefix (fromText path : Bytes) : Prop := ∀ l rest, path = l ++ fromText ++ rest → l = []

lemma onlyAsPrefix_iff {fromText : Bytes} :
    OnlyAsPrefix fromText path ↔ ∀ n < path.length, ¬fromText <+: path.drop (n + 1) := by
  constructor
  · rintro h n hn ⟨rest, hrest⟩
    have hsplit : path = path.take (n + 1) ++ fromText ++ rest := by
      rw [List.append_assoc, hrest, List.take_append_drop]
    have hlength := congrArg List.length (h _ _ hsplit)
    rw [List.length_take, List.length_nil] at hlength
    omega
  · rintro h l rest rfl
    cases l with
    | nil => rfl
    | cons c l =>
      refine absurd ⟨rest, ?_⟩ (h l.length (by simp))
      rw [← List.length_cons, List.append_assoc, List.drop_left]

instance (fromText path : Bytes) : Decidable (OnlyAsPrefix fromText path) := decidable_of_iff _ onlyAsPrefix_iff.symm

lemma replacePattern_of_prefix (h : OnlyAsPrefix fix.fromText (fix.fromText ++ rest)) :
    replacePattern fix (fix.fromText ++ rest) = some (fix.toText ++ rest) := by
  cases hfind : find fix.fromText (fix.fromText ++ rest) with
  | none => exact absurd (List.prefix_append _ _).isInfix (find_eq_none_iff.mp hfind)
  | some pos =>
    have hsplit := drop_find hfind
    have hfront := h _ _ hsplit
    rw [hfront, List.nil_append] at hsplit
    rw [replacePattern, hfind, Option.map_some, hfront, List.nil_append, ← List.append_cancel_left hsplit]

lemma replacePattern_of_not_prefix (h : OnlyAsPrefix fix.fromText path) (hpath : ¬fix.fromText <+: path) :
    replacePattern fix path = none := by
  rw [replacePattern, Option.map_eq_none_iff, find_eq_none_iff]
  rintro ⟨l, rest, hsplit⟩
  have hfront := h l rest hsplit.symm
  rw [hfront] at hsplit
  exact hpath ⟨rest, hsplit⟩

/-- The new path starts with the old prefix again. -/
def BroughtBack (fix : StringFix) (path : Bytes) : Prop :=
  fix.fromText <+: fix.toText ∨ ∃ t, fix.fromText = fix.toText ++ t ∧ fix.fromText ++ t <+: path

lemma prefix_renamed_iff : fix.fromText <+: fix.toText ++ rest ↔ BroughtBack fix (fix.fromText ++ rest) := by
  simp only [BroughtBack, List.prefix_append_right_inj]
  constructor
  · rintro ⟨t, ht⟩
    obtain ⟨t', hto, -⟩ | ⟨t', hfrom, hrest⟩ := List.append_eq_append_iff.mp ht
    · exact .inl ⟨t', hto.symm⟩
    · exact .inr ⟨t', hfrom, t, hrest.symm⟩
  · rintro (hto | ⟨t, hfrom, ht⟩)
    · exact hto.trans (List.prefix_append _ _)
    · rw [hfrom]
      exact (List.prefix_append_right_inj _).mpr ht

/-- A renamed path has the old prefix only where the new one brings it back. -/
lemma prefix_fixString_iff (h : OnlyAsPrefix fix.fromText path) :
    fix.fromText <+: fixString fix path ↔ fix.fromText <+: path ∧ BroughtBack fix path := by
  by_cases hpath : fix.fromText <+: path
  · obtain ⟨rest, rfl⟩ := hpath
    rw [fixString, replacePattern_of_prefix h, Option.getD_some, prefix_renamed_iff]
    exact ⟨fun hback => ⟨List.prefix_append _ _, hback⟩, fun hback => hback.2⟩
  · rw [fixString, replacePattern_of_not_prefix h hpath, Option.getD_none]
    exact ⟨fun h => absurd h hpath, fun h => h.1⟩

/-- What is recorded for a list of paths. -/
lemma find?_recordRename (l : List Bytes) (renames : OrdMap Bytes Bytes) (str : Bytes) :
    (l.foldl (recordRename fix) renames).find? str =
      if str ∈ l then (replacePattern fix str).or (renames.find? str) else renames.find? str := by
  induction l generalizing renames with
  | nil => rfl
  | cons path l ih =>
    have hhead : (recordRename fix renames path).find? str =
        if str = path then (replacePattern fix str).or (renames.find? str) else renames.find? str := by
      unfold recordRename
      split <;> rename_i hreplace
      · rw [OrdMap.find?_insert]
        split_ifs with heq
        · rw [heq, hreplace, Option.some_or]
        · rfl
      · split_ifs with heq
        · rw [heq, hreplace, Option.none_or]
        · rfl
    rw [List.foldl_cons, ih, hhead]
    by_cases heq : str = path
    · simp only [heq, if_true, List.mem_cons_self]
      split_ifs
      · cases replacePattern fix path <;> rfl
      · rfl
    · simp only [heq, if_false, List.mem_cons, false_or]

/-! ### The trees afterwards -/

/-- The tree that `FixLocation` leaves. -/
def fixTree (fix : StringFix) (tree : MetadataTree) : MetadataTree := (tree.fixLocation fix {}).1

lemma fixLocations_eq (trees : List MetadataTree) (renames : Renames) :
    MetadataTree.fixLocations fix trees renames =
      (trees.map (fixTree fix),
        { renamesData := (trees.flatMap MetadataTree.dataPaths).foldl (recordRename fix) renames.renamesData
          renamesMeta := (trees.flatMap MetadataTree.metaPaths).foldl (recordRename fix) renames.renamesMeta
          renameLocations := (trees.flatMap (fun tree => [tree.metadataFile.location])).foldl (recordRename fix)
            renames.renameLocations }) := by
  induction trees generalizing renames with
  | nil => rfl
  | cons tree trees ih =>
    simp only [MetadataTree.fixLocations, ih, List.flatMap_cons, List.foldl_append]
    rfl

lemma metaPaths_fixTree : (fixTree fix tree).metaPaths = tree.metaPaths.map (fixString fix) := by
  simp only [MetadataTree.metaPaths, fixTree, MetadataTree.fixLocation, OrdMap.values_map, List.map_append,
    List.map_map, List.map_flatten, Function.comp_def]

lemma treeEntries_fixTree :
    treeEntries (fixTree fix tree) = (treeEntries tree).map (MetadataTree.fixEntry fix) := by
  simp only [treeEntries, fixTree, MetadataTree.fixLocation, OrdMap.values_map, List.flatMap_map, List.map_flatMap]

lemma dataPaths_fixTree : (fixTree fix tree).dataPaths = tree.dataPaths.map (fixString fix) := by
  change (treeEntries (fixTree fix tree)).map _ = ((treeEntries tree).map _).map _
  rw [treeEntries_fixTree, List.map_map, List.map_map]
  rfl

lemma referencedPaths_fixTree : referencedPaths (fixTree fix tree) = referencedPaths tree := by
  rw [referencedPaths, treeEntries_fixTree, List.filterMap_map]
  rfl

lemma forgottenPaths_fixTree : forgottenPaths (fixTree fix tree) = forgottenPaths tree := by
  rw [forgottenPaths, referencedPaths_fixTree]
  rfl

lemma fixedPaths_fixTree : fixedPaths (fixTree fix tree) = (fixedPaths tree).map (fixString fix) := by
  rw [fixedPaths, metaPaths_fixTree, dataPaths_fixTree, fixedPaths, List.map_cons, List.map_append]
  rfl

/-! ### Relocation -/

/-- An entry that references a data file of the tree references the same file in the other tree. -/
def KeepsReferences (tree tree' : MetadataTree) : Prop :=
  ∀ (i j : Nat) (entry data : ManifestEntry),
    (treeEntries tree)[i]? = some entry → (treeEntries tree)[j]? = some data →
      entry.dataFile.referencedDataFile = some data.dataFile.filePath →
        ∃ entry' data', (treeEntries tree')[i]? = some entry' ∧ (treeEntries tree')[j]? = some data' ∧
          entry'.dataFile.referencedDataFile = some data'.dataFile.filePath

/-- The strings of the trees before and after. -/
def stringPairs (strings : MetadataTree → List Bytes) (trees trees' : List MetadataTree) : List (Bytes × Bytes) :=
  (trees.zip trees').flatMap (fun p => (strings p.1).zip (strings p.2))

/-- The map has exactly the pairs that differ. -/
def Records (renames : OrdMap Bytes Bytes) (pairs : List (Bytes × Bytes)) : Prop :=
  ∀ old new, renames.find? old = some new ↔ (old, new) ∈ pairs ∧ old ≠ new

/-- No path has the old prefix any more, the delete entries reference what they did, and the maps record what has
changed. -/
structure Relocated (fix : StringFix) (trees trees' : List MetadataTree) (renames : Renames) : Prop where
  noOldPrefix : ∀ tree ∈ trees', ∀ path ∈ treePaths tree, ¬fix.fromText <+: path
  references : List.Forall₂ KeepsReferences trees trees'
  locations : Records renames.renameLocations (stringPairs (fun tree => [tree.metadataFile.location]) trees trees')
  metadata : Records renames.renamesMeta (stringPairs metaStrings trees trees')
  data : Records renames.renamesData (stringPairs dataStrings trees trees')

/-- No path that is forgotten has the old prefix, and no path that is renamed gets it again. -/
def Relocatable (fix : StringFix) (tree : MetadataTree) : Prop :=
  (∀ path ∈ forgottenPaths tree, ¬fix.fromText <+: path) ∧
    ∀ path ∈ fixedPaths tree, fix.fromText <+: path → ¬BroughtBack fix path

lemma noOldPrefix_iff (h : ∀ path ∈ treePaths tree, OnlyAsPrefix fix.fromText path) :
    (∀ path ∈ treePaths (fixTree fix tree), ¬fix.fromText <+: path) ↔ Relocatable fix tree := by
  have hfixed : (∀ path ∈ fixedPaths (fixTree fix tree), ¬fix.fromText <+: path) ↔
      ∀ path ∈ fixedPaths tree, fix.fromText <+: path → ¬BroughtBack fix path := by
    rw [fixedPaths_fixTree, List.forall_mem_map]
    refine forall₂_congr (fun path hpath => ?_)
    rw [prefix_fixString_iff (h path (mem_treePaths.mpr (.inl hpath))), not_and]
  simp only [mem_treePaths, or_imp, forall_and, forgottenPaths_fixTree]
  rw [hfixed, Relocatable, and_comm]

/-- Where paths do not get the old prefix again, what is recorded is what is changed. -/
lemma replacePattern_eq_some_iff (h : OnlyAsPrefix fix.fromText path)
    (hback : fix.fromText <+: path → ¬BroughtBack fix path) :
    replacePattern fix path = some str ↔ str = fixString fix path ∧ path ≠ str := by
  by_cases hpath : fix.fromText <+: path
  · obtain ⟨rest, rfl⟩ := hpath
    have hne : fix.fromText ++ rest ≠ fix.toText ++ rest := by
      intro heq
      exact hback (List.prefix_append _ _) (prefix_renamed_iff.mp ⟨rest, heq⟩)
    rw [fixString, replacePattern_of_prefix h, Option.getD_some, Option.some_inj]
    constructor
    · rintro rfl
      exact ⟨rfl, hne⟩
    · rintro ⟨rfl, -⟩
      rfl
  · rw [fixString, replacePattern_of_not_prefix h hpath, Option.getD_none]
    exact ⟨nofun, fun ⟨heq, hne⟩ => absurd heq.symm hne⟩

lemma zip_map_self {α β : Type} (l : List α) (f : α → β) : l.zip (l.map f) = l.map (fun x => (x, f x)) := by
  simpa using List.zip_map' (f := id) (g := f) (l := l)

/-- The pairs that differ are those of the renamed strings. -/
lemma mem_stringPairs {strings fixed kept : MetadataTree → List Bytes}
    (hbefore : ∀ tree, strings tree = fixed tree ++ kept tree)
    (hafter : ∀ tree, strings (fixTree fix tree) = (fixed tree).map (fixString fix) ++ kept tree) {old new : Bytes} :
    (old, new) ∈ stringPairs strings trees (trees.map (fixTree fix)) ∧ old ≠ new ↔
      old ∈ trees.flatMap fixed ∧ new = fixString fix old ∧ old ≠ new := by
  have hkept (l : List Bytes) : l.zip l = l.map (fun x => (x, x)) := by
    simpa using zip_map_self l id
  have htree (tree : MetadataTree) : (strings tree).zip (strings (fixTree fix tree)) =
      (fixed tree).map (fun x => (x, fixString fix x)) ++ (kept tree).map (fun x => (x, x)) := by
    rw [hbefore, hafter, List.zip_append (by rw [List.length_map]), zip_map_self, hkept]
  rw [stringPairs, zip_map_self, List.flatMap_map]
  simp only [htree, List.mem_flatMap, List.mem_append, List.mem_map, Prod.mk.injEq]
  constructor
  · rintro ⟨⟨tree, htree, ⟨x, hx, rfl, rfl⟩ | ⟨x, -, rfl, rfl⟩⟩, hne⟩
    · exact ⟨⟨tree, htree, hx⟩, rfl, hne⟩
    · exact absurd rfl hne
  · rintro ⟨⟨tree, htree, hx⟩, rfl, hne⟩
    exact ⟨⟨tree, htree, .inl ⟨old, hx, rfl, rfl⟩⟩, hne⟩

/-- The map of one kind of strings records what has changed. -/
lemma records_foldl {strings fixed kept : MetadataTree → List Bytes}
    (hbefore : ∀ tree, strings tree = fixed tree ++ kept tree)
    (hafter : ∀ tree, strings (fixTree fix tree) = (fixed tree).map (fixString fix) ++ kept tree)
    (h : ∀ path ∈ trees.flatMap fixed, OnlyAsPrefix fix.fromText path)
    (hback : ∀ path ∈ trees.flatMap fixed, fix.fromText <+: path → ¬BroughtBack fix path) :
    Records ((trees.flatMap fixed).foldl (recordRename fix) ∅)
      (stringPairs strings trees (trees.map (fixTree fix))) := by
  intro old new
  rw [mem_stringPairs hbefore hafter, find?_recordRename, OrdMap.find?_empty, Option.or_none]
  split_ifs with hmem
  · rw [replacePattern_eq_some_iff (h old hmem) (hback old hmem)]
    exact ⟨fun hnew => ⟨hmem, hnew⟩, fun hnew => hnew.2⟩
  · exact ⟨nofun, fun hnew => absurd hnew.1 hmem⟩

lemma keepsReferences_fixTree (h : ∀ path ∈ treePaths tree, OnlyAsPrefix fix.fromText path)
    (hforgotten : ∀ path ∈ forgottenPaths tree, ¬fix.fromText <+: path) :
    KeepsReferences tree (fixTree fix tree) := by
  intro i j entry data hentry hdata href
  refine ⟨MetadataTree.fixEntry fix entry, MetadataTree.fixEntry fix data, ?_, ?_, ?_⟩
  · rw [treeEntries_fixTree, List.getElem?_map, hentry]
    rfl
  · rw [treeEntries_fixTree, List.getElem?_map, hdata]
    rfl
  · have hmem : data.dataFile.filePath ∈ forgottenPaths tree :=
      List.mem_append_right _ (List.mem_filterMap.mpr ⟨entry, List.mem_of_getElem? hentry, href⟩)
    have hkept : fixString fix data.dataFile.filePath = data.dataFile.filePath := by
      rw [fixString, replacePattern_of_not_prefix (h _ (mem_treePaths.mpr (.inr hmem))) (hforgotten _ hmem),
        Option.getD_none]
    change entry.dataFile.referencedDataFile = some (fixString fix data.dataFile.filePath)
    rw [hkept, href]

/-- Where the old prefix stands in every path only at its start, the trees are relocated exactly when no statistics file
and no referenced data file has it and the new prefix does not bring it back. -/
theorem fixLocations_relocated_iff (h : ∀ tree ∈ trees, ∀ path ∈ treePaths tree, OnlyAsPrefix fix.fromText path) :
    Relocated fix trees (MetadataTree.fixLocations fix trees {}).1 (MetadataTree.fixLocations fix trees {}).2 ↔
      ∀ tree ∈ trees, Relocatable fix tree := by
  rw [fixLocations_eq]
  have hpaths : (∀ tree ∈ trees.map (fixTree fix), ∀ path ∈ treePaths tree, ¬fix.fromText <+: path) ↔
      ∀ tree ∈ trees, Relocatable fix tree := by
    rw [List.forall_mem_map]
    exact forall₂_congr (fun tree htree => noOldPrefix_iff (h tree htree))
  constructor
  · intro hrelocated
    exact hpaths.mp hrelocated.noOldPrefix
  · intro hrelocatable
    -- the renamed strings of one kind are among the fixed paths
    have honly {fixed : MetadataTree → List Bytes} (hfixed : ∀ tree, fixed tree ⊆ fixedPaths tree) :
        ∀ path ∈ trees.flatMap fixed, OnlyAsPrefix fix.fromText path := by
      intro path hpath
      obtain ⟨tree, htree, hpath⟩ := List.mem_flatMap.mp hpath
      exact h tree htree path (mem_treePaths.mpr (.inl (hfixed tree hpath)))
    have hback {fixed : MetadataTree → List Bytes} (hfixed : ∀ tree, fixed tree ⊆ fixedPaths tree) :
        ∀ path ∈ trees.flatMap fixed, fix.fromText <+: path → ¬BroughtBack fix path := by
      intro path hpath
      obtain ⟨tree, htree, hpath⟩ := List.mem_flatMap.mp hpath
      exact (hrelocatable tree htree).2 path (hfixed tree hpath)
    have hlocation (tree : MetadataTree) : [tree.metadataFile.location] ⊆ fixedPaths tree := by
      simp [fixedPaths]
    have hmeta (tree : MetadataTree) : tree.metaPaths ⊆ fixedPaths tree := by
      intro path hpath
      simp [fixedPaths, hpath]
    have hdata (tree : MetadataTree) : tree.dataPaths ⊆ fixedPaths tree := by
      intro path hpath
      simp [fixedPaths, hpath]
    refine ⟨hpaths.mpr hrelocatable, ?_, ?_, ?_, ?_⟩
    · rw [List.forall₂_map_right_iff, List.forall₂_same]
      exact fun tree htree => keepsReferences_fixTree (h tree htree) (hrelocatable tree htree).1
    · exact records_foldl (fun _ => rfl) (fun _ => rfl) (honly hlocation) (hback hlocation)
    · refine records_foldl (fun _ => rfl) (fun tree => ?_) (honly hmeta) (hback hmeta)
      rw [metaStrings, metaPaths_fixTree]
      rfl
    · refine records_foldl (fun _ => rfl) (fun tree => ?_) (honly hdata) (hback hdata)
      rw [dataStrings, dataPaths_fixTree, referencedPaths_fixTree]

/-- A tree with a data file and a deletion vector of the file at `referenced`. -/
def treeWithReference (referenced : Bytes) : MetadataTree where
  metadataFile := metadataWithUuid (bytes "u")
  manifests := (∅ : OrdMap Bytes Manifest).insert (bytes "m0.avro")
    ⟨∅, [{ dataFile := { filePath := bytes "old/a" } },
      { dataFile := { content := .positionDeletes, filePath := bytes "old/d", referencedDataFile := some referenced } }]⟩

theorem otherReference_relocated :
    Relocated ⟨bytes "old", bytes "new"⟩ [treeWithReference (bytes "b")]
      (MetadataTree.fixLocations ⟨bytes "old", bytes "new"⟩ [treeWithReference (bytes "b")] {}).1
      (MetadataTree.fixLocations ⟨bytes "old", bytes "new"⟩ [treeWithReference (bytes "b")] {}).2 := by
  refine (fixLocations_relocated_iff (by decide)).mpr ?_
  intro tree htree
  rw [List.mem_singleton.mp htree]
  refine ⟨by decide, ?_⟩
  rintro path - hold (hnew | ⟨t, ht, -⟩)
  · exact absurd hnew (by decide)
  · exact absurd (congrArg List.head? ht) (by simp [bytes])

/-- The deletion vector still references the old path of the data file. -/
theorem referencedFile_forgotten :
    (∀ path ∈ treePaths (treeWithReference (bytes "old/a")), OnlyAsPrefix (bytes "old") path) ∧
      ¬KeepsReferences (treeWithReference (bytes "old/a"))
        (fixTree ⟨bytes "old", bytes "new"⟩ (treeWithReference (bytes "old/a"))) ∧
      ¬Relocated ⟨bytes "old", bytes "new"⟩ [treeWithReference (bytes "old/a")]
        (MetadataTree.fixLocations ⟨bytes "old", bytes "new"⟩ [treeWithReference (bytes "old/a")] {}).1
        (MetadataTree.fixLocations ⟨bytes "old", bytes "new"⟩ [treeWithReference (bytes "old/a")] {}).2 := by
  have hdetached : ¬KeepsReferences (treeWithReference (bytes "old/a"))
      (fixTree ⟨bytes "old", bytes "new"⟩ (treeWithReference (bytes "old/a"))) := by
    intro hkeeps
    obtain ⟨entry, data, hentry, hdata, href⟩ := hkeeps 1 0 _ _ rfl rfl rfl
    cases hentry
    cases hdata
    exact absurd href (by decide)
  refine ⟨by decide, hdetached, fun hrelocated => ?_⟩
  rw [fixLocations_eq] at hrelocated
  exact hdetached (List.forall₂_cons.mp hrelocated.references).1

end IcebergCxx.Proofs
