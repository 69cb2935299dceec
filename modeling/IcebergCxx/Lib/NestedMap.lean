import IcebergCxx.Lib.OrdMap

/-!
# Maps of maps

A map whose values are maps, filled with values at pairs of keys: an outer entry is created with its first inner one.
-/

namespace IcebergCxx.Lib

variable {K L V : Type} [LinearOrder K] [LinearOrder L]

/-- `m[k][l] = v`. -/
def OrdMap.insertAt (m : OrdMap K (OrdMap L V)) (entry : (K × L) × V) : OrdMap K (OrdMap L V) :=
  m.alter entry.1.1 (fun inner => (inner.getD ∅).insert entry.1.2 entry.2)

def OrdMap.findAt (m : OrdMap K (OrdMap L V)) (key : K × L) : Option V :=
  (m.find? key.1).bind (fun inner => inner.find? key.2)

lemma OrdMap.findAt_empty (key : K × L) : (∅ : OrdMap K (OrdMap L V)).findAt key = none := rfl

lemma OrdMap.findAt_insertAt (m : OrdMap K (OrdMap L V)) (entry : (K × L) × V) (key : K × L) :
    (m.insertAt entry).findAt key = if key = entry.1 then some entry.2 else m.findAt key := by
  obtain ⟨⟨k, l⟩, v⟩ := entry
  obtain ⟨k', l'⟩ := key
  unfold OrdMap.findAt OrdMap.insertAt
  rw [OrdMap.find?_alter]
  by_cases hk : k' = k
  · subst hk
    rw [if_pos rfl, Option.bind_some, OrdMap.find?_insert]
    by_cases hl : l' = l
    · rw [if_pos hl, if_pos (by rw [hl])]
    · rw [if_neg hl, if_neg (by simpa using hl)]
      cases m.find? k' with
      | none => exact OrdMap.find?_empty _
      | some inner => rfl
  · rw [if_neg hk, if_neg (by simp [hk])]

/-- The values that are found are those that were put, when no key is put with two values. -/
lemma OrdMap.findAt_foldl_insertAt {entries : List ((K × L) × V)}
    (h : ∀ key v v', (key, v) ∈ entries → (key, v') ∈ entries → v = v') (key : K × L) (v : V) :
    (entries.foldl OrdMap.insertAt ∅).findAt key = some v ↔ (key, v) ∈ entries := by
  induction entries using List.reverseRecOn with
  | nil =>
    rw [List.foldl_nil, OrdMap.findAt_empty]
    simp
  | append_singleton entries entry ih =>
    have hlast : (entry.1, entry.2) ∈ entries ++ [entry] := List.mem_append_right _ (List.mem_singleton_self _)
    have hbefore := ih (fun key v v' hmem hmem' =>
      h key v v' (List.mem_append_left _ hmem) (List.mem_append_left _ hmem'))
    rw [List.foldl_append, List.foldl_cons, List.foldl_nil, OrdMap.findAt_insertAt]
    by_cases hkey : key = entry.1
    · subst hkey
      rw [if_pos rfl, Option.some.injEq]
      constructor
      · rintro rfl
        exact hlast
      · intro hmem
        exact h _ _ _ hlast hmem
    · rw [if_neg hkey, hbefore, List.mem_append, List.mem_singleton]
      constructor
      · exact Or.inl
      · rintro (hmem | rfl)
        · exact hmem
        · exact absurd rfl hkey

end IcebergCxx.Lib
