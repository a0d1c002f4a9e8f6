import Std.Data.TreeMap

/-!
# Write-once maps

A map whose entries stay as they were first written. It stands for an ordered map that several
threads may write without a lock, of which three things are used, each of them at once: a value is
inserted if its key is absent, and whoever offers one is given the value held then; all entries can
be listed in the order of their keys; and the count of the entries is exact when nobody writes.

* `WriteOnce`, `WriteOnce.offer`: the map, and the offer of a value for a key.
* `WriteOnce.get?_offer`: the first value offered for a key is held for good.
* `WriteOnce.mem_values`, `WriteOnce.length_values`: the values are those that keys hold, one for
  each key.
* `WriteOnce.nodup_values`: a value that one key holds is listed once.
-/

namespace ClrImage

/-- A map from keys to the first values offered for them. -/
structure WriteOnce (κ ν : Type) [Ord κ] where
  entries : Std.TreeMap κ ν compare := ∅

namespace WriteOnce

variable {κ ν : Type} [Ord κ]

instance : Inhabited (WriteOnce κ ν) := ⟨{}⟩

/-- The value held for a key. -/
def get? (m : WriteOnce κ ν) (key : κ) : Option ν := m.entries[key]?

/-- Holds the value for the key unless the key has one. -/
def offer (m : WriteOnce κ ν) (key : κ) (value : ν) : WriteOnce κ ν :=
  if (m.get? key).isSome then m else ⟨m.entries.insert key value⟩

/-- The number of keys. -/
def size (m : WriteOnce κ ν) : Nat := m.entries.size

/-- The values in the order of their keys. -/
def values (m : WriteOnce κ ν) : List ν := m.entries.values

@[simp] theorem get?_empty [Std.TransOrd κ] (key : κ) : ({} : WriteOnce κ ν).get? key = none := by
  simp [get?]

theorem get?_offer [Std.TransOrd κ] [Std.LawfulEqOrd κ] [DecidableEq κ] (m : WriteOnce κ ν)
    (key : κ) (value : ν) (k : κ) :
    (m.offer key value).get? k =
      if k = key then some ((m.get? key).getD value) else m.get? k := by
  unfold offer
  split
  next h =>
    obtain ⟨held, hheld⟩ := Option.isSome_iff_exists.mp h
    by_cases hk : k = key
    · subst hk
      simp [hheld]
    · simp [hk]
  next h =>
    have hnone : m.get? key = none := by simpa using h
    simp only [get?, Std.TreeMap.getElem?_insert, Std.LawfulEqOrd.compare_eq_iff_eq]
    by_cases hk : k = key
    · subst hk
      simp only [get?] at hnone
      simp [hnone]
    · simp [hk, Ne.symm hk]

theorem values_eq (m : WriteOnce κ ν) : m.values = m.entries.toList.map Prod.snd := by
  have hfold : m.values = m.entries.foldr (fun _ v rest => v :: rest) [] := rfl
  rw [hfold, Std.TreeMap.foldr_eq_foldr_toList]
  induction m.entries.toList with
  | nil => rfl
  | cons entry rest ih => rw [List.foldr_cons, ih, List.map_cons]

theorem length_values (m : WriteOnce κ ν) : m.values.length = m.size := by
  rw [values_eq, List.length_map, Std.TreeMap.length_toList]
  rfl

theorem mem_values [Std.TransOrd κ] [Std.LawfulEqOrd κ] {m : WriteOnce κ ν} {value : ν} :
    value ∈ m.values ↔ ∃ key, m.get? key = some value := by
  simp only [values_eq, List.mem_map, Prod.exists, exists_eq_right,
    Std.TreeMap.mem_toList_iff_getElem?_eq_some, get?]

/-- Values that are held for one key each are listed once each. -/
theorem nodup_values [Std.TransOrd κ] [Std.LawfulEqOrd κ] {m : WriteOnce κ ν}
    (h : ∀ k k' v, m.get? k = some v → m.get? k' = some v → k = k') : m.values.Nodup := by
  rw [values_eq, List.Nodup, List.pairwise_map]
  refine Std.TreeMap.distinct_keys_toList.imp_of_mem fun {a b} ha hb hne heq => hne ?_
  obtain ⟨k, v⟩ := a
  obtain ⟨k', v'⟩ := b
  obtain rfl : v = v' := heq
  have hk : m.get? k = some v := Std.TreeMap.mem_toList_iff_getElem?_eq_some.mp ha
  have hk' : m.get? k' = some v := Std.TreeMap.mem_toList_iff_getElem?_eq_some.mp hb
  exact Std.LawfulEqOrd.compare_eq_iff_eq.mpr (h k k' v hk hk')

end WriteOnce

end ClrImage
