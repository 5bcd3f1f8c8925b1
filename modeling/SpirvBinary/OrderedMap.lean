/-!
# Maps ordered by insertion

A finite map that remembers the order in which its keys were last inserted.
Inserting a key that is present replaces its value and makes it the newest one.

## Main definitions

* `OrderedMap.get?`, `OrderedMap.insert` — lookup and insertion.
* `OrderedMap.toList` — the entries, the oldest insertion first.
-/

namespace SpirvBinary

theorem OrderedMap.nodup_nil {κ ν : Type} : (([] : List (κ × ν)).map Prod.fst).Nodup :=
  List.nodup_nil

/-- A finite map that remembers the order of insertion. -/
structure OrderedMap (κ ν : Type) where
  /-- The entries, the newest insertion first. -/
  newest : List (κ × ν) := []
  /-- No two of them have the same key. -/
  nodup : (newest.map Prod.fst).Nodup := by exact OrderedMap.nodup_nil

namespace OrderedMap

variable {κ ν : Type} [DecidableEq κ]

instance : Inhabited (OrderedMap κ ν) := ⟨{}⟩

/-- The entries, the oldest insertion first. -/
def toList (map : OrderedMap κ ν) : List (κ × ν) := map.newest.reverse

/-- The number of keys. -/
def size (map : OrderedMap κ ν) : Nat := map.newest.length

/-- The value of `key`. -/
def get? (map : OrderedMap κ ν) (key : κ) : Option ν :=
  (map.newest.find? fun entry => entry.1 = key).map Prod.snd

/-- Gives `key` the value `value` and makes it the newest one. -/
def insert (map : OrderedMap κ ν) (key : κ) (value : ν) : OrderedMap κ ν where
  newest := (key, value) :: map.newest.filter fun entry => entry.1 ≠ key
  nodup := by
    refine List.nodup_cons.mpr ⟨?_, map.nodup.sublist (List.filter_sublist.map _)⟩
    simp

/-- When it is inserted, `key` leaves its place and becomes the last one. -/
theorem toList_insert (map : OrderedMap κ ν) (key : κ) (value : ν) :
    (map.insert key value).toList
      = map.toList.filter (fun entry => entry.1 ≠ key) ++ [(key, value)] := by
  simp only [toList, insert, List.reverse_cons, List.filter_reverse]

@[simp] theorem get?_empty (key : κ) : ({} : OrderedMap κ ν).get? key = none := rfl

@[simp] theorem get?_insert_self (map : OrderedMap κ ν) (key : κ) (value : ν) :
    (map.insert key value).get? key = some value := by
  simp [get?, insert]

theorem get?_insert_of_ne (map : OrderedMap κ ν) {key other : κ} (value : ν) (h : key ≠ other) :
    (map.insert key value).get? other = map.get? other := by
  have hfind : ∀ entries : List (κ × ν),
      (entries.filter fun entry => entry.1 ≠ key).find? (fun entry => entry.1 = other)
        = entries.find? fun entry => entry.1 = other := by
    intro entries
    induction entries with
    | nil => rfl
    | cons entry rest ih =>
      by_cases hkey : entry.1 = key
      · -- an entry that is dropped has not the key that is looked for
        have hother : entry.1 ≠ other := fun h' => h (hkey ▸ h')
        rw [List.filter_cons_of_neg (by simpa using hkey),
          List.find?_cons_of_neg (by simpa using hother), ih]
      · rw [List.filter_cons_of_pos (by simpa using hkey), List.find?_cons, List.find?_cons, ih]
  simp only [get?, insert]
  rw [List.find?_cons_of_neg (by simpa using h), hfind]

end OrderedMap

end SpirvBinary
