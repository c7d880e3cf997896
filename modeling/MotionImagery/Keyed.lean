/-!
Entries under keys, in ascending order of the keys and one for each key.
-/
namespace MotionImagery

abbrev Keyed (κ : Type) (α : Type) := List (κ × α)

namespace Keyed
variable {κ α : Type} [DecidableEq κ]

/-- The first entry under the key. -/
def find? (key : κ) : Keyed κ α → Option α
  | [] => none
  | (k, value) :: rest => if key = k then some value else find? key rest

def contains (key : κ) (entries : Keyed κ α) : Bool := (find? key entries).isSome

def erase (key : κ) : Keyed κ α → Keyed κ α
  | [] => []
  | (k, value) :: rest => if key = k then rest else (k, value) :: erase key rest

/-- Puts a value in its place; a value that was there under the key is replaced. -/
def put [LT κ] [DecidableLT κ] (key : κ) (value : α) : Keyed κ α → Keyed κ α
  | [] => [(key, value)]
  | (k, other) :: rest =>
    if key < k then (key, value) :: (k, other) :: rest
    else if key = k then (key, value) :: rest
    else (k, other) :: put key value rest

theorem mem_of_find? {key : κ} {value : α} {entries : Keyed κ α}
    (found : find? key entries = some value) : (key, value) ∈ entries := by
  induction entries with
  | nil => cases found
  | cons entry rest ih =>
    obtain ⟨k, other⟩ := entry
    rw [find?] at found
    split at found
    · rename_i same
      cases found
      rw [same]
      exact List.mem_cons_self
    · exact List.mem_cons_of_mem _ (ih found)

@[simp]
theorem find?_put [LT κ] [DecidableLT κ] (key wanted : κ) (value : α) (entries : Keyed κ α) :
    find? wanted (put key value entries) =
      if wanted = key then some value else find? wanted entries := by
  induction entries with
  | nil => simp [put, find?]
  | cons entry rest ih =>
    obtain ⟨k, other⟩ := entry
    by_cases before : key < k
    · simp [put, find?, before]
    · by_cases same : key = k
      · subst same
        by_cases h : wanted = key <;> simp [put, find?, before, h]
      · by_cases h : wanted = k
        · subst h
          simp [put, find?, before, same, Ne.symm same]
        · simp [put, find?, before, same, h, ih]

end Keyed

end MotionImagery
