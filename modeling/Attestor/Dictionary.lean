/-!
Dictionaries: entries under text keys, in strictly ascending order of the keys. The order of texts is
that of their code points, which is also that of their UTF-8 bytes. `get?` is the view through which
every operation is described.
-/

namespace Attestor

namespace Entries

variable {α : Type}

/-- The keys ascend strictly, so no key occurs twice. -/
def Ascending (entries : List (String × α)) : Prop :=
  entries.Pairwise fun a b => a.1 < b.1

instance (entries : List (String × α)) : Decidable (Ascending entries) := by
  unfold Ascending
  infer_instance

/-- The value under a key. -/
def get? (key : String) : List (String × α) → Option α
  | [] => none
  | (k, v) :: rest => if k = key then some v else get? key rest

/-- Adds an entry at its place. A key that is there already keeps its value. -/
def insertNew (key : String) (value : α) : List (String × α) → List (String × α)
  | [] => [(key, value)]
  | (k, v) :: rest =>
    if key < k then (key, value) :: (k, v) :: rest
    else if key = k then (k, v) :: rest
    else (k, v) :: insertNew key value rest

theorem mem_insertNew {key : String} {value : α} {entries : List (String × α)} {e : String × α}
    (h : e ∈ insertNew key value entries) : e = (key, value) ∨ e ∈ entries := by
  induction entries with
  | nil => simpa [insertNew] using h
  | cons head rest ih =>
    simp only [insertNew] at h
    split at h
    · simpa using h
    · split at h
      · exact .inr h
      · rcases List.mem_cons.1 h with rfl | h
        · simp
        · rcases ih h with h | h <;> simp [h]

theorem ascending_insertNew {key : String} {value : α} {entries : List (String × α)}
    (h : Ascending entries) : Ascending (insertNew key value entries) := by
  induction entries with
  | nil => simp [insertNew, Ascending]
  | cons head rest ih =>
    obtain ⟨k, v⟩ := head
    have hk := List.pairwise_cons.1 h
    simp only [insertNew]
    split
    next hlt =>
      refine List.pairwise_cons.2 ⟨fun e he => ?_, h⟩
      rcases List.mem_cons.1 he with rfl | he
      · exact hlt
      · exact String.lt_trans hlt (hk.1 e he)
    next hlt =>
      split
      · exact h
      next hne =>
        refine List.pairwise_cons.2 ⟨fun e he => ?_, ih hk.2⟩
        rcases mem_insertNew he with rfl | he
        · have hle : k ≤ key := String.not_lt.1 hlt
          exact Classical.byContradiction fun hnot =>
            hne (String.le_antisymm (String.not_lt.1 hnot) hle)
        · exact hk.1 e he

/-- Adding an entry changes nothing but an absent key. -/
theorem get?_insertNew {key other : String} {value : α} {entries : List (String × α)}
    (h : Ascending entries) :
    get? other (insertNew key value entries) =
      (get? other entries).or (if key = other then some value else none) := by
  induction entries with
  | nil => simp [insertNew, get?]
  | cons head rest ih =>
    obtain ⟨k, v⟩ := head
    have hk := List.pairwise_cons.1 h
    simp only [insertNew]
    split
    next hlt =>
      by_cases hko : key = other
      · subst hko
        have hne : k ≠ key := fun he => absurd hlt (he ▸ String.lt_irrefl k)
        have hrest : get? key rest = none := by
          have : ∀ e ∈ rest, e.1 ≠ key := fun e he hek =>
            absurd (String.lt_trans hlt (hk.1 e he)) (hek ▸ String.lt_irrefl _)
          clear ih hk h
          induction rest with
          | nil => rfl
          | cons e rest ih =>
            simp [get?, this e (by simp), ih fun e he => this e (by simp [he])]
        simp [get?, hne, hrest]
      · simp [get?, hko]
    next =>
      split
      next heq =>
        subst heq
        by_cases hko : key = other <;> simp [get?, hko]
      next hne =>
        by_cases hko : k = other
        · simp [get?, hko]
        · simp [get?, hko, ih hk.2]

/-- The first entry under a key counts. -/
theorem get?_cons (key : String) (e : String × α) (entries : List (String × α)) :
    get? key (e :: entries) = (if e.1 = key then some e.2 else none).or (get? key entries) := by
  rw [get?]
  split <;> rfl

theorem mem_of_get? {key : String} {value : α} {entries : List (String × α)}
    (h : get? key entries = some value) : (key, value) ∈ entries := by
  induction entries with
  | nil => cases h
  | cons e rest ih =>
    rw [get?] at h
    split at h
    next hkey =>
      obtain rfl := Option.some.inj h
      exact hkey ▸ List.mem_cons_self
    next => exact List.mem_cons_of_mem _ (ih h)

/-- Of ascending entries each is the one under its key. -/
theorem get?_of_mem {entries : List (String × α)} (h : Ascending entries) {e : String × α} (he : e ∈ entries) :
    get? e.1 entries = some e.2 := by
  induction entries with
  | nil => cases he
  | cons first rest ih =>
    have hfirst := List.pairwise_cons.1 h
    rw [get?]
    rcases List.mem_cons.1 he with rfl | he
    · exact if_pos rfl
    · have hne : first.1 ≠ e.1 := fun heq => absurd (hfirst.1 e he) (heq ▸ String.lt_irrefl _)
      rw [if_neg hne, ih hfirst.2 he]

end Entries

/-- Entries under ascending text keys. -/
structure Dictionary (α : Type) where
  entries : List (String × α)
  ascending : Entries.Ascending entries

namespace Dictionary

variable {α : Type}

/-- No entries. -/
def empty : Dictionary α := ⟨[], List.Pairwise.nil⟩

/-- The value under a key. -/
def get? (d : Dictionary α) (key : String) : Option α :=
  Entries.get? key d.entries

/-- Adds an entry, unless the key is there already. -/
def insertNew (d : Dictionary α) (key : String) (value : α) : Dictionary α :=
  ⟨Entries.insertNew key value d.entries, Entries.ascending_insertNew d.ascending⟩

/-- The dictionary of a list of entries; of entries with one key, the first counts. -/
def ofList (entries : List (String × α)) : Dictionary α :=
  entries.foldl (fun d e => d.insertNew e.1 e.2) empty

@[simp] theorem get?_empty (key : String) : (empty : Dictionary α).get? key = none := rfl

@[simp] theorem get?_insertNew (d : Dictionary α) (key other : String) (value : α) :
    (d.insertNew key value).get? other =
      (d.get? other).or (if key = other then some value else none) :=
  Entries.get?_insertNew d.ascending

theorem mem_entries_iff {d : Dictionary α} {key : String} {value : α} :
    (key, value) ∈ d.entries ↔ d.get? key = some value :=
  ⟨Entries.get?_of_mem d.ascending, Entries.mem_of_get?⟩

theorem get?_foldl_insertNew (entries : List (String × α)) (d : Dictionary α) (key : String) :
    (entries.foldl (fun d e => d.insertNew e.1 e.2) d).get? key = (d.get? key).or (Entries.get? key entries) := by
  induction entries generalizing d with
  | nil => exact (Option.or_none).symm
  | cons e rest ih => rw [List.foldl_cons, ih, get?_insertNew, Option.or_assoc, Entries.get?_cons]

/-- Of entries with one key, the first counts. -/
@[simp] theorem get?_ofList (entries : List (String × α)) (key : String) :
    (ofList entries).get? key = Entries.get? key entries := by
  rw [ofList, get?_foldl_insertNew, get?_empty, Option.none_or]

end Dictionary

end Attestor
