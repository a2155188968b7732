import Attestor.Dictionary
import Attestor.Json.Printer

/-!
Canonical documents. A document is canonical when the members of each of its objects stand in ascending
order of their keys, without repeats, and its integers fit into 64 bits, signed or unsigned. Arranging
brings any document with such integers into canonical form; of members with one key the last counts.
Documents that differ only in the order in which members were written have one canonical form.
-/

namespace Attestor.Json

/-- The least integer that fits into 64 bits with a sign. -/
def leastInteger : Int := -0x8000000000000000

/-- The least positive integer that does not fit into 64 bits. -/
def integerLimit : Int := 0x10000000000000000

mutual
/-- Every integer fits into 64 bits, signed or unsigned. -/
def InRange : Json → Bool
  | .num n => leastInteger ≤ n && n < integerLimit
  | .arr items => ItemsInRange items
  | .obj members => MembersInRange members
  | _ => true

/-- Every integer of the items fits. -/
def ItemsInRange : List Json → Bool
  | [] => true
  | j :: js => InRange j && ItemsInRange js

/-- Every integer of the members fits. -/
def MembersInRange : List (String × Json) → Bool
  | [] => true
  | (_, j) :: ms => InRange j && MembersInRange ms
end

mutual
/-- Members ascend in every object, and integers fit. -/
def Canonical : Json → Prop
  | .num n => leastInteger ≤ n ∧ n < integerLimit
  | .arr items => ItemsCanonical items
  | .obj members => Entries.Ascending members ∧ MembersCanonical members
  | _ => True

/-- Every item is canonical. -/
def ItemsCanonical : List Json → Prop
  | [] => True
  | j :: js => Canonical j ∧ ItemsCanonical js

/-- Every member is canonical. -/
def MembersCanonical : List (String × Json) → Prop
  | [] => True
  | (_, j) :: ms => Canonical j ∧ MembersCanonical ms
end

mutual
/-- Sorts the members of every object by key; of members with one key the last counts. -/
def arrange : Json → Json
  | .arr items => .arr (arrangeItems items)
  | .obj members => .obj (arrangeMembers members)
  | j => j

/-- Arranges every item. -/
def arrangeItems : List Json → List Json
  | [] => []
  | j :: js => arrange j :: arrangeItems js

/-- Arranges every member and sorts them. -/
def arrangeMembers : List (String × Json) → List (String × Json)
  | [] => []
  | (k, j) :: ms => Entries.insertNew k (arrange j) (arrangeMembers ms)
end

theorem membersCanonical_iff {members : List (String × Json)} :
    MembersCanonical members ↔ ∀ m ∈ members, Canonical m.2 := by
  induction members with
  | nil => simp [MembersCanonical]
  | cons m ms ih => simp [MembersCanonical, ih]

private theorem membersCanonical_insertNew {k : String} {j : Json} {ms : List (String × Json)}
    (hj : Canonical j) (hms : MembersCanonical ms) :
    MembersCanonical (Entries.insertNew k j ms) := by
  rw [membersCanonical_iff] at hms ⊢
  intro m hm
  rcases Entries.mem_insertNew hm with rfl | hm
  · exact hj
  · exact hms m hm

mutual
/-- Arranging gives the canonical form. -/
theorem canonical_arrange : ∀ {j : Json}, InRange j = true → Canonical (arrange j)
  | .null, _ | .bool _, _ | .str _, _ => by simp [arrange, Canonical]
  | .num _, h => by simpa [arrange, Canonical, InRange] using h
  | .arr items, h => by
    simp only [arrange, Canonical]
    exact canonical_arrangeItems (by simpa [InRange] using h)
  | .obj members, h => by
    simp only [arrange, Canonical]
    exact canonical_arrangeMembers (by simpa [InRange] using h)

/-- Arranged items are canonical. -/
theorem canonical_arrangeItems : ∀ {items : List Json}, ItemsInRange items = true →
    ItemsCanonical (arrangeItems items)
  | [], _ => by simp [arrangeItems, ItemsCanonical]
  | j :: js, h => by
    simp only [ItemsInRange, Bool.and_eq_true] at h
    exact ⟨canonical_arrange h.1, canonical_arrangeItems h.2⟩

/-- Arranged members ascend and are canonical. -/
theorem canonical_arrangeMembers : ∀ {members : List (String × Json)},
    MembersInRange members = true →
    Entries.Ascending (arrangeMembers members) ∧ MembersCanonical (arrangeMembers members)
  | [], _ => by simp [arrangeMembers, MembersCanonical, Entries.Ascending]
  | (k, j) :: ms, h => by
    simp only [MembersInRange, Bool.and_eq_true] at h
    have ih := canonical_arrangeMembers h.2
    exact ⟨Entries.ascending_insertNew ih.1,
      membersCanonical_insertNew (canonical_arrange h.1) ih.2⟩
end

end Attestor.Json

namespace Attestor

/-- A free document in canonical form, such as the message of a transaction. -/
structure Document where
  json : Json
  canonical : json.Canonical

namespace Document

/-- The canonical form of a document whose integers fit. -/
def ofJson (j : Json) (h : Json.InRange j = true) : Document :=
  ⟨Json.arrange j, Json.canonical_arrange h⟩

/-- The canonical form of a document, if its integers fit. -/
def ofJson? (j : Json) : Option Document :=
  if h : Json.InRange j = true then some (ofJson j h) else none

end Document

end Attestor
