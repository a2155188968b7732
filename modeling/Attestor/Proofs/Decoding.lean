import Attestor.Json.Decoder
import Attestor.Proofs.Agreement
import Attestor.Proofs.Reading

/-!
Values are read as they were written, as far as their documents nest.

A type is `Faithful` when a document that one of its values was written to is read as that value wherever there are
levels enough for it, and when nothing is read that would need more levels than there were. The second half is what
makes the first one apply again: what has been read may be written and read once more. Lists, optional values, records
and free documents are faithful when their parts are.

`Faithful.roundTrips` turns this into a statement about texts.
-/

namespace Attestor.Json

/-! ### Levels -/

mutual
/-- How many arrays and objects stand inside each other. -/
def nesting : Json → Nat
  | .arr items => itemsNesting items + 1
  | .obj members => membersNesting members + 1
  | _ => 0

/-- The nesting of the deepest item. -/
def itemsNesting : List Json → Nat
  | [] => 0
  | j :: js => max (nesting j) (itemsNesting js)

/-- The nesting of the deepest member. -/
def membersNesting : List (String × Json) → Nat
  | [] => 0
  | (_, j) :: ms => max (nesting j) (membersNesting ms)
end

theorem itemsNesting_le_iff {js : List Json} {depth : Nat} :
    itemsNesting js ≤ depth ↔ ∀ j ∈ js, nesting j ≤ depth := by
  induction js with
  | nil => simp [itemsNesting]
  | cons j js ih => rw [itemsNesting, Nat.max_le, ih, List.forall_mem_cons]

theorem membersNesting_le_iff {ms : List (String × Json)} {depth : Nat} :
    membersNesting ms ≤ depth ↔ ∀ m ∈ ms, nesting m.2 ≤ depth := by
  induction ms with
  | nil => simp [membersNesting]
  | cons m ms ih => rw [membersNesting, Nat.max_le, ih, List.forall_mem_cons]

/-- An array leaves one level less to its items. -/
theorem nesting_arr_le_iff {js : List Json} {depth : Nat} :
    nesting (.arr js) ≤ depth ↔ ∃ d, depth = d + 1 ∧ ∀ j ∈ js, nesting j ≤ d := by
  rw [nesting]
  cases depth with
  | zero => simp
  | succ d => simp [itemsNesting_le_iff]

/-- An object leaves one level less to its members. -/
theorem nesting_obj_le_iff {ms : List (String × Json)} {depth : Nat} :
    nesting (.obj ms) ≤ depth ↔ ∃ d, depth = d + 1 ∧ ∀ m ∈ ms, nesting m.2 ≤ d := by
  rw [nesting]
  cases depth with
  | zero => simp
  | succ d => simp [membersNesting_le_iff]

theorem readItems_eq_map (js : List Json) : readItems js = js.map read := by
  induction js with
  | nil => rfl
  | cons j js ih => rw [readItems, ih, List.map_cons]

theorem readMembers_eq_map (ms : List (String × Json)) :
    readMembers ms = ms.map fun m => (some m.1, read m.2) := by
  induction ms with
  | nil => rfl
  | cons m ms ih => rw [readMembers, ih, List.map_cons]

/-! ### Faithful types -/

/-- Values are read as they were written, and nothing is read that nests deeper than it may. -/
class Faithful (α : Type) [Wire α] : Prop where
  decode_read : ∀ {a : α} {depth : Nat}, nesting (Wire.toJson a) ≤ depth →
    Wire.decode depth (read (Wire.toJson a)) = some a
  nesting_le : ∀ {a : α} {depth : Nat} {t : Read}, Wire.decode depth t = some a → nesting (Wire.toJson a) ≤ depth

/-- A value's text is read as that value exactly if it does not nest too deep, and so is the text of any value that was
read. -/
structure RoundTrips (α : Type) [Wire α] : Prop where
  written : ∀ a : α, Wire.ofText (Wire.toText a) = some a ↔ nesting (Wire.toJson a) ≤ maxDepth
  accepted : ∀ (s : String) (a : α), Wire.ofText s = some a → Wire.ofText (Wire.toText a) = some a

/-- The text of a value is read by reading its document. -/
theorem ofText_toText {α : Type} [Wire α] (a : α) :
    Wire.ofText (Wire.toText a) = (Wire.decode maxDepth (read (Wire.toJson a)) : Option α) := by
  rw [Wire.ofText, Wire.toText, parse_print]
  rfl

theorem Faithful.roundTrips (α : Type) [Wire α] [Faithful α] : RoundTrips α where
  written a := by
    rw [ofText_toText]
    exact ⟨Faithful.nesting_le, Faithful.decode_read⟩
  accepted s a h := by
    obtain ⟨t, -, ht⟩ := Option.bind_eq_some_iff.mp h
    rw [ofText_toText]
    exact Faithful.decode_read (Faithful.nesting_le ht)

/-! ### Plain values -/

instance : Faithful String where
  decode_read _ := rfl
  nesting_le _ := Nat.zero_le _

instance : Faithful Bool where
  decode_read _ := rfl
  nesting_le _ := Nat.zero_le _

theorem decodeNat_read {limit n : Nat} (h : n < limit) (depth : Nat) :
    decodeNat limit depth (read (.num n)) = some n :=
  if_pos h

instance : Faithful UInt64 where
  decode_read {n depth} _ := by
    show (decodeNat UInt64.size depth (read (.num n.toNat))).map UInt64.ofNat = some n
    rw [decodeNat_read n.toNat_lt, Option.map_some, UInt64.ofNat_toNat]
  nesting_le _ := Nat.zero_le _

instance : Faithful UInt32 where
  decode_read {n depth} _ := by
    show (decodeNat UInt32.size depth (read (.num n.toNat))).map UInt32.ofNat = some n
    rw [decodeNat_read n.toNat_lt, Option.map_some, UInt32.ofNat_toNat]
  nesting_le _ := Nat.zero_le _

/-! ### Lists and optional values -/

section Containers

variable {α : Type} [Wire α] [Faithful α]

theorem decodeItems_read {depth : Nat} {as : List α} (h : ∀ a ∈ as, nesting (Wire.toJson a) ≤ depth) :
    decodeItems (Wire.decode depth) ((as.map Wire.toJson).map read) = some as := by
  induction as with
  | nil => rfl
  | cons a as ih =>
    obtain ⟨ha, has⟩ := List.forall_mem_cons.mp h
    rw [List.map_cons, List.map_cons, decodeItems, Faithful.decode_read ha, ih has]
    rfl

theorem nesting_of_decodeItems {depth : Nat} {ts : List Read} {as : List α}
    (h : decodeItems (Wire.decode depth) ts = some as) : ∀ a ∈ as, nesting (Wire.toJson a) ≤ depth := by
  induction ts generalizing as with
  | nil =>
    obtain rfl := Option.some.inj h
    exact fun _ ha => absurd ha List.not_mem_nil
  | cons t ts ih =>
    simp only [decodeItems, Option.bind_eq_bind, Option.bind_eq_some_iff, Option.pure_def, Option.some.injEq] at h
    obtain ⟨a, ha, as, has, rfl⟩ := h
    exact List.forall_mem_cons.mpr ⟨Faithful.nesting_le ha, ih has⟩

instance : Faithful (List α) where
  decode_read {as depth} h := by
    obtain ⟨d, rfl, hitems⟩ := nesting_arr_le_iff.mp h
    have has : ∀ a ∈ as, nesting (Wire.toJson a) ≤ d := fun a ha => hitems _ (List.mem_map_of_mem ha)
    show decodeItems (Wire.decode d) (readItems (as.map Wire.toJson)) = some as
    rw [readItems_eq_map, decodeItems_read has]
  nesting_le {as depth t} h := by
    cases t with
    | arr items =>
      cases depth with
      | zero => cases h
      | succ d =>
        refine nesting_arr_le_iff.mpr ⟨d, rfl, fun j hj => ?_⟩
        obtain ⟨a, ha, rfl⟩ := List.mem_map.mp hj
        exact nesting_of_decodeItems h a ha
    | _ => cases depth <;> cases h

/-- A type none of whose values is written as null has faithful optional values. -/
theorem faithful_option (h : ∀ a : α, Wire.toJson a ≠ .null) : Faithful (Option α) where
  decode_read {o depth} ho := by
    cases o with
    | none => rfl
    | some a =>
      have hread := Faithful.decode_read (a := a) ho
      have hnull := h a
      show decodeOption Wire.decode depth (read (Wire.toJson a)) = some (some a)
      cases hjson : Wire.toJson a with
      | null => exact absurd hjson hnull
      | _ =>
        rw [hjson] at hread
        exact congrArg (Option.map some) hread
  nesting_le {o depth t} ho := by
    cases o with
    | none => exact Nat.zero_le _
    | some a =>
      have hvalue : (Wire.decode depth t : Option α) = some a := by
        cases t with
        | null => cases ho
        | _ =>
          obtain ⟨b, hb, hba⟩ := Option.map_eq_some_iff.mp ho
          rw [hb, Option.some.inj hba]
      exact (Faithful.nesting_le hvalue : nesting (Wire.toJson a) ≤ depth)

end Containers

instance : Faithful (Option String) := faithful_option nofun

instance : Faithful (Option UInt64) := faithful_option nofun

/-! ### Records -/

/-- Of members under different keys each is the one under its key. -/
theorem filter_key {ms : List (String × Json)} (h : (ms.map Prod.fst).Nodup) {m : String × Json} (hm : m ∈ ms) :
    (ms.filter fun n => n.1 == m.1) = [m] := by
  induction ms with
  | nil => cases hm
  | cons n ms ih =>
    obtain ⟨hn, hms⟩ := List.nodup_cons.mp h
    rcases List.mem_cons.mp hm with rfl | hm
    · have hnone : (ms.filter fun n => n.1 == m.1) = [] := by
        refine List.filter_eq_nil_iff.mpr fun n hmem hkey => hn ?_
        exact List.mem_map.mpr ⟨n, hmem, by simpa using hkey⟩
      rw [List.filter_cons_of_pos (by simp), hnone]
    · have hne : n.1 ≠ m.1 := fun heq => hn (List.mem_map.mpr ⟨m, hm, heq.symm⟩)
      rw [List.filter_cons_of_neg (by simpa using hne), ih hms hm]

theorem field?_read {ms : List (String × Json)} (h : (ms.map Prod.fst).Nodup) {m : String × Json} (hm : m ∈ ms) :
    field? (readMembers ms) m.1 = some (some (read m.2)) := by
  have hkeys : ((fun n : Option String × Read => n.1 == some m.1) ∘ fun n : String × Json => (some n.1, read n.2)) =
      fun n => n.1 == m.1 := by
    funext n
    simp
  rw [field?, readMembers_eq_map, List.filter_map, hkeys, filter_key h hm]
  rfl

theorem fields?_read {ms ns : List (String × Json)} (h : (ms.map Prod.fst).Nodup) (hns : ∀ n ∈ ns, n ∈ ms) :
    fields? (readMembers ms) (ns.map Prod.fst) = some (ns.map fun n => some (read n.2)) := by
  induction ns with
  | nil => rfl
  | cons n ns ih =>
    obtain ⟨hn, hns⟩ := List.forall_mem_cons.mp hns
    rw [List.map_cons, fields?, field?_read h hn, ih hns]
    rfl

/-- The fields of a record are read as they were written. -/
theorem record_read {ms : List (String × Json)} (h : (ms.map Prod.fst).Nodup) (depth : Nat) :
    record (ms.map Prod.fst) (depth + 1) (read (.obj ms)) = some (depth, ms.map fun m => some (read m.2)) := by
  have hkeys : (readMembers ms).all (·.1.isSome) = true := by
    simp [readMembers_eq_map]
  rw [read, record, if_pos hkeys, fields?_read h fun _ hm => hm]
  rfl

/-- A record leaves one level less to its fields. -/
theorem depth_of_record {names : List String} {depth d : Nat} {t : Read} {fields : List (Option Read)}
    (h : record names depth t = some (d, fields)) : depth = d + 1 := by
  cases depth with
  | zero => cases t <;> cases h
  | succ depth =>
    cases t with
    | arr items =>
      obtain ⟨-, hfields⟩ := Option.ite_none_right_eq_some.mp h
      rw [(Prod.mk.inj (Option.some.inj hfields)).1]
    | obj members =>
      obtain ⟨-, hfields⟩ := Option.ite_none_right_eq_some.mp h
      obtain ⟨_, -, hpair⟩ := Option.map_eq_some_iff.mp hfields
      rw [(Prod.mk.inj hpair).1]
    | _ => cases h

/-- The fields under the names, as `members` takes them apart and `build` puts them together from what was read of
them. -/
structure Fields {α : Type} (names : List String) (members : α → List (String × Json))
    (build : Nat × List (Option Read) → Option α) : Prop where
  distinct : names.Nodup
  named : ∀ a, (members a).map Prod.fst = names
  built : ∀ a d, (∀ m ∈ members a, nesting m.2 ≤ d) → build (d, (members a).map fun m => some (read m.2)) = some a
  nested : ∀ a r, build r = some a → ∀ m ∈ members a, nesting m.2 ≤ r.1

namespace Fields

variable {α : Type} {names : List String} {members : α → List (String × Json)}
  {build : Nat × List (Option Read) → Option α}

theorem record_read (h : Fields names members build) {a : α} {depth : Nat}
    (ha : nesting (.obj (members a)) ≤ depth) :
    (record names depth (read (.obj (members a)))).bind build = some a := by
  obtain ⟨d, rfl, hmembers⟩ := nesting_obj_le_iff.mp ha
  have hdistinct : ((members a).map Prod.fst).Nodup := h.named a ▸ h.distinct
  have hrecord := Json.record_read hdistinct d
  rw [h.named] at hrecord
  rw [hrecord, Option.bind_some, h.built a d hmembers]

theorem nesting_of_record (h : Fields names members build) {a : α} {depth : Nat} {t : Read}
    (ha : (record names depth t).bind build = some a) : nesting (.obj (members a)) ≤ depth := by
  obtain ⟨⟨d, fields⟩, hrecord, hbuild⟩ := Option.bind_eq_some_iff.mp ha
  exact nesting_obj_le_iff.mpr ⟨d, depth_of_record hrecord, h.nested a _ hbuild⟩

/-- A type that is written as an object of its fields and read as a record of them is faithful. -/
theorem faithful [Wire α] (written : ∀ a, Wire.toJson a = .obj (members a))
    (decoded : ∀ depth t, Wire.decode depth t = (record names depth t).bind build)
    (h : Fields names members build) : Faithful α where
  decode_read {a depth} ha := by
    rw [written] at ha ⊢
    rw [decoded, h.record_read ha]
  nesting_le {a depth t} ha := by
    rw [decoded] at ha
    rw [written]
    exact h.nesting_of_record ha

end Fields

section FieldValues

variable {α : Type} [Wire α]

theorem required_read [Faithful α] {a : α} {depth : Nat} (h : nesting (Wire.toJson a) ≤ depth) :
    required depth (some (read (Wire.toJson a))) = some a :=
  Faithful.decode_read h

theorem nesting_of_required [Faithful α] {a : α} {depth : Nat} {field : Option Read}
    (h : required depth field = some a) : nesting (Wire.toJson a) ≤ depth := by
  obtain ⟨t, -, ht⟩ := Option.bind_eq_some_iff.mp h
  exact Faithful.nesting_le ht

theorem optional_read [Faithful (Option α)] {o : Option α} {depth : Nat} (h : nesting (Wire.toJson o) ≤ depth) :
    optional depth (some (read (Wire.toJson o))) = some o :=
  Faithful.decode_read h

theorem nesting_of_optional [Faithful (Option α)] {o : Option α} {depth : Nat} {field : Option Read}
    (h : optional depth field = some o) : nesting (Wire.toJson o) ≤ depth := by
  cases field with
  | none =>
    obtain rfl := Option.some.inj h
    exact Nat.zero_le _
  | some t => exact Faithful.nesting_le h

end FieldValues

/-! ### Choices -/

theorem choice_read (depth : Nat) (name : String) (content : Json) :
    choice (depth + 1) (read (.obj [(name, content)])) = some (depth, name, read content) :=
  rfl

/-- A choice leaves one level less to its content. -/
theorem depth_of_choice {depth d : Nat} {t content : Read} {name : String}
    (h : choice depth t = some (d, name, content)) : depth = d + 1 := by
  unfold choice at h
  split at h
  · rw [(Prod.mk.inj (Option.some.inj h)).1]
  · cases h

theorem nesting_choice_le_iff {name : String} {content : Json} {depth : Nat} :
    nesting (.obj [(name, content)]) ≤ depth ↔ ∃ d, depth = d + 1 ∧ nesting content ≤ d := by
  rw [nesting_obj_le_iff]
  simp only [List.forall_mem_singleton]

/-! ### Free documents -/

mutual
/-- A document is read as it stands. -/
theorem decodeFree_read : ∀ {j : Json} {depth : Nat}, nesting j ≤ depth → decodeFree depth (read j) = some j
  | .null, _, _ | .bool _, _, _ | .num _, _, _ | .str _, _, _ => by simp [read, decodeFree]
  | .arr items, depth, h => by
    obtain ⟨d, rfl, hitems⟩ := nesting_arr_le_iff.mp h
    rw [read, decodeFree, decodeFreeItems_read (itemsNesting_le_iff.mpr hitems), Option.map_some]
  | .obj members, depth, h => by
    obtain ⟨d, rfl, hmembers⟩ := nesting_obj_le_iff.mp h
    rw [read, decodeFree, decodeFreeMembers_read (membersNesting_le_iff.mpr hmembers), Option.map_some]

/-- Items are read as they stand. -/
theorem decodeFreeItems_read : ∀ {js : List Json} {depth : Nat}, itemsNesting js ≤ depth →
    decodeFreeItems depth (readItems js) = some js
  | [], _, _ => rfl
  | j :: js, depth, h => by
    obtain ⟨hj, hjs⟩ := Nat.max_le.mp h
    rw [readItems, decodeFreeItems, decodeFree_read hj, decodeFreeItems_read hjs]
    rfl

/-- Members are read as they stand. -/
theorem decodeFreeMembers_read : ∀ {ms : List (String × Json)} {depth : Nat}, membersNesting ms ≤ depth →
    decodeFreeMembers depth (readMembers ms) = some ms
  | [], _, _ => rfl
  | (k, j) :: ms, depth, h => by
    obtain ⟨hj, hms⟩ := Nat.max_le.mp h
    rw [readMembers, decodeFreeMembers, decodeFree_read hj, decodeFreeMembers_read hms]
    rfl
end

mutual
/-- What is read nests no deeper than it may. -/
theorem nesting_of_decodeFree : ∀ {t : Read} {depth : Nat} {j : Json}, decodeFree depth t = some j → nesting j ≤ depth
  | .null, _, _, h | .bool _, _, _, h => by
    obtain rfl := Option.some.inj h
    exact Nat.zero_le _
  | .num _, _, _, h | .str _, _, _, h => by
    obtain ⟨_, -, rfl⟩ := Option.map_eq_some_iff.mp h
    exact Nat.zero_le _
  | .arr _, 0, _, h | .obj _, 0, _, h => by cases h
  | .arr items, depth + 1, _, h => by
    obtain ⟨js, hjs, rfl⟩ := Option.map_eq_some_iff.mp h
    exact Nat.succ_le_succ (nesting_of_decodeFreeItems hjs)
  | .obj members, depth + 1, _, h => by
    obtain ⟨ms, hms, rfl⟩ := Option.map_eq_some_iff.mp h
    exact Nat.succ_le_succ (nesting_of_decodeFreeMembers hms)

/-- Items that are read nest no deeper than they may. -/
theorem nesting_of_decodeFreeItems : ∀ {ts : List Read} {depth : Nat} {js : List Json},
    decodeFreeItems depth ts = some js → itemsNesting js ≤ depth
  | [], _, _, h => by
    obtain rfl := Option.some.inj h
    exact Nat.zero_le _
  | t :: ts, depth, _, h => by
    simp only [decodeFreeItems, Option.bind_eq_bind, Option.bind_eq_some_iff, Option.pure_def,
      Option.some.injEq] at h
    obtain ⟨j, hj, js, hjs, rfl⟩ := h
    exact Nat.max_le.mpr ⟨nesting_of_decodeFree hj, nesting_of_decodeFreeItems hjs⟩

/-- Members that are read nest no deeper than they may. -/
theorem nesting_of_decodeFreeMembers : ∀ {ts : List (Option String × Read)} {depth : Nat} {ms : List (String × Json)},
    decodeFreeMembers depth ts = some ms → membersNesting ms ≤ depth
  | [], _, _, h => by
    obtain rfl := Option.some.inj h
    exact Nat.zero_le _
  | (key, t) :: ts, depth, _, h => by
    simp only [decodeFreeMembers, Option.bind_eq_bind, Option.bind_eq_some_iff, Option.pure_def,
      Option.some.injEq] at h
    obtain ⟨k, -, j, hj, ms, hms, rfl⟩ := h
    exact Nat.max_le.mpr ⟨nesting_of_decodeFree hj, nesting_of_decodeFreeMembers hms⟩
end

theorem membersNesting_insertNew_le (k : String) (j : Json) (ms : List (String × Json)) :
    membersNesting (Entries.insertNew k j ms) ≤ max (nesting j) (membersNesting ms) := by
  rw [membersNesting_le_iff]
  intro m hm
  rcases Entries.mem_insertNew hm with rfl | hm
  · exact Nat.le_max_left _ _
  · exact Nat.le_trans (membersNesting_le_iff.mp (Nat.le_refl _) m hm) (Nat.le_max_right _ _)

mutual
/-- The canonical form nests no deeper. -/
theorem nesting_arrange_le : ∀ j : Json, nesting (arrange j) ≤ nesting j
  | .null | .bool _ | .num _ | .str _ => Nat.le_refl _
  | .arr items => Nat.succ_le_succ (itemsNesting_arrangeItems_le items)
  | .obj members => Nat.succ_le_succ (membersNesting_arrangeMembers_le members)

/-- Arranged items nest no deeper. -/
theorem itemsNesting_arrangeItems_le : ∀ js : List Json, itemsNesting (arrangeItems js) ≤ itemsNesting js
  | [] => Nat.le_refl _
  | j :: js => by
    have hj := nesting_arrange_le j
    have hjs := itemsNesting_arrangeItems_le js
    rw [arrangeItems, itemsNesting, itemsNesting]
    omega

/-- Arranged members nest no deeper. -/
theorem membersNesting_arrangeMembers_le : ∀ ms : List (String × Json),
    membersNesting (arrangeMembers ms) ≤ membersNesting ms
  | [] => Nat.le_refl _
  | (k, j) :: ms => by
    have hinsert := membersNesting_insertNew_le k (arrange j) (arrangeMembers ms)
    have hj := nesting_arrange_le j
    have hms := membersNesting_arrangeMembers_le ms
    rw [arrangeMembers, membersNesting]
    omega
end

instance : Faithful Document where
  decode_read {document depth} h := by
    have hfree : decodeFree depth (read document.json) = some document.json := decodeFree_read h
    show (decodeFree depth (read document.json)).bind Document.ofJson? = some document
    rw [hfree, Option.bind_some, Document.ofJson?, dif_pos (inRange_of_canonical document.canonical),
      Document.ofJson_json]
  nesting_le {document depth t} h := by
    obtain ⟨j, hj, hdocument⟩ := Option.bind_eq_some_iff.mp h
    obtain ⟨hrange, hdocument⟩ := Option.dite_none_right_eq_some.mp hdocument
    obtain rfl := Option.some.inj hdocument
    exact Nat.le_trans (nesting_arrange_le j) (nesting_of_decodeFree hj)

end Attestor.Json
