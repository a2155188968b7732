import Attestor.Json.Canonical

/-!
When two documents say the same.

Arrays agree item by item; objects agree as maps: under each key both have a value or neither has one,
and the values agree. An object may have been written with a key twice, and then the last counts.

`arrange_eq_arrange_iff`: documents agree exactly when they have one canonical form. `Agree.of_perm`
says that the order of members does not count, and `Document.ofJson_json` that a document in canonical
form is its own canonical form.
-/

namespace Attestor.Json

/-- The value under a key: of members with one key the last counts. -/
def lookup (key : String) : List (String × Json) → Option Json
  | [] => none
  | (k, j) :: ms => (lookup key ms).or (if k = key then some j else none)

/-- The two documents say the same. -/
inductive Agree : Json → Json → Prop
  | null : Agree .null .null
  | bool (b : Bool) : Agree (.bool b) (.bool b)
  | num (n : Int) : Agree (.num n) (.num n)
  | str (s : String) : Agree (.str s) (.str s)
  | arr {js ks : List Json} (length : js.length = ks.length)
      (items : ∀ i (hj : i < js.length) (hk : i < ks.length), Agree js[i] ks[i]) :
      Agree (.arr js) (.arr ks)
  | obj {ms ns : List (String × Json)}
      (keys : ∀ key, (lookup key ms).isSome = (lookup key ns).isSome)
      (values : ∀ key j k, lookup key ms = some j → lookup key ns = some k → Agree j k) :
      Agree (.obj ms) (.obj ns)

/-! ### Ascending entries -/

theorem get?_eq_none {α : Type} {key : String} {entries : List (String × α)}
    (h : ∀ e ∈ entries, e.1 ≠ key) : Entries.get? key entries = none := by
  induction entries with
  | nil => rfl
  | cons e rest ih =>
    have he := h e List.mem_cons_self
    have hr := ih fun e he => h e (List.mem_cons_of_mem _ he)
    simp [Entries.get?, he, hr]

/-- Below the first of ascending keys there is nothing. -/
theorem get?_rest {α : Type} {k : String} {v : α} {rest : List (String × α)}
    (h : Entries.Ascending ((k, v) :: rest)) {key : String} (hk : key ≤ k) :
    Entries.get? key rest = none := by
  refine get?_eq_none fun e he heq => ?_
  have hlt := (List.pairwise_cons.1 h).1 e he
  exact String.not_lt.2 hk (heq ▸ hlt)

/-- Ascending entries are determined by what they have under each key. -/
theorem ascending_ext {α : Type} {xs ys : List (String × α)} (hx : Entries.Ascending xs)
    (hy : Entries.Ascending ys) (h : ∀ key, Entries.get? key xs = Entries.get? key ys) : xs = ys := by
  induction xs generalizing ys with
  | nil =>
    cases ys with
    | nil => rfl
    | cons y ys => simpa [Entries.get?] using h y.1
  | cons x xs ih =>
    obtain ⟨k, v⟩ := x
    cases ys with
    | nil => simpa [Entries.get?] using h k
    | cons y ys =>
      obtain ⟨l, w⟩ := y
      -- a first key below the other one would be missing there
      have hkl : k = l := by
        rcases String.le_total k l with hle | hle
        · have hk := h k
          rw [Entries.get?, if_pos rfl, Entries.get?, get?_rest hy hle] at hk
          by_cases heq : l = k
          · exact heq.symm
          · simp [heq] at hk
        · have hl := h l
          rw [Entries.get?, get?_rest hx hle, Entries.get?, if_pos rfl] at hl
          by_cases heq : k = l
          · exact heq
          · simp [heq] at hl
      subst hkl
      have hvw : v = w := by simpa [Entries.get?] using h k
      subst hvw
      rw [ih (List.pairwise_cons.1 hx).2 (List.pairwise_cons.1 hy).2 fun key => ?_]
      by_cases hk : k = key
      · subst hk
        rw [get?_rest hx (String.le_refl k), get?_rest hy (String.le_refl k)]
      · simpa [Entries.get?, hk] using h key

/-! ### The canonical form -/

theorem ascending_arrangeMembers (ms : List (String × Json)) :
    Entries.Ascending (arrangeMembers ms) := by
  induction ms with
  | nil => exact List.Pairwise.nil
  | cons m ms ih => exact Entries.ascending_insertNew ih

/-- Arranging keeps what stands under each key. -/
theorem get?_arrangeMembers (key : String) (ms : List (String × Json)) :
    Entries.get? key (arrangeMembers ms) = (lookup key ms).map arrange := by
  induction ms with
  | nil => rfl
  | cons m ms ih =>
    rw [arrangeMembers, Entries.get?_insertNew (ascending_arrangeMembers ms), ih, lookup]
    by_cases hk : m.1 = key <;> cases lookup key ms <;> simp [hk]

theorem arrangeItems_eq_map (js : List Json) : arrangeItems js = js.map arrange := by
  induction js with
  | nil => rfl
  | cons j js ih => rw [arrangeItems, ih, List.map_cons]

theorem arrangeMembers_eq_iff {ms ns : List (String × Json)} :
    arrangeMembers ms = arrangeMembers ns ↔
      ∀ key, (lookup key ms).map arrange = (lookup key ns).map arrange := by
  constructor
  · intro h key
    rw [← get?_arrangeMembers, h, get?_arrangeMembers]
  · intro h
    refine ascending_ext (ascending_arrangeMembers ms) (ascending_arrangeMembers ns) fun key => ?_
    rw [get?_arrangeMembers, get?_arrangeMembers, h key]

/-- Documents that say the same have one canonical form. -/
theorem Agree.arrange_eq {j k : Json} (h : Agree j k) : arrange j = arrange k := by
  induction h with
  | null => rfl
  | bool b => rfl
  | num n => rfl
  | str s => rfl
  | arr length items ih =>
    rw [arrange, arrange, arrangeItems_eq_map, arrangeItems_eq_map]
    refine congrArg _ (List.ext_getElem (by simp [length]) fun i hi hi' => ?_)
    rw [List.getElem_map, List.getElem_map]
    exact ih i (by simpa using hi) (by simpa using hi')
  | @obj ms ns keys values ih =>
    rw [arrange, arrange]
    refine congrArg _ (arrangeMembers_eq_iff.2 fun key => ?_)
    have hk := keys key
    cases hm : lookup key ms with
    | none => simp_all
    | some j =>
      cases hn : lookup key ns with
      | none => simp_all
      | some k => simp [ih key j k hm hn]

theorem sizeOf_lookup {key : String} {ms : List (String × Json)} {j : Json}
    (h : lookup key ms = some j) : sizeOf j < sizeOf ms := by
  induction ms with
  | nil => simp [lookup] at h
  | cons m ms ih =>
    obtain ⟨k, i⟩ := m
    rw [lookup, Option.or_eq_some_iff] at h
    simp only [List.cons.sizeOf_spec, Prod.mk.sizeOf_spec]
    rcases h with h | ⟨-, h⟩
    · have := ih h
      omega
    · split at h
      · cases h
        omega
      · exact absurd h (by simp)

/-- Documents with one canonical form say the same. -/
theorem agree_of_arrange_eq : ∀ {j k : Json}, arrange j = arrange k → Agree j k
  | .null, k, h => by cases k <;> simp_all [arrange, Agree.null]
  | .bool _, k, h => by cases k <;> simp_all [arrange, Agree.bool]
  | .num _, k, h => by cases k <;> simp_all [arrange, Agree.num]
  | .str _, k, h => by cases k <;> simp_all [arrange, Agree.str]
  | .arr js, k, h => by
    cases k with
    | arr ks =>
      have hs : js.map arrange = ks.map arrange := by
        simpa [arrange, arrangeItems_eq_map] using h
      refine .arr (by simpa using congrArg List.length hs) fun i hj hk => agree_of_arrange_eq ?_
      have hi := congrArg (·[i]?) hs
      simpa [hj, hk] using hi
    | _ => simp [arrange] at h
  | .obj ms, k, h => by
    cases k with
    | obj ns =>
      have hs : arrangeMembers ms = arrangeMembers ns := by simpa [arrange] using h
      have hkey := arrangeMembers_eq_iff.1 hs
      refine .obj (fun key => ?_) fun key j k hj hk => agree_of_arrange_eq ?_
      · simpa using congrArg Option.isSome (hkey key)
      · simpa [hj, hk] using hkey key
    | _ => simp [arrange] at h
termination_by j => sizeOf j
decreasing_by
  · have := List.sizeOf_lt_of_mem (List.getElem_mem hj)
    simp only [Tree.arr.sizeOf_spec]
    omega
  · have := sizeOf_lookup hj
    simp only [Tree.obj.sizeOf_spec]
    omega

/-- Documents agree exactly when they have one canonical form. -/
theorem arrange_eq_arrange_iff {j k : Json} : arrange j = arrange k ↔ Agree j k :=
  ⟨agree_of_arrange_eq, Agree.arrange_eq⟩

/-! ### The order of members -/

theorem mem_of_lookup {key : String} {ms : List (String × Json)} {j : Json}
    (h : lookup key ms = some j) : (key, j) ∈ ms := by
  induction ms with
  | nil => simp [lookup] at h
  | cons m ms ih =>
    rw [lookup, Option.or_eq_some_iff] at h
    rcases h with h | ⟨-, h⟩
    · exact List.mem_cons_of_mem _ (ih h)
    · split at h
      next hk =>
        cases h
        exact hk ▸ List.mem_cons_self
      next => exact absurd h (by simp)

/-- Where no key is written twice, each member is what its key stands for. -/
theorem lookup_eq_some_iff {key : String} {ms : List (String × Json)} {j : Json}
    (hd : (ms.map Prod.fst).Nodup) : lookup key ms = some j ↔ (key, j) ∈ ms := by
  refine ⟨mem_of_lookup, fun h => ?_⟩
  induction ms with
  | nil => exact absurd h List.not_mem_nil
  | cons m ms ih =>
    rw [List.map_cons, List.nodup_cons] at hd
    rcases List.mem_cons.1 h with rfl | h
    · have hn : lookup key ms = none := by
        cases hl : lookup key ms with
        | none => rfl
        | some k => exact absurd (List.mem_map_of_mem (mem_of_lookup hl)) hd.1
      simp [lookup, hn]
    · simp [lookup, ih hd.2 h]

/-- The order in which the members of an object are written does not matter. -/
theorem Agree.of_perm {ms ns : List (String × Json)} (hd : (ms.map Prod.fst).Nodup)
    (h : ms.Perm ns) : Agree (.obj ms) (.obj ns) := by
  have hl : ∀ key, lookup key ms = lookup key ns := by
    intro key
    refine Option.ext fun j => ?_
    rw [lookup_eq_some_iff hd, lookup_eq_some_iff ((h.map Prod.fst).nodup_iff.1 hd), h.mem_iff]
  rw [← arrange_eq_arrange_iff, arrange, arrange]
  exact congrArg _ (arrangeMembers_eq_iff.2 fun key => by rw [hl])

/-! ### Documents in canonical form -/

theorem insertNew_of_lt {α : Type} {k : String} {v : α} {rest : List (String × α)}
    (h : Entries.Ascending ((k, v) :: rest)) : Entries.insertNew k v rest = (k, v) :: rest := by
  cases rest with
  | nil => rfl
  | cons e rest =>
    have hlt : k < e.1 := (List.pairwise_cons.1 h).1 e List.mem_cons_self
    simp [Entries.insertNew, hlt]

mutual
theorem arrange_of_canonical : ∀ {j : Json}, Canonical j → arrange j = j
  | .null, _ | .bool _, _ | .num _, _ | .str _, _ => rfl
  | .arr js, h => by rw [arrange, arrangeItems_of_canonical (by simpa [Canonical] using h)]
  | .obj ms, h => by
    rw [Canonical] at h
    rw [arrange, arrangeMembers_of_canonical h.1 h.2]

theorem arrangeItems_of_canonical : ∀ {js : List Json}, ItemsCanonical js → arrangeItems js = js
  | [], _ => rfl
  | j :: js, h => by rw [arrangeItems, arrange_of_canonical h.1, arrangeItems_of_canonical h.2]

theorem arrangeMembers_of_canonical : ∀ {ms : List (String × Json)}, Entries.Ascending ms →
    MembersCanonical ms → arrangeMembers ms = ms
  | [], _, _ => rfl
  | (k, j) :: ms, ha, h => by
    have hm := arrangeMembers_of_canonical (List.pairwise_cons.1 ha).2 h.2
    rw [arrangeMembers, arrange_of_canonical h.1, hm, insertNew_of_lt ha]
end

mutual
theorem inRange_of_canonical : ∀ {j : Json}, Canonical j → InRange j = true
  | .null, _ | .bool _, _ | .str _, _ => rfl
  | .num n, h => by simpa [InRange, Canonical] using h
  | .arr js, h => by
    rw [InRange]
    exact itemsInRange_of_canonical (by simpa [Canonical] using h)
  | .obj ms, h => by
    rw [Canonical] at h
    rw [InRange]
    exact membersInRange_of_canonical h.2

theorem itemsInRange_of_canonical : ∀ {js : List Json}, ItemsCanonical js → ItemsInRange js = true
  | [], _ => rfl
  | j :: js, h => by
    rw [ItemsInRange, inRange_of_canonical h.1, itemsInRange_of_canonical h.2]
    rfl

theorem membersInRange_of_canonical : ∀ {ms : List (String × Json)}, MembersCanonical ms →
    MembersInRange ms = true
  | [], _ => rfl
  | (_, j) :: ms, h => by
    rw [MembersInRange, inRange_of_canonical h.1, membersInRange_of_canonical h.2]
    rfl
end

end Attestor.Json

namespace Attestor.Document

/-- A document in canonical form is its own canonical form. -/
theorem ofJson_json (d : Document) : ofJson d.json (Json.inRange_of_canonical d.canonical) = d := by
  obtain ⟨j, h⟩ := d
  simp only [ofJson, Json.arrange_of_canonical h]

/-- Documents are the same exactly when what they were written as agrees. -/
theorem ofJson_eq_iff {j k : Json} (hj : Json.InRange j = true) (hk : Json.InRange k = true) :
    ofJson j hj = ofJson k hk ↔ Json.Agree j k := by
  rw [ofJson, ofJson, Document.mk.injEq, Json.arrange_eq_arrange_iff]

end Attestor.Document
