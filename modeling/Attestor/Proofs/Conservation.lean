import Attestor.Proofs.Logs
import Attestor.Queue.Channel

/-!
What a channel gives over any sequence of operations.

The entries of the operations tell on their own what was accepted, what was handed out, and which senders and receivers
were made and dropped. `Books`: a channel keeps account of all of this. From it follows what each operation gives, read
off the entries before it (`Answers`), and that nothing is lost, doubled or reordered on the way from the senders to the
receivers (`performAll_conserves`).
-/

namespace Attestor.Channel

variable {α : Type} {past : List (Entry α)} {c : Channel α}

/-! ### What entries tell -/

namespace Entry

/-- The item, if it was accepted. -/
def accepts : Entry α → List α
  | .published _ a true => [a]
  | _ => []

/-- The items that were handed out. -/
def hands : Entry α → List α
  | .drained _ items => items
  | .took _ _ items _ => items
  | _ => []

/-- The sender, or receiver, that was made. -/
def makes (half : Half) : Entry α → List Nat
  | .cloned half' _ new => if half' = half then [new] else []
  | _ => []

/-- The sender, or receiver, that was dropped. -/
def drops (half : Half) : Entry α → List Nat
  | .dropped half' i => if half' = half then [i] else []
  | _ => []

end Entry

/-- The items that were accepted, in order. -/
def accepted (past : List (Entry α)) : List α := past.flatMap Entry.accepts

/-- The items that were handed out, in order, through whatever receiver. -/
def handedOut (past : List (Entry α)) : List α := past.flatMap Entry.hands

/-- The items that were accepted and not handed out. -/
def waiting (past : List (Entry α)) : List α := (accepted past).drop (handedOut past).length

/-- The senders, or receivers, there ever were: the first one, and those that were made. -/
def made (half : Half) (past : List (Entry α)) : List Nat := 0 :: past.flatMap (Entry.makes half)

/-- The senders, or receivers, that were dropped. -/
def dropped (half : Half) (past : List (Entry α)) : List Nat := past.flatMap (Entry.drops half)

/-- Not every sender, or not every receiver, was dropped. -/
def Left (half : Half) (past : List (Entry α)) : Prop := ∃ i ∈ made half past, i ∉ dropped half past

/-- What an operation gives, by the entries before it. -/
def Answers (past : List (Entry α)) : Entry α → Prop
  -- An item is refused if every receiver was dropped, and only then.
  | .published _ _ done => done = false ↔ ¬ Left .receiver past
  -- Whichever sender is asked, it tells how many items were accepted.
  | .counted _ count => count = .ofNat (accepted past).length
  -- Each sender and each receiver has a number of its own.
  | .cloned half _ new => new ∉ made half past
  | .dropped _ _ => True
  -- All that waits is handed out.
  | .drained _ items => items = waiting past
  -- What waits is handed out whether senders are left or not. That counts only once nothing waits and more is wanted.
  | .took _ max items stop => items = (waiting past).take max ∧
      (stop = .disconnected ↔ (waiting past).length < max ∧ ¬ Left .sender past) ∧
      (stop = .empty ↔ (waiting past).length < max ∧ Left .sender past)

/-! ### Senders and receivers -/

/-- Flags tell which of the senders, or receivers, there ever were are still there. -/
structure Tracks (flags : List Bool) (made dropped : List Nat) : Prop where
  made : ∀ i, i ∈ made ↔ i < flags.length
  dropped : ∀ i, i ∈ dropped ↔ flags[i]? = some false

namespace Tracks

variable {flags : List Bool} {made dropped : List Nat}

theorem one : Tracks [true] [0] [] where
  made i := by simp
  dropped i := by cases i <;> simp

theorem clone (h : Tracks flags made dropped) : Tracks (flags ++ [true]) (made ++ [flags.length]) dropped where
  made i := by
    rw [List.mem_append, List.mem_singleton, h.made, List.length_append, List.length_singleton]
    omega
  dropped i := by
    rw [h.dropped, List.getElem?_append]
    split
    next => rfl
    next hge => simp [List.getElem?_eq_none (Nat.le_of_not_lt hge), List.getElem?_singleton]

theorem drop (h : Tracks flags made dropped) {i : Nat} (hi : flags[i]? = some true) :
    Tracks (flags.set i false) made (dropped ++ [i]) where
  made j := by rw [h.made, List.length_set]
  dropped j := by
    have hlt : i < flags.length := (List.getElem?_eq_some_iff.mp hi).1
    rw [List.mem_append, List.mem_singleton, h.dropped]
    by_cases hij : i = j
    · subst hij
      simp [hlt]
    · rw [List.getElem?_set_ne hij]
      exact or_iff_left (Ne.symm hij)

/-- A flag is up for each one that was not dropped. -/
theorem any_iff (h : Tracks flags made dropped) : flags.any id = true ↔ ∃ i ∈ made, i ∉ dropped := by
  rw [List.any_eq_true]
  constructor
  · rintro ⟨flag, hmem, hflag⟩
    obtain rfl : flag = true := hflag
    obtain ⟨i, hi⟩ := List.mem_iff_getElem?.mp hmem
    refine ⟨i, (h.made i).mpr (List.getElem?_eq_some_iff.mp hi).1, fun hdropped => ?_⟩
    rw [h.dropped, hi] at hdropped
    cases hdropped
  · rintro ⟨i, hmade, hleft⟩
    have hlt := (h.made i).mp hmade
    have hget := List.getElem?_eq_getElem hlt
    cases hflag : flags[i] with
    | true => exact ⟨true, hflag ▸ List.getElem_mem hlt, rfl⟩
    | false => exact absurd ((h.dropped i).mpr (hget.trans (congrArg some hflag))) hleft

end Tracks

/-! ### The books of a channel -/

/-- A channel keeps account of what was done. -/
structure Books (past : List (Entry α)) (c : Channel α) : Prop where
  accepted : c.queue.log = accepted past
  handedOut : c.queue.history = handedOut past
  tracks : ∀ half, Tracks (c.flags half) (made half past) (dropped half past)
  answers : Fitting Answers past

namespace Books

theorem new : Books [] (.new : Channel α) where
  accepted := rfl
  handedOut := rfl
  tracks half := by cases half <;> exact .one
  answers := .nil

theorem hasReceiver_iff (h : Books past c) : c.hasReceiver = true ↔ Left .receiver past := (h.tracks .receiver).any_iff

theorem hasSender_iff (h : Books past c) : c.hasSender = true ↔ Left .sender past := (h.tracks .sender).any_iff

theorem waiting (h : Books past c) : c.queue.items = waiting past := by
  rw [Channel.waiting, ← h.accepted, ← h.handedOut, ← c.queue.history_append_items, List.drop_left]

/-- An entry whose effects on the channel are those that it tells. -/
theorem next (h : Books past c) {x : Entry α} {c' : Channel α} (haccepted : c'.queue.log = c.queue.log ++ x.accepts)
    (hhandedOut : c'.queue.history = c.queue.history ++ x.hands)
    (htracks : ∀ half, Tracks (c'.flags half) (made half past ++ x.makes half) (dropped half past ++ x.drops half))
    (hanswers : Answers past x) : Books (past ++ [x]) c' where
  accepted := by
    rw [haccepted, h.accepted, Channel.accepted, Channel.accepted, List.flatMap_append, List.flatMap_singleton]
  handedOut := by
    rw [hhandedOut, h.handedOut, Channel.handedOut, Channel.handedOut, List.flatMap_append, List.flatMap_singleton]
  tracks half := by
    rw [made, dropped, List.flatMap_append, List.flatMap_append, List.flatMap_singleton, List.flatMap_singleton]
    exact htracks half
  answers := h.answers.snoc hanswers

/-- An entry that makes and drops nothing leaves the flags as they are. -/
theorem tracks_same (h : Books past c) (half : Half) :
    Tracks (c.flags half) (made half past ++ []) (dropped half past ++ []) := by
  rw [List.append_nil, List.append_nil]
  exact h.tracks half

/-- An entry about one half leaves the flags of the other half as they are. -/
theorem tracks_at (h : Books past c) {half : Half} {flags : List Bool} {new gone : List Nat}
    (hhalf : Tracks flags (made half past ++ new) (dropped half past ++ gone)) (half' : Half) :
    Tracks (if half = half' then flags else c.flags half') (made half' past ++ if half = half' then new else [])
      (dropped half' past ++ if half = half' then gone else []) := by
  by_cases heq : half = half'
  · subst heq
    rw [if_pos rfl, if_pos rfl, if_pos rfl]
    exact hhalf
  · rw [if_neg heq, if_neg heq, if_neg heq]
    exact h.tracks_same half'

theorem publish (h : Books past c) (i : Nat) (a : α) :
    Books (past ++ [.published i a (c.publish a).1]) (c.publish a).2 := by
  rw [Channel.publish]
  cases hleft : c.hasReceiver with
  | true =>
    refine h.next (Queue.log_publish ..) ?_ h.tracks_same ?_
    · exact (Queue.history_publish ..).trans (List.append_nil _).symm
    · exact iff_of_false Bool.noConfusion (not_not_intro (h.hasReceiver_iff.mp hleft))
  | false =>
    refine h.next (List.append_nil _).symm (List.append_nil _).symm h.tracks_same ?_
    exact iff_of_true rfl fun hreceiver => Bool.noConfusion (hleft.symm.trans (h.hasReceiver_iff.mpr hreceiver))

theorem count (h : Books past c) (i : Nat) : Books (past ++ [.counted i c.published]) c := by
  refine h.next (List.append_nil _).symm (List.append_nil _).symm h.tracks_same ?_
  show UInt64.ofNat c.queue.log.length = _
  rw [h.accepted]

/-- Another sender, or receiver, gets a number of its own, and the channel takes note of it. -/
theorem clone (h : Books past c) (half : Half) (i : Nat) :
    Books (past ++ [(c.perform (.clone half i)).1]) (c.perform (.clone half i)).2 := by
  have hentry : (c.perform (.clone half i)).1 = .cloned half i (c.flags half).length := by cases half <;> rfl
  have hqueue : (c.perform (.clone half i)).2.queue = c.queue := by cases half <;> rfl
  have hflags (half' : Half) : (c.perform (.clone half i)).2.flags half' =
      if half = half' then c.flags half ++ [true] else c.flags half' := by
    cases half <;> cases half' <;> rfl
  have hhalf : Tracks (c.flags half ++ [true]) (made half past ++ [(c.flags half).length]) (dropped half past ++ []) := by
    rw [List.append_nil]
    exact (h.tracks half).clone
  rw [hentry]
  refine h.next (hqueue ▸ (List.append_nil _).symm) (hqueue ▸ (List.append_nil _).symm) (fun half' => ?_) fun hmem => ?_
  · have htracks := h.tracks_at hhalf half'
    rw [ite_self] at htracks
    exact hflags half' ▸ htracks
  · exact Nat.lt_irrefl _ (((h.tracks half).made _).mp hmem)

/-- A sender, or receiver, is there no longer, and the channel takes note of it. -/
theorem drop (h : Books past c) {half : Half} {i : Nat} (hi : (c.flags half)[i]? = some true) :
    Books (past ++ [(c.perform (.drop half i)).1]) (c.perform (.drop half i)).2 := by
  have hentry : (c.perform (.drop half i)).1 = .dropped half i := by cases half <;> rfl
  have hqueue : (c.perform (.drop half i)).2.queue = c.queue := by cases half <;> rfl
  have hflags (half' : Half) : (c.perform (.drop half i)).2.flags half' =
      if half = half' then (c.flags half).set i false else c.flags half' := by
    cases half <;> cases half' <;> rfl
  have hhalf : Tracks ((c.flags half).set i false) (made half past ++ []) (dropped half past ++ [i]) := by
    rw [List.append_nil]
    exact (h.tracks half).drop hi
  rw [hentry]
  refine h.next (hqueue ▸ (List.append_nil _).symm) (hqueue ▸ (List.append_nil _).symm) (fun half' => ?_) trivial
  have htracks := h.tracks_at hhalf half'
  rw [ite_self] at htracks
  exact hflags half' ▸ htracks

theorem drain (h : Books past c) (i : Nat) : Books (past ++ [.drained i c.drain.1]) c.drain.2 := by
  rw [drain_eq]
  refine h.next (List.append_nil _).symm (Queue.history_drain _) (fun half => ?_) h.waiting
  show Tracks ({ c with queue := _ }.flags half) _ _
  rw [flags_queue]
  exact h.tracks_same half

theorem take (h : Books past c) (i max : Nat) :
    Books (past ++ [.took i max (c.take max).1 (c.take max).2.1]) (c.take max).2.2 := by
  rw [take_eq]
  refine h.next (List.append_nil _).symm (Queue.history_take ..) (fun half => ?_) ?_
  · show Tracks ({ c with queue := _ }.flags half) _ _
    rw [flags_queue]
    exact h.tracks_same half
  refine ⟨by rw [← h.waiting]; rfl, ?_⟩
  rw [← h.waiting, ← h.hasSender_iff]
  dsimp only
  by_cases hshort : c.queue.items.length < max
  · cases c.hasSender <;> simp [hshort]
  · simp [hshort]

/-- What an operation does and gives goes into the books. -/
theorem perform (h : Books past c) {op : Operation α} (hop : c.Offers op) :
    Books (past ++ [(c.perform op).1]) (c.perform op).2 := by
  cases op with
  | publish i a => exact h.publish i a
  | published i => exact h.count i
  | clone half i => exact h.clone half i
  | drop half i => exact h.drop hop
  | drain i => exact h.drain i
  | take i max => exact h.take i max

/-- The books are right after any operations. -/
theorem performAll (h : Books past c) {ops : List (Operation α)} (hops : c.OffersAll ops) :
    Books (past ++ (c.performAll ops).1) (c.performAll ops).2 := by
  induction ops generalizing past c with
  | nil => exact (List.append_nil past).symm ▸ h
  | cons op ops ih =>
    have hrest := ih (h.perform hops.1) hops.2
    rw [List.append_assoc] at hrest
    exact hrest

end Books

/-! ### Conservation -/

/-- What holds of a channel after operations with these entries. -/
structure Conserves (past : List (Entry α)) (c : Channel α) : Prop where
  /-- As long as a receiver is left, the items that were handed out and those that wait are the items that were accepted,
  in order. -/
  inOrder : Left .receiver past → handedOut past ++ c.items = accepted past
  /-- Each operation gave what the entries before it say. -/
  answers : Fitting Answers past

theorem Books.conserves (h : Books past c) : Conserves past c where
  inOrder hleft := by
    rw [items, if_pos (h.hasReceiver_iff.mpr hleft), ← h.handedOut, ← h.accepted]
    exact c.queue.history_append_items
  answers := h.answers

/-- **Nothing is lost, doubled or reordered**, whatever is done with the senders and receivers that are there, and each
operation gives what follows from those before it. -/
theorem performAll_conserves {ops : List (Operation α)} (hops : (new : Channel α).OffersAll ops) :
    Conserves (new.performAll ops).1 (new.performAll ops).2 :=
  (Books.new.performAll hops).conserves

namespace Sample

/-- Both senders are dropped, the second one while an item waits. -/
def operations : List (Operation Nat) :=
  [.publish 0 10, .clone .sender 0, .publish 1 20, .drop .sender 0, .take 0 1, .clone .receiver 0, .drop .receiver 0,
    .publish 1 30, .published 1, .take 1 1, .drop .sender 1, .take 1 5]

/-- The last item is handed out although no sender is left. -/
theorem orphaned_conserves :
    (new.performAll operations).1.getLast? = some (.took 1 5 [30] .disconnected) ∧
      handedOut (new.performAll operations).1 = [10, 20, 30] ∧
        Conserves (new.performAll operations).1 (new.performAll operations).2 :=
  ⟨by decide, by decide,
    performAll_conserves ⟨rfl, rfl, rfl, rfl, rfl, rfl, rfl, rfl, rfl, rfl, rfl, rfl, trivial⟩⟩

end Sample

end Attestor.Channel
