import Attestor.Proofs.Handlings
import Attestor.Proofs.Resumption
import Mathlib.Data.List.Nodup

/-!
Redelivery. When a stream is restarted the block at the tracked height may come again, and its events are routed
again. Nothing remembers that they have been: what keeps a second decision from being queued is that the scope is
not pending any more when it is looked up again. So an event of the chain leads to one verification at most for
each time that its block is turned to, hence to one at most for each restart at the height of its block and one
more, and each of them follows a lookup of its own that found the scope pending (`verifications_bounded`). While the
scope stays pending, a block that comes twice leads to two (`Sample.redelivered_twice`).
-/

namespace Attestor.Stream

open Chain (Block Height)
open Contract (Event Verification)
open Routing (Router)

variable {χ σ ρ π : Type}

/-! ### Places -/

/-- Where an event stands on a chain: its block, and its position there. -/
structure Place where
  block : Block
  position : Nat
  deriving DecidableEq

/-- The events of a block that are the contract's, with their places. -/
def located (b : Block) : List (Place × Event) :=
  b.events.zipIdx.filterMap fun (raw, k) => (Event.classify raw).map (⟨b, k⟩, ·)

theorem map_snd_located (b : Block) : (located b).map Prod.snd = classified b := by
  have hevents : b.events.zipIdx.map Prod.fst = b.events := List.zipIdx_map_fst 0 b.events
  calc (located b).map Prod.snd
      = b.events.zipIdx.filterMap (Event.classify ∘ Prod.fst) := by
        rw [located, List.map_filterMap]
        refine List.filterMap_congr fun ⟨raw, k⟩ _ => ?_
        exact (Option.map_map ..).trans Option.map_id'
    _ = (b.events.zipIdx.map Prod.fst).filterMap Event.classify := List.filterMap_map.symm
    _ = classified b := by rw [hevents, classified]

/-- No two events have one place. -/
theorem nodup_located (b : Block) : ((located b).map Prod.fst).Nodup := by
  have hpositions : (b.events.zipIdx.map Prod.snd).Nodup := by
    rw [List.zipIdx_map_snd]
    exact List.nodup_range'
  refine List.pairwise_map.mpr (List.Pairwise.filterMap _ ?_ (List.pairwise_map.mp hpositions))
  rintro ⟨raw, k⟩ ⟨raw', k'⟩ hne x hx x' hx' heq
  obtain ⟨e, -, rfl⟩ := Option.map_eq_some_iff.mp hx
  obtain ⟨e', -, rfl⟩ := Option.map_eq_some_iff.mp hx'
  exact hne (Place.mk.inj heq).2

theorem of_mem_located {b : Block} {x : Place} {e : Event} (h : (x, e) ∈ located b) :
    x.block = b ∧ ∃ raw, b.events[x.position]? = some raw ∧ Event.classify raw = some e := by
  obtain ⟨⟨raw, k⟩, hraw, hx⟩ := List.mem_filterMap.mp h
  obtain ⟨e', hclass, heq⟩ := Option.map_eq_some_iff.mp hx
  cases heq
  exact ⟨rfl, raw, List.mk_mem_zipIdx_iff_getElem?.mp hraw, hclass⟩

/-- The events of several blocks stand at a place as often as its block is among them, at most. -/
theorem count_places_le (bs : List Block) (x : Place) :
    ((bs.flatMap located).map Prod.fst).count x ≤ bs.count x.block := by
  induction bs with
  | nil => exact Nat.le_refl 0
  | cons b bs ih =>
    rw [List.flatMap_cons, List.map_append, List.count_append, List.count_cons, Nat.add_comm]
    refine Nat.add_le_add ih ?_
    by_cases hb : b = x.block
    · rw [if_pos (beq_iff_eq.mpr hb)]
      exact List.nodup_iff_count_le_one.mp (nodup_located b) x
    · refine Nat.le_trans (Nat.le_of_eq (List.count_eq_zero.mpr fun hmem => ?_)) (Nat.zero_le _)
      obtain ⟨⟨x', e⟩, hx, rfl⟩ := List.mem_map.mp hmem
      exact hb (of_mem_located hx).1.symm

namespace Played

/-- The events that were routed, each at its place. -/
def handled (p : Played Account χ σ ρ π) : List (Handling × Place) :=
  p.record.handlings.zip (((blocks p.journal).flatMap located).map Prod.fst)

/-- The verifications that the event at a place has led to. -/
def verifications (p : Played Account χ σ ρ π) (x : Place) : List Verification :=
  (p.handled.filter (·.2 = x)).flatMap (·.1.queued)

end Played

/-! ### Restarts -/

/-- What the stream was started from, if the note is about that. -/
def Note.opened? : Note → Option (Option Height)
  | .opened height => some height
  | _ => none

/-- How often the stream was started from a height, the first start apart. -/
def restarts (log : List Note) (height : Height) : Nat :=
  ((log.filterMap Note.opened?).drop 1).count (some height)

/-- Blocks come again only right after the stream was started again, at their heights. -/
def Recurs (log : List Note) : Prop :=
  ∀ pre b post, log = pre ++ .began b :: post → b ∈ blocks pre →
    ∃ before, pre = before ++ [.opened (some b.height)] ∧ ∃ h, .opened h ∈ before

theorem restarts_le_append (log log' : List Note) (height : Height) :
    restarts log height ≤ restarts (log ++ log') height := by
  rw [restarts, restarts, List.filterMap_append]
  exact ((List.sublist_append_left _ _).drop 1).count_le _

theorem restarts_concat {log : List Note} (hopened : ∃ h, Note.opened h ∈ log) (height : Height) :
    restarts (log ++ [.opened (some height)]) height = restarts log height + 1 := by
  have hlength : 1 ≤ (log.filterMap Note.opened?).length := by
    obtain ⟨h, hh⟩ := hopened
    exact List.length_pos_of_mem (List.mem_filterMap.mpr ⟨_, hh, rfl⟩)
  rw [restarts, restarts, List.filterMap_append, List.drop_append_of_le_length hlength, List.count_append]
  congr 1
  exact List.count_eq_one_of_mem (List.nodup_singleton _) (List.mem_singleton_self _)

theorem Recurs.of_append {log log' : List Note} (h : Recurs (log ++ log')) : Recurs log :=
  fun pre b post hlog => h pre b (post ++ log') (by rw [hlog, List.append_assoc]; rfl)

/-- A block comes once, and once for each restart at its height, at most. -/
theorem Recurs.count_le {log : List Note} (h : Recurs log) (b : Block) :
    (blocks log).count b ≤ restarts log b.height + 1 := by
  induction hn : log.length using Nat.strongRecOn generalizing log with
  | ind n ih =>
    rcases List.eq_nil_or_concat log with rfl | ⟨log', x, rfl⟩
    · exact Nat.zero_le _
    rw [List.concat_eq_append] at h hn ⊢
    rw [List.length_append, List.length_singleton] at hn
    have hshorter := ih log'.length (by omega) h.of_append rfl
    have hle := Nat.add_le_add_right (restarts_le_append log' [x] b.height) 1
    rw [blocks_append, List.count_append]
    by_cases hx : x = .began b
    · subst hx
      have hone : (blocks [.began b]).count b = 1 := List.count_eq_one_of_mem (List.nodup_singleton b)
        (List.mem_singleton_self b)
      rw [hone]
      by_cases hb : b ∈ blocks log'
      · -- the block follows a restart, which no earlier one does
        obtain ⟨before, rfl, hopened⟩ := h log' b [] rfl hb
        have hbefore := ih before.length (by simp at hn; omega) h.of_append.of_append rfl
        rw [restarts_concat hopened] at hle
        have hnone : blocks [.opened (some b.height)] = [] := rfl
        rw [blocks_append, hnone, List.append_nil]
        omega
      · rw [List.count_eq_zero.mpr hb]
        exact Nat.succ_le_succ (Nat.zero_le _)
    · have hother : (blocks [x]).count b = 0 := by
        refine List.count_eq_zero.mpr fun hmem => hx ?_
        exact (List.mem_singleton.mp (mem_blocks.mp hmem)).symm
      rw [hother]
      exact Nat.le_trans hshorter hle

/-! ### Sources that choose where to start -/

/-- A source that is left to choose where to start delivers first blocks of the chain from some height on. -/
def Chooses (source : Source σ ρ) (chain : List Block) : Prop :=
  ∀ s feed s', source.start none s = (.ok feed, s') → ∃ height bs, bs <+: since chain height ∧ Feeds source feed bs

/-- A feed delivers the same from any source that reads it in the same way. -/
theorem Feeds.of_next {source source' : Source σ ρ} {feed : ρ} {bs : List Block} (h : Feeds source feed bs)
    (hnext : source'.next = source.next) : Feeds source' feed bs := by
  induction h with
  | ends hends => exact .ends (by rw [hnext]; exact hends)
  | block hblock _ ih => exact .block (by rw [hnext]; exact hblock) ih

/-- No height is tracked yet. If the task had been given a certain one, its journal would be gapless. -/
structure Undecided (source : Source σ ρ) (chain : List Block) (t : Task ρ) (log : List Note) : Prop where
  tracked : t.tracked = none
  idle : t.agenda? = none
  gapless : ∃ height, Gapless source chain height [] (since chain height) { t with tracked := some height } log

/-- The journal is gapless, from the height that was given or chosen. -/
def Resumed (source : Source σ ρ) (chain : List Block) (t : Task ρ) (log : List Note) : Prop :=
  Undecided source chain t log ∨ ∃ height past rest, Gapless source chain height past rest t log

section

variable {source : Source σ ρ} {chain : List Block} {t t' : Task ρ} {log : List Note}

/-- A step that notes nothing, tracks nothing, and has a feed as good as before. -/
theorem Undecided.keep (h : Undecided source chain t log) {cancelled : Bool} (hnote : t.note cancelled = [])
    (htracked : t'.tracked = none) (hidle : t'.agenda? = none)
    (hfed : ∀ rest, Fed source log [] rest t.phase → Fed source log [] rest t'.phase) :
    Undecided source chain t' (log ++ t.note cancelled) := by
  obtain ⟨height, hgapless⟩ := h.gapless
  rw [hnote, List.append_nil]
  exact ⟨htracked, hidle, height, hgapless.split, hgapless.first, rfl, hgapless.repeats, hfed _ hgapless.fed⟩

/-- A stream is started, from wherever the source chooses. -/
theorem Undecided.opened (h : Undecided source chain t log) (hchosen : Chooses source chain) {feed : ρ} {s s' : σ}
    (hs : source.start t.tracked s = (.ok feed, s')) (htracked : t'.tracked = none)
    (hphase : t'.phase = .reading feed) : Undecided source chain t' (log ++ [.opened t.tracked]) := by
  rw [h.tracked] at hs ⊢
  obtain ⟨height, bs, hprefix, hfeeds⟩ := hchosen _ _ _ hs
  obtain ⟨_, hgapless⟩ := h.gapless
  have hblocks : blocks (log ++ [.opened none]) = blocks log := by
    rw [blocks_append]
    exact List.append_nil _
  refine ⟨htracked, by simp [Task.agenda?, hphase], height, rfl, by rw [hblocks]; exact hgapless.first, rfl,
    hgapless.repeats.snoc (fun b hb => by cases hb), ?_⟩
  rw [hphase]
  exact ⟨⟨none, List.mem_append_right log (List.mem_singleton_self _)⟩, bs, hfeeds, .inl hprefix⟩

theorem Undecided.step {d : Driver} {c : Collaborators χ σ ρ π} (hchain : chain.Pairwise (·.height < ·.height))
    (hchosen : Chooses c.source chain) {cancelled : Bool} {now : Nat} {s s' : Shared χ σ π}
    (h : Undecided c.source chain t log) (hchange : Task.Change d c cancelled now t s t' s') :
    Resumed c.source chain t' (log ++ t.note cancelled) := by
  cases hchange with
  | known hp ht =>
    rw [h.tracked] at ht
    cases ht
  | @found height _ hp ht hh =>
    have hnote : t.note cancelled = [] := by simp [Task.note, hp]
    cases height with
    | none => exact .inl (h.keep hnote rfl rfl fun _ _ => trivial)
    | some height =>
      obtain ⟨_, hgapless⟩ := h.gapless
      rw [hnote, List.append_nil]
      exact .inr ⟨height, [], since chain height, rfl, hgapless.first, rfl, hgapless.repeats, trivial⟩
  | unknown hp ht hh => exact .inl (h.keep (by simp [Task.note, hp]) ht rfl fun _ _ => trivial)
  | opened hc hp hs =>
    rw [show t.note cancelled = [.opened t.tracked] by simp [Task.note, hp, hc]]
    exact .inl (h.opened hchosen hs h.tracked rfl)
  | refused hc hp hs =>
    rw [show t.note cancelled = [.opened t.tracked] by simp [Task.note, hp, hc]]
    obtain ⟨height, hgapless⟩ := h.gapless
    exact .inl ⟨h.tracked, rfl, height, hgapless.snoc rfl rfl trivial⟩
  | took hc hp hn =>
    refine .inl (h.keep (by simp [Task.note, hp]) h.tracked rfl fun rest hfed => ?_)
    rw [hp] at hfed
    obtain ⟨hopened, bs, hfeeds, hahead⟩ := hfed
    obtain ⟨bs', rfl, hrest⟩ := hfeeds.of_block hn
    exact ⟨hopened, bs', hrest, hahead⟩
  | @advanced b feed hp ht =>
    rw [show t.note cancelled = [.began b] by simp [Task.note, hp]]
    obtain ⟨height, hgapless⟩ := h.gapless
    obtain ⟨past, rest, hnext⟩ := (hgapless.began hchain hp).2 (.ofEvents (classified b))
    exact .inr ⟨height, past, rest, hnext⟩
  | surpassed hp ht => exact absurd (by rw [h.tracked]; rfl) ht
  | handled hp ha =>
    have hidle := h.idle
    rw [Task.agenda?, hp] at hidle
    cases hidle
  | settled hp ha =>
    have hidle := h.idle
    rw [Task.agenda?, hp] at hidle
    cases hidle
  | dismissed hc hp =>
    subst hc
    refine .inl (h.keep ?_ h.tracked rfl fun _ _ => trivial)
    rcases hp with hp | ⟨feed, hp⟩ | ⟨wake, attempt, hp⟩ <;> simp [Task.note, hp]
  | broke _ hp | completed _ hp | quit hp | gaveUp hp | restarting hp | restarted _ hp =>
    exact .inl (h.keep (by simp [Task.note, hp]) h.tracked rfl fun _ _ => trivial)

theorem Resumed.begin (start : Option Height) : Resumed source chain (.begin start) [] := by
  have hgapless : ∀ height, Gapless source chain height [] (since chain height) (.begin (some height)) [] :=
    fun height => ⟨rfl, rfl, rfl, .nil, trivial⟩
  cases start with
  | none => exact .inl ⟨rfl, rfl, 0, hgapless 0⟩
  | some height => exact .inr ⟨height, [], since chain height, hgapless height⟩

theorem Resumed.step {d : Driver} {c : Collaborators χ σ ρ π} (hchain : chain.Pairwise (·.height < ·.height))
    (hsource : Resumes c.source chain) (hchosen : Chooses c.source chain) {cancelled : Bool} {now : Nat}
    {s s' : Shared χ σ π} (h : Resumed c.source chain t log) (hchange : Task.Change d c cancelled now t s t' s') :
    Resumed c.source chain t' (log ++ t.note cancelled) := by
  rcases h with hundecided | ⟨height, past, rest, hgapless⟩
  · exact hundecided.step hchain hchosen hchange
  · exact .inr ⟨height, hgapless.step hchain hsource hchange⟩

/-- What the task turns to is on the chain, and comes again only after a restart. -/
theorem Resumed.recurs (h : Resumed source chain t log) : (∀ b ∈ blocks log, b ∈ chain) ∧ Recurs log := by
  obtain ⟨height, past, rest, t, hgapless⟩ : ∃ height past rest t, Gapless source chain height past rest t log := by
    rcases h with ⟨-, -, height, hgapless⟩ | ⟨height, past, rest, hgapless⟩
    · exact ⟨_, _, _, _, hgapless⟩
    · exact ⟨_, _, _, _, hgapless⟩
  refine ⟨fun b hb => ?_, fun pre b post hlog hb => hgapless.again hlog hb⟩
  rw [← List.mem_eraseDups, hgapless.first] at hb
  have hsince : b ∈ since chain height := by
    rw [hgapless.split]
    exact List.mem_append_left rest hb
  exact (List.mem_filter.mp hsince).1

end

/-! ### What an event of the chain leads to -/

/-- What the task has queued for the events of a chain. -/
structure Sparing (r : Router) (chain : List Block) (p : Played Account χ σ ρ π) : Prop where
  /-- What the task has queued is what the handlers of its events have queued. -/
  queued : p.record.queued = p.record.handlings.flatMap Handling.queued
  /-- Each event that was routed has its place on the chain. -/
  placed : p.handled.map Prod.fst = p.record.handlings ∧ ∀ h x, (h, x) ∈ p.handled → x.block ∈ chain ∧
    ∃ raw, x.block.events[x.position]? = some raw ∧ Event.classify raw = some h.event
  /-- Each time that an event is routed it leads to one verification at most, and to that one only after its scope
  was looked up anew and found pending. -/
  decided : ∀ h ∈ p.record.handlings, h.queued = [] ∨ ∃ v, Decides r h v
  /-- An event leads to one verification at most for each time that its block was turned to. -/
  delivered : ∀ x, (p.verifications x).length ≤ (blocks p.journal).count x.block
  /-- A block is turned to again only right after the stream was started again, at the height of that block. -/
  recurs : Recurs p.journal
  /-- So an event leads to one verification, and to one more for each restart at its height, at most. -/
  bounded : ∀ x, (p.verifications x).length ≤ restarts p.journal x.block.height + 1

namespace Played

variable {p : Played Account χ σ ρ π}

theorem length_flatMap_queued_le {l : List (Handling × Place)} (h : ∀ y ∈ l, y.1.queued.length ≤ 1) :
    (l.flatMap (·.1.queued)).length ≤ l.length := by
  induction l with
  | nil => exact Nat.le_refl 0
  | cons y l ih =>
    rw [List.flatMap_cons, List.length_append, List.length_cons, Nat.add_comm]
    exact Nat.add_le_add (ih fun z hz => h z (List.mem_cons_of_mem y hz)) (h y (List.mem_cons_self ..))

/-- Where an event leads to one verification at most each time that it is routed, it does so each time that its
block is turned to. -/
theorem length_verifications_le (h : ∀ h ∈ p.record.handlings, h.queued.length ≤ 1) (x : Place) :
    (p.verifications x).length ≤ (blocks p.journal).count x.block := by
  have hplaces : (p.handled.map Prod.snd).Sublist (((blocks p.journal).flatMap located).map Prod.fst) := by
    rw [handled, List.zip_eq_zip_take_min, List.map_snd_zip (by simp)]
    exact List.take_sublist _ _
  have hfew : ∀ y ∈ p.handled.filter (·.2 = x), y.1.queued.length ≤ 1 := fun y hy =>
    h y.1 (List.of_mem_zip (List.mem_of_mem_filter hy)).1
  calc (p.verifications x).length
      ≤ (p.handled.filter (·.2 = x)).length := length_flatMap_queued_le hfew
    _ = (p.handled.map Prod.snd).count x := by
        rw [List.count, List.countP_map, List.countP_eq_length_filter]
        rfl
    _ ≤ (((blocks p.journal).flatMap located).map Prod.fst).count x := hplaces.count_le x
    _ ≤ (blocks p.journal).count x.block := count_places_le _ x

/-- The events of the blocks are routed in their order, so that each has its place. -/
theorem handled_placed (hevents : p.record.handlings.map (·.event) = routed p.journal)
    (hthorough : Thorough p.task p.journal) :
    p.handled.map Prod.fst = p.record.handlings ∧ ∀ h x, (h, x) ∈ p.handled → x.block ∈ blocks p.journal ∧
      ∃ raw, x.block.events[x.position]? = some raw ∧ Event.classify raw = some h.event := by
  have hrouted : ((blocks p.journal).flatMap located).map Prod.snd =
      p.record.handlings.map (·.event) ++ p.task.waiting := by
    rw [hevents, hthorough.routed, List.map_flatMap]
    exact congrArg (List.flatMap · _) (funext map_snd_located)
  have hlength := congrArg List.length hrouted
  rw [List.length_map, List.length_append, List.length_map] at hlength
  refine ⟨List.map_fst_zip (by rw [List.length_map, hlength]; exact Nat.le_add_right _ _), fun h x hmem => ?_⟩
  obtain ⟨n, hn⟩ := List.mem_iff_getElem?.mp hmem
  obtain ⟨hh, hx⟩ := List.getElem?_zip_eq_some.mp hn
  rw [List.getElem?_map] at hx
  obtain ⟨⟨_, e⟩, hget, rfl⟩ := Option.map_eq_some_iff.mp hx
  have he : some e = some h.event := by
    have heq := congrArg (·[n]?) hrouted
    have hlt : n < (p.record.handlings.map (·.event)).length := by
      rw [List.length_map]
      exact (List.getElem?_eq_some_iff.mp hh).1
    rw [List.getElem?_append_left hlt, List.getElem?_map, List.getElem?_map, hget, hh] at heq
    exact heq
  obtain ⟨b, hb, hlocated⟩ := List.mem_flatMap.mp (List.mem_of_getElem? hget)
  obtain ⟨rfl, raw, hraw, hclass⟩ := of_mem_located hlocated
  exact ⟨hb, raw, hraw, hclass.trans he⟩

end Played

/-- **An event leads to one verification for each time that its block is delivered, at most**, with the default
handlers, whatever the restart mode is, whenever the task makes its steps, whatever happens in between, and
wherever it starts a chain that its source resumes. -/
theorem verifications_bounded {d : Driver} {c : Collaborators χ σ ρ π} {chain : List Block}
    (hchain : chain.Pairwise (·.height < ·.height)) (hsource : Resumes c.source chain)
    (hchosen : Chooses c.source chain) (hregistry : d.router.registry = .default) (start : Option Height)
    (s : Shared χ σ π) (turns : List (Turn χ σ π)) :
    Sparing d.router chain ((Played.begin start s).run d c turns) := by
  have hthorough : Thorough (.begin start : Task ρ) [] := ⟨rfl, .nil⟩
  have hrun := Played.run_induction (d := d) (c := c)
    (P := fun t log a => Thorough t log ∧ Resumed c.source chain t log ∧ Faithful d.router t log a) turns
    (fun _ _ => fun ⟨hthorough, hresumed, hfaithful⟩ hchange =>
      ⟨hthorough.step hchange, hresumed.step hchain hsource hchosen hchange, hfaithful.step hchange⟩)
    (p := .begin start s) ⟨hthorough, .begin start, .begin d.router start⟩
  obtain ⟨hthorough, hresumed, hfaithful⟩ := hrun
  obtain ⟨hmem, hrecurs⟩ := hresumed.recurs
  obtain ⟨hall, hplaced⟩ := Played.handled_placed hfaithful.events hthorough
  have hdecided := fun h hh => (hfaithful.explained h hh).decides hregistry
  have hdelivered := Played.length_verifications_le fun h hh => by
    rcases hdecided h hh with hnone | ⟨v, hv⟩
    · rw [hnone]
      exact Nat.zero_le 1
    · rw [hv.queued]
      exact Nat.le_refl 1
  exact
    { queued := hfaithful.queued
      placed := ⟨hall, fun h x hx => ⟨hmem _ (hplaced h x hx).1, (hplaced h x hx).2⟩⟩
      decided := hdecided
      delivered := hdelivered
      recurs := hrecurs
      bounded := fun x => Nat.le_trans (hdelivered x) (hrecurs.count_le x.block) }

/-! ### A block that comes twice -/

namespace Sample

/-- A source that plays a chain like `player`, and all of it when it may choose. -/
def wanderer (blocks : List Block) : Source (List Nat) (List Block) :=
  { player blocks with start := fun height ns => (player blocks).start (some (height.getD 0)) ns }

theorem wanderer_feeds (blocks : List Block) {height : Option Height} {ns ns' : List Nat} {feed : List Block}
    (hs : (wanderer blocks).start height ns = (.ok feed, ns')) :
    ∃ bs, bs <+: since blocks (height.getD 0) ∧ Feeds (wanderer blocks) feed bs := by
  obtain ⟨bs, hprefix, hfeeds⟩ := resumes blocks (height.getD 0) ns feed ns' hs
  exact ⟨bs, hprefix, hfeeds.of_next rfl⟩

theorem wanderer_resumes (blocks : List Block) : Resumes (wanderer blocks) blocks :=
  fun _ _ _ _ hs => wanderer_feeds blocks hs

theorem wanderer_chooses (blocks : List Block) : Chooses (wanderer blocks) blocks :=
  fun _ _ _ hs => ⟨0, wanderer_feeds blocks hs⟩

/-- One onboarding event for this verifier. -/
def request : Block :=
  ⟨7, [⟨7, "hash", "wasm",
    [⟨Contract.Key.contractAddress.text, "contract"⟩, ⟨Contract.Key.eventType.text, "onboard_asset"⟩,
      ⟨Contract.Key.assetType.text, "loan"⟩, ⟨Contract.Key.scopeAddress.text, "scope"⟩,
      ⟨Contract.Key.verifierAddress.text, "verifier"⟩]⟩]⟩

/-- The scope of the event is pending, and nothing changes that. -/
def pending : Chain.Ledger :=
  Chain.Ledger.empty.putScope "contract" ⟨"uuid", "scope", "loan", "requestor", "verifier", .pending, none⟩

def attesting : Driver := ⟨⟨"contract", .fixed "verifier" [] (.ok []), .default⟩, .enabled .immediate⟩

def wandering : Collaborators Chain.Ledger (List Nat) (List Block) Asset.Fixed :=
  ⟨Chain.Ledger.client, wanderer [request], Asset.Fixed.verifier⟩

/-- The block, a failure that a restart may mend, and the block again. -/
def redelivered : Played Account Chain.Ledger (List Nat) (List Block) Asset.Fixed :=
  (Played.begin none (.initial pending [1, 1] .approving)).run attesting wandering (List.replicate 31 ⟨false, 0, id⟩)

theorem redelivered_length : (redelivered.verifications ⟨request, 0⟩).length = 2 := by decide +kernel

/-- Nothing but failures that a restart may mend, and a source that resumes: and yet one event of the chain leads to
two verifications in one run, as its scope is pending both times. -/
theorem redelivered_twice :
    [request].Pairwise (·.height < ·.height) ∧ Resumes (wanderer [request]) [request] ∧
      Chooses (wanderer [request]) [request] ∧
      (∀ height ns f ns', (wanderer [request]).start height ns = (.error f, ns') → f.recoverable = true) ∧
      (∀ feed f, (wanderer [request]).next feed = .failed f → f.recoverable = true) ∧
      attesting.restart = .enabled .immediate ∧ attesting.router.registry = .default ∧
      ¬ ∀ x : Place, x.block ∈ [request] → (redelivered.verifications x).length ≤ 1 := by
  refine ⟨by decide, wanderer_resumes _, wanderer_chooses _, fun height ns f ns' hs => ?_, fun feed f hn => ?_, rfl,
    rfl, fun hsingle => ?_⟩
  · cases ns with
    | nil => cases hs; rfl
    | cons n ns => cases hs
  · cases feed with
    | nil => cases hn; rfl
    | cons b bs => cases hn
  · have hle := hsingle ⟨request, 0⟩ (List.mem_singleton_self _)
    rw [redelivered_length] at hle
    exact absurd hle (by decide)

/-- The sample run was started again once at the height of the block, and its event led to one verification more. -/
theorem redelivered_bounded :
    [request].Pairwise (·.height < ·.height) ∧ Resumes wandering.source [request] ∧
      Chooses wandering.source [request] ∧ attesting.router.registry = .default ∧
      Sparing attesting.router [request] redelivered ∧
      (redelivered.verifications ⟨request, 0⟩).length = restarts redelivered.journal request.height + 1 := by
  have hchain : [request].Pairwise (·.height < ·.height) := by decide
  have hrestarts : restarts redelivered.journal request.height = 1 := by decide +kernel
  refine ⟨hchain, wanderer_resumes _, wanderer_chooses _, rfl, ?_, by rw [redelivered_length, hrestarts]⟩
  exact verifications_bounded (c := wandering) hchain (wanderer_resumes _) (wanderer_chooses _) rfl none _ _

end Sample

end Attestor.Stream
