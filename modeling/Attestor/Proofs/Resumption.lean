import Attestor.Chain.Ledger
import Attestor.Proofs.Journal

/-!
Resumption. A chain is a list of blocks with strictly increasing heights, and a source resumes the chain if,
started from a height, it delivers some of the blocks from that height on, in order and without a gap, before it
ends in whatever way. However often the stream is restarted, the blocks that the task turns to for the first time
are then the first blocks of the chain from the given height on; and a block comes again only as the first one of a
stream that was restarted at its height (`run_covers`).
-/

namespace Attestor.Stream

open Chain (Block Height)

variable {χ σ ρ π : Type}

/-! ### Sources that resume -/

/-- The feed delivers these blocks and no more. -/
inductive Feeds (source : Source σ ρ) : ρ → List Block → Prop where
  | ends {feed} (h : ∀ b rest, source.next feed ≠ .block b rest) : Feeds source feed []
  | block {feed b rest bs} (h : source.next feed = .block b rest) (hrest : Feeds source rest bs) :
      Feeds source feed (b :: bs)

/-- The blocks of a chain from a height on. -/
def since (chain : List Block) (height : Height) : List Block :=
  chain.filter (height ≤ ·.height)

/-- Whenever the source is started from a height, it delivers first blocks of the chain from that height on. -/
def Resumes (source : Source σ ρ) (chain : List Block) : Prop :=
  ∀ height s feed s', source.start (some height) s = (.ok feed, s') →
    ∃ bs, bs <+: since chain height ∧ Feeds source feed bs

variable {source : Source σ ρ} {chain : List Block}

theorem Feeds.of_block {feed rest : ρ} {b : Block} {bs : List Block} (h : Feeds source feed bs)
    (hn : source.next feed = .block b rest) : ∃ bs', bs = b :: bs' ∧ Feeds source rest bs' := by
  cases h with
  | ends hends => exact absurd hn (hends b rest)
  | block hblock hrest =>
    rw [hblock] at hn
    cases hn
    exact ⟨_, rfl, hrest⟩

/-! ### The chain from a height on -/

/-- The height to go on from after these blocks, where the first stream was started from `height`. -/
def resumeHeight (height : Height) (past : List Block) : Height :=
  (past.getLast?.map (·.height)).getD height

theorem resumeHeight_concat (height : Height) (past : List Block) (b : Block) :
    resumeHeight height (past ++ [b]) = b.height := by
  simp [resumeHeight]

section

variable {height : Height} {past rest : List Block}

/-- From the height of its last block on, a chain has this block and the rest. -/
theorem since_concat (hchain : chain.Pairwise (·.height < ·.height)) {b : Block}
    (h : since chain height = (past ++ [b]) ++ rest) : since chain b.height = b :: rest := by
  have hb : height ≤ b.height := by
    have hmem : b ∈ since chain height := by
      rw [h]
      exact List.mem_append_left rest (List.mem_append_right past (List.mem_singleton_self b))
    simpa using (List.mem_filter.mp hmem).2
  have hsorted : (past ++ b :: rest).Pairwise (·.height < ·.height) := by
    have hsince : (since chain height).Pairwise (·.height < ·.height) := hchain.filter _
    rw [h, List.append_assoc] at hsince
    exact hsince
  obtain ⟨-, htail, hbefore⟩ := List.pairwise_append.mp hsorted
  have hrefine : since chain b.height = (since chain height).filter (b.height ≤ ·.height) := by
    rw [since, since, List.filter_filter]
    refine List.filter_congr fun x _ => ?_
    by_cases hx : b.height ≤ x.height
    · simp [hx, UInt64.le_trans hb hx]
    · simp [hx]
  have hpast : past.filter (b.height ≤ ·.height) = [] :=
    List.filter_eq_nil_iff.mpr fun x hx => by
      simpa using hbefore x hx b (List.mem_cons_self ..)
  have hrest : rest.filter (b.height ≤ ·.height) = rest :=
    List.filter_eq_self.mpr fun x hx => by
      simpa using UInt64.le_of_lt ((List.pairwise_cons.mp htail).1 x hx)
  rw [hrefine, h, List.append_assoc, List.filter_append, hpast, List.nil_append, List.singleton_append,
    List.filter_cons_of_pos (by simp), hrest]

/-- The next block is new, and not below the height to go on from. -/
theorem next_of_since (hchain : chain.Pairwise (·.height < ·.height)) {b : Block}
    (h : since chain height = past ++ b :: rest) : b ∉ past ∧ resumeHeight height past ≤ b.height := by
  have hsorted : (past ++ b :: rest).Pairwise (·.height < ·.height) := by
    rw [← h]
    exact hchain.filter _
  obtain ⟨-, -, hbefore⟩ := List.pairwise_append.mp hsorted
  refine ⟨fun hmem => UInt64.lt_irrefl _ (hbefore b hmem b (List.mem_cons_self ..)), ?_⟩
  rcases List.eq_nil_or_concat past with rfl | ⟨past', l, rfl⟩
  · have hmem : b ∈ since chain height := by
      rw [h]
      exact List.mem_cons_self ..
    simpa [resumeHeight] using (List.mem_filter.mp hmem).2
  · rw [List.concat_eq_append, resumeHeight_concat]
    exact UInt64.le_of_lt (hbefore l (by simp) b (List.mem_cons_self ..))

end

/-! ### What the task goes on with -/

/-- After `past`, with `rest` to come, a stream delivers these blocks next: what comes next on the chain, or the
last block again, if the stream was started at its height and has not delivered a block yet. -/
def Ahead (log : List Note) (past rest bs : List Block) : Prop :=
  bs <+: rest ∨ ∃ b bs', bs = b :: bs' ∧ bs' <+: rest ∧ past.getLast? = some b ∧
    ∃ before, log = before ++ [.opened (some b.height)]

/-- The feed of the task, if it has one, delivers what is ahead. -/
def Fed (source : Source σ ρ) (log : List Note) (past rest : List Block) : Phase ρ → Prop
  | .reading feed => (∃ h, .opened h ∈ log) ∧ ∃ bs, Feeds source feed bs ∧ Ahead log past rest bs
  | .received b feed =>
    (∃ h, .opened h ∈ log) ∧ ∃ bs, Feeds source feed bs ∧ Ahead log past rest (b :: bs)
  | .handling _ feed => (∃ h, .opened h ∈ log) ∧ ∃ bs, Feeds source feed bs ∧ bs <+: rest
  | _ => True

/-- Every block in the journal follows a start of the stream, and one that was there before comes right after
the stream was restarted at its height. -/
def Repeats (log : List Note) : Prop :=
  Fitting (fun pre x => ∀ b, x = .began b → (∃ h, .opened h ∈ pre) ∧
    (b ∈ blocks pre → ∃ before, pre = before ++ [.opened (some b.height)] ∧ b ∈ blocks before)) log

/-- The journal is gapless: the blocks in it, each counted once, are the `past` of the chain. -/
structure Gapless (source : Source σ ρ) (chain : List Block) (height : Height) (past rest : List Block)
    (t : Task ρ) (log : List Note) : Prop where
  split : since chain height = past ++ rest
  first : (blocks log).eraseDups = past
  tracked : t.tracked = some (resumeHeight height past)
  repeats : Repeats log
  fed : Fed source log past rest t.phase

theorem mem_blocks {log : List Note} {b : Block} : b ∈ blocks log ↔ .began b ∈ log := by
  constructor
  · intro h
    obtain ⟨x, hx, hblock⟩ := List.mem_filterMap.mp h
    cases x with
    | began b' =>
      obtain rfl := Option.some.inj hblock
      exact hx
    | _ => cases hblock
  · intro h
    exact List.mem_filterMap.mpr ⟨_, h, rfl⟩

namespace Gapless

variable {height : Height} {past rest : List Block} {t t' : Task ρ} {log : List Note}

/-- A step that notes nothing, leaves the tracked height, and has a feed as good as before. -/
theorem keep (h : Gapless source chain height past rest t log) {cancelled : Bool}
    (hnote : t.note cancelled = []) (htracked : t'.tracked = t.tracked)
    (hfed : Fed source log past rest t.phase → Fed source log past rest t'.phase) :
    Gapless source chain height past rest t' (log ++ t.note cancelled) := by
  rw [hnote, List.append_nil]
  exact ⟨h.split, h.first, by rw [htracked]; exact h.tracked, h.repeats, hfed h.fed⟩

/-- A step that notes something else than a block and leaves the tracked height. -/
theorem snoc (h : Gapless source chain height past rest t log) {x : Note} (hx : x.block? = none)
    (htracked : t'.tracked = t.tracked) (hfed : Fed source (log ++ [x]) past rest t'.phase) :
    Gapless source chain height past rest t' (log ++ [x]) where
  split := h.split
  first := by
    have hblocks : blocks [x] = [] := by simp [blocks, hx]
    rw [blocks_append, hblocks, List.append_nil]
    exact h.first
  tracked := by rw [htracked]; exact h.tracked
  repeats := h.repeats.snoc fun b hb => by
    rw [hb] at hx
    cases hx
  fed := hfed

/-- A stream is started: what it delivers is ahead. -/
theorem opened (hchain : chain.Pairwise (·.height < ·.height)) (hsource : Resumes source chain)
    (h : Gapless source chain height past rest t log) {feed : ρ} {s s' : σ}
    (hs : source.start t.tracked s = (.ok feed, s')) (htracked : t'.tracked = t.tracked)
    (hphase : t'.phase = .reading feed) :
    Gapless source chain height past rest t' (log ++ [.opened t.tracked]) := by
  refine h.snoc rfl htracked ?_
  rw [hphase]
  refine ⟨⟨t.tracked, List.mem_append_right log (List.mem_singleton_self _)⟩, ?_⟩
  have htracked := h.tracked
  rw [htracked] at hs ⊢
  obtain ⟨bs, hprefix, hfeeds⟩ := hsource _ s feed s' hs
  refine ⟨bs, hfeeds, ?_⟩
  rcases List.eq_nil_or_concat past with rfl | ⟨past', l, rfl⟩
  · have hsplit := h.split
    rw [List.nil_append] at hsplit
    rw [show resumeHeight height [] = height from rfl, hsplit] at hprefix
    exact .inl hprefix
  · rw [List.concat_eq_append] at h hprefix ⊢
    rw [resumeHeight_concat, since_concat hchain h.split] at hprefix
    rw [resumeHeight_concat]
    cases bs with
    | nil => exact .inl List.nil_prefix
    | cons b bs =>
      obtain ⟨rfl, hbs⟩ := List.cons_prefix_cons.mp hprefix
      exact .inr ⟨b, bs, rfl, hbs, List.getLast?_concat, log, rfl⟩

/-- The task turns to a block: it is the next one of the chain, or the last one again. -/
theorem began (hchain : chain.Pairwise (·.height < ·.height))
    (h : Gapless source chain height past rest t log) {b : Block} {feed : ρ}
    (hp : t.phase = .received b feed) :
    t.tracked.all (· ≤ b.height) = true ∧
      ∀ agenda, ∃ past' rest', Gapless source chain height past' rest'
        { t with tracked := some b.height, phase := .handling agenda feed } (log ++ [.began b]) := by
  have hfed := h.fed
  rw [hp] at hfed
  obtain ⟨hopened, bs, hfeeds, hahead⟩ := hfed
  have hopened' : ∃ x, Note.opened x ∈ log ++ [.began b] := by
    obtain ⟨x, hx⟩ := hopened
    exact ⟨x, List.mem_append_left _ hx⟩
  have hmem : b ∈ blocks log ↔ b ∈ past := by rw [← h.first, List.mem_eraseDups]
  have hfirst : (blocks (log ++ [.began b])).eraseDups = past ++ (if b ∈ past then [] else [b]) := by
    rw [blocks_append, show blocks [.began b] = [b] from rfl, List.eraseDups_append, h.first]
    by_cases hb : b ∈ past
    · simp [List.removeAll, hmem.mpr hb, hb]
    · simp [List.removeAll, mt hmem.mp hb, hb, List.eraseDups_cons]
  rcases hahead with hnext | ⟨l, bs', heq, hprefix, hlast, before, hlog⟩
  · obtain ⟨rest', rfl⟩ := hnext
    have hsplit : since chain height = past ++ b :: (bs ++ rest') := h.split
    obtain ⟨hnew, hle⟩ := next_of_since hchain hsplit
    refine ⟨by rw [h.tracked]; simpa using hle, fun agenda => ⟨past ++ [b], bs ++ rest', ?_⟩⟩
    exact
      { split := by rw [hsplit, List.append_assoc]; rfl
        first := by rw [hfirst, if_neg hnew]
        tracked := by rw [resumeHeight_concat]
        repeats := h.repeats.snoc fun b' hb' => by
          cases hb'
          exact ⟨hopened, fun hb => absurd (hmem.mp hb) hnew⟩
        fed := ⟨hopened', bs, hfeeds, List.prefix_append bs rest'⟩ }
  · obtain ⟨rfl, rfl⟩ := List.cons.inj heq
    obtain ⟨past', rfl⟩ := List.getLast?_eq_some_iff.mp hlast
    have hb : b ∈ past' ++ [b] := List.mem_append_right past' (List.mem_singleton_self b)
    refine ⟨by rw [h.tracked, resumeHeight_concat]; simp, fun agenda => ⟨past' ++ [b], rest, ?_⟩⟩
    exact
      { split := h.split
        first := by rw [hfirst, if_pos hb, List.append_nil]
        tracked := by rw [resumeHeight_concat]
        repeats := h.repeats.snoc fun b' hb' => by
          cases hb'
          refine ⟨hopened, fun hin => ⟨before, hlog, ?_⟩⟩
          rw [hlog, blocks_append] at hin
          simpa [blocks, Note.block?] using hin
        fed := ⟨hopened', bs, hfeeds, hprefix⟩ }

theorem step {d : Driver} {c : Collaborators χ σ ρ π} (hchain : chain.Pairwise (·.height < ·.height))
    (hsource : Resumes c.source chain) {cancelled : Bool} {now : Nat} {s s' : Shared χ σ π}
    (h : Gapless c.source chain height past rest t log)
    (hchange : Task.Change d c cancelled now t s t' s') :
    ∃ past' rest', Gapless c.source chain height past' rest' t' (log ++ t.note cancelled) := by
  cases hchange with
  | opened hc hp hs =>
    rw [show t.note cancelled = [.opened t.tracked] by simp [Task.note, hp, hc]]
    exact ⟨past, rest, h.opened hchain hsource hs rfl rfl⟩
  | refused hc hp hs =>
    rw [show t.note cancelled = [.opened t.tracked] by simp [Task.note, hp, hc]]
    exact ⟨past, rest, h.snoc rfl rfl trivial⟩
  | took hc hp hn =>
    refine ⟨past, rest, h.keep (by simp [Task.note, hp]) rfl fun hfed => ?_⟩
    rw [hp] at hfed
    obtain ⟨hopened, bs, hfeeds, hahead⟩ := hfed
    obtain ⟨bs', rfl, hrest⟩ := hfeeds.of_block hn
    exact ⟨hopened, bs', hrest, hahead⟩
  | @advanced b feed hp ht =>
    rw [show t.note cancelled = [.began b] by simp [Task.note, hp]]
    exact (h.began hchain hp).2 _
  | surpassed hp ht => exact absurd (h.began hchain hp).1 ht
  | @handled agenda feed agenda' s' hp ha =>
    obtain ⟨hopened, hfeeds⟩ : Fed c.source log past rest (.handling agenda feed) := hp ▸ h.fed
    obtain ⟨current, waiting⟩ := agenda
    rcases waiting_of_step ha with ⟨hcurrent, -⟩ | ⟨e, rfl, rfl⟩
    · cases current with
      | none => exact absurd rfl hcurrent
      | some d => exact ⟨past, rest, h.keep (by simp [Task.note, hp]) rfl fun _ => ⟨hopened, hfeeds⟩⟩
    · rw [show t.note cancelled = [.routed e] by simp [Task.note, hp]]
      obtain ⟨x, hx⟩ := hopened
      exact ⟨past, rest, h.snoc rfl rfl ⟨⟨x, List.mem_append_left _ hx⟩, hfeeds⟩⟩
  | settled hp ha =>
    rw [Routing.Agenda.of_step_over ha] at hp
    obtain ⟨hopened, bs, hfeeds, hprefix⟩ : Fed c.source log past rest (.handling _ _) := hp ▸ h.fed
    exact ⟨past, rest, h.keep (by simp [Task.note, hp]) rfl fun _ => ⟨hopened, bs, hfeeds, .inl hprefix⟩⟩
  | found hp ht hh => rw [h.tracked] at ht; cases ht
  | unknown hp ht hh => rw [h.tracked] at ht; cases ht
  | dismissed hc hp =>
    subst hc
    refine ⟨past, rest, h.keep ?_ rfl fun _ => trivial⟩
    rcases hp with hp | ⟨feed, hp⟩ | ⟨wake, attempt, hp⟩ <;> simp [Task.note, hp]
  | known hp | broke _ hp | completed _ hp | quit hp | gaveUp hp | restarting hp | restarted _ hp =>
    exact ⟨past, rest, h.keep (by simp [Task.note, hp]) rfl fun _ => trivial⟩

/-- No block of the chain up to one that the task has turned to is left out. -/
theorem reached (hchain : chain.Pairwise (·.height < ·.height))
    (h : Gapless source chain height past rest t log) {b l : Block} (hb : b ∈ chain)
    (hle : height ≤ b.height) (hl : l ∈ blocks log) (hbl : b.height ≤ l.height) : b ∈ blocks log := by
  have hmem : b ∈ past ++ rest := by
    rw [← h.split]
    exact List.mem_filter.mpr ⟨hb, by simpa using hle⟩
  have hsorted : (past ++ rest).Pairwise (·.height < ·.height) := by
    rw [← h.split]
    exact hchain.filter _
  rw [← List.mem_eraseDups, h.first] at hl ⊢
  rcases List.mem_append.mp hmem with hpast | hrest
  · exact hpast
  · have hlt := (List.pairwise_append.mp hsorted).2.2 l hl b hrest
    exact absurd (UInt64.lt_of_lt_of_le hlt hbl) (UInt64.lt_irrefl _)

/-- A block comes again only as the first one of a stream that is not the first. -/
theorem again (h : Gapless source chain height past rest t log) {pre post : List Note} {b : Block}
    (hlog : log = pre ++ .began b :: post) (hb : b ∈ blocks pre) :
    ∃ before, pre = before ++ [.opened (some b.height)] ∧ ∃ h, .opened h ∈ before := by
  obtain ⟨before, hbefore, hin⟩ := (h.repeats pre _ post hlog b rfl).2 hb
  obtain ⟨pre', post', rfl⟩ := List.append_of_mem (mem_blocks.mp hin)
  -- the block came before, and a stream had been opened for it then
  obtain ⟨x, hx⟩ := (h.repeats pre' _ (post' ++ [.opened (some b.height)] ++ .began b :: post)
    (by rw [hlog, hbefore]; simp) b rfl).1
  exact ⟨_, hbefore, x, List.mem_append_left _ hx⟩

end Gapless

/-! ### Any number of restarts -/

/-- What was made of a chain from a height on. -/
structure Covers (chain : List Block) (height : Height) (p : Played Unit χ σ ρ π) : Prop where
  /-- No block up to the greatest height is left out. -/
  reached : ∀ b ∈ chain, height ≤ b.height → ∀ l ∈ blocks p.journal, b.height ≤ l.height →
    b ∈ blocks p.journal
  /-- Blocks come for the first time in the order of the chain and without a gap. -/
  inOrder : (blocks p.journal).eraseDups <+: since chain height
  /-- A block comes again only right after the stream was started again, at the height of that block. -/
  again : ∀ pre b post, p.journal = pre ++ .began b :: post → b ∈ blocks pre →
    ∃ before, pre = before ++ [.opened (some b.height)] ∧ ∃ h, .opened h ∈ before
  /-- The classified events of all blocks were routed in their order, up to those that wait. An event is routed in the
  step in which the router turns to it (`Task.Faces.step`). -/
  routed : routed p.journal ++ p.task.waiting = (blocks p.journal).flatMap classified
  /-- Before a block, all events of the blocks before it were routed. -/
  settled : ∀ pre b post, p.journal = pre ++ .began b :: post →
    Stream.routed pre = (blocks pre).flatMap classified

/-- **No block is skipped across restarts.** Whatever the restart mode is, whenever the task makes its steps, and
whatever happens in between, it covers a chain that its source resumes. -/
theorem run_covers {d : Driver} {c : Collaborators χ σ ρ π} (hchain : chain.Pairwise (·.height < ·.height))
    (hsource : Resumes c.source chain) (height : Height) (s : Shared χ σ π) (turns : List (Turn χ σ π)) :
    Covers chain height ((Played.begin (some height) s).run d c turns) := by
  have hthorough : Thorough (.begin (some height) : Task ρ) [] :=
    ⟨rfl, .nil⟩
  have hgapless : Gapless c.source chain height [] (since chain height) (.begin (some height)) [] :=
    ⟨rfl, rfl, rfl, .nil, trivial⟩
  have hrun := Played.run_induction (d := d) (c := c)
    (P := fun t log _ => Thorough t log ∧ ∃ past rest, Gapless c.source chain height past rest t log) turns
    (fun _ _ => fun ⟨hthorough, _, _, hgapless⟩ hchange =>
      ⟨hthorough.step hchange, hgapless.step hchain hsource hchange⟩)
    (p := Played.begin (R := Unit) (some height) s) ⟨hthorough, _, _, hgapless⟩
  obtain ⟨hthorough, past, rest, hgapless⟩ := hrun
  exact
    { reached := fun b hb hle l hl hbl => hgapless.reached hchain hb hle hl hbl
      inOrder := by
        rw [hgapless.first, hgapless.split]
        exact List.prefix_append past rest
      again := fun pre b post hlog hb => hgapless.again hlog hb
      routed := hthorough.routed
      settled := fun pre b post hlog => hthorough.settled pre _ post hlog b rfl }

/-! ### A run with restarts -/

namespace Sample

/-- A source that plays a chain from the height that it is started from. Each run breaks after a number of
blocks, and once no number is left the source is down. -/
def player (blocks : List Block) : Source (List Nat) (List Block) where
  currentHeight ns := (.ok none, ns)
  start
    | some height, n :: ns => (.ok ((since blocks height).take n), ns)
    | _, ns => (.error ⟨"down", true⟩, ns)
  next
    | b :: bs => .block b bs
    | [] => .failed ⟨"broken", true⟩

theorem feeds (blocks bs : List Block) : Feeds (player blocks) bs bs := by
  induction bs with
  | nil => exact .ends nofun
  | cons b bs ih => exact .block rfl ih

theorem resumes (blocks : List Block) : Resumes (player blocks) blocks := by
  intro height ns feed ns' hs
  cases ns with
  | nil => cases hs
  | cons n ns =>
    cases hs
    exact ⟨_, List.take_prefix n _, feeds blocks _⟩

/-- The second block has an event of the contract. -/
def blocks : List Block :=
  [⟨5, []⟩, ⟨7, [⟨7, "hash", "wasm", [⟨Contract.Key.eventType.text, "onboard_asset"⟩]⟩]⟩, ⟨9, []⟩]

def driver : Driver := ⟨⟨"contract", .fixed "verifier" [] (.ok []), .empty⟩, .enabled .immediate⟩

def collaborators : Collaborators Chain.Ledger (List Nat) (List Block) Asset.Fixed :=
  ⟨Chain.Ledger.client, player blocks, Asset.Fixed.verifier⟩

/-- Two blocks, then a run without blocks, then the last block again and the next one. -/
def played : Played Unit Chain.Ledger (List Nat) (List Block) Asset.Fixed :=
  (Played.begin (some 5) (.initial .empty [2, 0, 2] .approving)).run driver collaborators
    (List.replicate 40 ⟨false, 0, id⟩)

/-- The sample run takes the second block twice, and covers the chain. -/
theorem played_covers :
    blocks.Pairwise (·.height < ·.height) ∧ Resumes (player blocks) blocks ∧
      (Stream.blocks played.journal).map (·.height) = [5, 7, 7, 9] ∧ Covers blocks 5 played := by
  have hchain : blocks.Pairwise (·.height < ·.height) := by decide
  have hjournal : (Stream.blocks played.journal).map (·.height) = [5, 7, 7, 9] := by decide +kernel
  exact ⟨hchain, resumes blocks, hjournal, run_covers (c := collaborators) hchain (resumes blocks) 5 _ _⟩

end Sample

end Attestor.Stream
