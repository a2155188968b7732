import Attestor.Proofs.Chronicle
import Mathlib.Data.List.Basic

/-!
What is known of heights. Everything is put on record that bears on the tracked height of a stream task: what the source
reports as its current height, the starts of the stream, its blocks and ends, what the task tells by itself, and when
the routing of an event begins and is over. `Kept` is what holds at any time between two blocks: the tracked height is
the maximum of the first starting height that became known and the heights of the blocks that were taken, and so on. It
is kept, whatever is put on record next.
-/

namespace Attestor.Stream

open Chain (Block Height)
open Contract (Event)

/-! ### Heights -/

theorem max_height (h k : Height) : max h k = if h ≤ k then k else h :=
  rfl

instance : Std.LawfulOrderMax Height where
  max_le_iff h k l := by
    rw [max_height]
    split
    next hle => exact ⟨fun hl => ⟨UInt64.le_trans hle hl, hl⟩, And.right⟩
    next hle =>
      have hle : k ≤ h := (UInt64.le_total h k).resolve_left hle
      exact ⟨fun hl => ⟨hl, UInt64.le_trans hle hl⟩, And.left⟩
  max_eq_or h k := by
    rw [max_height]
    split
    next => exact .inr rfl
    next => exact .inl rfl

theorem height_le_refl (h : Option Height) : h ≤ h := by
  cases h with
  | none => exact Option.none_le
  | some h => exact Option.some_le_some.mpr (UInt64.le_refl h)

theorem height_le_trans {h k l : Option Height} (hk : h ≤ k) (hl : k ≤ l) : h ≤ l := by
  match h, k, l, hk, hl with
  | none, _, _, _, _ => exact Option.none_le
  | some _, some _, some _, hk, hl =>
    exact Option.some_le_some.mpr (UInt64.le_trans (Option.some_le_some.mp hk) (Option.some_le_some.mp hl))

/-- A block's height is tracked exactly if it is the new maximum. -/
theorem max?_concat (hs : List Height) (b : Block) : (hs ++ [b.height]).max? = track hs.max? b := by
  cases hs with
  | nil => rfl
  | cons h hs =>
    rw [List.cons_append, List.max?, List.foldl_append, List.max?]
    show some (max _ b.height) = _
    rw [max_height, track, Option.all_some, ← apply_ite some]
    simp only [decide_eq_true_iff]

/-- No height is greater exactly if the maximum is not. -/
theorem all_max? (hs : List Height) (h : Height) : hs.max?.all (· ≤ h) = hs.all (· ≤ h) := by
  cases hmax : hs.max? with
  | none =>
    rw [List.max?_eq_none_iff.mp hmax]
    rfl
  | some m =>
    rw [Option.all_some, Bool.eq_iff_iff, List.all_eq_true, decide_eq_true_iff]
    simp only [decide_eq_true_iff]
    exact List.max?_le_iff hmax

/-- Tracking a block never lowers the height. -/
theorem le_track (tracked : Option Height) (b : Block) : tracked ≤ track tracked b := by
  unfold track
  split
  next h =>
    cases tracked with
    | none => exact Option.none_le
    | some k => exact Option.some_le_some.mpr (by simpa using h)
  next => exact height_le_refl tracked

/-! ### Marks -/

/-- The tracked height that a diagnostic states. -/
def tracked? : Diagnostic → Option (Option Height)
  | .completed height => some height
  | .restarting height _ _ _ => some height
  | .restarted height _ => some height
  | .exited exit => some exit.lastHeight
  | _ => none

/-- Something that a stream task does or comes to know. -/
inductive Mark where
  /-- The source was asked for its current height, and reported this. -/
  | looked (height : Option Height)
  | saw (sign : Sign)
  /-- The task told something by itself. -/
  | told (d : Diagnostic)
  /-- The router turned to an event. -/
  | turned (e : Event)
  /-- The router is done with an event. -/
  | done (e : Event)

namespace Mark

def found? : Mark → Option Height
  | .looked height => height
  | _ => none

def block? : Mark → Option Block
  | .saw (.gave b) => some b
  | _ => none

def start? : Mark → Option (Option Height)
  | .saw (.started height) => some height
  | _ => none

/-- What is told of a block. -/
def announcement? : Mark → Option Diagnostic
  | .told (.blockReceived height count) => some (.blockReceived height count)
  | .told (.heightAdvanced height) => some (.heightAdvanced height)
  | _ => none

def turned? : Mark → Option Event
  | .turned e => some e
  | _ => none

def done? : Mark → Option Event
  | .done e => some e
  | _ => none

/-- What a mark says of the tracked height, if it is no look and no block: the stream is started from it, or a diagnostic
states it. -/
def States (height : Option Height) : Mark → Prop
  | .saw (.started h) => h = height
  | .saw (.ended _) => True
  | .told d => tracked? d = some height
  | _ => False

end Mark

section

variable (start : Option Height) (log : List Mark)

/-- The first starting height that became known: the one that was given, or the first that the source reported. -/
def known : Option Height := start.or (log.findSome? Mark.found?)

/-- The blocks that were taken. -/
def taken : List Block := log.filterMap Mark.block?

/-- The first known starting height and the heights of the blocks. -/
def heights : List Height := (known start log).toList ++ (taken log).map (·.height)

/-- The heights that the stream was started from. -/
def starts : List (Option Height) := log.filterMap Mark.start?

/-- What was told of blocks. -/
def told : List Diagnostic := log.filterMap Mark.announcement?

def turned : List Event := log.filterMap Mark.turned?

def done : List Event := log.filterMap Mark.done?

end

/-- What is to be told of blocks: of each that it was received, and that the height has advanced if no height before it
is greater. -/
def advances : List Height → List Block → List Diagnostic
  | _, [] => []
  | before, b :: bs =>
    .blockReceived b.height b.events.length ::
      (if before.all (· ≤ b.height) then [.heightAdvanced b.height] else []) ++ advances (before ++ [b.height]) bs

/-- The router is done with all events of the blocks. -/
def Settled (log : List Mark) : Prop := done log = (taken log).flatMap classified

/-- What is put on record of a block, the height tracked before it given. -/
def blockMarks (tracked : Option Height) (b : Block) : List Mark :=
  .saw (.gave b) :: (announcement tracked b).map .told

/-- What is known when something is put on record. The source is asked for a height only as long as none is known. The
stream is started from the tracked height, and that is what diagnostics state. Nothing is taken from the source, and no
end is told, before the router is done with all events of the blocks before. -/
def Fits (start : Option Height) (log : List Mark) : Mark → Prop
  | .looked _ => Settled log ∧ heights start log = []
  | .saw (.started height) => Settled log ∧ height = (heights start log).max?
  | .saw _ => Settled log
  | .told d => ∀ height, tracked? d = some height → Settled log ∧ height = (heights start log).max?
  | .turned _ | .done _ => True

/-! ### What is kept -/

theorem filterMap_concat {α β : Type} (f : α → Option β) (as : List α) (a : α) :
    (as ++ [a]).filterMap f = as.filterMap f ++ (f a).toList := by
  rw [List.filterMap_append]
  cases h : f a <;> simp [h]

/-- What is kept while a task plays: of its height, of what it told of blocks, and of the event in hand and those that
wait. -/
structure Kept (start tracked : Option Height) (inHand waiting : List Event) (log : List Mark) : Prop where
  maximum : tracked = (heights start log).max?
  told : told log = advances (known start log).toList (taken log)
  inHand : turned log = done log ++ inHand
  waiting : turned log ++ waiting = (taken log).flatMap classified
  starts : (starts log).Pairwise (· ≤ ·)
  latest : ∀ height ∈ Stream.starts log, height ≤ tracked
  fitting : Fitting (Fits start) log

section

variable (start : Option Height) (log log' : List Mark)

theorem known_append : known start (log ++ log') = (known start log).or (log'.findSome? Mark.found?) := by
  rw [known, List.findSome?_append, ← Option.or_assoc, known]

theorem taken_append : taken (log ++ log') = taken log ++ taken log' :=
  List.filterMap_append

theorem starts_append : starts (log ++ log') = starts log ++ starts log' :=
  List.filterMap_append

theorem told_append : told (log ++ log') = told log ++ told log' :=
  List.filterMap_append

theorem turned_append : turned (log ++ log') = turned log ++ turned log' :=
  List.filterMap_append

theorem done_append : done (log ++ log') = done log ++ done log' :=
  List.filterMap_append

end

theorem of_blockMarks (tracked : Option Height) (b : Block) :
    (blockMarks tracked b).findSome? Mark.found? = none ∧ taken (blockMarks tracked b) = [b] ∧
      starts (blockMarks tracked b) = [] ∧ told (blockMarks tracked b) = announcement tracked b ∧
      turned (blockMarks tracked b) = [] ∧ done (blockMarks tracked b) = [] := by
  unfold blockMarks announcement
  split <;> exact ⟨rfl, rfl, rfl, rfl, rfl, rfl⟩

theorem advances_concat (before : List Height) (bs : List Block) (b : Block) :
    advances before (bs ++ [b]) = advances before bs ++
      (.blockReceived b.height b.events.length ::
        if (before ++ bs.map (·.height)).all (· ≤ b.height) then [.heightAdvanced b.height] else []) := by
  induction bs generalizing before with
  | nil =>
    rw [List.nil_append, advances, advances, advances, List.map_nil, List.append_nil, List.append_nil, List.nil_append]
  | cons b' bs ih =>
    have hbefore : before ++ [b'.height] ++ bs.map (·.height) = before ++ (b' :: bs).map (·.height) :=
      List.append_assoc ..
    rw [List.cons_append, advances, advances, ih, hbefore, List.append_assoc]

namespace Kept

variable {start tracked : Option Height} {inHand waiting : List Event} {log : List Mark}

theorem begin (start : Option Height) : Kept start start [] [] [] where
  maximum := by cases start <;> rfl
  told := rfl
  inHand := rfl
  waiting := rfl
  starts := .nil
  latest _ h := absurd h List.not_mem_nil
  fitting := .nil

theorem settled (h : Kept start tracked [] [] log) : Settled log := by
  have hwaiting := h.waiting
  rw [h.inHand, List.append_nil, List.append_nil] at hwaiting
  exact hwaiting

/-- Something is put on record that is neither a look nor a block, and tells nothing of one. -/
theorem snoc (h : Kept start tracked inHand waiting log) {x : Mark} {inHand' waiting' : List Event}
    (hheight : x.found? = none ∧ x.block? = none ∧ x.announcement? = none)
    (hinHand : inHand ++ x.turned?.toList = x.done?.toList ++ inHand')
    (hwaiting : waiting = x.turned?.toList ++ waiting') (hstart : ∀ height, x.start? = some height → height = tracked)
    (hfits : Fits start log x) : Kept start tracked inHand' waiting' (log ++ [x]) := by
  obtain ⟨hfound, hblock, htold⟩ := hheight
  have hknown : known start (log ++ [x]) = known start log := by
    rw [known_append, List.findSome?_singleton, hfound, Option.or_none]
  have htaken : taken (log ++ [x]) = taken log := by
    rw [taken, filterMap_concat, hblock]
    exact List.append_nil _
  refine ⟨?_, ?_, ?_, ?_, ?_, ?_, h.fitting.snoc hfits⟩
  · rw [heights, hknown, htaken]
    exact h.maximum
  · rw [hknown, htaken, ← h.told, Stream.told, filterMap_concat, htold]
    exact List.append_nil _
  · rw [turned, Stream.done, filterMap_concat, filterMap_concat, List.append_assoc, ← hinHand, ← List.append_assoc]
    exact congrArg (· ++ _) h.inHand
  · rw [htaken, ← h.waiting, hwaiting, turned, filterMap_concat, List.append_assoc]
    rfl
  · rw [Stream.starts, filterMap_concat]
    refine List.pairwise_append.mpr ⟨h.starts, ?_, fun height hheight height' hheight' => ?_⟩
    · cases x.start? <;> simp
    · rw [hstart height' (Option.mem_toList.mp hheight')]
      exact h.latest height hheight
  · intro height hheight
    rw [Stream.starts, filterMap_concat] at hheight
    rcases List.mem_append.mp hheight with hheight | hheight
    · exact h.latest height hheight
    · rw [hstart height (Option.mem_toList.mp hheight)]
      exact height_le_refl tracked

/-- Something is put on record that only states the tracked height, if any. -/
theorem state (h : Kept start tracked [] [] log) {x : Mark} (hx : x.States tracked) :
    Kept start tracked [] [] (log ++ [x]) := by
  cases x with
  | saw sign =>
    cases sign with
    | started height =>
      obtain rfl : height = tracked := hx
      exact h.snoc ⟨rfl, rfl, rfl⟩ rfl rfl (fun _ heq => (Option.some.inj heq).symm) ⟨h.settled, h.maximum⟩
    | gave b => exact hx.elim
    | ended failure => exact h.snoc ⟨rfl, rfl, rfl⟩ rfl rfl nofun h.settled
  | told d =>
    have hfits : Fits start log (.told d) := fun height hheight =>
      ⟨h.settled, (Option.some.inj (hheight.symm.trans hx)).trans h.maximum⟩
    have hquiet : (Mark.told d).announcement? = none := by cases d <;> first | rfl | cases hx
    exact h.snoc ⟨rfl, rfl, hquiet⟩ rfl rfl nofun hfits
  | looked _ => exact hx.elim
  | turned _ => exact hx.elim
  | done _ => exact hx.elim

/-- The router turns to the next event. -/
theorem turn {e : Event} (h : Kept start tracked [] (e :: waiting) log) :
    Kept start tracked [e] waiting (log ++ [.turned e]) :=
  h.snoc ⟨rfl, rfl, rfl⟩ rfl rfl nofun trivial

/-- The router is done with the event in hand. -/
theorem done {e : Event} (h : Kept start tracked [e] waiting log) :
    Kept start tracked [] waiting (log ++ [.done e]) :=
  h.snoc ⟨rfl, rfl, rfl⟩ rfl rfl nofun trivial

/-- The source is asked for its current height. -/
theorem look (h : Kept start none [] [] log) (height : Option Height) :
    Kept start height [] [] (log ++ [.looked height]) := by
  have hnone : heights start log = [] := List.max?_eq_none_iff.mp h.maximum.symm
  obtain ⟨hknown, htaken⟩ := List.append_eq_nil_iff.mp hnone
  have htaken := List.map_eq_nil_iff.mp htaken
  have hknown' : known start (log ++ [.looked height]) = height := by
    rw [known_append, Option.toList_eq_nil_iff.mp hknown, Option.none_or, List.findSome?_singleton, Mark.found?]
  have htaken' : taken (log ++ [.looked height]) = [] := by
    rw [taken_append, htaken]
    rfl
  have hstarts : Stream.starts (log ++ [.looked height]) = Stream.starts log := by
    rw [starts_append]
    exact List.append_nil _
  have hturned : turned (log ++ [.looked height]) = turned log := by
    rw [turned_append]
    exact List.append_nil _
  refine ⟨?_, ?_, ?_, ?_, hstarts ▸ h.starts, fun k hk => ?_, h.fitting.snoc ⟨h.settled, hnone⟩⟩
  · rw [heights, hknown', htaken']
    cases height <;> rfl
  · rw [htaken', told_append, h.told, htaken]
    rfl
  · rw [hturned, done_append, h.inHand]
    simp [Stream.done, Mark.done?]
  · rw [htaken', hturned, ← htaken]
    exact h.waiting
  · exact height_le_trans (h.latest k (hstarts ▸ hk)) Option.none_le

/-- A block may be taken. -/
theorem fitting_received (h : Kept start tracked [] [] log) (b : Block) :
    Fitting (Fits start) (log ++ [.saw (.gave b), .told (.blockReceived b.height b.events.length)]) := by
  have hgave : Fits start log (.saw (.gave b)) := h.settled
  rw [List.append_cons]
  exact (h.fitting.snoc hgave).snoc nofun

theorem fitting_blockMarks (h : Kept start tracked [] [] log) (b : Block) :
    Fitting (Fits start) (log ++ blockMarks tracked b) := by
  have hreceived := h.fitting_received b
  unfold blockMarks announcement
  split
  · have hadvanced : Fits start (log ++ [.saw (.gave b), .told (.blockReceived b.height b.events.length)])
        (.told (.heightAdvanced b.height)) := nofun
    simpa using hreceived.snoc hadvanced
  · exact hreceived

/-- A block is taken, told of and tracked, and its events wait. -/
theorem accept (h : Kept start tracked [] [] log) (b : Block) :
    Kept start (track tracked b) [] (classified b) (log ++ blockMarks tracked b) := by
  obtain ⟨hfound, htaken, hstarts, htold, hturned, hdone⟩ := of_blockMarks tracked b
  have hknown : known start (log ++ blockMarks tracked b) = known start log := by
    rw [known_append, hfound, Option.or_none]
  have htaken : taken (log ++ blockMarks tracked b) = taken log ++ [b] := by rw [taken_append, htaken]
  have hstarts : Stream.starts (log ++ blockMarks tracked b) = Stream.starts log := by
    rw [starts_append, hstarts, List.append_nil]
  have hturned : turned (log ++ blockMarks tracked b) = turned log := by rw [turned_append, hturned, List.append_nil]
  refine ⟨?_, ?_, ?_, ?_, hstarts ▸ h.starts, fun k hk => ?_, ?_⟩
  · rw [heights, hknown, htaken, List.map_append, ← List.append_assoc, ← heights, List.map_singleton, max?_concat,
      ← h.maximum]
  · rw [hknown, htaken, told_append, htold, h.told, advances_concat, announcement, h.maximum, all_max?, heights]
  · rw [hturned, done_append, hdone, List.append_nil]
    exact h.inHand
  · rw [hturned, htaken, List.flatMap_append, List.flatMap_singleton, ← h.waiting, List.append_nil]
  · exact height_le_trans (h.latest k (hstarts ▸ hk)) (le_track tracked b)
  · exact h.fitting_blockMarks b

end Kept

end Attestor.Stream
