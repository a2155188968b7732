import Attestor.Proofs.Chronicle

/-!
Where a stream task stands, by its chronicle. For each phase the lives so far and what the task has told determine each
other: lives that were each followed by a restart, as their script says, then the life of the moment (`Stands`). A row
of the table says how the task got there, and a step leads from one row to another (`Stands.step`). Two things come
with it: a stream is started again from the height that was tracked (`Continued`), and no sooner than was announced
(`Waited`).
-/

namespace Attestor.Stream

open Chain (Block Height)
open Restart (Mode Policy Retry)

variable {χ σ ρ π : Type}

/-- The lives were each followed by a restart, and this was told of them. -/
def Restarted : Mode → List Life → List Diagnostic → Prop
  | .disabled, ls, told => ls = [] ∧ told = []
  | .enabled policy, ls, told => (∀ l ∈ ls, l.recoverable = true) ∧ told = script policy [] ls

theorem Restarted.nil (mode : Mode) : Restarted mode [] [] := by
  cases mode with
  | disabled => exact ⟨rfl, rfl⟩
  | enabled policy => exact ⟨List.forall_mem_nil _, rfl⟩

/-- The height tracked after the lives of a run that was given the height `start`, if it was given one. -/
def lastHeight (start : Option Height) (ls : List Life) : Option Height :=
  (ls.getLast?.map Life.height).getD start

/-- After the lives the stream was started again from the height that was tracked, if one was. -/
def Continues (start : Option Height) (ls : List Life) (o : Opening) : Prop :=
  ∀ height, lastHeight start ls = some height → o.start = some height

theorem lastHeight_concat (start : Option Height) (ls : List Life) (l : Life) :
    lastHeight start (ls ++ [l]) = l.height := by
  simp [lastHeight]

/-! ### Where a task stands -/

/-- What a run returns, by its lives and by what it has told before its exit. -/
inductive Returns (mode : Mode) (start : Option Height) (interrupted : Prop) :
    Lives → List Diagnostic → Exit → Prop where
  /-- A cancellation was noticed before the stream was opened. -/
  | unopened {ls told height} (hc : interrupted) (hls : Restarted mode ls told)
      (hh : ∀ h, lastHeight start ls = some h → height = some h) :
      Returns mode start interrupted ⟨ls, none⟩ told ⟨height, .cancelled⟩
  /-- A cancellation was noticed before a block was taken. -/
  | opened {ls o told} (hc : interrupted) (hls : Restarted mode ls told) :
      Returns mode start interrupted ⟨ls, some o⟩ (told ++ o.told) ⟨o.height, .cancelled⟩
  /-- A cancellation was noticed before a restart. -/
  | asleep {policy ls l told} (hc : interrupted) (hm : mode = .enabled policy) (hls : Restarted mode ls told)
      (hl : l.recoverable = true) :
      Returns mode start interrupted ⟨ls ++ [l], none⟩
        (told ++ l.told ++ [l.restarting policy (ls.map Life.height)]) ⟨l.height, .cancelled⟩
  /-- The stream has ended, and restarts are disabled. -/
  | finished {l} (hm : mode = .disabled) : Returns mode start interrupted ⟨[l], none⟩ l.told ⟨l.height, l.finalReason⟩
  /-- The stream has failed, and a restart does not mend it. -/
  | gaveUp {policy ls l f told} (hm : mode = .enabled policy) (hls : Restarted mode ls told)
      (hf : l.failure = some f) (hnot : f.recoverable = false) :
      Returns mode start interrupted ⟨ls ++ [l], none⟩ (told ++ l.told) ⟨l.height, .unrecoverable f.reason⟩

/-- The stream has ended and its task has to decide what comes after. -/
structure AtEnd (mode : Mode) (t : Task ρ) (k : Chronicle) (ls : List Life) (l : Life) (before : List Diagnostic) :
    Prop where
  lives : k.lives = ⟨ls ++ [l], none⟩
  restarted : Restarted mode ls before
  tracked : t.tracked = l.height

/-- Where a task stands, by its chronicle. -/
def Stands (mode : Mode) (start : Option Height) (interrupted : Prop) (t : Task ρ) (k : Chronicle) : Prop :=
  match t.phase with
  | .lookup | .opening => ∃ ls, k.lives = ⟨ls, none⟩ ∧ Restarted mode ls k.told ∧
      t.retry = .after (ls.map Life.height) ∧ ∀ height, lastHeight start ls = some height → t.tracked = some height
  | .reading _ | .handling _ _ => ∃ ls o before, k.lives = ⟨ls, some o⟩ ∧ Restarted mode ls before ∧
      t.retry = .after (ls.map Life.height) ∧ k.told = before ++ o.told ∧ t.tracked = o.height ∧ Continues start ls o
  | .received b _ => ∃ ls o before, k.lives = ⟨ls, some (o.take b)⟩ ∧ Restarted mode ls before ∧
      t.retry = .after (ls.map Life.height) ∧
      k.told = before ++ o.told ++ [.blockReceived b.height b.events.length] ∧ t.tracked = o.height ∧
      Continues start ls o
  | .ended error recoverable => ∃ ls l before, AtEnd mode t k ls l before ∧ t.retry = .after (ls.map Life.height) ∧
      k.told = before ++ l.told ∧ error = l.error ∧ recoverable = l.recoverable
  | .sleeping wake attempt => ∃ ls l before policy emission earlier, AtEnd mode t k ls l before ∧
      t.retry = .after ((ls ++ [l]).map Life.height) ∧ mode = .enabled policy ∧ l.recoverable = true ∧
      k.own = earlier ++ [emission] ∧ earlier.map (·.diagnostic) = before ++ l.told ∧
      emission.diagnostic = l.restarting policy (ls.map Life.height) ∧ attempt = l.attempt (ls.map Life.height) ∧
      wake = emission.time + (policy.delay attempt).toNat
  | .leaving exit => ∃ (before : Chronicle) (time : Nat), k = before.publish time false [.exited exit] ∧
      Returns mode start interrupted before.lives before.told exit

namespace Stands

variable {mode : Mode} {start : Option Height} {interrupted : Prop} {t t' : Task ρ} {k : Chronicle}

theorem begin (mode : Mode) (start : Option Height) (interrupted : Prop) :
    Stands mode start interrupted (.begin start : Task ρ) .empty :=
  ⟨[], rfl, .nil mode, rfl, fun _ h => h⟩

/-- A cancellation is noticed. -/
theorem dismissed (h : Stands mode start interrupted t k) (hc : interrupted) (hp : t.Interruptible) (time : Nat) :
    Stands mode start interrupted ({ t with phase := .leaving ⟨t.tracked, .cancelled⟩ } : Task ρ)
      (k.publish time false [.exited ⟨t.tracked, .cancelled⟩]) := by
  refine ⟨k, time, rfl, ?_⟩
  rcases hp with hp | ⟨feed, hp⟩ | ⟨wake, attempt, hp⟩
  · simp only [Stands, hp] at h
    obtain ⟨ls, hlives, hls, -, htracked⟩ := h
    rw [hlives]
    exact .unopened hc hls htracked
  · simp only [Stands, hp] at h
    obtain ⟨ls, o, before, hlives, hls, -, htold, htracked, -⟩ := h
    rw [hlives, htold, htracked]
    exact .opened hc hls
  · simp only [Stands, hp] at h
    obtain ⟨ls, l, before, policy, emission, earlier, ⟨hlives, hls, htracked⟩, -, hm, hl, hown, hearlier, hlast, -⟩ := h
    have htold : k.told = before ++ l.told ++ [l.restarting policy (ls.map Life.height)] := by
      rw [Chronicle.told, hown, List.map_append, hearlier, List.map_singleton, hlast]
    rw [hlives, htold, htracked]
    exact .asleep hc hm hls hl

/-- A restart is announced. -/
theorem sleeps {policy : Policy} {error : Option String} (h : Stands (.enabled policy) start interrupted t k)
    (hp : t.phase = .ended error true) (now : Nat) :
    let retry := t.retry.next t.tracked
    Stands (.enabled policy) start interrupted
      ({ t with retry, phase := .sleeping (now + (policy.delay retry.attempt).toNat) retry.attempt } : Task ρ)
      (k.publish now false [.restarting t.tracked retry.attempt (policy.delay retry.attempt) error]) := by
  intro retry
  simp only [Stands, hp] at h
  obtain ⟨ls, l, before, ⟨hlives, hls, htracked⟩, hretry, htold, herror, hrecoverable⟩ := h
  have hafter : retry = .after ((ls ++ [l]).map Life.height) := by
    rw [show retry = t.retry.next t.tracked from rfl, hretry, htracked, Retry.next_after, List.map_append,
      List.map_singleton]
  have hattempt : retry.attempt = l.attempt (ls.map Life.height) := by
    rw [hafter, List.map_append, List.map_singleton, Retry.after_concat, Life.attempt]
  refine ⟨ls, l, before, policy, ⟨now, false, _⟩, k.own, ⟨hlives, hls, htracked⟩, hafter, rfl, hrecoverable.symm,
    Chronicle.own_publish now _, htold, ?_, hattempt, rfl⟩
  rw [Life.restarting, htracked, hattempt, herror]

/-- The stream is started again. -/
theorem wakes {wake : Nat} {attempt : UInt32} (h : Stands mode start interrupted t k)
    (hp : t.phase = .sleeping wake attempt) (now : Nat) :
    Stands mode start interrupted ({ t with phase := .lookup } : Task ρ)
      (k.publish now false [.restarted t.tracked attempt]) := by
  simp only [Stands, hp] at h
  obtain ⟨ls, l, before, policy, emission, earlier, ⟨hlives, hls, htracked⟩, hretry, rfl, hl, hown, hearlier, hlast,
    hattempt, -⟩ := h
  obtain ⟨hrecoverable, rfl⟩ := hls
  refine ⟨ls ++ [l], hlives, ⟨fun l' hl' => ?_, ?_⟩, hretry, fun height hh => ?_⟩
  · rcases List.mem_append.mp hl' with hl' | hl'
    · exact hrecoverable l' hl'
    · obtain rfl := List.mem_singleton.mp hl'
      exact hl
  · rw [Chronicle.told_publish, Chronicle.told, hown, List.map_append, hearlier, List.map_singleton, hlast,
      script_concat, hattempt, htracked]
    simp [Life.restarted]
  · rw [lastHeight_concat] at hh
    exact htracked.trans hh

/-- The source tells a height. No life has told one before: then a height would be tracked. -/
theorem found (h : Stands mode start interrupted t k) (hp : t.phase = .lookup) (ht : t.tracked = none)
    (height : Option Height) :
    Stands mode start interrupted ({ t with tracked := height, phase := .opening } : Task ρ) k := by
  simp only [Stands, hp, ht] at h
  obtain ⟨ls, hlives, hls, hretry, htracked⟩ := h
  refine ⟨ls, hlives, hls, hretry, fun height hh => ?_⟩
  cases htracked height hh

/-- The stream is started. -/
theorem opened (h : Stands mode start interrupted t k) (hp : t.phase = .opening) (feed : ρ) :
    Stands mode start interrupted ({ t with phase := .reading feed } : Task ρ) (k.see [.started t.tracked]) := by
  simp only [Stands, hp] at h
  obtain ⟨ls, hlives, hls, hretry, htracked⟩ := h
  refine ⟨ls, ⟨t.tracked, []⟩, k.told, ?_, hls, hretry, (List.append_nil _).symm, rfl, htracked⟩
  rw [Chronicle.see, hlives]
  rfl

/-- The stream cannot be started. -/
theorem refused (h : Stands mode start interrupted t k) (hp : t.phase = .opening) (f : Failure) :
    Stands mode start interrupted ({ t with phase := Task.failure f } : Task ρ)
      (k.see [.started t.tracked, .ended (some f)]) := by
  simp only [Stands, hp] at h
  obtain ⟨ls, hlives, hls, hretry, htracked⟩ := h
  refine ⟨ls, ⟨⟨t.tracked, []⟩, some f⟩, k.told, ⟨?_, hls, rfl⟩, hretry, (List.append_nil _).symm, rfl, rfl⟩
  rw [Chronicle.see, hlives]
  rfl

/-- A block is taken. -/
theorem took {feed : ρ} (h : Stands mode start interrupted t k) (hp : t.phase = .reading feed) (b : Block) (rest : ρ)
    (time : Nat) :
    Stands mode start interrupted ({ t with phase := .received b rest } : Task ρ)
      ((k.see [.gave b]).publish time false [.blockReceived b.height b.events.length]) := by
  simp only [Stands, hp] at h
  obtain ⟨ls, o, before, hlives, hls, hretry, htold, htracked, hstart⟩ := h
  refine ⟨ls, o, before, ?_, hls, hretry, ?_, htracked, hstart⟩
  · rw [Chronicle.lives_publish, Chronicle.see, hlives]
    rfl
  · rw [Chronicle.told_publish, Chronicle.told_see, htold]

/-- The stream fails. -/
theorem broke {feed : ρ} (h : Stands mode start interrupted t k) (hp : t.phase = .reading feed) (f : Failure) :
    Stands mode start interrupted ({ t with phase := Task.failure f } : Task ρ) (k.see [.ended (some f)]) := by
  simp only [Stands, hp] at h
  obtain ⟨ls, o, before, hlives, hls, hretry, htold, htracked, -⟩ := h
  refine ⟨ls, ⟨o, some f⟩, before, ⟨?_, hls, htracked⟩, hretry, ?_, rfl, rfl⟩
  · rw [Chronicle.see, hlives]
    rfl
  · rw [Chronicle.told_see, htold]
    simp [Life.told, Life.completion]

/-- The stream ends. -/
theorem completed {feed : ρ} (h : Stands mode start interrupted t k) (hp : t.phase = .reading feed) (time : Nat) :
    Stands mode start interrupted ({ t with phase := .ended none true } : Task ρ)
      ((k.see [.ended none]).publish time false [.completed t.tracked]) := by
  simp only [Stands, hp] at h
  obtain ⟨ls, o, before, hlives, hls, hretry, htold, htracked, -⟩ := h
  refine ⟨ls, ⟨o, none⟩, before, ⟨?_, hls, htracked⟩, hretry, ?_, rfl, rfl⟩
  · rw [Chronicle.lives_publish, Chronicle.see, hlives]
    rfl
  · rw [Chronicle.told_publish, Chronicle.told_see, htold, htracked]
    simp [Life.told, Life.completion, Life.height]

/-- The height of a block comes to be tracked. -/
theorem advanced {b : Block} {feed : ρ} (h : Stands mode start interrupted t k) (hp : t.phase = .received b feed)
    (ht : t.tracked.all (· ≤ b.height) = true) (agenda : Routing.Agenda) (time : Nat) :
    Stands mode start interrupted ({ t with tracked := some b.height, phase := .handling agenda feed } : Task ρ)
      (k.publish time false [.heightAdvanced b.height]) := by
  simp only [Stands, hp] at h
  obtain ⟨ls, o, before, hlives, hls, hretry, htold, htracked, hstart⟩ := h
  rw [htracked] at ht
  refine ⟨ls, o.take b, before, hlives, hls, hretry, ?_, ?_, hstart⟩
  · rw [Chronicle.told_publish, htold, Opening.told_take, announcement, if_pos ht]
    simp
  · rw [Opening.height_take, track, if_pos ht]

/-- A block comes when a greater height is tracked already. -/
theorem surpassed {b : Block} {feed : ρ} (h : Stands mode start interrupted t k) (hp : t.phase = .received b feed)
    (ht : ¬ t.tracked.all (· ≤ b.height) = true) (agenda : Routing.Agenda) :
    Stands mode start interrupted ({ t with phase := .handling agenda feed } : Task ρ) k := by
  simp only [Stands, hp] at h
  obtain ⟨ls, o, before, hlives, hls, hretry, htold, htracked, hstart⟩ := h
  rw [htracked] at ht
  refine ⟨ls, o.take b, before, hlives, hls, hretry, ?_, ?_, hstart⟩
  · rw [htold, Opening.told_take, announcement, if_neg ht]
    simp
  · show t.tracked = _
    rw [htracked, Opening.height_take, track, if_neg ht]

/-- The stream has ended and is not started again. -/
theorem quit {error : Option String} {recoverable : Bool} (h : Stands .disabled start interrupted t k)
    (hp : t.phase = .ended error recoverable) (time : Nat) :
    Stands .disabled start interrupted ({ t with phase := .leaving ⟨t.tracked, Task.finalReason error⟩ } : Task ρ)
      (k.publish time false [.exited ⟨t.tracked, Task.finalReason error⟩]) := by
  simp only [Stands, hp] at h
  obtain ⟨ls, l, before, ⟨hlives, ⟨rfl, rfl⟩, htracked⟩, -, htold, herror, -⟩ := h
  refine ⟨k, time, rfl, ?_⟩
  rw [hlives, htold, htracked, herror, l.finalReason_error]
  exact .finished rfl

/-- A restart would not mend the stream. -/
theorem gaveUp {policy : Policy} {error : Option String} (h : Stands (.enabled policy) start interrupted t k)
    (hp : t.phase = .ended error false) (time : Nat) :
    Stands (.enabled policy) start interrupted
      ({ t with phase := .leaving ⟨t.tracked, .unrecoverable (error.getD "")⟩ } : Task ρ)
      (k.publish time false [.exited ⟨t.tracked, .unrecoverable (error.getD "")⟩]) := by
  simp only [Stands, hp] at h
  obtain ⟨ls, l, before, ⟨hlives, hls, htracked⟩, -, htold, herror, hrecoverable⟩ := h
  refine ⟨k, time, rfl, ?_⟩
  obtain ⟨f, hf, hnot⟩ := l.failure_of_not_recoverable hrecoverable.symm
  rw [hlives, htold, htracked, herror, Life.error, hf]
  exact .gaveUp rfl hls hf hnot

/-- A step of the task leads from one row to another. -/
theorem step {d : Driver} {c : Collaborators χ σ ρ π} {cancelled : Bool} {now : Nat} {s s' : Shared χ σ π}
    (h : Stands d.restart start interrupted t k) (hcancel : cancelled = true → interrupted)
    (hchange : Task.Change d c cancelled now t s t' s') :
    Stands d.restart start interrupted t' (k.next c t cancelled now s s') := by
  cases hchange with
  | known hp ht =>
    have hsigns : t.signs c cancelled s = [] := by simp [Task.signs, hp]
    rw [Chronicle.next_silent now hsigns (Chronicle.news_self s), Chronicle.see_nil]
    simpa only [Stands, hp] using h
  | found hp ht hh =>
    have hsigns : t.signs c cancelled s = [] := by simp [Task.signs, hp]
    rw [Chronicle.next_silent now hsigns (Chronicle.news_source s _), Chronicle.see_nil]
    exact h.found hp ht _
  | unknown hp ht hh =>
    have hsigns : t.signs c cancelled s = [] := by simp [Task.signs, hp]
    rw [Chronicle.next_silent now hsigns (Chronicle.news_source s _), Chronicle.see_nil]
    simpa only [Stands, hp] using h
  | dismissed hc hp =>
    obtain ⟨hagenda, hsigns⟩ : t.agenda? = none ∧ t.signs c cancelled s = [] := by
      rcases hp with hp | ⟨feed, hp⟩ | ⟨wake, attempt, hp⟩ <;> simp [Task.signs, Task.agenda?, hp, hc]
    rw [Chronicle.next_publish now hagenda hsigns, Chronicle.see_nil]
    exact h.dismissed (hcancel hc) hp now
  | opened hc hp hs =>
    have hsigns : t.signs c cancelled s = [.started t.tracked] := by simp [Task.signs, hp, hc, hs]
    rw [Chronicle.next_silent now hsigns (Chronicle.news_source s _)]
    exact h.opened hp _
  | @refused f source hc hp hs =>
    have hsigns : t.signs c cancelled s = [.started t.tracked, .ended (some f)] := by simp [Task.signs, hp, hc, hs]
    rw [Chronicle.next_silent now hsigns (Chronicle.news_source s _)]
    exact h.refused hp f
  | @took feed b rest hc hp hn =>
    have hsigns : t.signs c cancelled s = [.gave b] := by simp [Task.signs, hp, hc, hn]
    rw [Chronicle.next_publish now (by rw [Task.agenda?, hp]) hsigns]
    exact h.took hp b rest now
  | @broke feed f hc hp hn =>
    have hsigns : t.signs c cancelled s = [.ended (some f)] := by simp [Task.signs, hp, hc, hn]
    rw [Chronicle.next_silent now hsigns (Chronicle.news_self s)]
    exact h.broke hp f
  | completed hc hp hn =>
    have hsigns : t.signs c cancelled s = [.ended none] := by simp [Task.signs, hp, hc, hn]
    rw [Chronicle.next_publish now (by rw [Task.agenda?, hp]) hsigns]
    exact h.completed hp now
  | advanced hp ht =>
    have hsigns : t.signs c cancelled s = [] := by simp [Task.signs, hp]
    rw [Chronicle.next_publish now (by rw [Task.agenda?, hp]) hsigns, Chronicle.see_nil]
    exact h.advanced hp ht _ now
  | surpassed hp ht =>
    have hsigns : t.signs c cancelled s = [] := by simp [Task.signs, hp]
    rw [Chronicle.next_silent now hsigns (Chronicle.news_self s), Chronicle.see_nil]
    exact h.surpassed hp ht _
  | handled hp ha =>
    rw [Chronicle.next_handled now (by rw [Task.agenda?, hp])]
    simp only [Stands, hp] at h ⊢
    rwa [Chronicle.lives_publish, Chronicle.told, Chronicle.own_publish_handled]
  | settled hp ha =>
    rw [Chronicle.next_handled now (by rw [Task.agenda?, hp]), Chronicle.news_self, Chronicle.publish_nil]
    simpa only [Stands, hp] using h
  | quit hp hm =>
    have hsigns : t.signs c cancelled s = [] := by simp [Task.signs, hp]
    rw [Chronicle.next_publish now (by rw [Task.agenda?, hp]) hsigns, Chronicle.see_nil]
    rw [hm] at h ⊢
    exact h.quit hp now
  | gaveUp hp hm =>
    have hsigns : t.signs c cancelled s = [] := by simp [Task.signs, hp]
    rw [Chronicle.next_publish now (by rw [Task.agenda?, hp]) hsigns, Chronicle.see_nil]
    rw [hm] at h ⊢
    exact h.gaveUp hp now
  | restarting hp hm hr =>
    have hsigns : t.signs c cancelled s = [] := by simp [Task.signs, hp]
    rw [Chronicle.next_publish now (by rw [Task.agenda?, hp]) hsigns, Chronicle.see_nil, hr]
    rw [hm] at h ⊢
    exact h.sleeps hp now
  | restarted hc hp hw =>
    have hsigns : t.signs c cancelled s = [] := by simp [Task.signs, hp]
    rw [Chronicle.next_publish now (by rw [Task.agenda?, hp]) hsigns, Chronicle.see_nil]
    exact h.wakes hp now

end Stands

/-! ### Starting again from the tracked height -/

/-- Each life but the first continues the ones before it. -/
def Continued (start : Option Height) (l : Lives) : Prop :=
  Fitting (fun pre l => Continues start pre l.opening) l.past

theorem Continued.step {mode : Mode} {start : Option Height} {interrupted : Prop} {t : Task ρ} {k : Chronicle}
    (h : Continued start k.lives) (hstands : Stands mode start interrupted t k) (c : Collaborators χ σ ρ π)
    (cancelled : Bool) (now : Nat) (s s' : Shared χ σ π) :
    Continued start (k.next c t cancelled now s s').lives := by
  show Continued start ((t.signs c cancelled s).foldl Lives.next k.lives)
  rcases t.signs_cases c cancelled s with
    hsigns | ⟨hp, hsigns | ⟨f, hsigns⟩⟩ | ⟨feed, hp, ⟨b, hsigns⟩ | ⟨failure, hsigns⟩⟩ <;> rw [hsigns]
  · exact h
  · exact h
  · simp only [Stands, hp] at hstands
    obtain ⟨ls, hlives, -, -, htracked⟩ := hstands
    rw [hlives] at h ⊢
    exact Fitting.snoc h htracked
  · exact h
  · simp only [Stands, hp] at hstands
    obtain ⟨ls, o, before, hlives, -, -, -, -, hstart⟩ := hstands
    rw [hlives] at h ⊢
    exact Fitting.snoc h hstart

/-! ### Waiting before a restart -/

/-- A restart comes right after its announcement, and after the delay that was announced. -/
def Waited (pre : List Emission) (e : Emission) : Prop :=
  ∀ height attempt, e.diagnostic = .restarted height attempt → ∃ earlier last delay error,
    pre = earlier ++ [last] ∧ last.diagnostic = .restarting height attempt delay error ∧
      last.time + delay.toNat ≤ e.time

/-- What a task publishes by itself is one diagnostic at most, and one that says that the stream was started again
only if the time has come. -/
theorem Task.Change.news {d : Driver} {c : Collaborators χ σ ρ π} {cancelled : Bool} {now : Nat} {t t' : Task ρ}
    {s s' : Shared χ σ π} (h : Task.Change d c cancelled now t s t' s') :
    (∃ agenda, t.agenda? = some agenda) ∨ Chronicle.news s s' = [] ∨
      ∃ diagnostic, Chronicle.news s s' = [diagnostic] ∧ ∀ height attempt, diagnostic = .restarted height attempt →
        ∃ wake, t.phase = .sleeping wake attempt ∧ wake ≤ now ∧ height = t.tracked := by
  cases h with
  | @handled agenda feed agenda' s' hp ha => exact .inl ⟨agenda, by rw [Task.agenda?, hp]⟩
  | known | broke | surpassed | settled => exact .inr (.inl (Chronicle.news_self s))
  | found | unknown | opened | refused => exact .inr (.inl (Chronicle.news_source s _))
  | restarted hc hp hw =>
    refine .inr (.inr ⟨_, Chronicle.news_publish s _, fun height attempt heq => ?_⟩)
    cases heq
    exact ⟨_, hp, hw, rfl⟩
  | dismissed | took | completed | advanced | quit | gaveUp | restarting =>
    refine .inr (.inr ⟨_, Chronicle.news_publish s _, fun height attempt heq => ?_⟩)
    cases heq

theorem waited_step {mode : Mode} {start : Option Height} {interrupted : Prop} {t t' : Task ρ} {k : Chronicle}
    {d : Driver} {c : Collaborators χ σ ρ π} {cancelled : Bool} {now : Nat} {s s' : Shared χ σ π}
    (h : Fitting Waited k.own) (hstands : Stands mode start interrupted t k)
    (hchange : Task.Change d c cancelled now t s t' s') : Fitting Waited (k.next c t cancelled now s s').own := by
  cases hp : t.agenda? with
  | some agenda => rwa [Chronicle.next_handled now hp, Chronicle.own_publish_handled]
  | none =>
    rw [Chronicle.own_next now hp]
    rcases hchange.news with ⟨agenda, hagenda⟩ | hnews | ⟨diagnostic, hnews, hrestarted⟩
    · rw [hp] at hagenda
      cases hagenda
    · rwa [hnews, List.map_nil, List.append_nil]
    · rw [hnews]
      refine h.snoc fun height attempt heq => ?_
      obtain ⟨wake, hsleeping, hwake, rfl⟩ := hrestarted height attempt heq
      simp only [Stands, hsleeping] at hstands
      obtain ⟨ls, l, before, policy, emission, earlier, ⟨-, -, htracked⟩, -, -, -, hown, -, hlast, rfl, rfl⟩ := hstands
      refine ⟨earlier, emission, _, l.error, hown, ?_, hwake⟩
      rw [hlast, Life.restarting, htracked]

end Attestor.Stream
