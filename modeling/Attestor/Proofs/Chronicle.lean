import Attestor.Proofs.Conduct
import Attestor.Proofs.Handlings
import Attestor.Proofs.Lives

/-!
Chronicles of the stream task. While a task plays, its chronicle keeps what the source has answered, as the lives of
the stream, and all diagnostics that the steps of the task have added to the queue, each with the time of its step and
whether an event was being handled then; if none was, the diagnostic is the task's own. Nothing else is read off the
task, so that a chronicle is the same whatever others do in between.
-/

namespace Attestor.Stream

open Chain (Block Height)

variable {χ σ ρ π : Type}

/-! ### What a task sees of its stream -/

/-- Something that the source does when it is asked. -/
inductive Sign where
  | started (height : Option Height)
  | gave (block : Block)
  | ended (failure : Option Failure)

/-- The lives of a stream: those that have ended, and the one that has not. -/
structure Lives where
  past : List Life
  current : Option Opening

namespace Lives

/-- The stream was never started. -/
def initial : Lives := ⟨[], none⟩

/-- The lives after a sign. -/
def next (l : Lives) : Sign → Lives
  | .started height => { l with current := some ⟨height, []⟩ }
  | .gave b => { l with current := l.current.map (·.take b) }
  | .ended failure => ⟨l.past ++ (l.current.map (⟨·, failure⟩)).toList, none⟩

/-- How often the stream was started. -/
def starts (l : Lives) : Nat := l.past.length + l.current.toList.length

end Lives

/-- What the source does in the step ahead. -/
def Task.signs (c : Collaborators χ σ ρ π) (cancelled : Bool) (t : Task ρ) (s : Shared χ σ π) : List Sign :=
  match cancelled, t.phase with
  | false, .opening =>
    match c.source.start t.tracked s.source with
    | (.ok _, _) => [.started t.tracked]
    | (.error f, _) => [.started t.tracked, .ended (some f)]
  | false, .reading feed =>
    match c.source.next feed with
    | .block b _ => [.gave b]
    | .failed f => [.ended (some f)]
    | .completed => [.ended none]
    | .pending => []
  | _, _ => []

/-- Only a task that opens the stream, or reads from it, sees something. -/
theorem Task.signs_cases (c : Collaborators χ σ ρ π) (cancelled : Bool) (t : Task ρ) (s : Shared χ σ π) :
    t.signs c cancelled s = [] ∨
      t.phase = .opening ∧ (t.signs c cancelled s = [.started t.tracked] ∨
        ∃ f, t.signs c cancelled s = [.started t.tracked, .ended (some f)]) ∨
      ∃ feed, t.phase = .reading feed ∧ ((∃ b, t.signs c cancelled s = [.gave b]) ∨
        ∃ failure, t.signs c cancelled s = [.ended failure]) := by
  unfold signs
  split
  next hp =>
    refine .inr (.inl ⟨hp, ?_⟩)
    rcases c.source.start t.tracked s.source with ⟨f | feed, source⟩
    · exact .inr ⟨f, rfl⟩
    · exact .inl rfl
  next feed hp =>
    cases c.source.next feed with
    | block b rest => exact .inr (.inr ⟨feed, hp, .inl ⟨b, rfl⟩⟩)
    | failed f => exact .inr (.inr ⟨feed, hp, .inr ⟨some f, rfl⟩⟩)
    | completed => exact .inr (.inr ⟨feed, hp, .inr ⟨none, rfl⟩⟩)
    | pending => exact .inl rfl
  next => exact .inl rfl

/-! ### Chronicles -/

/-- A diagnostic, and the step that has published it. -/
structure Emission where
  time : Nat
  /-- An event was being handled, or went to its handler. -/
  handling : Bool
  diagnostic : Diagnostic

/-- What a task has seen and told. -/
structure Chronicle where
  lives : Lives
  emissions : List Emission

namespace Chronicle

def empty : Chronicle := ⟨.initial, []⟩

/-- What a task has told by itself. -/
def own (k : Chronicle) : List Emission := k.emissions.filter (!·.handling)

/-- What was told while events were handled. -/
def handled (k : Chronicle) : List Diagnostic := (k.emissions.filter (·.handling)).map (·.diagnostic)

/-- What a task has told by itself, its times apart. -/
def told (k : Chronicle) : List Diagnostic := k.own.map (·.diagnostic)

/-- More diagnostics are published. -/
def publish (k : Chronicle) (time : Nat) (handling : Bool) (ds : List Diagnostic) : Chronicle :=
  { k with emissions := k.emissions ++ ds.map (⟨time, handling, ·⟩) }

/-- The source does something. -/
def see (k : Chronicle) (signs : List Sign) : Chronicle := { k with lives := signs.foldl Lives.next k.lives }

/-- What a step has published. -/
def news (s s' : Shared χ σ π) : List Diagnostic := s'.diagnostics.log.drop s.diagnostics.log.length

/-- The chronicle after a step of the task. -/
def next (c : Collaborators χ σ ρ π) (t : Task ρ) (cancelled : Bool) (now : Nat) (s s' : Shared χ σ π)
    (k : Chronicle) : Chronicle :=
  (k.see (t.signs c cancelled s)).publish now t.agenda?.isSome (news s s')

instance : Recorder Chronicle := ⟨empty, fun c cancelled now t _ s s' k => k.next c t cancelled now s s'⟩

variable {k : Chronicle} {s s' : Shared χ σ π} (time : Nat)

@[simp] theorem news_publish (s : Shared χ σ π) (d : Diagnostic) : news s (s.publish d) = [d] :=
  List.drop_left

theorem news_eq_nil (h : s'.diagnostics.log = s.diagnostics.log) : news s s' = [] := by
  rw [news, h]
  exact List.drop_length

@[simp] theorem news_self (s : Shared χ σ π) : news s s = [] := news_eq_nil rfl

@[simp] theorem news_source (s : Shared χ σ π) (source : σ) : news s { s with source } = [] := news_eq_nil rfl

theorem news_turns {c : Collaborators χ σ ρ π} {x : Handler.Effect} (h : x.Turns c s s') : news s s' = x.told := by
  rw [news, h.diagnostics]
  exact List.drop_left

@[simp] theorem see_nil (k : Chronicle) : k.see [] = k := rfl

@[simp] theorem publish_nil (handling : Bool) : k.publish time handling [] = k := by
  simp [publish]

@[simp] theorem lives_publish (handling : Bool) (ds : List Diagnostic) :
    (k.publish time handling ds).lives = k.lives := rfl

@[simp] theorem own_see (signs : List Sign) : (k.see signs).own = k.own := rfl

@[simp] theorem told_see (signs : List Sign) : (k.see signs).told = k.told := rfl

/-- A step of a task that is busy with an event. -/
theorem next_handled {c : Collaborators χ σ ρ π} {t : Task ρ} {cancelled : Bool} {agenda : Routing.Agenda}
    (ht : t.agenda? = some agenda) : k.next c t cancelled time s s' = k.publish time true (news s s') := by
  have hsigns : t.signs c cancelled s = [] := by
    rcases t.signs_cases c cancelled s with hnone | ⟨hp, -⟩ | ⟨feed, hp, -⟩
    · exact hnone
    · simp [Task.agenda?, hp] at ht
    · simp [Task.agenda?, hp] at ht
  rw [next, hsigns, ht, Option.isSome_some, see_nil]

/-- A step of a task that is busy with no event. -/
theorem own_next {c : Collaborators χ σ ρ π} {t : Task ρ} {cancelled : Bool} (ht : t.agenda? = none) :
    (k.next c t cancelled time s s').own = k.own ++ (news s s').map (⟨time, false, ·⟩) := by
  simp [next, ht, own, publish, see]

theorem told_next {c : Collaborators χ σ ρ π} {t : Task ρ} {cancelled : Bool} (ht : t.agenda? = none) :
    (k.next c t cancelled time s s').told = k.told ++ news s s' := by
  rw [told, own_next time ht, List.map_append, List.map_map]
  exact congrArg (k.told ++ ·) (List.map_id _)

section

variable {c : Collaborators χ σ ρ π} {t : Task ρ} {cancelled : Bool} {signs : List Sign}

/-- A step in which the task tells nothing. -/
theorem next_silent (hsigns : t.signs c cancelled s = signs) (hnews : news s s' = []) :
    k.next c t cancelled time s s' = k.see signs := by
  rw [next, hsigns, hnews, publish_nil]

/-- A step in which the task tells something by itself. -/
theorem next_publish (ht : t.agenda? = none) (hsigns : t.signs c cancelled s = signs) (d : Diagnostic) :
    k.next c t cancelled time s (s.publish d) = (k.see signs).publish time false [d] := by
  rw [next, hsigns, ht, news_publish, Option.isSome_none]

end

/-- What is published while an event is handled is not the task's own. -/
theorem own_publish_handled (ds : List Diagnostic) : (k.publish time true ds).own = k.own := by
  simp [own, publish]

theorem own_publish (d : Diagnostic) : (k.publish time false [d]).own = k.own ++ [⟨time, false, d⟩] := by
  simp [own, publish]

theorem told_publish (d : Diagnostic) : (k.publish time false [d]).told = k.told ++ [d] := by
  simp [told, own_publish]

theorem handled_publish_own (ds : List Diagnostic) : (k.publish time false ds).handled = k.handled := by
  simp [handled, publish]

theorem handled_publish (ds : List Diagnostic) : (k.publish time true ds).handled = k.handled ++ ds := by
  have hmap : (ds.map (Emission.mk time true)).map (·.diagnostic) = ds := by
    rw [List.map_map]
    exact List.map_id ds
  have hall : (ds.map (Emission.mk time true)).filter (·.handling) = ds.map (Emission.mk time true) := by
    refine List.filter_eq_self.mpr fun e he => ?_
    obtain ⟨d, -, rfl⟩ := List.mem_map.mp he
    rfl
  rw [handled, publish, List.filter_append, List.map_append, hall, hmap, handled]

/-- What was told is the task's own, or was told while an event was handled. -/
theorem mem_emissions {d : Diagnostic} (h : d ∈ k.emissions.map (·.diagnostic)) : d ∈ k.told ∨ d ∈ k.handled := by
  obtain ⟨e, he, rfl⟩ := List.mem_map.mp h
  cases hhandling : e.handling with
  | true => exact .inr (List.mem_map_of_mem (List.mem_filter.mpr ⟨he, hhandling⟩))
  | false => exact .inl (List.mem_map_of_mem (List.mem_filter.mpr ⟨he, by rw [hhandling]; rfl⟩))

/-- A step that is not one of an agenda publishes nothing about an event. -/
theorem handled_next {c : Collaborators χ σ ρ π} {t : Task ρ} {cancelled : Bool} (h : t.agenda? = none ∨ s' = s) :
    (k.next c t cancelled time s s').handled = k.handled := by
  rcases h with ht | rfl
  · rw [next, ht, Option.isSome_none, handled_publish_own]
    rfl
  · rw [next, news_self, publish_nil]
    rfl

end Chronicle

/-- A step is one of an agenda, or there is no event in hand, before and after, and none is routed. -/
theorem Task.Change.current {d : Driver} {c : Collaborators χ σ ρ π} {cancelled : Bool} {now : Nat} {t t' : Task ρ}
    {s s' : Shared χ σ π} (h : Task.Change d c cancelled now t s t' s') :
    (∃ agenda feed agenda', t.phase = .handling agenda feed ∧ t' = { t with phase := .handling agenda' feed } ∧
        agenda.step d.router c s = .moved (agenda', s')) ∨
      (t.current? = none ∧ t'.current? = none) ∧ routed (t.note cancelled) = [] ∧ (t.agenda? = none ∨ s' = s) := by
  have hrest : t.agenda? = none → t'.current? = none →
      (t.current? = none ∧ t'.current? = none) ∧ routed (t.note cancelled) = [] ∧ (t.agenda? = none ∨ s' = s) := by
    intro hagenda hnext
    refine ⟨⟨by rw [Task.current?, hagenda]; rfl, hnext⟩, ?_, .inl hagenda⟩
    unfold Task.note
    split
    · cases cancelled <;> rfl
    · rfl
    next hp => simp [Task.agenda?, hp] at hagenda
    · rfl
  cases h with
  | handled hp ha => exact .inl ⟨_, _, _, hp, rfl, ha⟩
  | settled hp ha =>
    rw [Routing.Agenda.of_step_over ha] at hp
    exact .inr ⟨⟨by simp [Task.current?, Task.agenda?, hp], rfl⟩, by simp [Task.note, hp, routed], .inr rfl⟩
  | dismissed hc hp =>
    refine .inr (hrest ?_ rfl)
    rcases hp with hp | ⟨_, hp⟩ | ⟨_, _, hp⟩ <;> simp [Task.agenda?, hp]
  | known hp | found hp | unknown hp | opened _ hp | refused _ hp | took _ hp | broke _ hp | completed _ hp
  | advanced hp | surpassed hp | quit hp | gaveUp hp | restarting hp | restarted _ hp =>
    exact .inr (hrest (by simp [Task.agenda?, hp]) rfl)

end Attestor.Stream
