import Attestor.Proofs.Refusals

/-!
What restart settings come to.

They are accepted exactly if they are sound, and refused for the one reason that applies; whether restarts are enabled
plays no part in either. `Settings.Gives`: the policy of settings that are accepted is immediate if the delay is zero;
otherwise it waits the delay before every restart, or doubles it up to the cap, as the backoff says. The mode has this
policy if restarts are enabled, and is disabled otherwise (`Settings.judged`).
-/

namespace Attestor.Restart.Settings

variable {s : Settings}

/-- The bounds make sense, and the delay is zero, or within them and not above the cap of an exponential backoff. -/
def Sound (s : Settings) : Prop :=
  s.bounds.Sound ∧ (s.delay = 0 ∨ s.bounds.Admits s.delay ∧ ∀ cap, s.backoff = .exponential cap → s.delay ≤ cap)

/-! ### The policy of sound settings -/

/-- The policy that the numbers and the backoff stand for. -/
inductive Gives (s : Settings) : Policy → Prop
  | immediate (zero : s.delay = 0) : s.Gives .immediate
  | fixed {base : UInt64} (positive : 0 < s.delay.toInt) (backoff : s.backoff = .fixed)
    (delay : (base.toNat : Int) = s.delay.toInt) : s.Gives ⟨base, .fixed⟩
  | exponential {cap : Int64} {base limit : UInt64} (positive : 0 < s.delay.toInt) (below : s.delay ≤ cap)
    (backoff : s.backoff = .exponential cap) (delay : (base.toNat : Int) = s.delay.toInt)
    (capped : (limit.toNat : Int) = cap.toInt) : s.Gives ⟨base, .exponential limit⟩

theorem Gives.isImmediate_iff {p : Policy} (h : s.Gives p) : p.isImmediate = true ↔ s.delay = 0 := by
  have hnonzero (positive : 0 < s.delay.toInt) : s.delay ≠ 0 := fun hzero => by
    rw [hzero] at positive
    exact absurd positive (by decide)
  cases h with
  | immediate zero => exact iff_of_true rfl zero
  | fixed positive => exact iff_of_false (by simp [Policy.isImmediate]) (hnonzero positive)
  | exponential positive => exact iff_of_false (by simp [Policy.isImmediate]) (hnonzero positive)

/-- The mode of sound settings has their policy, or is disabled. -/
theorem gives_of_build {mode : Mode} (h : s.build = .ok mode) :
    ∃ p, s.Gives p ∧ mode = if s.enabled then .enabled p else .disabled := by
  obtain ⟨hsound, hdelay⟩ := not_refused_iff.mp (build_ok_iff.mp ⟨mode, h⟩)
  by_cases hzero : s.delay = 0
  · have hcheck : s.bounds.check s.delay = .ok 0 := hzero ▸ Bounds.check_zero hsound
    have hmode := h.symm.trans (build_of_zero hcheck)
    exact ⟨.immediate, .immediate hzero, Except.ok.inj hmode⟩
  obtain ⟨hinside, hcap⟩ := hdelay.resolve_left hzero
  obtain ⟨base, hcheck, hbase, hword⟩ := Bounds.check_inside hsound hzero hinside
  have hpositive := Bounds.positive hsound hinside
  have hmode := h.symm.trans (build_of_base hcheck hbase)
  cases hbackoff : s.backoff with
  | fixed =>
    rw [hbackoff] at hmode
    exact ⟨_, .fixed hpositive hbackoff hword, Except.ok.inj hmode⟩
  | exponential cap =>
    have hbelow := hcap cap hbackoff
    have hcapped := toNat_magnitude (Int.le_trans (Int.le_of_lt hpositive) (Int64.le_iff_toInt_le.mp hbelow))
    rw [hbackoff] at hmode
    simp only [if_neg (Int64.not_lt.mpr hbelow)] at hmode
    exact ⟨_, .exponential hpositive hbelow hbackoff hword hcapped, Except.ok.inj hmode⟩

/-! ### The judgement -/

/-- The reason for which settings are refused does not depend on whether restarts are enabled. -/
theorem refused_enabled_iff {enabled : Bool} {e : Attestor.Settings.Error} :
    Refused { s with enabled } e ↔ s.Refused e := by
  constructor <;> intro h <;> cases h with
  | bounds unsound => exact .bounds unsound
  | delay sound nonzero outside => exact .delay sound nonzero outside
  | cap sound nonzero inside backoff below => exact .cap sound nonzero inside backoff below

/-- What settings come to. -/
structure Judged (s : Settings) : Prop where
  /-- They are accepted if they are sound, and only then. -/
  accepted : (∃ mode, s.build = .ok mode) ↔ s.Sound
  /-- They are refused for the reason that applies: unsound bounds first, then the delay, then the cap. -/
  refused : ∀ e, s.build = .error e ↔ s.Refused e
  /-- Settings that differ in whether restarts are enabled are accepted alike, and refused alike. -/
  indifferent : ∀ enabled, ((∃ mode, build { s with enabled } = .ok mode) ↔ ∃ mode, s.build = .ok mode) ∧
    ∀ e, build { s with enabled } = .error e ↔ s.build = .error e
  /-- The mode has the policy that the settings give, or is disabled; and the policy is immediate exactly if the delay is
  zero. -/
  mode : ∀ mode, s.build = .ok mode → ∃ policy, s.Gives policy ∧ (policy.isImmediate = true ↔ s.delay = 0) ∧
    mode = if s.enabled then .enabled policy else .disabled

/-- **Restart settings are accepted exactly if they are sound**, and otherwise refused for the first reason that
applies, whether restarts are enabled or not. -/
theorem judged (s : Settings) : s.Judged where
  accepted := build_ok_iff.trans not_refused_iff
  refused _ := build_error_iff
  indifferent enabled := by
    refine ⟨?_, fun e => ?_⟩
    · rw [build_ok_iff, build_ok_iff]
      exact forall_congr' fun e => not_congr refused_enabled_iff
    · rw [build_error_iff, build_error_iff, refused_enabled_iff]
  mode mode h := by
    obtain ⟨policy, hgives, hmode⟩ := gives_of_build h
    exact ⟨policy, hgives, hgives.isImmediate_iff, hmode⟩

/-- Bounds that cross are refused although a delay of zero needs none, and although restarts are disabled. -/
example : build ⟨false, 0, .exponential (-5), ⟨500, 100⟩⟩ = .error (.delayBounds 500 100) := rfl

end Attestor.Restart.Settings
