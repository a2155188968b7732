import Attestor.Restart.Policy
import Mathlib.Tactic.ByContra

/-!
When restart settings are refused, and why.

`Refused`: the bounds make no sense, or else the delay is neither zero nor within them, or else the cap lies below a
delay that is not zero. Only the numbers decide; whether restarts are enabled does not (`build_error_iff`,
`build_ok_iff`).
-/

namespace Attestor.Restart

/-- The bounds admit a delay at all. -/
def Bounds.Sound (b : Bounds) : Prop := 0 < b.min ∧ b.min ≤ b.max

/-- The delay lies between the bounds. -/
def Bounds.Admits (b : Bounds) (delay : Int64) : Prop := b.min ≤ delay ∧ delay ≤ b.max

/-- The one reason for which settings are refused. -/
inductive Settings.Refused (s : Settings) : Attestor.Settings.Error → Prop
  | bounds (unsound : ¬ s.bounds.Sound) : s.Refused (.delayBounds s.bounds.min s.bounds.max)
  | delay (sound : s.bounds.Sound) (nonzero : s.delay ≠ 0) (outside : ¬ s.bounds.Admits s.delay) :
    s.Refused (.restartDelay s.delay s.bounds.min s.bounds.max)
  | cap {cap : Int64} (sound : s.bounds.Sound) (nonzero : s.delay ≠ 0) (inside : s.bounds.Admits s.delay)
    (backoff : s.backoff = .exponential cap) (below : cap < s.delay) : s.Refused (.backoffCap s.delay cap)

/-! ### The base delay -/

section Check

variable {b : Bounds} {delay : Int64}

theorem Bounds.not_sound_iff : ¬ b.Sound ↔ b.min ≤ 0 ∨ b.max < b.min := by
  rw [Sound, Decidable.not_and_iff_not_or_not, Int64.not_lt, Int64.not_le]

theorem Bounds.not_admits_iff : ¬ b.Admits delay ↔ delay < b.min ∨ b.max < delay := by
  rw [Admits, Decidable.not_and_iff_not_or_not, Int64.not_le, Int64.not_le]

theorem Bounds.check_unsound (h : ¬ b.Sound) : b.check delay = .error (.delayBounds b.min b.max) :=
  if_pos (not_sound_iff.mp h)

theorem Bounds.check_zero (h : b.Sound) : b.check 0 = .ok 0 := by
  rw [check, if_neg (mt not_sound_iff.mpr (not_not_intro h)), if_pos rfl]

theorem Bounds.check_outside (h : b.Sound) (hne : delay ≠ 0) (hout : ¬ b.Admits delay) :
    b.check delay = .error (.restartDelay delay b.min b.max) := by
  rw [check, if_neg (mt not_sound_iff.mpr (not_not_intro h)), if_neg hne, if_pos (not_admits_iff.mp hout)]

/-- The word of a number that is not negative is that number. -/
theorem toNat_magnitude {n : Int64} (h : 0 ≤ n.toInt) : ((UInt64.ofNat n.toInt.natAbs).toNat : Int) = n.toInt := by
  have hlt := n.toInt_lt
  rw [UInt64.toNat_ofNat_of_lt' (by change _ < 2 ^ 64; omega)]
  omega

/-- A delay within sound bounds is positive. -/
theorem Bounds.positive (h : b.Sound) (hin : b.Admits delay) : 0 < delay.toInt := by
  have hmin := Int64.lt_iff_toInt_lt.mp h.1
  have hdelay := Int64.le_iff_toInt_le.mp hin.1
  exact Int.lt_of_lt_of_le hmin hdelay

/-- A delay within sound bounds passes, and its word is not zero. -/
theorem Bounds.check_inside (h : b.Sound) (hne : delay ≠ 0) (hin : b.Admits delay) :
    ∃ base : UInt64, b.check delay = .ok base ∧ base ≠ 0 ∧ (base.toNat : Int) = delay.toInt := by
  have hpos := positive h hin
  have hword := toNat_magnitude (Int.le_of_lt hpos)
  refine ⟨UInt64.ofNat delay.toInt.natAbs, ?_, fun hzero => ?_, hword⟩
  · rw [check, if_neg (mt not_sound_iff.mpr (not_not_intro h)), if_neg hne,
      if_neg (mt not_admits_iff.mpr (not_not_intro hin))]
  · rw [hzero] at hword
    change 0 = _ at hword
    omega

end Check

/-! ### The settings -/

namespace Settings

variable {s : Settings} {e : Attestor.Settings.Error}

/-- Settings are sound when no reason to refuse them applies. -/
theorem not_refused_iff :
    (∀ e, ¬ s.Refused e) ↔
      s.bounds.Sound ∧
        (s.delay = 0 ∨ s.bounds.Admits s.delay ∧ ∀ cap, s.backoff = .exponential cap → s.delay ≤ cap) := by
  constructor
  · intro h
    have hsound : s.bounds.Sound := by
      by_contra hunsound
      exact h _ (.bounds hunsound)
    refine ⟨hsound, or_iff_not_imp_left.mpr fun hnonzero => ?_⟩
    have hinside : s.bounds.Admits s.delay := by
      by_contra houtside
      exact h _ (.delay hsound hnonzero houtside)
    exact ⟨hinside, fun cap hcap => Int64.not_lt.mp fun hbelow => h _ (.cap hsound hnonzero hinside hcap hbelow)⟩
  · rintro ⟨hsound, hdelay⟩ e he
    cases he with
    | bounds unsound => exact unsound hsound
    | delay _ nonzero outside => exact outside (hdelay.resolve_left nonzero).1
    | cap _ nonzero _ backoff below =>
      exact Int64.not_le.mpr below ((hdelay.resolve_left nonzero).2 _ backoff)

theorem build_of_check_error (h : s.bounds.check s.delay = .error e) : s.build = .error e := by
  unfold build
  cases s.backoff with
  | fixed => simp only [Policy.fixed, h]; rfl
  | exponential cap => simp only [Policy.exponential, h]; rfl

theorem build_of_zero (h : s.bounds.check s.delay = .ok 0) :
    s.build = .ok (if s.enabled then .enabled .immediate else .disabled) := by
  unfold build
  cases s.backoff with
  | fixed => simp only [Policy.fixed, h]; rfl
  | exponential cap => simp only [Policy.exponential, h]; rfl

/-- With a base delay other than zero the backoff decides. -/
theorem build_of_base {base : UInt64} (h : s.bounds.check s.delay = .ok base) (hbase : base ≠ 0) :
    s.build = match s.backoff with
      | .fixed => .ok (if s.enabled then .enabled ⟨base, .fixed⟩ else .disabled)
      | .exponential cap =>
        if cap < s.delay then .error (.backoffCap s.delay cap)
        else .ok (if s.enabled then .enabled ⟨base, .exponential (UInt64.ofNat cap.toInt.natAbs)⟩ else .disabled) := by
  unfold build
  cases s.backoff with
  | fixed =>
    simp only [Policy.fixed, h, bind, Except.bind, if_neg hbase]
    rfl
  | exponential cap =>
    simp only [Policy.exponential, h, bind, Except.bind, if_neg hbase]
    by_cases hcap : cap < s.delay
    · simp only [if_pos hcap]; rfl
    · simp only [if_neg hcap]; rfl

theorem build_of_refused (h : s.Refused e) : s.build = .error e := by
  cases h with
  | bounds unsound => exact build_of_check_error (Bounds.check_unsound unsound)
  | delay sound nonzero outside => exact build_of_check_error (Bounds.check_outside sound nonzero outside)
  | cap sound nonzero inside backoff below =>
    obtain ⟨base, hcheck, hbase, -⟩ := Bounds.check_inside sound nonzero inside
    rw [build_of_base hcheck hbase, backoff]
    exact if_pos below

theorem build_of_not_refused (h : ∀ e, ¬ s.Refused e) : ∃ mode, s.build = .ok mode := by
  obtain ⟨hsound, hdelay⟩ := not_refused_iff.mp h
  by_cases hzero : s.delay = 0
  · exact ⟨_, build_of_zero (hzero ▸ Bounds.check_zero hsound)⟩
  · obtain ⟨hinside, hcap⟩ := hdelay.resolve_left hzero
    obtain ⟨base, hcheck, hbase, -⟩ := Bounds.check_inside hsound hzero hinside
    rw [build_of_base hcheck hbase]
    cases hbackoff : s.backoff with
    | fixed => exact ⟨_, rfl⟩
    | exponential cap => exact ⟨_, if_neg (Int64.not_lt.mpr (hcap cap hbackoff))⟩

/-- Settings are refused for the reason that applies, and for no other. -/
theorem build_error_iff : s.build = .error e ↔ s.Refused e := by
  refine ⟨fun h => ?_, build_of_refused⟩
  by_contra hnot
  have hnone : ∀ e', ¬ s.Refused e' := by
    intro e' he'
    have heq : Except.error e' = Except.error e := (build_of_refused he').symm.trans h
    exact hnot (Except.error.inj heq ▸ he')
  obtain ⟨mode, hmode⟩ := build_of_not_refused hnone
  exact absurd (hmode.symm.trans h) nofun

theorem build_ok_iff : (∃ mode, s.build = .ok mode) ↔ ∀ e, ¬ s.Refused e := by
  refine ⟨fun ⟨mode, hmode⟩ e he => ?_, build_of_not_refused⟩
  exact absurd (hmode.symm.trans (build_of_refused he)) nofun

end Settings

end Attestor.Restart
