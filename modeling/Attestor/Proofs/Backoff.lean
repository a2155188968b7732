import Attestor.Proofs.Acceptance
import Mathlib.Algebra.Order.Ring.Int

/-!
The delays of restart policies as numbers.

A delay is computed in words, and two saturations stand between it and the number it is meant to be: that of the power
of two and that of the product. Neither shows. A cap is a word, so whatever has saturated is not below it
(`min_saturated`), and the delay of an exponential policy is the least of `base * 2 ^ attempt` and the cap
(`toNat_delay_exponential`). From this formula alone follows how delays grow (`Doubles.of_exact`). `delays_exact` is
about all policies that can be constructed.
-/

namespace Attestor.Restart

/-! ### Words that saturate -/

theorem toNat_powerOfTwo (n : UInt32) : (powerOfTwo n).toNat = min (2 ^ n.toNat) (2 ^ 64 - 1) := by
  unfold powerOfTwo
  split
  next h =>
    have hlt : n.toNat < 64 := UInt32.lt_iff_toNat_lt.mp h
    have hfits : 2 ^ n.toNat < 2 ^ 64 := Nat.pow_lt_pow_right (by decide) hlt
    have hshift : ((1 : UInt64) <<< n.toUInt64).toNat = 2 ^ n.toNat := by
      rw [UInt64.toNat_shiftLeft, UInt32.toNat_toUInt64, Nat.mod_eq_of_lt hlt, UInt64.toNat_one, Nat.one_shiftLeft,
        Nat.mod_eq_of_lt hfits]
    rw [hshift]
    omega
  next h =>
    have hge : 64 ≤ n.toNat := Nat.not_lt.mp fun hlt => h (UInt32.lt_iff_toNat_lt.mpr hlt)
    have hlarge : 2 ^ 64 ≤ 2 ^ n.toNat := Nat.pow_le_pow_right (by decide) hge
    show 2 ^ 64 - 1 = _
    omega

theorem toNat_saturatingMul (a b : UInt64) : (saturatingMul a b).toNat = min (a.toNat * b.toNat) (2 ^ 64 - 1) := by
  unfold saturatingMul
  split
  next h =>
    rw [UInt64.toNat_mul, Nat.mod_eq_of_lt h]
    change _ < 2 ^ 64 at h
    omega
  next h =>
    change ¬ _ < 2 ^ 64 at h
    show 2 ^ 64 - 1 = _
    omega

/-- Below a cap that is a word no saturation shows: what has saturated is not below the cap. -/
theorem min_saturated {cap limit : Nat} (hcap : cap ≤ limit) (base power : Nat) :
    min (min (base * min power limit) limit) cap = min (base * power) cap := by
  by_cases hfits : power ≤ limit
  · rw [Nat.min_eq_left hfits]
    omega
  rcases Nat.eq_zero_or_pos base with rfl | hpositive
  · simp only [Nat.zero_mul, Nat.zero_min]
  have hlimit : limit ≤ base * limit := Nat.le_mul_of_pos_left limit hpositive
  have hpower : base * limit ≤ base * power := Nat.mul_le_mul_left base (Nat.le_of_not_le hfits)
  rw [Nat.min_eq_right (Nat.le_of_not_le hfits)]
  omega

/-- The delay of an exponential policy is computed as if numbers had no bound. -/
theorem toNat_delay_exponential (base cap : UInt64) (n : UInt32) :
    ((Policy.mk base (.exponential cap)).delay n).toNat = min (base.toNat * 2 ^ n.toNat) cap.toNat := by
  have hcap : cap.toNat ≤ 2 ^ 64 - 1 := Nat.le_sub_one_of_lt cap.toNat_lt
  have hgrown : (saturatingMul base (powerOfTwo n)).toNat =
      min (base.toNat * min (2 ^ n.toNat) (2 ^ 64 - 1)) (2 ^ 64 - 1) := by
    rw [toNat_saturatingMul, toNat_powerOfTwo]
  rw [← min_saturated hcap, ← hgrown, Policy.delay]
  dsimp only
  split
  next h => exact (Nat.min_eq_left (UInt64.le_iff_toNat_le.mp h)).symm
  next h => exact (Nat.min_eq_right (Nat.le_of_not_le fun hle => h (UInt64.le_iff_toNat_le.mpr hle))).symm

/-! ### Delays that double -/

/-- The milliseconds to wait before the restart with this number. -/
def Policy.millis (p : Policy) (n : UInt32) : Int := (p.delay n).toNat

/-- Delays start at the base and double with each attempt until they are at the cap, where they stay. -/
structure Doubles (delays : UInt32 → Int) (base cap : Int) : Prop where
  exact : ∀ n, delays n = min (base * 2 ^ n.toNat) cap
  start : delays 0 = base
  monotone : ∀ m n, m ≤ n → delays m ≤ delays n
  capped : ∀ n, delays n ≤ cap
  settled : ∀ m n, m ≤ n → delays m = cap → delays n = cap

/-- The formula alone tells how the delays grow. -/
theorem Doubles.of_exact {delays : UInt32 → Int} {base cap : Int} (hbase : 0 ≤ base) (hcap : base ≤ cap)
    (h : ∀ n, delays n = min (base * 2 ^ n.toNat) cap) : Doubles delays base cap := by
  have hcapped (n : UInt32) : delays n ≤ cap := h n ▸ Int.min_le_right ..
  have hmonotone (m n : UInt32) (hle : m ≤ n) : delays m ≤ delays n := by
    have hpower : (2 : Int) ^ m.toNat ≤ 2 ^ n.toNat :=
      mod_cast Nat.pow_le_pow_right (by decide) (UInt32.le_iff_toNat_le.mp hle)
    have hgrown := Int.mul_le_mul_of_nonneg_left hpower hbase
    rw [h m, h n]
    omega
  refine ⟨h, ?_, hmonotone, hcapped, fun m n hle hsettled => ?_⟩
  · rw [h 0]
    show min (base * 1) cap = base
    omega
  · exact Int.le_antisymm (hcapped n) (hsettled ▸ hmonotone m n hle)

/-! ### Policies that can be constructed -/

/-- The policy with this backoff. -/
def Backoff.policy (b : Backoff) (delay : Int64) (bounds : Bounds) : Except Attestor.Settings.Error Policy :=
  match b with
  | .fixed => Policy.fixed delay bounds
  | .exponential cap => Policy.exponential delay cap bounds

/-- Building settings is constructing the policy of their backoff. -/
theorem Settings.build_eq (s : Settings) :
    s.build = do
      let policy ← s.backoff.policy s.delay s.bounds
      return if s.enabled then .enabled policy else .disabled := by
  unfold build
  cases s.backoff <;> rfl

namespace Policy

variable {delay cap : Int64} {bounds : Bounds} {p : Policy}

/-- A policy that can be constructed is that of settings that enable restarts. -/
theorem gives_of_policy (b : Backoff) (h : b.policy delay bounds = .ok p) :
    Settings.Gives ⟨true, delay, b, bounds⟩ p := by
  have hbuild : Settings.build ⟨true, delay, b, bounds⟩ = .ok (.enabled p) := by
    rw [Settings.build_eq]
    simp only [h]
    rfl
  obtain ⟨p', hgives, hmode⟩ := Settings.gives_of_build hbuild
  exact Mode.enabled.inj hmode ▸ hgives

theorem millis_of_fixed (h : fixed delay bounds = .ok p) (n : UInt32) : p.millis n = delay.toInt := by
  have hgives := gives_of_policy .fixed h
  cases hgives with
  | immediate zero =>
    obtain rfl : delay = 0 := zero
    rfl
  | fixed _ _ hdelay => exact hdelay
  | exponential _ _ hbackoff => cases hbackoff

theorem millis_of_zero (b : Backoff) (h : b.policy 0 bounds = .ok p) (n : UInt32) : p.millis n = 0 := by
  have himmediate := (gives_of_policy b h).isImmediate_iff.mpr rfl
  rw [millis, Policy.delay, of_decide_eq_true himmediate]
  rfl

theorem doubles_of_exponential (h : exponential delay cap bounds = .ok p) (hcap : delay ≠ 0 ∨ 0 ≤ cap) :
    Doubles p.millis delay.toInt cap.toInt := by
  have hgives := gives_of_policy (.exponential cap) h
  cases hgives with
  | immediate zero =>
    obtain rfl : delay = 0 := zero
    have hcap : 0 ≤ cap.toInt := Int64.le_iff_toInt_le.mp (hcap.resolve_left (not_not_intro rfl))
    refine .of_exact (Int.le_refl 0) hcap fun n => ?_
    show 0 = min (0 * _) cap.toInt
    omega
  | fixed _ hbackoff => cases hbackoff
  | @exponential _ base limit positive below hbackoff hdelay hcapped =>
    obtain rfl := Backoff.exponential.inj hbackoff
    refine .of_exact (Int.le_of_lt positive) (Int64.le_iff_toInt_le.mp below) fun n => ?_
    have hgrown : ((base.toNat * 2 ^ n.toNat : Nat) : Int) = delay.toInt * 2 ^ n.toNat := by
      rw [Int.natCast_mul, Int.natCast_pow, hdelay]
      rfl
    rw [millis, toNat_delay_exponential, ← hgrown, ← hcapped]
    omega

/-- **A policy waits as long as unbounded numbers say.** A fixed policy waits its delay. An exponential one waits
`delay * 2 ^ attempt` up to the cap, and so does one with a delay of zero, which is zero always; only there a negative
cap is accepted, and it is not looked at. -/
theorem delays_exact (delay cap : Int64) (bounds : Bounds) :
    (∀ p, fixed delay bounds = .ok p → ∀ n, p.millis n = delay.toInt) ∧
      ∀ p, exponential delay cap bounds = .ok p →
        (delay = 0 → ∀ n, p.millis n = 0) ∧
          (delay ≠ 0 ∨ 0 ≤ cap → Doubles p.millis delay.toInt cap.toInt) := by
  refine ⟨fun p h => millis_of_fixed h, fun p h => ⟨?_, doubles_of_exponential h⟩⟩
  rintro rfl
  exact millis_of_zero (.exponential cap) h

end Policy

/-! ### Delays near the greatest numbers -/

namespace Sample

/-- A delay that is a quarter of what the greatest cap allows: two attempts later it is at the cap, and it stays there
although the product no longer fits. -/
theorem huge_delays :
    ∃ p, Policy.exponential 0x2000000000000000 0x7fffffffffffffff ⟨1, 0x7fffffffffffffff⟩ = .ok p ∧
      Doubles p.millis (2 ^ 61) (2 ^ 63 - 1) ∧ p.millis 1 = 2 ^ 62 ∧ p.millis 2 = 2 ^ 63 - 1 ∧
        p.millis 63 = 2 ^ 63 - 1 ∧ p.millis 64 = 2 ^ 63 - 1 := by
  refine ⟨⟨0x2000000000000000, .exponential 0x7fffffffffffffff⟩, rfl, ?_, rfl, rfl, rfl, rfl⟩
  exact ((Policy.delays_exact 0x2000000000000000 0x7fffffffffffffff ⟨1, 0x7fffffffffffffff⟩).2 _ rfl).2
    (.inl (by decide))

end Sample

end Attestor.Restart
