import Attestor.Proofs.Environment

/-!
Turning restarts off, and what it does to variables that were accepted.

The modes `off` and `exponential` differ in the cap that the base delay is checked against. With restarts on it is the
cap of its variable; with restarts off it is the default. `off_accepted_iff`: the two modes accept the same variables
exactly if these caps agree about the delay, where it has passed every other check.
-/

namespace Attestor.Settings

/-- The variable that names the restart mode. -/
def modeVariable : String := "AC_VERIFIER_RESTART_MODE"

/-- The variables with this restart mode. -/
def withMode (lookup : Lookup) (mode : String) : Lookup := fun name =>
  if name = modeVariable then some mode else lookup name

/-- The checks in which the mode plays no part. -/
def Check.modeless : List Check :=
  [.restartDelay, .restartCap, .gasLimit, .feeAmount, .shutdownTimeout, .zeroGas]

/-! ### Checks in which the mode plays no part -/

section Modeless

variable {lookup other : Lookup} {name : String}

theorem withMode_of_ne {mode : String} (hname : name ≠ modeVariable) : withMode lookup mode name = lookup name :=
  if_neg hname

theorem Given.congr {text : String} (hsame : other name = lookup name) (h : Given lookup name text) :
    Given other name text :=
  ⟨hsame.trans h.1, h.2⟩

theorem Counts.congr {α : Type} {denotes : List Char → α → Prop} {default n : α} (hsame : other name = lookup name)
    (h : Counts denotes lookup name default n) : Counts denotes other name default n := by
  cases h with
  | given given holds => exact .given (given.congr hsame) holds
  | absent absent => exact .absent fun text hgiven => absent text (hgiven.congr hsame.symm)

theorem Check.modeless_of_number {check : Check} {v : String × (List Char → Prop)} (h : check.number? = some v) :
    check ∈ Check.modeless := by
  cases check <;> first | decide | cases h

/-- These checks read other variables only. -/
theorem Fails.congr {check : Check} {e : Error} (hsame : ∀ name, name ≠ modeVariable → other name = lookup name)
    (hcheck : check ∈ Check.modeless) (h : Fails lookup check e) : Fails other check e := by
  cases h with
  | @number _ name _ _ checked garbled =>
    have hname : name ≠ modeVariable := by
      cases check <;> cases checked <;> decide
    exact .number checked ⟨garbled.1.congr (hsame name hname), garbled.2⟩
  | restartMode _ _ => exact absurd hcheck (by decide)
  | zeroGas zero => exact .zeroGas (zero.congr (hsame _ (by decide)))
  | restartSettings _ _ => exact absurd hcheck (by decide)

theorem fails_withMode {mode : String} {check : Check} {e : Error} (hcheck : check ∈ Check.modeless) :
    Fails (withMode lookup mode) check e ↔ Fails lookup check e :=
  ⟨.congr (fun _ hname => (withMode_of_ne hname).symm) hcheck, .congr (fun _ => withMode_of_ne) hcheck⟩

end Modeless

/-! ### Checks in which it does -/

variable {lookup : Lookup} {mode : String}

theorem textOf_withMode (hmode : Text.isBlank mode = false) : textOf (withMode lookup mode) modeVariable = some mode :=
  textOf_eq_some_iff.mpr ⟨if_pos rfl, not_blank_iff.mp hmode⟩

/-- A mode that stands for some settings leaves the numbers to decide. -/
theorem accepted_withMode_iff (settings : Int64 → Int64 → Restart.Settings) (hblank : Text.isBlank mode = false)
    (hmode : ∀ delay cap, restartOf mode delay cap = .ok (settings delay cap)) :
    (∃ s, ofLookup (withMode lookup mode) = .ok s) ↔
      Passed lookup Check.modeless ∧
        ∀ delay cap, Delay lookup delay → Cap lookup cap → ∀ e, ¬ (settings delay cap).Refused e := by
  have htext : textOf (withMode lookup mode) modeVariable = some mode := textOf_withMode hblank
  have hdelay : ∀ {delay}, Delay (withMode lookup mode) delay ↔ Delay lookup delay :=
    ⟨.congr (withMode_of_ne (by decide)).symm, .congr (withMode_of_ne (by decide))⟩
  have hcap : ∀ {cap}, Cap (withMode lookup mode) cap ↔ Cap lookup cap :=
    ⟨.congr (withMode_of_ne (by decide)).symm, .congr (withMode_of_ne (by decide))⟩
  rw [accepted_iff]
  constructor
  · intro h
    refine ⟨fun check hcheck e he => h check e ((fails_withMode hcheck).mpr he), fun delay cap hd hc e he => ?_⟩
    refine h .restartSettings e (.restartSettings ⟨mode, delay, cap, ?_, hdelay.mpr hd, hcap.mpr hc, ?_⟩ he)
    · exact .given (textOf_eq_some_iff.mp htext)
    · exact restartOf_ok_iff.mp (hmode delay cap)
  · rintro ⟨hpassed, hsettings⟩ check e he
    by_cases hcheck : check ∈ Check.modeless
    · exact hpassed check hcheck e ((fails_withMode hcheck).mp he)
    cases he with
    | number checked _ => exact hcheck (Check.modeless_of_number checked)
    | restartMode named unknown =>
      obtain rfl := named.eq.trans (congrArg (Option.getD · _) htext)
      exact absurd ((hmode 0 0).symm.trans (restartOf_error_iff.mpr ⟨unknown, rfl⟩)) nofun
    | zeroGas _ => exact hcheck (by decide)
    | restartSettings restarts refused =>
      obtain ⟨_, delay, cap, -, hd, hc, -⟩ := id restarts
      have hrestart := restarts.eq hd hc
      change restartOf ((textOf _ modeVariable).getD _) delay cap = _ at hrestart
      rw [htext, Option.getD_some, hmode] at hrestart
      exact hsettings delay cap (hdelay.mp hd) (hcap.mp hc) _ (Except.ok.inj hrestart ▸ refused)

/-- Under the default bounds an exponential backoff is sound when its delay is zero or within the bounds and the cap. -/
theorem not_refused_exponential_iff {enabled : Bool} {delay cap : Int64} :
    (∀ e, ¬ Restart.Settings.Refused ⟨enabled, delay, .exponential cap, .default⟩ e) ↔
      (delay ≠ 0 → Restart.Bounds.default.Admits delay ∧ delay ≤ cap) := by
  have hsound : Restart.Bounds.default.Sound := by
    constructor <;> decide
  rw [Restart.Settings.not_refused_iff]
  constructor
  · rintro ⟨-, hdelay⟩ hnonzero
    obtain ⟨hinside, hcap⟩ := hdelay.resolve_left hnonzero
    exact ⟨hinside, hcap cap rfl⟩
  · intro h
    refine ⟨hsound, or_iff_not_imp_left.mpr fun hnonzero => ⟨(h hnonzero).1, ?_⟩⟩
    rintro _ ⟨⟩
    exact (h hnonzero).2

theorem IgnoringCase.refl (name : String) : IgnoringCase name name :=
  List.forall₂_same.mpr fun _ _ => .inl rfl

theorem restartOf_off (delay cap : Int64) :
    restartOf "off" delay cap = .ok ⟨false, delay, .exponential Restart.Settings.defaultCap, .default⟩ :=
  restartOf_ok_iff.mpr (.off (.inl (.refl _)))

theorem restartOf_exponential (delay cap : Int64) :
    restartOf "exponential" delay cap = .ok ⟨true, delay, .exponential cap, .default⟩ :=
  restartOf_ok_iff.mpr (.exponential (.refl _))

/-- A number whose check passes is there. -/
theorem exists_counts {α : Type} {check : Check} {name : String} {denotes : List Char → α → Prop}
    {read : String → Option α} (hcheck : check.number? = some (name, fun cs => ∃ n, denotes cs n))
    (hread : Reads read denotes) (default : α) (hpassed : ∀ e, ¬ Fails lookup check e) :
    ∃ n, Counts denotes lookup name default n := by
  cases h : numberOf read lookup name default with
  | error e => exact absurd ((fails_number hcheck hread default).mpr h) (hpassed e)
  | ok n => exact ⟨n, (numberOf_ok_iff hread).mp h⟩

/-- The variables have one delay and one cap. -/
theorem forall_numbers_iff {delay cap : Int64} (hdelay : Delay lookup delay) (hcap : Cap lookup cap)
    {p : Int64 → Int64 → Prop} : (∀ delay cap, Delay lookup delay → Cap lookup cap → p delay cap) ↔ p delay cap := by
  refine ⟨fun h => h delay cap hdelay hcap, fun h delay' cap' hdelay' hcap' => ?_⟩
  rwa [← hdelay.unique reads_integer hdelay', ← hcap.unique reads_integer hcap']

/-- Off and exponential accept the same variables exactly if the cap that is given and the default cap agree about the
delay, where everything else is in order. -/
theorem off_accepted_iff (lookup : Lookup) :
    ((∃ s, ofLookup (withMode lookup "off") = .ok s) ↔ ∃ s, ofLookup (withMode lookup "exponential") = .ok s) ↔
      ∀ delay cap, Passed lookup Check.modeless → Delay lookup delay → Cap lookup cap → delay ≠ 0 →
        Restart.Bounds.default.Admits delay → (delay ≤ cap ↔ delay ≤ Restart.Settings.defaultCap) := by
  rw [accepted_withMode_iff _ (by decide) restartOf_off, accepted_withMode_iff _ (by decide) restartOf_exponential]
  simp only [not_refused_exponential_iff]
  constructor
  · intro h delay cap hpassed hdelay hcap hnonzero hinside
    rw [forall_numbers_iff hdelay hcap, forall_numbers_iff hdelay hcap] at h
    have hcaps := and_congr_right_iff.mp h hpassed
    exact ⟨fun hcap => ((hcaps.mpr fun _ => ⟨hinside, hcap⟩) hnonzero).2,
      fun hcap => ((hcaps.mp fun _ => ⟨hinside, hcap⟩) hnonzero).2⟩
  · intro h
    refine and_congr_right fun hpassed => ?_
    obtain ⟨delay, hdelay⟩ := exists_counts rfl reads_integer Restart.Settings.defaultDelay
      (hpassed .restartDelay (by decide))
    obtain ⟨cap, hcap⟩ := exists_counts rfl reads_integer Restart.Settings.defaultCap
      (hpassed .restartCap (by decide))
    rw [forall_numbers_iff hdelay hcap, forall_numbers_iff hdelay hcap]
    have hcaps := h delay cap hpassed hdelay hcap
    exact forall_congr' fun hnonzero => and_congr_right fun hinside => (hcaps hnonzero hinside).symm

namespace Sample

/-- A base delay above the cap that is given with it. -/
def inverted : Lookup
  | "AC_VERIFIER_RESTART_DELAY_MS" => some "1000"
  | "AC_VERIFIER_RESTART_MAX_DELAY_MS" => some "500"
  | _ => none

/-- A base delay above the default cap, and a cap above both. -/
def raised : Lookup
  | "AC_VERIFIER_RESTART_DELAY_MS" => some "400000"
  | "AC_VERIFIER_RESTART_MAX_DELAY_MS" => some "600000"
  | _ => none

/-- A cap that is too low is found out only once restarts are turned on, and one that is high enough is accepted only
then. -/
theorem off_misjudges_cap :
    ((∃ s, ofLookup (withMode inverted "off") = .ok s) ∧
      ofLookup (withMode inverted "exponential") = .error (.backoffCap 1000 500)) ∧
    ofLookup (withMode raised "off") = .error (.backoffCap 400000 300000) ∧
      ∃ s, ofLookup (withMode raised "exponential") = .ok s := by
  refine ⟨⟨⟨{ default with restart := .disabled }, ?_⟩, ?_⟩, ?_,
    { default with restart := .exponential 400000 600000 }, ?_⟩ <;> decide +kernel

end Sample

end Attestor.Settings
