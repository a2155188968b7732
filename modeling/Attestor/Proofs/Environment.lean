import Attestor.Proofs.Numerals
import Attestor.Proofs.Refusals
import Attestor.Settings.Verifier
import Mathlib.Data.List.Forall2

/-!
What variables make of the settings of a verifier, said without reading them.

A variable is `Given` when it is set to a text that is not blank. What it says is the whole text (`Says`), or the
number that stands in it between blank characters (`Counts`), or the default where nothing is given. Each check has its
own failures, whatever the others find (`Fails`), and the order of the checks decides which of them is reported
(`FailsFirst`).

`ofLookup_described`: blank values count for nothing; settings that are read are sound and are what the variables say;
and an error is that of the first check that fails. Only the cap of the backoff is not always kept: while restarts are
disabled it stays the default.
-/

namespace Attestor.Settings

/-! ### What a variable says -/

section Variables

variable {α : Type} {lookup : Lookup} {name : String}

/-- The variable is set to this text, and the text is not blank. -/
def Given (lookup : Lookup) (name text : String) : Prop :=
  lookup name = some text ∧ ∃ c ∈ text.toList, Text.isBlankChar c = false

/-- The text of a variable, or a default where none is given. -/
inductive Says (lookup : Lookup) (name default : String) : String → Prop
  | given {text : String} (given : Given lookup name text) : Says lookup name default text
  | absent (absent : ∀ text, ¬ Given lookup name text) : Says lookup name default default

/-- Between blank characters the text holds a number. -/
def Holds (denotes : List Char → α → Prop) (text : String) (n : α) : Prop :=
  ∃ inner, Text.Padded text inner ∧ denotes inner n

/-- The number in a variable, or a default where none is given. -/
inductive Counts (denotes : List Char → α → Prop) (lookup : Lookup) (name : String) (default : α) : α → Prop
  | given {text : String} {n : α} (given : Given lookup name text) (holds : Holds denotes text n) :
    Counts denotes lookup name default n
  | absent (absent : ∀ text, ¬ Given lookup name text) : Counts denotes lookup name default default

/-- The text of a variable that holds no number, whatever the number. -/
def Garbled (number : List Char → Prop) (lookup : Lookup) (name text : String) : Prop :=
  Given lookup name text ∧ ∀ inner, Text.Padded text inner → ¬ number inner

/-- Characters that denote a word of 64 bits. -/
def Word (cs : List Char) (n : UInt64) : Prop := Text.Unsigned cs n.toNat

/-- Characters that denote an amount of 128 bits. -/
def Amount (cs : List Char) (n : Nat) : Prop := Text.Unsigned cs n ∧ n < FeeSettings.amountLimit

/-- Characters that denote an integer of 64 bits. -/
def Integer (cs : List Char) (n : Int64) : Prop := Text.Signed cs n.toInt

theorem not_blank_iff {text : String} : Text.isBlank text = false ↔ ∃ c ∈ text.toList, Text.isBlankChar c = false := by
  rw [← Bool.not_eq_true, Text.isBlank_iff]
  simp

theorem textOf_eq_some_iff {text : String} : textOf lookup name = some text ↔ Given lookup name text := by
  rw [Given, ← not_blank_iff, textOf]
  simp only [Option.bind_eq_some_iff, Text.nonBlank, Option.ite_none_left_eq_some, Option.some.injEq,
    Bool.not_eq_true]
  constructor
  · rintro ⟨_, hlookup, hfull, rfl⟩
    exact ⟨hlookup, hfull⟩
  · rintro ⟨hlookup, hfull⟩
    exact ⟨text, hlookup, hfull, rfl⟩

theorem textOf_eq_none_iff : textOf lookup name = none ↔ ∀ text, ¬ Given lookup name text := by
  simp only [Option.eq_none_iff_forall_ne_some, ne_eq, textOf_eq_some_iff]

theorem says_textOf (lookup : Lookup) (name default : String) :
    Says lookup name default ((textOf lookup name).getD default) := by
  cases h : textOf lookup name with
  | none => exact .absent (textOf_eq_none_iff.mp h)
  | some text => exact .given (textOf_eq_some_iff.mp h)

theorem Given.unique {text text' : String} (h : Given lookup name text) (h' : Given lookup name text') :
    text = text' :=
  Option.some.inj (h.1.symm.trans h'.1)

theorem Says.eq {default text : String} (h : Says lookup name default text) :
    text = (textOf lookup name).getD default := by
  cases h with
  | given given => rw [textOf_eq_some_iff.mpr given, Option.getD_some]
  | absent absent => rw [textOf_eq_none_iff.mpr absent, Option.getD_none]

theorem Says.not_blank {default text : String} (h : Says lookup name default text)
    (hdefault : Text.isBlank default = false) : Text.isBlank text = false := by
  cases h with
  | given given => exact not_blank_iff.mpr given.2
  | absent _ => exact hdefault

/-- A reader finds the number that the characters denote, and none where they denote none. -/
def Reads (read : String → Option α) (denotes : List Char → α → Prop) : Prop :=
  ∀ s n, read s = some n ↔ denotes s.toList n

theorem reads_word : Reads Text.readUInt64 Word := fun _ _ => Text.readUInt64_iff

theorem reads_amount : Reads (Text.readNat FeeSettings.amountLimit) Amount := fun _ _ => Text.readNat_iff

theorem reads_integer : Reads Text.readInt64 Integer := fun _ _ => Text.readInt64_iff

variable {read : String → Option α} {denotes : List Char → α → Prop} {default n : α}

theorem Reads.trim_iff (h : Reads read denotes) {text : String} :
    read (Text.trim text) = some n ↔ Holds denotes text n := by
  rw [h]
  exact ⟨fun hn => ⟨_, Text.padded_iff.mpr rfl, hn⟩, fun ⟨_, hinner, hn⟩ => Text.padded_iff.mp hinner ▸ hn⟩

theorem numberOf_ok_iff (h : Reads read denotes) :
    numberOf read lookup name default = .ok n ↔ Counts denotes lookup name default n := by
  unfold numberOf
  split
  next htext =>
    have habsent := textOf_eq_none_iff.mp htext
    constructor
    · rintro ⟨⟩
      exact .absent habsent
    · intro hn
      cases hn with
      | given given _ => exact absurd given (habsent _)
      | absent _ => rfl
  next text htext =>
    have hgiven := textOf_eq_some_iff.mp htext
    have hholds : Counts denotes lookup name default n ↔ Holds denotes text n := by
      refine ⟨fun hn => ?_, .given hgiven⟩
      cases hn with
      | given given holds => exact hgiven.unique given ▸ holds
      | absent absent => exact absurd hgiven (absent _)
    rw [hholds, ← h.trim_iff]
    split
    next m hm =>
      rw [hm]
      exact ⟨fun heq => congrArg some (Except.ok.inj heq), fun heq => congrArg _ (Option.some.inj heq)⟩
    next hnone => rw [hnone]; exact ⟨nofun, nofun⟩

theorem Counts.unique (hread : Reads read denotes) {m : α} (h : Counts denotes lookup name default n)
    (h' : Counts denotes lookup name default m) : n = m :=
  Except.ok.inj (((numberOf_ok_iff hread).mpr h).symm.trans ((numberOf_ok_iff hread).mpr h'))

theorem numberOf_error_iff (h : Reads read denotes) {e : Error} :
    numberOf read lookup name default = .error e ↔
      ∃ text, Garbled (fun cs => ∃ n, denotes cs n) lookup name text ∧ e = .badVariable name text := by
  unfold numberOf
  split
  next htext =>
    exact ⟨nofun, fun ⟨text, hgarbled, _⟩ => absurd hgarbled.1 (textOf_eq_none_iff.mp htext text)⟩
  next text htext =>
    have hgiven := textOf_eq_some_iff.mp htext
    have hgarbled : (∃ text, Garbled (fun cs => ∃ n, denotes cs n) lookup name text ∧ e = .badVariable name text) ↔
        read (Text.trim text) = none ∧ e = .badVariable name text := by
      have hnone : read (Text.trim text) = none ↔ ∀ inner, Text.Padded text inner → ¬ ∃ n, denotes inner n := by
        simp only [Option.eq_none_iff_forall_ne_some, ne_eq, h.trim_iff, Holds]
        grind
      rw [hnone]
      exact ⟨fun ⟨_, ⟨hg, hbad⟩, he⟩ => hgiven.unique hg ▸ ⟨hbad, he⟩, fun ⟨hbad, he⟩ => ⟨text, ⟨hgiven, hbad⟩, he⟩⟩
    rw [hgarbled]
    split
    next m hm =>
      rw [hm]
      exact ⟨nofun, fun hbad => nomatch hbad.1⟩
    next hnone => exact ⟨fun heq => ⟨hnone, (Except.error.inj heq).symm⟩, fun hbad => congrArg _ hbad.2.symm⟩

end Variables

/-! ### What the variables say together -/

/-- The text is the name, apart from the case of ASCII letters. -/
def IgnoringCase (text name : String) : Prop :=
  List.Forall₂ (fun c d => c = d ∨ c = d.toUpper) text.toList name.toList

/-- The names of the restart modes. -/
def modeNames : List String := ["off", "disabled", "fixed", "exponential"]

/-- The restart settings that a mode stands for. Where restarts are disabled the cap is the default one. -/
inductive StandsFor : String → Int64 → Int64 → Restart.Settings → Prop
  | off {mode : String} {delay cap : Int64} (name : IgnoringCase mode "off" ∨ IgnoringCase mode "disabled") :
    StandsFor mode delay cap ⟨false, delay, .exponential Restart.Settings.defaultCap, .default⟩
  | fixed {mode : String} {delay cap : Int64} (name : IgnoringCase mode "fixed") :
    StandsFor mode delay cap ⟨true, delay, .fixed, .default⟩
  | exponential {mode : String} {delay cap : Int64} (name : IgnoringCase mode "exponential") :
    StandsFor mode delay cap ⟨true, delay, .exponential cap, .default⟩

/-- The base delay of restarts. -/
abbrev Delay (lookup : Lookup) : Int64 → Prop :=
  Counts Integer lookup "AC_VERIFIER_RESTART_DELAY_MS" Restart.Settings.defaultDelay

/-- The cap of the delay between restarts. -/
abbrev Cap (lookup : Lookup) : Int64 → Prop :=
  Counts Integer lookup "AC_VERIFIER_RESTART_MAX_DELAY_MS" Restart.Settings.defaultCap

/-- The gas that a verification may use. -/
abbrev GasLimit (lookup : Lookup) : UInt64 → Prop :=
  Counts Word lookup "AC_VERIFIER_GAS_LIMIT" FeeSettings.default.gasLimit

/-- The restart settings that the variables describe. -/
def Restarts (lookup : Lookup) (restart : Restart.Settings) : Prop :=
  ∃ mode delay cap, Says lookup "AC_VERIFIER_RESTART_MODE" "exponential" mode ∧ Delay lookup delay ∧ Cap lookup cap ∧
    StandsFor mode delay cap restart

/-- The contract that the variables name: an address wins over an alias. -/
inductive Names (lookup : Lookup) : ContractName → Prop
  | byAddress {text : String} (given : Given lookup "AC_VERIFIER_CONTRACT_ADDRESS" text) : Names lookup (.address text)
  | byAlias {text : String} (unaddressed : ∀ text, ¬ Given lookup "AC_VERIFIER_CONTRACT_ADDRESS" text)
    (given : Given lookup "AC_VERIFIER_CONTRACT_ALIAS" text) : Names lookup (.alias text)
  | byDefault (unaddressed : ∀ text, ¬ Given lookup "AC_VERIFIER_CONTRACT_ADDRESS" text)
    (unnamed : ∀ text, ¬ Given lookup "AC_VERIFIER_CONTRACT_ALIAS" text) : Names lookup default.contract

/-- The settings are what the variables say, and the defaults where they say nothing. -/
structure Described (lookup : Lookup) (s : Settings) : Prop where
  contract : Names lookup s.contract
  chainId : Says lookup "AC_VERIFIER_CHAIN_ID" default.chainId s.chainId
  denom : Says lookup "AC_VERIFIER_FEE_DENOM" FeeSettings.default.denom s.fee.denom
  gasLimit : GasLimit lookup s.fee.gasLimit
  amount : Counts Amount lookup "AC_VERIFIER_FEE_AMOUNT" FeeSettings.default.amount s.fee.amount
  shutdownTimeout : Counts Word lookup "AC_VERIFIER_SHUTDOWN_TIMEOUT_MS" default.shutdownTimeout s.shutdownTimeout
  restart : Restarts lookup s.restart
  broadcastMode : s.broadcastMode = default.broadcastMode

/-! ### Checks -/

/-- What is checked of the variables. -/
inductive Check where
  | restartDelay
  | restartCap
  | restartMode
  | gasLimit
  | feeAmount
  | shutdownTimeout
  | zeroGas
  | restartSettings
  deriving DecidableEq, Repr

/-- The checks in the order in which they are made. -/
def Check.order : List Check :=
  [.restartDelay, .restartCap, .restartMode, .gasLimit, .feeAmount, .shutdownTimeout, .zeroGas, .restartSettings]

/-- The variable whose number is checked, and the characters that are such a number. -/
def Check.number? : Check → Option (String × (List Char → Prop))
  | .restartDelay => some ("AC_VERIFIER_RESTART_DELAY_MS", fun cs => ∃ n, Integer cs n)
  | .restartCap => some ("AC_VERIFIER_RESTART_MAX_DELAY_MS", fun cs => ∃ n, Integer cs n)
  | .gasLimit => some ("AC_VERIFIER_GAS_LIMIT", fun cs => ∃ n, Word cs n)
  | .feeAmount => some ("AC_VERIFIER_FEE_AMOUNT", fun cs => ∃ n, Amount cs n)
  | .shutdownTimeout => some ("AC_VERIFIER_SHUTDOWN_TIMEOUT_MS", fun cs => ∃ n, Word cs n)
  | .restartMode | .zeroGas | .restartSettings => none

/-- How a check fails, whatever the others find. A number that cannot be read is reported with its variable and the
whole text of it. -/
inductive Fails (lookup : Lookup) : Check → Error → Prop
  | number {check : Check} {name text : String} {number : List Char → Prop}
    (checked : check.number? = some (name, number)) (garbled : Garbled number lookup name text) :
    Fails lookup check (.badVariable name text)
  | restartMode {mode : String} (named : Says lookup "AC_VERIFIER_RESTART_MODE" "exponential" mode)
    (unknown : ∀ name ∈ modeNames, ¬ IgnoringCase mode name) : Fails lookup .restartMode (.unknownRestartMode mode)
  | zeroGas (zero : GasLimit lookup 0) : Fails lookup .zeroGas (.badVariable "AC_VERIFIER_GAS_LIMIT" "0")
  | restartSettings {restart : Restart.Settings} {e : Error} (restarts : Restarts lookup restart)
    (refused : restart.Refused e) : Fails lookup .restartSettings e

/-- None of these checks fails. -/
def Passed (lookup : Lookup) (checks : List Check) : Prop :=
  ∀ check ∈ checks, ∀ e, ¬ Fails lookup check e

/-- The check fails with this error, and none of the checks before it fails. -/
def FailsFirst (lookup : Lookup) (check : Check) (e : Error) : Prop :=
  Fails lookup check e ∧ ∃ before after, Check.order = before ++ check :: after ∧ Passed lookup before

/-! ### Modes -/

theorem toNat_toLower (c : Char) :
    c.toLower.toNat = if 65 ≤ c.toNat ∧ c.toNat ≤ 90 then c.toNat + 32 else c.toNat := by
  have hval : c.val.toNat = c.toNat := rfl
  unfold Char.toLower
  split
  next h =>
    rw [ge_iff_le, UInt32.le_iff_toNat_le, UInt32.le_iff_toNat_le, hval] at h
    have hbounds : 65 ≤ c.toNat ∧ c.toNat ≤ 90 := h
    change (c.val + 32).toNat = _
    rw [UInt32.toNat_add, hval, if_pos hbounds]
    change (c.toNat + 32) % 2 ^ 32 = _
    omega
  next h =>
    rw [ge_iff_le, UInt32.le_iff_toNat_le, UInt32.le_iff_toNat_le, hval] at h
    exact (if_neg h).symm

theorem toNat_toUpper {c : Char} (hc : 97 ≤ c.toNat ∧ c.toNat ≤ 122) : c.toUpper.toNat = c.toNat - 32 := by
  have hval : c.val.toNat = c.toNat := rfl
  have h : 'a'.val ≤ c.val ∧ c.val ≤ 'z'.val := by
    rw [UInt32.le_iff_toNat_le, UInt32.le_iff_toNat_le, hval]
    exact hc
  unfold Char.toUpper
  rw [dif_pos h]
  change (c.val + ('A'.val - 'a'.val)).toNat = _
  rw [UInt32.toNat_add, hval]
  change (c.toNat + 0xffffffe0) % 2 ^ 32 = _
  omega

/-- A small letter is what it and its capital are in small letters, and nothing else. -/
theorem char_toLower_eq_iff {c d : Char} (hd : 97 ≤ d.toNat ∧ d.toNat ≤ 122) :
    c.toLower = d ↔ c = d ∨ c = d.toUpper := by
  rw [← Char.toNat_inj, ← Char.toNat_inj, ← Char.toNat_inj, toNat_toLower, toNat_toUpper hd]
  split <;> omega

theorem toLower_eq_iff {text name : String} (hname : ∀ d ∈ name.toList, 97 ≤ d.toNat ∧ d.toNat ≤ 122) :
    text.toLower = name ↔ IgnoringCase text name := by
  rw [show text.toLower = text.map Char.toLower from rfl, ← String.toList_inj, String.toList_map, IgnoringCase]
  generalize text.toList = cs, name.toList = ds at hname
  induction ds generalizing cs with
  | nil => simp
  | cons d ds ih =>
    cases cs with
    | nil => simp
    | cons c cs =>
      rw [List.map_cons, List.cons.injEq, List.forall₂_cons, ih cs fun d hd => hname d (List.mem_cons_of_mem _ hd),
        char_toLower_eq_iff (hname d List.mem_cons_self)]

theorem toLower_eq_iff_of_mem {text name : String} (hname : name ∈ modeNames) :
    text.toLower = name ↔ IgnoringCase text name := by
  have hletters : modeNames.all (·.toList.all fun d => decide (97 ≤ d.toNat ∧ d.toNat ≤ 122)) = true := by decide
  refine toLower_eq_iff fun d hd => of_decide_eq_true ?_
  exact List.all_eq_true.mp (List.all_eq_true.mp hletters name hname) d hd

section Modes

variable {mode : String} {delay cap : Int64} {restart : Restart.Settings} {e : Error}

theorem restartOf_ok_iff : restartOf mode delay cap = .ok restart ↔ StandsFor mode delay cap restart := by
  constructor
  · intro h
    simp only [restartOf] at h
    split_ifs at h with hoff hfixed hexponential <;> cases h
    · exact .off (hoff.imp (toLower_eq_iff_of_mem (by decide)).mp (toLower_eq_iff_of_mem (by decide)).mp)
    · exact .fixed ((toLower_eq_iff_of_mem (by decide)).mp hfixed)
    · exact .exponential ((toLower_eq_iff_of_mem (by decide)).mp hexponential)
  · rintro (hname | hname | hname)
    · have hoff : mode.toLower = "off" ∨ mode.toLower = "disabled" :=
        hname.imp (toLower_eq_iff_of_mem (by decide)).mpr (toLower_eq_iff_of_mem (by decide)).mpr
      exact if_pos hoff
    · have hfixed : mode.toLower = "fixed" := (toLower_eq_iff_of_mem (by decide)).mpr hname
      simp only [restartOf, hfixed]
      rfl
    · have hexponential : mode.toLower = "exponential" := (toLower_eq_iff_of_mem (by decide)).mpr hname
      simp only [restartOf, hexponential]
      rfl

theorem restartOf_error_iff :
    restartOf mode delay cap = .error e ↔
      (∀ name ∈ modeNames, ¬ IgnoringCase mode name) ∧ e = .unknownRestartMode mode := by
  have hnames : (∀ name ∈ modeNames, ¬ IgnoringCase mode name) ↔ ∀ name ∈ modeNames, mode.toLower ≠ name :=
    forall₂_congr fun name hname => not_congr (toLower_eq_iff_of_mem hname).symm
  rw [hnames]
  simp only [modeNames, List.forall_mem_cons, List.not_mem_nil, restartOf]
  split_ifs with hoff hfixed hexponential
  · simp only [false_iff]
    exact fun h => absurd hoff (not_or_intro h.1.1 h.1.2.1)
  · simp only [false_iff]
    exact fun h => absurd hfixed h.1.2.2.1
  · simp only [false_iff]
    exact fun h => absurd hexponential h.1.2.2.2.1
  · rw [not_or] at hoff
    refine ⟨fun h => ⟨⟨hoff.1, hoff.2, hfixed, hexponential, ?_⟩, (Except.error.inj h).symm⟩, fun h => h.2 ▸ rfl⟩
    exact fun _ hname => absurd hname id

end Modes

/-! ### What the checks come to -/

section Checks

variable {lookup : Lookup} {restart : Restart.Settings} {delay cap : Int64} {e : Error}

theorem Passed.concat {checks : List Check} {check : Check} (h : Passed lookup checks)
    (hcheck : ∀ e, ¬ Fails lookup check e) : Passed lookup (checks ++ [check]) := by
  intro c hc
  rcases List.mem_append.mp hc with hc | hc
  · exact h c hc
  · rw [List.mem_singleton.mp hc]
    exact hcheck

theorem fails_number {α : Type} {check : Check} {name : String} {denotes : List Char → α → Prop}
    {read : String → Option α} (hcheck : check.number? = some (name, fun cs => ∃ n, denotes cs n))
    (hread : Reads read denotes) (default : α) :
    Fails lookup check e ↔ numberOf read lookup name default = .error e := by
  rw [numberOf_error_iff hread]
  constructor
  · intro h
    cases h with
    | number checked garbled =>
      obtain ⟨rfl, rfl⟩ := Prod.mk.inj (Option.some.inj (checked.symm.trans hcheck))
      exact ⟨_, garbled, rfl⟩
    | restartMode _ _ => cases hcheck
    | zeroGas _ => cases hcheck
    | restartSettings _ _ => cases hcheck
  · rintro ⟨_, garbled, rfl⟩
    exact .number hcheck garbled

theorem fails_restartMode (delay cap : Int64) :
    Fails lookup .restartMode e ↔
      restartOf ((textOf lookup "AC_VERIFIER_RESTART_MODE").getD "exponential") delay cap = .error e := by
  rw [restartOf_error_iff]
  constructor
  · intro h
    cases h with
    | number checked _ => cases checked
    | restartMode named unknown => exact named.eq ▸ ⟨unknown, rfl⟩
  · rintro ⟨unknown, rfl⟩
    exact .restartMode (says_textOf _ _ _) unknown

theorem fails_zeroGas {gasLimit : UInt64} (h : GasLimit lookup gasLimit) :
    Fails lookup .zeroGas e ↔ gasLimit = 0 ∧ e = .badVariable gasLimitVariable "0" := by
  constructor
  · intro hfails
    cases hfails with
    | number checked _ => cases checked
    | zeroGas zero => exact ⟨h.unique reads_word zero, rfl⟩
  · rintro ⟨rfl, rfl⟩
    exact .zeroGas h

/-- What the variables describe is what is built from them. -/
theorem Restarts.eq (h : Restarts lookup restart) (hdelay : Delay lookup delay) (hcap : Cap lookup cap) :
    restartOf ((textOf lookup "AC_VERIFIER_RESTART_MODE").getD "exponential") delay cap = .ok restart := by
  obtain ⟨mode, delay', cap', hmode, hdelay', hcap', hstands⟩ := h
  obtain rfl := hmode.eq
  obtain rfl := hdelay.unique reads_integer hdelay'
  obtain rfl := hcap.unique reads_integer hcap'
  exact restartOf_ok_iff.mpr hstands

theorem Restarts.unique {restart' : Restart.Settings} (h : Restarts lookup restart) (h' : Restarts lookup restart') :
    restart = restart' := by
  obtain ⟨_, delay, cap, _, hdelay, hcap, _⟩ := id h
  exact Except.ok.inj ((h.eq hdelay hcap).symm.trans (h'.eq hdelay hcap))

theorem fails_restartSettings (h : Restarts lookup restart) :
    Fails lookup .restartSettings e ↔ restart.build = .error e := by
  rw [Restart.Settings.build_error_iff]
  constructor
  · intro hfails
    cases hfails with
    | number checked _ => cases checked
    | restartSettings restarts refused => exact h.unique restarts ▸ refused
  · exact .restartSettings h

theorem Names.not_blank {contract : ContractName} (h : Names lookup contract) :
    Text.isBlank contract.text = false := by
  cases h with
  | byAddress given => exact not_blank_iff.mpr given.2
  | byAlias _ given => exact not_blank_iff.mpr given.2
  | byDefault _ _ => decide

/-- No text is blank, so the gas limit and the restart settings decide. -/
theorem validate_described {s : Settings} (hcontract : Names lookup s.contract)
    (hchain : Says lookup "AC_VERIFIER_CHAIN_ID" default.chainId s.chainId)
    (hdenom : Says lookup "AC_VERIFIER_FEE_DENOM" FeeSettings.default.denom s.fee.denom) :
    s.validate = if s.fee.gasLimit = 0 then .error (.badVariable gasLimitVariable "0") else s.restart.build := by
  simp only [validate, hcontract.not_blank, hchain.not_blank (by decide), hdenom.not_blank (by decide),
    Bool.false_eq_true, if_false]

theorem contractOf_names (lookup : Lookup) : Names lookup (contractOf lookup) := by
  unfold contractOf
  split
  next haddress => exact .byAddress (textOf_eq_some_iff.mp haddress)
  next haddress halias => exact .byAlias (textOf_eq_none_iff.mp haddress) (textOf_eq_some_iff.mp halias)
  next haddress halias => exact .byDefault (textOf_eq_none_iff.mp haddress) (textOf_eq_none_iff.mp halias)

/-- An answer after these checks: either all checks have passed and the answer is sound, or it is the error of the
first that fails. -/
def Settled {β : Type} (lookup : Lookup) (sound : β → Prop) : Except Error β → Prop
  | .ok b => sound b ∧ Passed lookup Check.order
  | .error e => ∃ check, FailsFirst lookup check e

/-- One check more: its error is the answer, or the rest decides. -/
theorem Settled.bind {α β : Type} {sound : β → Prop} {before after : List Check} {check : Check} {x : Except Error α}
    {f : α → Except Error β} (horder : Check.order = before ++ check :: after) (hbefore : Passed lookup before)
    (hfails : ∀ e, Fails lookup check e ↔ x = .error e)
    (hrest : ∀ a, x = .ok a → Passed lookup (before ++ [check]) → Settled lookup sound (f a)) :
    Settled lookup sound (x >>= f) := by
  cases hx : x with
  | error e => exact ⟨check, (hfails e).mpr hx, before, after, horder, hbefore⟩
  | ok a => exact hrest a hx (hbefore.concat fun e he => absurd (hx.symm.trans ((hfails e).mp he)) nofun)

/-- The first check that fails decides; where none fails, the settings are what the variables say. -/
theorem ofLookup_settled (lookup : Lookup) :
    Settled lookup (fun s => Described lookup s ∧ ∃ mode, s.validate = .ok mode) (ofLookup lookup) := by
  have hnone : Passed lookup [] := nofun
  refine Settled.bind rfl hnone (fun _ => fails_number rfl reads_integer _) fun delay hdelay hpassed => ?_
  refine Settled.bind rfl hpassed (fun _ => fails_number rfl reads_integer _) fun cap hcap hpassed => ?_
  refine Settled.bind rfl hpassed (fun _ => fails_restartMode delay cap) fun restart hrestart hpassed => ?_
  refine Settled.bind rfl hpassed (fun _ => fails_number rfl reads_word _) fun gasLimit hgas hpassed => ?_
  refine Settled.bind rfl hpassed (fun _ => fails_number rfl reads_amount _) fun amount hamount hpassed => ?_
  refine Settled.bind rfl hpassed (fun _ => fails_number rfl reads_word _) fun timeout htimeout hpassed => ?_
  let s : Settings := {
    contract := contractOf lookup
    chainId := (textOf lookup "AC_VERIFIER_CHAIN_ID").getD default.chainId
    fee := ⟨gasLimit, amount, (textOf lookup "AC_VERIFIER_FEE_DENOM").getD FeeSettings.default.denom⟩
    restart
    broadcastMode := default.broadcastMode
    shutdownTimeout := timeout }
  have hgas : GasLimit lookup gasLimit := (numberOf_ok_iff reads_word).mp hgas
  have hrestarts : Restarts lookup restart := ⟨_, delay, cap, says_textOf _ _ _,
    (numberOf_ok_iff reads_integer).mp hdelay, (numberOf_ok_iff reads_integer).mp hcap, restartOf_ok_iff.mp hrestart⟩
  have hdescribed : Described lookup s := {
    contract := contractOf_names lookup
    chainId := says_textOf _ _ _
    denom := says_textOf _ _ _
    gasLimit := hgas
    amount := (numberOf_ok_iff reads_amount).mp hamount
    shutdownTimeout := (numberOf_ok_iff reads_word).mp htimeout
    restart := hrestarts
    broadcastMode := rfl }
  have hvalidate := validate_described hdescribed.contract hdescribed.chainId hdescribed.denom
  change Settled lookup _ (discard s.validate >>= fun _ => .ok s)
  by_cases hzero : gasLimit = 0
  · rw [hvalidate, if_pos hzero]
    exact ⟨.zeroGas, (fails_zeroGas hgas).mpr ⟨hzero, rfl⟩, _, _, rfl, hpassed⟩
  · rw [if_neg hzero] at hvalidate
    have hpassed := hpassed.concat fun e he => hzero ((fails_zeroGas hgas).mp he).1
    cases hbuild : restart.build with
    | error e =>
      rw [hvalidate, hbuild]
      exact ⟨.restartSettings, (fails_restartSettings hrestarts).mpr hbuild, _, _, rfl, hpassed⟩
    | ok mode =>
      have hpassed := hpassed.concat fun e he =>
        absurd (hbuild.symm.trans ((fails_restartSettings hrestarts).mp he)) nofun
      rw [hvalidate, hbuild]
      exact ⟨⟨hdescribed, mode, hvalidate.trans hbuild⟩, hpassed⟩

end Checks

/-! ### The settings that are read -/

section Read

variable {lookup : Lookup} {e : Error}

theorem passed_order_iff : Passed lookup Check.order ↔ ∀ check e, ¬ Fails lookup check e := by
  have hall : ∀ check, check ∈ Check.order := by
    rintro (_ | _) <;> decide
  exact ⟨fun h check => h check (hall check), fun h check _ => h check⟩

theorem accepted_iff : (∃ s, ofLookup lookup = .ok s) ↔ ∀ check e, ¬ Fails lookup check e := by
  have h := ofLookup_settled lookup
  rw [← passed_order_iff]
  cases hread : ofLookup lookup with
  | ok s =>
    rw [hread] at h
    exact ⟨fun _ => h.2, fun _ => ⟨s, rfl⟩⟩
  | error e =>
    rw [hread] at h
    obtain ⟨check, hfails, before, after, horder, -⟩ := h
    refine ⟨nofun, fun hpassed => absurd hfails (hpassed check ?_ e)⟩
    rw [horder]
    exact List.mem_append_right _ List.mem_cons_self

/-- The contract has a name and no text is blank, so no check reports either. -/
theorem Fails.ne_missing {check : Check} (h : Fails lookup check e) :
    e ≠ .missingContract ∧ ∀ field, e ≠ .blank field := by
  cases h with
  | number _ _ => exact ⟨nofun, nofun⟩
  | restartMode _ _ => exact ⟨nofun, nofun⟩
  | zeroGas _ => exact ⟨nofun, nofun⟩
  | restartSettings _ refused => cases refused <;> exact ⟨nofun, nofun⟩

/-- The other lookup is the same, apart from blank values that are absent there. -/
def Clears (lookup other : Lookup) : Prop :=
  ∀ name, other name = lookup name ∨
    other name = none ∧ ∃ text, lookup name = some text ∧ ∀ c ∈ text.toList, Text.isBlankChar c = true

theorem ofLookup_clears {other : Lookup} (h : Clears lookup other) : ofLookup other = ofLookup lookup := by
  have htext : textOf other = textOf lookup := by
    funext name
    rcases h name with hsame | ⟨hnone, text, htext, hblank⟩
    · rw [textOf, hsame, textOf]
    · rw [textOf, textOf, hnone, htext, Option.bind_some, Text.nonBlank, if_pos (Text.isBlank_iff.mpr hblank)]
      rfl
  simp only [ofLookup, numberOf, contractOf, htext]

/-- The cap is what its variable says, unless restarts are disabled and it says something else than the default. -/
theorem Restarts.cap_iff {restart : Restart.Settings} (h : Restarts lookup restart) :
    ∃ cap, Cap lookup cap ∧
      ((∀ kept, restart.backoff = .exponential kept → kept = cap) ↔
        restart.enabled = true ∨ cap = Restart.Settings.defaultCap) := by
  obtain ⟨mode, delay, cap, -, -, hcap, hstands⟩ := h
  refine ⟨cap, hcap, ?_⟩
  cases hstands with
  | off _ =>
    refine ⟨fun hkept => .inr (hkept _ rfl).symm, fun heq kept hkept => ?_⟩
    obtain rfl : cap = Restart.Settings.defaultCap := heq.resolve_left nofun
    exact (Restart.Backoff.exponential.inj hkept).symm
  | fixed _ => exact ⟨fun _ => .inl rfl, fun _ => nofun⟩
  | exponential _ => exact ⟨fun _ => .inl rfl, fun _ kept hkept => (Restart.Backoff.exponential.inj hkept).symm⟩

/-- What variables make of the settings. Blank values count for nothing. Settings that are read pass their checks and
are what the variables say, with one exception: while restarts are disabled the cap of the backoff is the default,
whatever its variable says. An error is that of the first check that fails, and never that the contract has no name or
that a text is blank. -/
theorem ofLookup_described (lookup : Lookup) :
    (∀ other, Clears lookup other → ofLookup other = ofLookup lookup) ∧
    (∀ s, ofLookup lookup = .ok s → Described lookup s ∧ (∃ mode, s.validate = .ok mode) ∧
      (∀ check e, ¬ Fails lookup check e) ∧
      ∃ cap, Cap lookup cap ∧
        ((∀ kept, s.restart.backoff = .exponential kept → kept = cap) ↔
          s.restart.enabled = true ∨ cap = Restart.Settings.defaultCap)) ∧
    ∀ e, ofLookup lookup = .error e →
      (∃ check, FailsFirst lookup check e) ∧ e ≠ .missingContract ∧ ∀ field, e ≠ .blank field := by
  have hsettled := ofLookup_settled lookup
  refine ⟨fun other => ofLookup_clears, fun s hs => ?_, fun e he => ?_⟩
  · rw [hs] at hsettled
    obtain ⟨⟨hdescribed, hvalid⟩, -⟩ := hsettled
    exact ⟨hdescribed, hvalid, accepted_iff.mp ⟨s, hs⟩, hdescribed.restart.cap_iff⟩
  · rw [he] at hsettled
    obtain ⟨check, hfirst⟩ := hsettled
    exact ⟨⟨check, hfirst⟩, hfirst.1.ne_missing⟩

end Read

namespace Sample

/-- Restarts are off, and the cap of the backoff is given. -/
def capped : Lookup
  | "AC_VERIFIER_RESTART_MODE" => some "off"
  | "AC_VERIFIER_RESTART_MAX_DELAY_MS" => some "5000"
  | _ => none

/-- The cap that is given is not the one that the settings have. -/
theorem cap_dropped :
    Cap capped 5000 ∧ ∃ s, ofLookup capped = .ok s ∧ s.restart.backoff = .exponential Restart.Settings.defaultCap := by
  refine ⟨(numberOf_ok_iff reads_integer).mp (by decide), { default with restart := .disabled }, ?_, rfl⟩
  decide +kernel

end Sample

end Attestor.Settings
