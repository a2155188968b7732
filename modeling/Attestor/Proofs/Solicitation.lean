import Attestor.Proofs.Discipline
import Attestor.Proofs.Provenance
import Attestor.Service.Assembly
import Mathlib.Data.List.NodupEquivFin

/-!
No unsolicited transactions. While an engine lives, moves are made, and the ledger, the block source and the asset
verifier may be changed from outside between any two of them. Each transaction that it broadcasts belongs to a
verification of its own, and that was queued on an `Occasion`: an onboarding event of the watched contract was
delivered, it names this verifier, its scope was found pending on the ledger, and the asset was retrieved and
decided about without fault, one after the other (`broadcasts_solicited`).
-/

namespace Attestor

open Chain (Ledger SignedTransaction)
open Contract (Event Verification)
open Handler (Effect)

variable {σ ρ π : Type}

/-! ### What is known of the events that handlers get -/

namespace Contract.Event

theorem eventType_of_classify {raw : Chain.Event} {e : Event} (h : classify raw = some e) :
    raw.eventType = "wasm" := by
  unfold classify at h
  split at h
  · cases h
  next htype => exact not_not.mp htype

/-- The value of a contract attribute is never blank. -/
theorem isBlank_of_value? {e : Event} {key : Key} {text : String} (h : e.value? key = some text) :
    Text.isBlank text = false := by
  obtain ⟨found, -, hfound⟩ := Option.bind_eq_some_iff.mp h
  unfold Text.nonBlank at hfound
  split at hfound
  · cases hfound
  next hblank =>
    obtain rfl := Option.some.inj hfound
    exact Bool.eq_false_iff.mpr hblank

end Contract.Event

namespace Service

/-! ### Occasions -/

/-- The moments of an onboarding, and what came up at them. -/
structure Occasion where
  /-- The event was delivered. -/
  delivered : Nat
  move : Move
  raw : Chain.Event
  scope : String
  type : String
  /-- The scope was looked up. -/
  inspected : Nat
  /-- The asset was retrieved. -/
  retrieved : Nat
  asset : Asset
  /-- The decision was made. -/
  verified : Nat
  /-- The decision was queued. -/
  queued : Nat

/-- On this occasion the verification was queued, as the one at this place of the queue's log. -/
structure Solicits {S : Service Ledger σ ρ π} (H : S.History) (o : Occasion) (place : Nat)
    (v : Verification) : Prop where
  order : o.delivered < o.inspected ∧ o.inspected < o.retrieved ∧ o.retrieved < o.verified ∧
    o.verified < o.queued
  move : H.move o.delivered = some o.move
  delivers : o.raw ∈ S.delivers (H.engine o.delivered) o.move
  wasm : o.raw.eventType = "wasm"
  classified : Event.classify o.raw = some v.event
  kind : v.event.kind = some .onboardAsset
  contract : v.event.contractAddress = some S.driver.router.contract
  verifier : v.event.verifierAddress = some S.driver.router.signer.address
  scope : v.event.scopeAddress = some o.scope ∧ Text.isBlank o.scope = false
  type : v.event.assetType = some o.type ∧ Text.isBlank o.type = false
  pending : (H.past o.inspected).chain.scopes S.driver.router.contract o.scope = some v.scope ∧
    v.scope.status = .pending
  retrieves : S.collaborators.assets.retrieve v.scope (H.past o.retrieved).assets =
    (.value (.ok o.asset), (H.past (o.retrieved + 1)).assets)
  verifies : S.collaborators.assets.verify v.scope o.asset (H.past o.verified).assets =
    (.value (.ok v.decision), (H.past (o.verified + 1)).assets)
  queues : (H.past o.queued).outbound.log.length = place ∧
    (H.past (o.queued + 1)).outbound.log = (H.past o.queued).outbound.log ++ [v]

theorem scopes_of_scopeRecord {contract scope : String} {l l' : Ledger} {record : Contract.ScopeRecord}
    (h : Ledger.client.scopeRecord contract scope l = (.value (.ok record), l')) :
    l.scopes contract scope = some record := by
  have hanswer : l.scopeRecord contract scope = .ok record :=
    Answer.value.inj (congrArg Prod.fst h)
  unfold Ledger.scopeRecord at hanswer
  split at hanswer
  next found hfound =>
    rw [hfound, Except.ok.inj hanswer]
  next => cases hanswer

/-- With the default handlers over a ledger, a verification that is accounted for was queued on an occasion. -/
theorem History.Accounts.solicits {S : Service Ledger σ ρ π} {H : S.History} {now place : Nat}
    {v : Verification} (hc : S.collaborators.chain = Ledger.client)
    (hr : S.driver.router.registry = .default) (h : H.Accounts now place v) :
    ∃ o, Solicits H o place v := by
  obtain ⟨m, -, hplace, hlog, d, rest, hunder, hact⟩ := h
  obtain ⟨first, -, ⟨move, hmove, raw, hraw, hclass⟩, handler, a, xs, hdirect, hcall, hcourse, hseen⟩ := hunder
  obtain ⟨hkind, hcontract, hget⟩ := Routing.Router.of_direct hdirect
  rw [hr] at hget
  rw [hact] at hcourse
  obtain ⟨honboard, rfl⟩ := Handler.default_enqueues hget hcall hcourse
  obtain ⟨hverifier, ⟨type, htype⟩, scope, asset, hscope, hevent, hpending, hxs⟩ :=
    Handler.onboarding_enqueues hcourse
  obtain ⟨i, j, k, horder, ⟨chain, hinspect, -⟩, ⟨assets, hretrieve, hretrieved⟩,
    ⟨assets', hverify, hverified⟩⟩ := hseen.three hxs
  rw [hc] at hinspect
  exact ⟨⟨first, move, raw, scope, type, i, j, asset, k, m⟩,
    { order := horder
      move := hmove
      delivers := hraw
      wasm := Event.eventType_of_classify hclass
      classified := by rw [hevent]; exact hclass
      kind := by rw [hevent, hkind, honboard]
      contract := by rw [hevent]; exact hcontract
      verifier := by rw [hevent]; exact hverifier
      scope := ⟨by rw [hevent]; exact hscope, Event.isBlank_of_value? hscope⟩
      type := ⟨by rw [hevent]; exact htype, Event.isBlank_of_value? htype⟩
      pending := ⟨scopes_of_scopeRecord hinspect, hpending⟩
      retrieves := by rw [hretrieved]; exact hretrieve
      verifies := by rw [hverified]; exact hverify
      queues := ⟨hplace, hlog⟩ }⟩

/-! ### The life of an engine -/

/-- A move is made, or something is changed from outside. -/
inductive Happening (σ π : Type) where
  | move (m : Move)
  | edit (x : Ledger.Edit)
  | source (s : σ)
  | assets (p : π)

variable (S : Service Ledger σ ρ π)

/-- The engine after something has happened. -/
def happen (e : Engine Ledger σ ρ π) : Happening σ π → Engine Ledger σ ρ π
  | .move m => S.apply e m
  | .edit x => { e with shared := { e.shared with chain := e.shared.chain.edit x } }
  | .source source => { e with shared := { e.shared with source } }
  | .assets assets => { e with shared := { e.shared with assets } }

/-- The engine after several things have happened, one after the other. -/
def live (e : Engine Ledger σ ρ π) (hs : List (Happening σ π)) : Engine Ledger σ ρ π :=
  hs.foldl S.happen e

/-- The move that is made, if it is one. -/
def Happening.move? : Happening σ π → Option Move
  | .move m => some m
  | _ => none

theorem follows_happen (e : Engine Ledger σ ρ π) (h : Happening σ π) : Follows S e h.move? (S.happen e h) := by
  cases h with
  | move m => exact rfl
  | edit x => exact ⟨e.shared.chain.edit x, e.shared.source, e.shared.assets, rfl⟩
  | source source => exact ⟨e.shared.chain, source, e.shared.assets, rfl⟩
  | assets assets => exact ⟨e.shared.chain, e.shared.source, assets, rfl⟩

/-- The history of an engine to which these things happen. Nothing happens afterwards. -/
def history (e : Engine Ledger σ ρ π) (hs : List (Happening σ π)) : S.History where
  engine i := S.live e (hs.take i)
  move i := hs[i]?.bind Happening.move?
  follows i := by
    cases hi : hs[i]? with
    | some h =>
      have htake : hs.take (i + 1) = hs.take i ++ [h] := by
        rw [List.take_add_one, hi]
        rfl
      have hlive : S.live e (hs.take (i + 1)) = S.happen (S.live e (hs.take i)) h := by
        rw [htake, live, List.foldl_append]
        rfl
      rw [hlive]
      exact S.follows_happen _ h
    | none =>
      have hlen := List.getElem?_eq_none_iff.mp hi
      rw [List.take_of_length_le hlen, List.take_of_length_le (Nat.le_succ_of_le hlen)]
      exact ⟨_, _, _, rfl⟩

variable {S}

/-- The loops stay disciplined while an engine lives. -/
theorem Disciplined.live (hc : S.collaborators.chain = Ledger.client) {base : List SignedTransaction}
    (hs : List (Happening σ π)) {e : Engine Ledger σ ρ π} (h : Disciplined S base e) :
    Disciplined S base (S.live e hs) := by
  induction hs generalizing e with
  | nil => exact h
  | cons x hs ih =>
    refine ih (e := S.happen e x) ?_
    cases x with
    | move m => exact h.move hc (apply_change S e m)
    | edit x => exact h.same rfl rfl ⟨Ledger.broadcasts_edit _ x, rfl, rfl⟩
    | source source => exact h.same rfl rfl ⟨rfl, rfl, rfl⟩
    | assets assets => exact h.same rfl rfl ⟨rfl, rfl, rfl⟩

theorem Disciplined.initial (chain : Ledger) (source : σ) (assets : π) :
    Disciplined S chain.broadcasts (.initial (.initial chain source assets)) where
  orderly :=
    { exclusive := rfl
      faithful := fun _ hl => absurd hl List.not_mem_nil
      carried := ⟨[], (List.append_nil _).symm, fun _ hp => absurd hp List.not_mem_nil, .slnil⟩ }
  joined _ _ _ hl := by cases hl

/-- Each transaction that is broadcast while an engine lives bears a verification of its own, which was queued
on an occasion. -/
theorem broadcasts_of_occasions (hc : S.collaborators.chain = Ledger.client)
    (hr : S.driver.router.registry = .default) (chain : Ledger) (source : σ) (assets : π)
    (hs : List (Happening σ π)) :
    ∃ (txs : List SignedTransaction) (place : Nat → Nat),
      (S.live (.initial (.initial chain source assets)) hs).shared.chain.broadcasts =
        chain.broadcasts ++ txs ∧
      StrictMono place ∧
      ∀ i tx, txs[i]? = some tx → ∃ v o,
        (S.live (.initial (.initial chain source assets)) hs).shared.outbound.log[place i]? = some v ∧
        Submission.Bears S.submitter v tx ∧
        Solicits (S.history (.initial (.initial chain source assets)) hs) o (place i) v := by
  have hdisciplined := (Disciplined.initial (S := S) chain source assets).live hc hs
  obtain ⟨sent, hsent, hbears, hsub⟩ := hdisciplined.orderly.carried
  have hlog := ((List.sublist_append_left _ _).trans hsub).trans (List.take_sublist _ _)
  obtain ⟨place, hplace⟩ := List.sublist_iff_exists_orderEmbedding_getElem?_eq.mp hlog
  refine ⟨sent.map Prod.snd, place, hsent, place.strictMono, fun i tx htx => ?_⟩
  rw [List.getElem?_map] at htx
  obtain ⟨⟨v, _⟩, hget, rfl⟩ := Option.map_eq_some_iff.mp htx
  have hqueued := hplace i
  rw [List.getElem?_map, hget] at hqueued
  have haccounted := (S.history (.initial (.initial chain source assets)) hs).accounted rfl rfl hs.length
  have hlast : (S.history (.initial (.initial chain source assets)) hs).past hs.length =
      (S.live (.initial (.initial chain source assets)) hs).shared := by
    simp only [History.past, history, List.take_length]
  have hcause := haccounted.queue (place i) v (by rw [hlast]; exact hqueued.symm)
  obtain ⟨o, ho⟩ := hcause.solicits hc hr
  exact ⟨v, o, hqueued.symm, hbears _ (List.mem_of_getElem? hget), ho⟩

/-! ### Assembled services -/

theorem part_eq_ok {α : Type} {component : Component} {o : Option α} {a : α}
    (h : part component o = .ok a) : o = some a := by
  cases o with
  | none => cases h
  | some b => exact congrArg some (Except.ok.inj h)

theorem bind_eq_ok {α β : Type} {x : Except Error α} {f : α → Except Error β} {b : β}
    (h : x >>= f = .ok b) : ∃ a, x = .ok a ∧ f a = .ok b := by
  cases x with
  | error e => cases h
  | ok a => exact ⟨a, rfl, h⟩

/-- The checks pass the parts on as they are. -/
theorem of_checkParts {χ : Type} {settings : Settings} {parts : Parts χ σ ρ π} {restart : Restart.Mode}
    {collaborators : Collaborators χ σ ρ π} {signer : Signing.Signer}
    (h : checkParts settings parts = .ok (restart, collaborators, signer)) :
    parts.chain = some collaborators.chain ∧ parts.signer = some signer := by
  unfold checkParts at h
  obtain ⟨_, -, h⟩ := bind_eq_ok h
  obtain ⟨source, -, h⟩ := bind_eq_ok h
  obtain ⟨chain, hchain, h⟩ := bind_eq_ok h
  obtain ⟨signer', hsigner, h⟩ := bind_eq_ok h
  obtain ⟨assets, -, h⟩ := bind_eq_ok h
  cases h
  exact ⟨part_eq_ok hchain, part_eq_ok hsigner⟩

/-- What an assembled service is made of. -/
theorem of_assemble {χ : Type} {settings : Settings} {parts : Parts χ σ ρ π} {S : Service χ σ ρ π}
    {chain chain' : χ} (h : assemble settings parts chain = (.ok S, chain')) :
    ∃ restart collaborators signer contract, parts.chain = some collaborators.chain ∧
      parts.signer = some signer ∧
      address collaborators.chain chain settings.contract = (.ok contract, chain') ∧
      S = ofParts settings restart collaborators signer parts contract := by
  unfold assemble at h
  split at h
  · cases h
  next restart collaborators signer hparts =>
    split at h
    · cases h
    next contract chain'' haddress =>
      cases h
      obtain ⟨hchain, hsigner⟩ := of_checkParts hparts
      exact ⟨restart, collaborators, signer, contract, hchain, hsigner, haddress, rfl⟩

/-- **Every broadcast is solicited.** Whatever happens to an engine with the default handlers over a ledger, each
transaction that it broadcasts bears a verification of its own: their places in the queue's log go up, and each
was queued on an occasion. -/
theorem broadcasts_solicited {settings : Settings} {parts : Parts Ledger σ ρ π} {S : Service Ledger σ ρ π}
    {ledger ledger' : Ledger} (hchain : parts.chain = some Ledger.client)
    (hregistry : parts.registry = .default) (hS : assemble settings parts ledger = (.ok S, ledger'))
    (chain : Ledger) (source : σ) (assets : π) (hs : List (Happening σ π)) :
    ∃ signer contract, parts.signer = some signer ∧
      address Ledger.client ledger settings.contract = (.ok contract, ledger') ∧
      S.driver.router = ⟨contract, signer, .default⟩ ∧
      S.submitter = ⟨signer, contract, settings.chainId, settings.fee.toFee, settings.broadcastMode⟩ ∧
      ∃ (txs : List SignedTransaction) (place : Nat → Nat),
        (S.live (.initial (.initial chain source assets)) hs).shared.chain.broadcasts =
          chain.broadcasts ++ txs ∧
        StrictMono place ∧
        ∀ i tx, txs[i]? = some tx → ∃ v o,
          (S.live (.initial (.initial chain source assets)) hs).shared.outbound.log[place i]? = some v ∧
          Submission.Bears S.submitter v tx ∧
          Solicits (S.history (.initial (.initial chain source assets)) hs) o (place i) v := by
  obtain ⟨restart, collaborators, signer, contract, hclient, hsigner, haddress, rfl⟩ := of_assemble hS
  have hc : collaborators.chain = Ledger.client := Option.some.inj (hclient.symm.trans hchain)
  rw [hc] at haddress
  exact ⟨signer, contract, hsigner, haddress, by rw [← hregistry]; rfl, rfl,
    broadcasts_of_occasions hc hregistry chain source assets hs⟩

/-! ### A run that broadcasts -/

namespace Sample

def parts : Parts Ledger Stream.Script Stream.Feed Asset.Fixed where
  source := some Stream.Script.source
  chain := some Ledger.client
  signer := some (.fixed "verifier" [] (.ok []))
  assets := some Asset.Fixed.verifier
  consumer := none
  registry := .default

def settings : Settings := { Settings.default with contract := .address "contract" }

def service : Service Ledger Stream.Script Stream.Feed Asset.Fixed :=
  ofParts settings (.enabled ⟨1000, .exponential 300000⟩)
    ⟨Ledger.client, Stream.Script.source, Asset.Fixed.verifier⟩ (.fixed "verifier" [] (.ok [])) parts "contract"

/-- A pending scope, and the account of the verifier. -/
def ledger : Ledger :=
  (Ledger.empty.putScope "contract"
    ⟨"uuid", "scope", "loan", "requestor", "verifier", .pending, none⟩).setAccount ⟨"verifier", 3, 5⟩

/-- One block with an onboarding event for the scope. -/
def script : Stream.Script :=
  .push .empty (.ok ⟨[.ok ⟨7, [⟨7, "hash", "wasm",
    [⟨Contract.Key.contractAddress.text, "contract"⟩, ⟨Contract.Key.eventType.text, "onboard_asset"⟩,
      ⟨Contract.Key.assetType.text, "loan"⟩, ⟨Contract.Key.scopeAddress.text, "scope"⟩,
      ⟨Contract.Key.verifierAddress.text, "verifier"⟩]⟩]⟩], .hangs⟩)

/-- The stream task goes on until the decision is queued, and the consumer loop until it is broadcast. -/
def happenings : List (Happening Stream.Script Asset.Fixed) :=
  .move (.start none) :: (List.replicate 14 (.move .stream) ++ List.replicate 7 (.move .submitter))

def start : Engine Ledger Stream.Script Stream.Feed Asset.Fixed :=
  .initial (.initial ledger script .approving)

/-- The sample run broadcasts one transaction, and that is solicited. -/
theorem broadcast_solicited :
    parts.chain = some Ledger.client ∧ parts.registry = .default ∧
      assemble settings parts ledger = (.ok service, ledger) ∧
      ∃ tx v o place, (service.live start happenings).shared.chain.broadcasts = [tx] ∧
        Submission.Bears service.submitter v tx ∧
        Solicits (service.history start happenings) o place v := by
  have hS : assemble settings parts ledger = (.ok service, ledger) := rfl
  obtain ⟨_, _, -, -, -, -, txs, place, hsent, -, hsolicited⟩ :=
    broadcasts_solicited rfl rfl hS ledger script .approving happenings
  have hone : (service.live start happenings).shared.chain.broadcasts.length = 1 := rfl
  obtain ⟨tx, htx⟩ := List.length_eq_one_iff.mp hone
  obtain rfl : [tx] = txs := htx.symm.trans hsent
  obtain ⟨v, o, -, hbears, hoccasion⟩ := hsolicited 0 tx rfl
  exact ⟨rfl, rfl, hS, tx, v, o, place 0, htx, hbears, hoccasion⟩

end Sample

end Service

end Attestor
