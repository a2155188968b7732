import Attestor.Proofs.Lockstep
import Attestor.Service.Engine

/-!
Replays. A block that carries events in base64 and a replay of a transaction with the same events in plain text come
to the same (`replay_agrees`): the same diagnostics, apart from those about the block itself, the same verifications
and the same questions, up to the encodings that events record; and a replay that comes to an end has routed all events
of the contract.
-/

namespace Attestor

open Attestor.Stream (Played Turn announcement)
open Chain (Block)
open Contract (Event Key Verification)
open Handler (Effect Performed)
open Handler.Effect (questions questions_of_plain)

namespace Service

variable {χ σ ρ π χ' σ' ρ' π' : Type}

/-- The effects of a replay, from when it knows the events of the transaction. -/
def replayEffects (S : Service χ σ ρ π) (hash : String) (s : Shared χ σ π) : List Effect :=
  match S.eventsOf hash s with
  | (.ok events, s) => S.driver.router.allEffects S.collaborators events s
  | (.error _, _) => []

/-- A replay of a transaction whose events are known routes those that are the contract's. -/
theorem replay_eq {S : Service χ σ ρ π} {hash : String} {s : Shared χ σ π} {raws : List Chain.Event} {chain : χ}
    (h : S.collaborators.chain.events hash s.chain = (.ok raws, chain)) :
    let routed := S.driver.router.routeAll S.collaborators (raws.filterMap Event.classify) { s with chain }
    S.replay hash s = (match routed.1 with | .ok n => .routed n | .error how => .stuck how, routed.2) ∧
      S.replayEffects hash s =
        S.driver.router.allEffects S.collaborators (raws.filterMap Event.classify) { s with chain } := by
  have hevents : S.eventsOf hash s = (.ok (raws.filterMap Event.classify), { s with chain }) := by
    simp only [eventsOf, h]
  refine ⟨?_, by simp only [replayEffects, hevents]⟩
  simp only [replay, hevents]
  rcases S.driver.router.routeAll S.collaborators (raws.filterMap Event.classify) { s with chain } with ⟨_ | n, s'⟩
  · rfl
  · rfl

/-- A replay performs its effects. -/
theorem replay_performed {S : Service χ σ ρ π} {hash : String} {s : Shared χ σ π} {raws : List Chain.Event} {chain : χ}
    (h : S.collaborators.chain.events hash s.chain = (.ok raws, chain)) :
    Performed S.collaborators { s with chain } (S.replayEffects hash s) (S.replay hash s).2 := by
  obtain ⟨hreplay, heffects⟩ := replay_eq h
  rw [hreplay, heffects]
  exact S.driver.router.routeAll_performed S.collaborators _ _

/-- At a moment a stream task has done with a block what a replay has done with a transaction that has so many events of
the contract, up to the encodings that events record. -/
structure Parallel (S : Service χ σ ρ π) (live : Nat → Played Doings χ σ ρ π) (n : Nat) (b : Block) (rest : ρ)
    (S' : Service χ' σ' ρ' π') (hash : String) (s' : Shared χ' σ' π') (count : Nat) : Prop where
  /-- Until then the task is busy with the block. -/
  busy : ∀ m, 0 < m → m < n → (live m).task.Busy
  /-- Both have told the same, apart from what the task tells of the block itself. -/
  told : ∃ ds ds', (live n).record.told = announcement (live 0).task.tracked b ++ ds ∧
    (S'.replay hash s').2.diagnostics.log = s'.diagnostics.log ++ ds' ∧
    ds.map Diagnostic.plain = ds'.map Diagnostic.plain
  queued : ∃ vs', (S'.replay hash s').2.outbound.log = s'.outbound.log ++ vs' ∧
    (live n).record.queued.map Verification.plain = vs'.map Verification.plain
  asked : (live n).record.asked = questions (S'.replayEffects hash s')
  /-- If the replay has returned, the task reads on. If it goes no further, the task does not either. -/
  ended : match (S'.replay hash s').1 with
    | .routed routed => routed = count ∧ (live n).task.phase = .reading rest
    | .stuck how => (live n).task.Stuck S.driver S.collaborators how
    | .failed _ => False
  /-- If all handlers return, the replay does. -/
  returned : S'.driver.router.registry.Returns → (S'.replay hash s').1 = .routed count

/-- **A block that carries events in base64, and a replay of a transaction with the same events in plain text, come to
the same**, up to the encodings that events record. The events may have any keys and values, in any number, but those
that contracts emit are recognised in plain text by a key of the contract. The handlers must not depend on encodings,
and the collaborators, which need not be the same, give equal answers to equal questions; what others do between the
steps of the stream task, or when the run is cancelled, is up to them. -/
theorem replay_agrees {S : Service χ σ ρ π} {S' : Service χ' σ' ρ' π'} (hrouter : S'.driver.router = S.driver.router)
    (hindifferent : S.driver.router.registry.Indifferent) {raws : List Chain.Event} (hmarked : ∀ raw ∈ raws, raw.Marked)
    {t : Stream.Task ρ} {s : Shared χ σ π} {turns : Nat → Turn χ σ π} {feed rest : ρ} {b : Block}
    (hreading : t.phase = .reading feed) (hnext : S.collaborators.source.next feed = .block b rest)
    (hcancelled : (turns 0).cancelled = false) (hevents : b.events = raws.map Chain.Event.encoded)
    {hash : String} {s' : Shared χ' σ' π'} {chain : χ'}
    (hreplayed : S'.collaborators.chain.events hash s'.chain = (.ok raws, chain))
    (hanswers : ∀ n, AnsweredAlike
      ((Played.fresh (R := Doings) t s).after S.driver S.collaborators turns n).record.asked
      (questions (S'.replayEffects hash s'))) :
    ∃ n, Parallel S ((Played.fresh t s).after S.driver S.collaborators turns) n b rest S' hash s'
      (raws.filterMap Event.classify).length := by
  obtain ⟨hreplay, heffects⟩ := replay_eq hreplayed
  have hperformed := replay_performed hreplayed
  rw [hrouter] at hreplay heffects
  rw [heffects] at hanswers hperformed
  have hclassified : (Stream.classified b).map Event.plain = (raws.filterMap Event.classify).map Event.plain := by
    rw [Stream.classified, hevents]
    exact Event.plain_classify_encoded hmarked
  have hlive := Played.after_succ (d := S.driver) (c := S.collaborators) (p := Played.fresh (R := Doings) t s) turns
  obtain ⟨n, xs, hbusy, hends, hdone, hxs⟩ := Stream.block_reaches hlive hindifferent rfl hreading hnext hcancelled
    hclassified S'.collaborators { s' with chain } hanswers
  refine ⟨n, hbusy, ?_, ?_, ?_, ?_, ?_⟩
  · rw [hdone]
    exact ⟨_, _, rfl, hperformed.diagnostics, Handler.told_of_plain hxs⟩
  · rw [hdone]
    exact ⟨_, hperformed.outbound, Handler.queued_of_plain hxs⟩
  · rw [hdone, heffects, ← questions_of_plain hxs]
  · rw [hreplay]
    cases hresult : (S.driver.router.routeAll S'.collaborators (raws.filterMap Event.classify) { s' with chain }).1 with
    | error stuck =>
      rw [hresult] at hends
      exact hends
    | ok count =>
      rw [hresult] at hends
      exact ⟨Routing.Router.count_of_routeAll hresult, hends⟩
  · intro hreturns
    rw [hrouter] at hreturns
    rw [hreplay, Routing.Router.routeAll_of_returns hreturns]

namespace Sample

open Routing.Sample (router)

/-- A chain on which every scope stays pending, and a verifier that accepts every asset. -/
def steady : Collaborators Chain.Ledger Stream.Script Stream.Feed Unit where
  chain := { Chain.Ledger.client with
    scopeRecord := fun _ scope l =>
      (.value (.ok ⟨"uuid", scope, "loan", "requestor", "verifier", .pending, none⟩), l) }
  source := Stream.Script.source
  assets :=
    { retrieve := fun scope u => (.value (.ok (Asset.Fixed.asset scope)), u)
      verify := fun _ _ u => (.value (.ok (.approve "Asset verified")), u) }

def replaying : Service Chain.Ledger Stream.Script Stream.Feed Unit :=
  ⟨steady, ⟨router, .disabled⟩, ⟨router.signer, "contract", "chain", ⟨[], 1⟩, .sync⟩, .accepting, 1000⟩

/-- An onboarding event with a repeated key, an event that contracts do not emit, and an event of another contract. -/
def raws : List Chain.Event :=
  [⟨7, "hash", "wasm",
      [⟨"schlüssel", "wert ✓"⟩, ⟨Key.contractAddress.text, "contract"⟩, ⟨Key.eventType.text, "onboard_asset"⟩,
        ⟨Key.assetType.text, "loan"⟩, ⟨Key.assetType.text, "deed"⟩, ⟨Key.scopeAddress.text, "scope"⟩,
        ⟨Key.verifierAddress.text, "verifier"⟩]⟩,
    ⟨7, "hash", "transfer", [⟨"amount", "1"⟩]⟩,
    ⟨7, "hash", "wasm", [⟨Key.contractAddress.text, "other"⟩]⟩]

def block : Block := ⟨7, raws.map Chain.Event.encoded⟩

def task : Stream.Task Stream.Feed := ⟨none, .initial, .reading ⟨[.ok block], .hangs⟩⟩

/-- Others publish something before every step of the task. -/
def turns (n : Nat) : Turn Chain.Ledger Stream.Script Unit := ⟨false, n, fun s => s.publish (.custom "other" "")⟩

def live : Nat → Played Doings Chain.Ledger Stream.Script Stream.Feed Unit :=
  (Played.fresh task (.initial .empty .empty ())).after replaying.driver replaying.collaborators turns

/-- The transaction is on the chain. -/
def replayed : Shared Chain.Ledger Stream.Script Unit :=
  .initial (Chain.Ledger.empty.putTransaction "hash" raws) .empty ()

theorem marked : ∀ raw ∈ raws, raw.Marked := by
  unfold raws Chain.Event.Marked
  decide +kernel

theorem steady_answers (x y : Effect) (hx : x.Genuine steady) (hy : y.Genuine steady) (h : x.Repeats y) : x = y := by
  obtain ⟨s, s', hx⟩ := hx
  obtain ⟨r, r', hy⟩ := hy
  cases x with
  | scopeRecord contract scope answer =>
    cases y with
    | scopeRecord contract' scope' answer' =>
      obtain ⟨rfl, rfl⟩ := h
      obtain ⟨_, ⟨⟩, -⟩ := hx
      obtain ⟨_, ⟨⟩, -⟩ := hy
      rfl
    | _ => exact absurd h id
  | retrieve scope answer =>
    cases y with
    | retrieve scope' answer' =>
      obtain rfl : scope = scope' := h
      obtain ⟨_, ⟨⟩, -⟩ := hx
      obtain ⟨_, ⟨⟩, -⟩ := hy
      rfl
    | _ => exact absurd h id
  | verify scope asset answer =>
    cases y with
    | verify scope' asset' answer' =>
      obtain ⟨rfl, rfl⟩ := h
      obtain ⟨_, ⟨⟩, -⟩ := hx
      obtain ⟨_, ⟨⟩, -⟩ := hy
      rfl
    | _ => exact absurd h id
  | _ => exact absurd h id

/-- The replay routes two of the three events, as the stream task does that takes the block. -/
theorem replayed_agrees :
    replaying.driver.router.registry.Indifferent ∧ (∀ raw ∈ raws, raw.Marked) ∧
      (∀ n, AnsweredAlike (live n).record.asked (questions (replaying.replayEffects "hash" replayed))) ∧
      (∃ n, Parallel replaying live n block ⟨[], .hangs⟩ replaying "hash" replayed 2) ∧
      (replaying.replay "hash" replayed).1 = .routed 2 := by
  have hreplayed : replaying.collaborators.chain.events "hash" replayed.chain = (.ok raws, replayed.chain) := rfl
  have hanswers : ∀ n, AnsweredAlike (live n).record.asked (questions (replaying.replayEffects "hash" replayed)) := by
    refine fun n => .of_genuine (c := steady) ?_ ?_ steady_answers
    · exact Played.asked_genuine _ (List.forall_mem_nil _) turns n
    · intro y hy
      exact (replay_performed hreplayed).genuine y (List.mem_filter.mp hy).1
  have hcount : (raws.filterMap Event.classify).length = 2 := by decide +kernel
  obtain ⟨n, hn⟩ := replay_agrees rfl Handler.default_indifferent marked rfl rfl rfl rfl hreplayed hanswers
  rw [hcount] at hn
  exact ⟨Handler.default_indifferent, marked, hanswers, ⟨n, hn⟩, hn.returned Handler.default_returns⟩

end Sample

end Service

end Attestor
