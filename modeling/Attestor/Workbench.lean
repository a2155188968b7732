import Attestor.Chain.Ledger
import Attestor.Service.Assembly
import Attestor.Service.Schedule

/-!
A workbench: the parts of a verifier over collaborators that are held in memory, for trying them out one by one
and together. The router, the submitter and the stream task can be used on their own, with queues and a sequence
cache of the workbench; a service can be assembled from the same parts, and then has queues and a cache of its
own. All share one chain, one block source and one clock, and the clock moves only where this is said.
-/

namespace Attestor

open Chain (Ledger)

/-- A service over collaborators in memory. -/
abbrev Workbench.House := Service Ledger Stream.Script Stream.Feed Asset.Fixed

/-- The state of an engine over collaborators in memory. -/
abbrev Workbench.Works := Engine Ledger Stream.Script Stream.Feed Asset.Fixed

/-- What tasks share, over collaborators in memory. -/
abbrev Workbench.Floor := Shared Ledger Stream.Script Asset.Fixed

/-- A workbench. -/
structure Workbench where
  shared : Workbench.Floor
  router : Routing.Router
  submitter : Submitter
  /-- The restart settings of a stream task on its own. -/
  restart : Restart.Settings
  /-- The settings that a service is assembled from. -/
  settings : Settings
  /-- Components that are left out of a service. -/
  omitted : List Component
  consumer : Option Consumer
  /-- The consumer loop that was started on the workbench's own queue. -/
  loop : Option Submission.Loop
  service : Option (Workbench.House × Workbench.Works)
  /-- The numbers of the runs that were asked for. -/
  handles : List Nat
  now : Nat

namespace Workbench

/-- The collaborators in memory. -/
def collaborators : Collaborators Ledger Stream.Script Stream.Feed Asset.Fixed :=
  ⟨Ledger.client, Stream.Script.source, Asset.Fixed.verifier⟩

/-- Bounds what runs until it waits. -/
def steps : Nat := 10000000

/-- A workbench with nothing on its chain. The contract and the signer are the router's. -/
def initial (assets : Asset.Fixed) (router : Routing.Router) (settings : Settings)
    (restart : Restart.Settings) (omitted : List Component) (consumer : Option Consumer) :
    Workbench where
  shared := .initial .empty .empty assets
  router
  submitter := ⟨router.signer, router.contract, settings.chainId, settings.fee.toFee,
    settings.broadcastMode⟩
  restart
  settings
  omitted
  consumer
  loop := none
  service := none
  handles := []
  now := 0

/-- Changes the chain. -/
def onLedger (w : Workbench) (f : Ledger → Ledger) : Workbench :=
  { w with shared := { w.shared with chain := f w.shared.chain } }

/-- Changes the block source. -/
def onScript (w : Workbench) (f : Stream.Script → Stream.Script) : Workbench :=
  { w with shared := { w.shared with source := f w.shared.source } }

/-- Lets the service act, with collaborators and clock as the workbench has them. Without a service there is
only the default. -/
def onService {α : Type} (w : Workbench) (default : α)
    (f : House → Works → α × Works) : α × Workbench :=
  match w.service with
  | none => (default, w)
  | some (service, engine) =>
    let outer := w.shared
    let shared := { engine.shared with
      chain := outer.chain, source := outer.source, assets := outer.assets }
    let (a, engine) := f service { engine with shared, now := w.now }
    let inner := engine.shared
    let shared := { outer with chain := inner.chain, source := inner.source, assets := inner.assets }
    (a, { w with shared, service := some (service, engine), now := engine.now })

/-- Acts on the shared state whose sequence cache is in use: that of the service, once there is one. -/
def onSequence {α : Type} (w : Workbench) (f : Floor → α × Floor) : α × Workbench :=
  let (own, shared) := f w.shared
  if w.service.isSome then
    w.onService own fun _ engine =>
      let (a, shared) := f engine.shared
      (a, { engine with shared })
  else (own, { w with shared })

/-! ### Parts on their own -/

/-- Routes an event of the chain; none comes of an event that is not the contract's. -/
def route (w : Workbench) (raw : Chain.Event) : Option Routing.Routed × Workbench :=
  match Contract.Event.classify raw with
  | none => (none, w)
  | some e =>
    let (routed, shared) := w.router.route collaborators e w.shared
    (some routed, { w with shared })

/-- Calls a handler with an event, past the router. Tells whether it completed. -/
def handle (w : Workbench) (handler : Handler) (e : Contract.Event) : Bool × Workbench :=
  match w.router.call e handler with
  | .error _ => (false, w)
  | .ok activity =>
    let (ending, shared) := activity.run collaborators w.shared
    (ending == some .done, { w with shared })

/-- Takes the verifications that wait. -/
def drain (w : Workbench) : List Contract.Verification × Workbench :=
  let (items, outbound) := w.shared.outbound.drain
  (items, { w with shared := { w.shared with outbound } })

/-- Submits verifications. -/
def submit (w : Workbench) (vs : List Contract.Verification) :
    List Submission.Outcome × Workbench :=
  let (outcomes, shared) := w.submitter.submitAll Ledger.client vs w.shared
  (outcomes, { w with shared })

/-- Retrieves an asset and decides about it. What fails is named. -/
def process (w : Workbench) (scope : Contract.ScopeRecord) :
    Except (String × String) (Asset × Contract.Decision) × Workbench :=
  let put (assets : Asset.Fixed) : Workbench := { w with shared := { w.shared with assets } }
  match Asset.Fixed.verifier.retrieve scope w.shared.assets with
  | (.panic p, assets) => (.error ("retrieve", p.message), put assets)
  | (.value (.error fault), assets) => (.error ("retrieve", fault.message), put assets)
  | (.value (.ok asset), assets) =>
    match Asset.Fixed.verifier.verify scope asset assets with
    | (.panic p, assets) => (.error ("verify", p.message), put assets)
    | (.value (.error fault), assets) => (.error ("verify", fault.message), put assets)
    | (.value (.ok decision), assets) => (.ok (asset, decision), put assets)

/-- Gives the consumer loop the time that it can use. -/
def proceed (w : Workbench) (cancelled : Bool) : Workbench :=
  match w.loop with
  | none => w
  | some loop =>
    match loop.proceed w.submitter Ledger.client cancelled false w.shared with
    | (.over, shared) => { w with shared, loop := none }
    | (loop, shared) => { w with shared, loop := some loop }

/-- Starts a consumer loop, and tells whether it returned at once. -/
def startLoop (w : Workbench) (cancelled : Bool) : Bool × Workbench :=
  let w := w.proceed false
  match Submission.Loop.called.proceed w.submitter Ledger.client cancelled false w.shared with
  | (.over, shared) => (true, { w with shared })
  | (loop, shared) => (false, { w with shared, loop := some loop })

/-- Runs a consumer loop on a queue of its own. Gives how many items were left. -/
def consume (w : Workbench) (items : List Contract.Verification) : Nat × Workbench :=
  let (left, shared) := Submission.consume w.submitter Ledger.client items w.shared
  (left, { w with shared })

/-- Runs a stream task on its own; it is cancelled after some milliseconds, if any. -/
def runStream (w : Workbench) (height : Option Chain.Height) (cancelAfter : Option Nat) :
    Except Settings.Error Stream.Task.Alone × Workbench :=
  match w.restart.build with
  | .error e => (.error e, w)
  | .ok mode =>
    let w := w.proceed false
    let (ended, now, shared) := (Stream.Task.begin height).runAlone ⟨w.router, mode⟩ collaborators
      (cancelAfter.map (w.now + ·)) steps w.now w.shared
    (.ok ended, { w with shared, now })

/-! ### The service -/

/-- Assembles a service. -/
def build (w : Workbench) : Except Error String × Workbench :=
  let part {α : Type} (c : Component) (a : α) : Option α := if c ∈ w.omitted then none else some a
  let parts : Service.Parts Ledger Stream.Script Stream.Feed Asset.Fixed :=
    { source := part .blockSource Stream.Script.source
      chain := part .chainClient Ledger.client
      signer := part .signer w.router.signer
      assets := part .assetVerifier Asset.Fixed.verifier
      consumer := w.consumer
      registry := w.router.registry }
  match Service.assemble w.settings parts w.shared.chain with
  | (.error e, chain) => (.error e, w.onLedger fun _ => chain)
  | (.ok service, chain) =>
    let w := w.onLedger fun _ => chain
    let engine := Engine.initial (.initial w.shared.chain w.shared.source w.shared.assets)
    (.ok service.driver.router.contract, { w with service := some (service, engine), handles := [] })

/-- Makes a call that gives a run, and keeps its number. -/
def begin (w : Workbench) (height : Option Chain.Height) (anew : Bool) : Nat × Workbench :=
  let (id, w) := w.onService 0 fun service engine =>
    let engine := if anew then service.restartToEnd steps engine height
      else service.startToEnd steps engine height
    (engine.runId.getD 0, engine)
  (id, { w with handles := w.handles ++ [id] })

/-- Starts the service. -/
def start (w : Workbench) (height : Option Chain.Height) : Nat × Workbench := w.begin height false

/-- Restarts the service. -/
def restartService (w : Workbench) (height : Option Chain.Height) : Nat × Workbench :=
  (w.proceed false).begin height true

/-- Stops the service. -/
def stop (w : Workbench) : Workbench :=
  ((w.proceed false).onService () fun service engine => ((), service.stopToEnd steps engine)).2

/-- The numbers of the runs that were asked for, each with whether it has reported its exit. -/
def finished (w : Workbench) : List (Nat × Bool) :=
  match w.service with
  | none => []
  | some (_, engine) => w.handles.map fun id => (id, (engine.report id).isFinished)

/-- Waits for a run that was asked for, by default the last one, and then lets a millisecond pass. -/
def await (w : Workbench) (handle : Option Nat) : Option Stream.Exit × Workbench :=
  let id := w.handles.getD (handle.getD (w.handles.length - 1)) 0
  (w.proceed false).onService none fun service engine =>
    let (exit, engine) := service.await steps id steps engine
    (exit, service.pass steps 1 engine)

/-- Replays a transaction. Nothing comes of it without a service. -/
def replay (w : Workbench) (hash : String) : Option Service.Replayed × Workbench :=
  w.onService none fun service engine =>
    let (answer, shared) := service.replay hash engine.shared
    (some answer, { engine with shared })

/-- Publishes a diagnostic to the service. -/
def publish (w : Workbench) (d : Diagnostic) : Workbench :=
  (w.onService () fun service engine => ((), service.apply engine (.publish d))).2

/-- Lets milliseconds pass. -/
def advance (w : Workbench) (ms : Nat) : Workbench :=
  let w := w.proceed false
  match w.service with
  | none => { w with now := w.now + ms }
  | some _ => (w.onService () fun service engine => ((), service.pass steps ms engine)).2

/-- The diagnostics that the service's consumer was given. -/
def delivered (w : Workbench) : List Diagnostic :=
  match w.service with
  | none => []
  | some (_, engine) => engine.delivered

/-- The diagnostics that came up since the consumer had been given `seen` of them. Without a service they wait
in the workbench's own queue; without a consumer there are none to show. -/
def fresh (w : Workbench) (seen : Nat) : List Diagnostic × Workbench :=
  match w.service with
  | some _ => (if w.consumer.isSome then w.delivered.drop seen else [], w)
  | none =>
    let (items, diagnostics) := w.shared.diagnostics.drain
    (items, { w with shared := { w.shared with diagnostics } })

end Workbench

end Attestor
