import SecureEdgeVision.Aggregator.Api
import SecureEdgeVision.Keys.AllOrNothing
import SecureEdgeVision.Keys.Arguments
import SecureEdgeVision.Persistence.AlteredChecks
import SecureEdgeVision.Store.AppendOnly

/-! `main` of the aggregator: one start after another on one database, each with the keys it is
given and the requests it serves. -/
namespace SecureEdge

open Runs (SessionMet run)

/-- What `main` makes of an exception: it reports it and returns 2, or lets it through. -/
inductive StartupRaised where
  | reported | escaped
deriving DecidableEq

/-- What one start is given and meets. `seedingOther` is what `main` makes of an exception of the
seeding session that is no `PersistenceError`. -/
structure StartupCall where
  nodePublicKeys : List String
  settings : Except StartupRaised SecuritySettings
  dialect : Except StartupRaised String
  existing : Option (List TableSchema)
  created : Option (List TableSchema)
  registeredAtUtc : UtcDatetime
  seedingMet : SessionMet
  seedingQueryRaises : Option SeedFailure
  seedingCommit : CommitOutcome
  seedingOther : StartupRaised
  requests : List ApiRequest
  serverRaises : Option StartupRaised
  disposeRaises : Bool

def StartupCall.seeding (call : StartupCall) (batch : List NodeRegistration) : DatabaseCall :=
  .seed call.seedingMet ⟨batch, .utc call.registeredAtUtc, call.seedingQueryRaises,
    call.seedingCommit⟩

/-- What the aggregator runs on. -/
structure AggregatorHost where
  ed : Ed25519
  reprFloat : Binary64.Finite → String
  caseTable : Python.CaseTable
  depth : ℕ
  viewDepth : ℕ

/-- How far a start has come before it serves. -/
structure Startup where
  tables : Tables
  hasEngine : Bool
  ready : Except StartupRaised (AggregatorApp × DatabaseProcess)

/-- How a start has ended. An exit code is missing if an exception went through. -/
structure StartupEnd where
  served : Option (List Handled)
  disposals : ℕ
  exitCode : Option ℕ

namespace AggregatorHost
variable (host : AggregatorHost)

def app (settings : SecuritySettings) : AggregatorApp :=
  ⟨⟨host.ed, host.reprFloat, settings⟩, host.depth⟩

/-- `seed_node_registry`, if there is a registration to seed. -/
def seedRegistrations (app : AggregatorApp) (tables : Tables) (call : StartupCall)
    (batch : List NodeRegistration) : DatabaseProcess × Except StartupRaised Unit :=
  let process := AggregatorApp.idle ⟨.initial, tables⟩ 0
  if batch = [] then (process, .ok ())
  else
    let (process, done) := app.ingestor.perform host.viewDepth process (call.seeding batch)
    match done.answer with
    | .seeded (.error (.persistence _)) => (process, .error .reported)
    | .seeded (.error .other) => (process, .error call.seedingOther)
    | _ => (process, .ok ())

/-- `main` up to `uvicorn.run`. -/
def prepare (tables : Tables) (call : StartupCall) : Startup :=
  match call.settings with
  | .error e => ⟨tables, false, .error e⟩
  | .ok settings =>
    match registrations call.nodePublicKeys with
    | .error _ => ⟨tables, false, .error .reported⟩
    | .ok batch =>
      match call.dialect with
      | .error e => ⟨tables, false, .error e⟩
      | .ok dialect =>
        match initializeDatabase host.caseTable (some dialect) call.existing call.created with
        | .error _ => ⟨tables, true, .error .reported⟩
        | .ok () =>
          let app := host.app settings
          match host.seedRegistrations app tables call batch with
          | (process, .error e) => ⟨process.store.durable, true, .error e⟩
          | (process, .ok ()) => ⟨process.store.durable, true, .ok (app, process)⟩

/-- `main` -/
def main (tables : Tables) (call : StartupCall) : Tables × StartupEnd :=
  let startup := host.prepare tables call
  let disposals := if startup.hasEngine then 1 else 0
  -- what disposing of the engine raises replaces everything else
  let leave := fun code => if startup.hasEngine && call.disposeRaises then none else code
  match startup.ready with
  | .error .reported => (startup.tables, ⟨none, disposals, leave (some 2)⟩)
  | .error .escaped => (startup.tables, ⟨none, disposals, none⟩)
  | .ok (app, process) =>
    let (process, handled) := run (app.handle host.viewDepth) process call.requests
    match call.serverRaises with
    | none => (process.store.durable, ⟨some handled, disposals, leave (some 0)⟩)
    | some .reported => (process.store.durable, ⟨some handled, disposals, leave (some 2)⟩)
    | some .escaped => (process.store.durable, ⟨some handled, disposals, none⟩)

end AggregatorHost

/-- The registry reads the node back as the registration. -/
def Tables.Registers (tables : Tables) (registration : NodeRegistration) : Prop :=
  ∃ node, tables.getNode registration.nodeId = some node ∧
    node.toRegistration = .ok registration

section Registry
variable {tables : Tables} {registration : NodeRegistration}

theorem Tables.Registers.extends {after : Tables} (h : tables.Registers registration)
    (hextends : tables.Extends after) : after.Registers registration := by
  obtain ⟨node, hnode, hregistration⟩ := h
  obtain ⟨node', hnode', hidentity⟩ := hextends.getNode hnode
  exact ⟨node', hnode', (NodeRecord.toRegistration_congr hidentity).trans hregistration⟩

/-- A node is registered once. -/
theorem Tables.Registers.unique (h : tables.Registers registration) {other : NodeRegistration}
    (hother : tables.Registers other) (hid : other.nodeId = registration.nodeId) :
    other = registration := by
  obtain ⟨node, hnode, hregistration⟩ := h
  obtain ⟨node', hnode', hother⟩ := hother
  rw [hid, hnode] at hnode'
  obtain rfl := Option.some.inj hnode'
  rw [hregistration] at hother
  exact (Except.ok.inj hother).symm

/-- What is registered for the node with another key is not accepted again. -/
theorem Tables.Registers.rejects (h : tables.Registers registration)
    {other : NodeRegistration} (hid : other.nodeId = registration.nodeId)
    (hkey : other.publicKeyB64.text ≠ registration.publicKeyB64.text)
    {batch : List NodeRegistration}
    (hmem : other ∈ batch) : ¬ tables.Accepts batch := by
  rintro ⟨-, hconfirms⟩
  obtain ⟨node, hnode, hregistration⟩ := h
  have hother := hconfirms other hmem node (hid ▸ hnode)
  obtain ⟨-, htext⟩ := NodeRecord.toRegistration_text hregistration
  exact hkey (hother.symm.trans htext)

/-- An event that is signed with the registered key authenticates. -/
theorem Tables.Registers.authenticate (h : tables.Registers registration)
    (ingestor : DetectionEventIngestor) (hed : ingestor.ed.Lawful)
    {privateKey : ingestor.ed.PrivateKey}
    (hkey : registration.publicKeyB64.text =
      encodePublicKey ingestor.ed (ingestor.ed.publicKey privateKey))
    {event : DetectionEvent} (hnodeId : event.nodeId = registration.nodeId)
    {envelope : SignedDetectionEnvelope}
    (hsign : signDetectionEvent ingestor.ed ingestor.reprFloat event privateKey = .ok envelope) :
    ingestor.authenticate tables false envelope = .ok () := by
  obtain ⟨node, hnode, hregistration⟩ := h
  obtain ⟨hid, htext⟩ := NodeRecord.toRegistration_text hregistration
  have hbody := (signDetectionEvent_eq_ok hsign).1
  rw [DetectionEventIngestor.authenticate_eq_ok]
  refine ⟨rfl, node, ingestor.ed.publicKey privateKey, ?_, ?_, ?_⟩
  · rw [hbody, hnodeId]
    exact hnode
  · exact DetectionEventIngestor.registeredKey_of_encoded hed
      (hid ▸ registration.nodeId.valid) (htext.trans hkey)
  · exact verifyDetectionEnvelope_signed hed hsign (hbody ▸ .refl _) rfl

end Registry

section Extending
variable (app : AggregatorApp) (viewDepth : ℕ)

/-- No database operation removes or rewrites. -/
theorem DetectionEventIngestor.atomic_extends (ingestor : DetectionEventIngestor) (depth : ℕ)
    (state : IngestState) (call : DatabaseCall) :
    state.tables.Extends (ingestor.atomic depth state call).1.tables := by
  have hstore := store_extends ingestor state.tables
  cases call with
  | ingest met call => exact hstore (.ingest state.policy _)
  | record met call => exact hstore (.record _)
  | seed met call => exact hstore (.seed _)
  | aggregatorHealth call => exact .refl _
  | nodeHealth rollbackRaises call => exact .refl _
  | recentEvents rollbackRaises call => exact .refl _
  | securityAlerts rollbackRaises call => exact .refl _

namespace AggregatorApp

theorem resolve_extends (state : IngestState) (request : ApiRequest) :
    state.tables.Extends (app.resolve viewDepth state request).1.tables := by
  unfold resolve
  cases app.databaseCall request with
  | error e => exact .refl _
  | ok call => exact app.ingestor.atomic_extends viewDepth state call

/-- Whatever is served, the tables only grow. -/
theorem run_handle_extends (state : IngestState) (sessions : ℕ) (requests : List ApiRequest) :
    state.tables.Extends
      (run (app.handle viewDepth) (idle state sessions) requests).1.store.durable := by
  obtain ⟨⟨_, hlast⟩, -⟩ := app.run_handle viewDepth state sessions requests
  rw [hlast]
  exact Runs.run_related (R := fun s t : IngestState => s.tables.Extends t.tables)
    (fun _ => .refl _) (fun _ _ _ h h' => h.trans h') (app.resolve_extends viewDepth) state requests

end AggregatorApp

end Extending

namespace AggregatorHost
variable (host : AggregatorHost)

/-- A batch that is not accepted raises and writes nothing. -/
theorem seed_of_not_accepts {tables : Tables} {call : SeedCall}
    (h : ¬ tables.Accepts call.registrations) :
    ∃ failure, seedNodeRegistry tables call = (tables, .error failure) := by
  rcases seedNodeRegistry_cases tables call with hfailed | ⟨_, _, haccepts, -, -⟩
  · exact hfailed
  · exact absurd haccepts h

theorem settle_eq_ok {met : SessionMet} {raising : Runs.Raising SeedFailure}
    {result : Except SeedFailure ℕ} {count : ℕ} (h : met.settle raising result = .ok count) :
    result = .ok count := by
  unfold SessionMet.settle at h
  cases hopen : met.openRaises <;> cases hclose : met.closeRaises <;> cases result <;>
    simp_all

/-- The seeding of a database call. It returns only if the seeding of the tables does. -/
theorem atomic_seeding (ingestor : DetectionEventIngestor) (depth : ℕ) (state : IngestState)
    (met : SessionMet) (call : SeedCall) : ∃ (seeded : SeedCall) (result : Except SeedFailure ℕ),
      seeded.registrations = call.registrations ∧
      ingestor.atomic depth state (.seed met call) =
        (⟨state.policy, (seedNodeRegistry state.tables seeded).1⟩, .seeded result) ∧
      ∀ count, result = .ok count → (seedNodeRegistry state.tables seeded).2 = .ok count := by
  refine ⟨{ call with queryRaises := if met.openRaises then some .other else call.queryRaises },
    _, rfl, rfl, ?_⟩
  intro count h
  by_cases hopens : call.opens
  · rw [if_pos hopens] at h
    exact settle_eq_ok h
  · rw [if_neg hopens] at h
    exact h

/-- Seeding leaves the process idle. It goes through only if every key of the batch is the one that
is registered then. -/
theorem seedRegistrations_spec (app : AggregatorApp) (tables : Tables) (call : StartupCall)
    (batch : List NodeRegistration) :
    ∃ after sessions result, host.seedRegistrations app tables call batch =
        (AggregatorApp.idle ⟨.initial, after⟩ sessions, result) ∧
      tables.Extends after ∧
      (result = .ok () → ∀ registration ∈ batch, after.Registers registration) ∧
      (¬ tables.Accepts batch → after = tables ∧ result ≠ .ok ()) := by
  unfold seedRegistrations
  dsimp only
  split_ifs with hempty
  · subst hempty
    refine ⟨tables, 0, .ok (), rfl, .refl _, by simp, fun hbad => ?_⟩
    exact absurd ⟨by simp [Uniform], by simp⟩ hbad
  · obtain ⟨hachieves, -⟩ := app.ingestor.work_achieves host.viewDepth ⟨.initial, tables⟩ 0
      (call.seeding batch)
    have hperform := app.ingestor.perform_eq host.viewDepth ⟨.initial, tables⟩ 0
      (call.seeding batch)
    have hextends := app.ingestor.atomic_extends host.viewDepth ⟨.initial, tables⟩
      (call.seeding batch)
    obtain ⟨seeded, result, hbatch, hatomic, hcount⟩ := atomic_seeding app.ingestor
      host.viewDepth ⟨.initial, tables⟩ call.seedingMet ⟨batch, .utc call.registeredAtUtc,
        call.seedingQueryRaises, call.seedingCommit⟩
    have hatomic : app.ingestor.atomic host.viewDepth ⟨.initial, tables⟩ (call.seeding batch) =
      (⟨.initial, (seedNodeRegistry tables seeded).1⟩, .seeded result) := hatomic
    rw [hatomic] at hachieves hextends
    have hbatch : seeded.registrations = batch := hbatch
    have hrejected : ¬ tables.Accepts batch → (seedNodeRegistry tables seeded).1 = tables ∧
        ∀ count, result ≠ .ok count := by
      intro hbad
      obtain ⟨failure, hseed⟩ := seed_of_not_accepts (hbatch.symm ▸ hbad)
      rw [hseed] at hcount ⊢
      refine ⟨rfl, fun count hresult => ?_⟩
      cases hcount count hresult
    have hanswer := hachieves.answer
    rw [show app.ingestor.perform host.viewDepth (AggregatorApp.idle ⟨.initial, tables⟩ 0)
      (call.seeding batch) = _ from hperform]
    dsimp only
    rw [hanswer, hatomic]
    cases result with
    | ok count =>
      refine ⟨_, _, _, rfl, hextends, fun _ registration hmem => ?_, fun hbad => ?_⟩
      · exact DetectionEventIngestor.seed_registers (hcount count rfl) (hbatch.symm ▸ hmem)
      · exact absurd rfl ((hrejected hbad).2 count)
    | error failure =>
      cases failure <;>
        exact ⟨_, _, _, rfl, hextends, by simp, fun hbad => ⟨(hrejected hbad).1, by simp⟩⟩

/-- A start extends the tables. Where it gets to serve, every key it was given is registered. -/
theorem prepare_spec (tables : Tables) (call : StartupCall) :
    tables.Extends (host.prepare tables call).tables ∧
    (∀ app process, (host.prepare tables call).ready = .ok (app, process) →
      (∃ settings, app = host.app settings) ∧
      (∃ sessions, process =
        AggregatorApp.idle ⟨.initial, (host.prepare tables call).tables⟩ sessions) ∧
      ∀ registration : NodeRegistration, registration.argument ∈ call.nodePublicKeys →
        (host.prepare tables call).tables.Registers registration) ∧
    ∀ other : NodeRegistration, other.argument ∈ call.nodePublicKeys →
      (∀ batch, other ∈ batch → ¬ tables.Accepts batch) →
        (host.prepare tables call).tables = tables ∧
          ∃ e, (host.prepare tables call).ready = .error e := by
  unfold prepare
  cases call.settings with
  | error e => exact ⟨.refl _, by simp, fun _ _ _ => ⟨rfl, _, rfl⟩⟩
  | ok settings =>
    cases hbatch : registrations call.nodePublicKeys with
    | error e => exact ⟨.refl _, by simp, fun _ _ _ => ⟨rfl, _, rfl⟩⟩
    | ok batch =>
      cases call.dialect with
      | error e => exact ⟨.refl _, by simp, fun _ _ _ => ⟨rfl, _, rfl⟩⟩
      | ok dialect =>
        dsimp only
        cases initializeDatabase host.caseTable (some dialect) call.existing call.created with
        | error e => exact ⟨.refl _, by simp, fun _ _ _ => ⟨rfl, _, rfl⟩⟩
        | ok u =>
          obtain ⟨after, sessions, result, hseed, hextends, hregistered, hrejected⟩ :=
            host.seedRegistrations_spec (host.app settings) tables call batch
          have hmem : ∀ registration : NodeRegistration,
              registration.argument ∈ call.nodePublicKeys → registration ∈ batch := by
            intro registration hargument
            rw [registrations_eq_ok.mp hbatch] at hargument
            exact (List.mem_map_of_injective NodeRegistration.argument_injective).mp hargument
          dsimp only
          rw [hseed]
          cases result with
          | error e =>
            refine ⟨hextends, by simp, fun other hother hbad => ?_⟩
            exact ⟨(hrejected (hbad batch (hmem other hother))).1, e, rfl⟩
          | ok u =>
            refine ⟨hextends, fun app process hready => ?_, fun other hother hbad => ?_⟩
            · obtain ⟨rfl, rfl⟩ := Prod.mk.inj (Except.ok.inj hready)
              refine ⟨⟨settings, rfl⟩, ⟨sessions, rfl⟩, fun registration hargument => ?_⟩
              exact hregistered rfl registration (hmem registration hargument)
            · exact absurd rfl (hrejected (hbad batch (hmem other hother))).2

/-- A start serves when nothing before it fails. -/
theorem prepare_ready {tables : Tables} {call : StartupCall} {settings : SecuritySettings}
    {batch : List NodeRegistration} {dialect : String} (hsettings : call.settings = .ok settings)
    (hbatch : registrations call.nodePublicKeys = .ok batch) (hdialect : call.dialect = .ok dialect)
    (hschema : initializeDatabase host.caseTable (some dialect) call.existing call.created =
      .ok ())
    (hseeded : (host.seedRegistrations (host.app settings) tables call batch).2 = .ok ()) :
    ∃ process, (host.prepare tables call).ready = .ok (host.app settings, process) := by
  unfold prepare
  rw [hsettings, hbatch, hdialect]
  dsimp only
  rw [hschema]
  dsimp only
  generalize host.seedRegistrations (host.app settings) tables call batch = seeded at hseeded
  obtain ⟨process, result⟩ := seeded
  obtain rfl : result = .ok () := hseeded
  exact ⟨process, rfl⟩

/-- What a start leaves, by how far it got. -/
theorem main_cases (tables : Tables) (call : StartupCall) :
    (∃ e exitCode, (host.prepare tables call).ready = .error e ∧ exitCode ≠ some 0 ∧
      host.main tables call = ((host.prepare tables call).tables,
        ⟨none, if (host.prepare tables call).hasEngine then 1 else 0, exitCode⟩)) ∨
    ∃ app process exitCode, (host.prepare tables call).ready = .ok (app, process) ∧
      host.main tables call =
        ((run (app.handle host.viewDepth) process call.requests).1.store.durable,
        ⟨some (run (app.handle host.viewDepth) process call.requests).2,
          if (host.prepare tables call).hasEngine then 1 else 0, exitCode⟩) := by
  unfold main
  dsimp only
  cases hready : (host.prepare tables call).ready with
  | error e =>
    cases e with
    | reported =>
      refine Or.inl ⟨_, _, rfl, ?_, rfl⟩
      split_ifs <;> simp
    | escaped => exact Or.inl ⟨_, none, rfl, by simp, rfl⟩
  | ok served =>
    obtain ⟨app, process⟩ := served
    cases call.serverRaises with
    | none => exact Or.inr ⟨app, process, _, rfl, rfl⟩
    | some e => cases e <;> exact Or.inr ⟨app, process, _, rfl, rfl⟩

/-- What is registered when a start serves is registered after it. -/
theorem prepare_main_extends (tables : Tables) (call : StartupCall) :
    (host.prepare tables call).tables.Extends (host.main tables call).1 := by
  obtain ⟨-, hready, -⟩ := host.prepare_spec tables call
  rcases host.main_cases tables call with ⟨_, _, -, -, h⟩ | ⟨app, process, _, happ, h⟩
  · rw [h]
    exact .refl _
  · obtain ⟨-, ⟨sessions, rfl⟩, -⟩ := hready app process happ
    rw [h]
    exact app.run_handle_extends host.viewDepth ⟨.initial, _⟩ sessions _

theorem main_extends (tables : Tables) (call : StartupCall) :
    tables.Extends (host.main tables call).1 :=
  (host.prepare_spec tables call).1.trans (host.prepare_main_extends tables call)

/-- A generated key stays enrolled. Once a start that was given the node with the key that the key
generator printed has served, every start from it on authenticates the events that the generated key
signs, after any requests, whatever fails in between. A start that is given another key for the node
does not serve, leaves the tables alone and does not end in success. -/
theorem generated_key_stays_enrolled (hed : host.ed.Lawful)
    {serializePrivateKey : host.ed.PrivateKey → List UInt8} {platform : Platform}
    {nodeId : String} {privateKey : host.ed.PrivateKey} {calls : GenerateCalls}
    {path : OutputPath} {files : Files.FileSystem} {paths : GeneratedKeyPaths}
    (hgenerated : (generateNodeKeyFiles host.ed serializePrivateKey platform nodeId privateKey
      calls path files).2.2 = .ok paths) {tables : Tables} {enrolling : StartupCall}
    (hargument : nodeId ++ "=" ++ paths.publicKeyB64 ∈ enrolling.nodePublicKeys)
    (hserved : (host.main tables enrolling).2.served.isSome = true)
    (later before after : List StartupCall) (start : StartupCall)
    (hstarts : enrolling :: later = before ++ start :: after) :
    let found := (run host.main tables before).1
    (∀ app process, (host.prepare found start).ready = .ok (app, process) →
      ∀ (requests : List ApiRequest) (event : DetectionEvent) (envelope : SignedDetectionEnvelope),
        event.nodeId.text = nodeId →
        signDetectionEvent host.ed host.reprFloat event privateKey = .ok envelope →
        app.ingestor.authenticate
          (run (app.handle host.viewDepth) process requests).1.store.durable false envelope =
            .ok ()) ∧
    ∀ other : NodeRegistration, other.argument ∈ start.nodePublicKeys →
      other.nodeId.text = nodeId → other.publicKeyB64.text ≠ paths.publicKeyB64 →
      (host.main found start).1 = found ∧ (host.main found start).2.served = none ∧
        (host.main found start).2.exitCode ≠ some 0 := by
  intro found
  obtain ⟨registration, hid, htext, hprinted, hkey⟩ := generated_registration hed hgenerated
  rw [hprinted] at hargument
  obtain ⟨_, henrolled, -⟩ := host.prepare_spec tables enrolling
  obtain ⟨app, process, _, happ, -⟩ := (host.main_cases tables enrolling).resolve_left (by
    rintro ⟨_, _, -, -, h⟩
    rw [h] at hserved
    cases hserved)
  obtain ⟨-, -, hregisters⟩ := henrolled app process happ
  have hregistered := hregisters registration hargument
  obtain ⟨hextends, hready, hrejects⟩ := host.prepare_spec found start
  -- the node is registered when the start serves, and before it unless it is the enrolling one
  have hprepared : (host.prepare found start).tables.Registers registration ∧
      (found.Registers registration ∨ found = tables ∧ start = enrolling) := by
    rcases List.cons_eq_append_iff.mp hstarts with ⟨rfl, hfirst⟩ | ⟨between, rfl, -⟩
    · obtain ⟨rfl, -⟩ := List.cons.inj hfirst
      exact ⟨hregistered, Or.inr ⟨rfl, rfl⟩⟩
    · have hfound : found.Registers registration := by
        have hstart := hregistered.extends (host.prepare_main_extends tables enrolling)
        exact hstart.extends (Runs.run_related (R := Tables.Extends) .refl
          (fun _ _ _ h h' => h.trans h') host.main_extends _ between)
      exact ⟨hfound.extends hextends, Or.inl hfound⟩
  constructor
  · intro app process happ requests event envelope hnode hsign
    obtain ⟨⟨settings, rfl⟩, ⟨sessions, rfl⟩, -⟩ := hready app process happ
    have hserving := hprepared.1.extends
      ((host.app settings).run_handle_extends host.viewDepth ⟨.initial, _⟩ sessions requests)
    exact hserving.authenticate (host.app settings).ingestor hed (htext.trans hkey)
      (SafeIdentifier.ext (hnode.trans hid.symm)) hsign
  · intro other hother hnode hdiffers
    have hnode : other.nodeId = registration.nodeId := SafeIdentifier.ext (hnode.trans hid.symm)
    have hkeys : other.publicKeyB64.text ≠ registration.publicKeyB64.text := htext.symm ▸ hdiffers
    rcases hprepared.2 with hfound | ⟨-, hstart⟩
    · obtain ⟨hsame, e, hfailed⟩ := hrejects other hother fun batch =>
        hfound.rejects hnode hkeys
      rcases host.main_cases found start with ⟨_, exitCode, -, hcode, h⟩ | ⟨_, _, _, hok, -⟩
      · rw [h, hsame]
        exact ⟨rfl, rfl, hcode⟩
      · cases hfailed.symm.trans hok
    · rw [hstart] at hother
      have hsame := hregistered.unique (hregisters other hother) hnode
      exact absurd (congrArg (fun r => r.publicKeyB64.text) hsame) hkeys

section Sample

/-- A start on a healthy host with the declared schema. -/
def sampleStart (nodePublicKeys : List String) : StartupCall where
  nodePublicKeys := nodePublicKeys
  settings := .ok .sample
  dialect := .ok "sqlite"
  existing := some (declaredTables.map DeclaredTable.schema)
  created := none
  registeredAtUtc := ⟨0, by decide⟩
  seedingMet := ⟨false, false, false⟩
  seedingQueryRaises := none
  seedingCommit := .persisted
  seedingOther := .escaped
  requests := []
  serverRaises := none
  disposeRaises := false

theorem seedRegistrations_sample (app : AggregatorApp) {tables : Tables}
    (hkeys : tables.NodesDistinct) {batch : List NodeRegistration}
    (haccepts : tables.Accepts batch) (nodePublicKeys : List String) :
    (host.seedRegistrations app tables (sampleStart nodePublicKeys) batch).2 = .ok () := by
  rcases seedNodeRegistry_healthy hkeys batch ⟨0, by decide⟩ with
    ⟨-, added, -, hseed⟩ | ⟨hbad, -⟩
  · obtain ⟨hachieves, -⟩ := app.ingestor.work_achieves host.viewDepth ⟨.initial, tables⟩ 0
      ((sampleStart nodePublicKeys).seeding batch)
    have hperform := app.ingestor.perform_eq host.viewDepth ⟨.initial, tables⟩ 0
      ((sampleStart nodePublicKeys).seeding batch)
    have hatomic : (app.ingestor.atomic host.viewDepth ⟨.initial, tables⟩
        ((sampleStart nodePublicKeys).seeding batch)).2 = .seeded (.ok added.length) := by
      show DatabaseAnswer.seeded (if _ then (SessionMet.mk false false false).settle seedRaising
          (seedNodeRegistry tables (.healthy batch ⟨0, by decide⟩)).2
        else (seedNodeRegistry tables (.healthy batch ⟨0, by decide⟩)).2) = _
      rw [hseed]
      split_ifs <;> rfl
    unfold seedRegistrations
    dsimp only
    split_ifs with hempty
    · rfl
    · rw [show app.ingestor.perform host.viewDepth (AggregatorApp.idle ⟨.initial, tables⟩ 0)
        ((sampleStart nodePublicKeys).seeding batch) = _ from hperform]
      dsimp only
      rw [hachieves.answer, hatomic]
  · exact absurd haccepts hbad

/-- A healthy start serves when it is given keys that the registry accepts. -/
theorem main_sample {tables : Tables} (hkeys : tables.NodesDistinct)
    {batch : List NodeRegistration} (haccepts : tables.Accepts batch) :
    (host.main tables (sampleStart (batch.map NodeRegistration.argument))).2.served.isSome =
      true := by
  have hschema : initializeDatabase host.caseTable (some "sqlite")
      (some (declaredTables.map DeclaredTable.schema)) none = .ok () := by
    have hexisting : initializeDatabase host.caseTable (some "sqlite")
        (some (declaredDatabase host.caseTable).schema) none = .ok () :=
      (initializeDatabase_existing (List.cons_ne_nil _ _)).mpr
        ⟨rfl, verifySchema_declared host.caseTable⟩
    exact hexisting
  have hseeded := host.seedRegistrations_sample (host.app .sample) hkeys haccepts
    (batch.map NodeRegistration.argument)
  rcases host.main_cases tables (sampleStart (batch.map NodeRegistration.argument)) with
    ⟨e, _, herror, -⟩ | ⟨_, _, _, -, hserved⟩
  · obtain ⟨process, hready⟩ := host.prepare_ready rfl (registrations_eq_ok.mpr rfl) rfl hschema
      hseeded
    cases herror.symm.trans hready
  · rw [hserved]
    rfl

def sampleHost : AggregatorHost := ⟨.checksum, Json.exactRepr, .ascii, 1000, 1000⟩

/-- A key generation without failures. -/
def sampleKeyCalls : GenerateCalls where
  directory := ⟨false, false, false, false, some 0o700⟩
  privateLstatRaises := false
  publicLstatRaises := false
  privateFile := ⟨fun _ => false, false, ⟨0, 1⟩, fun _ => []⟩
  publicFile := ⟨fun _ => false, false, ⟨0, 2⟩, fun _ => []⟩

theorem generated_key_stays_enrolled_edge :
    let files : Files.FileSystem := ⟨fun _ => none, fun _ => none, by simp⟩
    let instant : UtcDatetime := ⟨63892000000000000, by decide⟩
    ∃ paths app process envelope,
      (generateNodeKeyFiles sampleHost.ed (fun _ => []) ⟨true, true⟩ "edge-1" (7 : UInt8)
        sampleKeyCalls .missing files).2.2 = .ok paths ∧
      (sampleHost.prepare ⟨[], [], []⟩ (sampleStart ["edge-1=" ++ paths.publicKeyB64])).ready =
        .ok (app, process) ∧
      signDetectionEvent sampleHost.ed sampleHost.reprFloat
        (DetectionEventIngestor.sampleEvent instant) (7 : UInt8) = .ok envelope ∧
      app.ingestor.authenticate process.store.durable false envelope = .ok () := by
  intro files instant
  have hworks : sampleKeyCalls.Works ⟨true, true⟩ .missing :=
    ⟨by decide, by decide, by simp [WriteCalls.Works, sampleKeyCalls],
      by simp [WriteCalls.Works, sampleKeyCalls]⟩
  have hfree (name : String) (id : Files.FileId) : files.Free name id := ⟨rfl, rfl⟩
  obtain ⟨paths, hgenerated⟩ := generateNodeKeyFiles_works sampleHost.ed (fun _ => [])
    (7 : UInt8) hworks edge_isSafe (by decide) (hfree _ _) (hfree _ _)
  have hed : sampleHost.ed.Lawful := Ed25519.checksum_lawful
  obtain ⟨registration, -, -, hprinted, -⟩ := generated_registration hed hgenerated
  have hserved : (sampleHost.main ⟨[], [], []⟩
      (sampleStart ["edge-1=" ++ paths.publicKeyB64])).2.served.isSome = true := by
    have hkeys : Tables.NodesDistinct ⟨[], [], []⟩ := List.nodup_nil
    have haccepts : Tables.Accepts ⟨[], [], []⟩ [registration] := by
      simp [Tables.Accepts, Uniform, Tables.Confirms, Tables.getNode]
    have hmain := sampleHost.main_sample hkeys haccepts
    rwa [List.map_singleton, ← hprinted] at hmain
  obtain ⟨envelope, hsign⟩ := DetectionEventIngestor.exists_sign_sampleEvent instant
  have hstays := sampleHost.generated_key_stays_enrolled hed hgenerated
    (List.mem_singleton_self _) hserved [] [] [] _ rfl
  rcases sampleHost.main_cases ⟨[], [], []⟩ (sampleStart ["edge-1=" ++ paths.publicKeyB64]) with
    ⟨_, _, -, -, h⟩ | ⟨app, process, _, hready, -⟩
  · rw [h] at hserved
    cases hserved
  · exact ⟨paths, app, process, envelope, hgenerated, hready, hsign,
      hstays.1 app process hready [] _ envelope rfl hsign⟩

end Sample

end AggregatorHost

end SecureEdge
