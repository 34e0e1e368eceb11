import SecureEdgeVision.Ingestion.Concurrent

/-! Restarts of the aggregator. The tables outlive a process, its replay state and its open calls
do not, so that each further process may store an event once more while it is fresh. -/
namespace SecureEdge

/-- The running process, and the rows that it found when it started. -/
structure Deployment (ed : Ed25519) where
  process : Aggregator ed
  inherited : List DetectionEventRecord

inductive DeploymentAction (ed : Ed25519) where
  | act (a : AggregatorAction ed)
  | restart

namespace Deployment
variable {ingestor : DetectionEventIngestor}

def start (ed : Ed25519) (tables : Tables) : Deployment ed :=
  ⟨.start ed tables, tables.detectionEvents⟩

def rows {ed : Ed25519} (d : Deployment ed) : List DetectionEventRecord :=
  d.process.state.tables.detectionEvents

/-- The process starts over on the tables that it left. -/
def restart {ed : Ed25519} (d : Deployment ed) : Deployment ed :=
  ⟨⟨⟨.initial, d.process.state.tables⟩, [], d.process.signed⟩, d.rows⟩

def step (d : Deployment ingestor.ed) : DeploymentAction ingestor.ed → Deployment ingestor.ed
  | .act a => { d with process := d.process.step a }
  | .restart => d.restart

def run (d : Deployment ingestor.ed) (actions : List (DeploymentAction ingestor.ed)) :
    Deployment ingestor.ed := actions.foldl step d

def restarts {ed : Ed25519} (actions : List (DeploymentAction ed)) : ℕ :=
  actions.countP fun
    | .restart => true
    | .act _ => false

/-- The clock readings of the calls that reach a process meet the condition, which may look at
the rows that the process found. -/
def Reads {ed : Ed25519} (P : List DetectionEventRecord → UtcDatetime → Prop) (d : Deployment ed) :
    DeploymentAction ed → Prop
  | .act (.submit call) => ∀ now, call.reading = .utc now → P d.inherited now
  | _ => True

/-- No row that the process found could be fresh at the instant. -/
def Expired (settings : SecuritySettings) (inherited : List DetectionEventRecord)
    (now : UtcDatetime) : Prop :=
  ∀ row ∈ inherited,
    row.timestampUtc.micros + microsPerSecond * settings.maxClockSkewSeconds < now.micros

/-- The invariant: what the process stored or is about to store is in the log of its policy. -/
structure Kept (P : List DetectionEventRecord → UtcDatetime → Prop) (d : Deployment ingestor.ed) :
    Prop where
  readings : ∀ c ∈ d.process.calls, ∀ now, c.call.reading = .utc now → P d.inherited now
  waiting : ∀ c ∈ d.process.calls, ∀ r, c.phase = .waiting r →
    r.Valid ingestor.settings ∧ r.event = c.body ∧ c.call.reading = .utc r.acceptedAt
  logged : ∃ newer log, d.rows = d.inherited ++ newer ∧
    Logged ingestor.settings d.process.state.policy log ∧
    (∀ r ∈ log, P d.inherited r.acceptedAt) ∧
    (newer.map DetectionEventRecord.identity ++
      (d.process.calls.filterMap OpenCall.storing?).map fun r => r.event.identity).Subperm
        (log.map fun r => r.event.identity)

section Step
variable {P : List DetectionEventRecord → UtcDatetime → Prop} {d : Deployment ingestor.ed} {i : ℕ}
  {c : OpenCall}

/-- A process that has just started stored nothing. -/
theorem kept_of_new (h : d.process.calls = []) (hpolicy : d.process.state.policy = .initial)
    (hrows : d.rows = d.inherited) : Kept P d where
  readings c hc := by simp [h] at hc
  waiting c hc := by simp [h] at hc
  logged := ⟨[], [], by simp [hrows], by simpa [hpolicy] using logged_initial ingestor.settings,
    by simp, by simp [h]⟩

/-- A call that waits for the lock read the instant that it wants to reserve. -/
theorem advance_waiting {state : IngestState} (hphase : c.phase = .verified) {now : UtcDatetime}
    {r : Reservation} (hr : Prepared ingestor.settings now c.body r)
    (h : ingestor.advance state c = (state, .waiting r)) :
    c.call.reading = .utc r.acceptedAt := by
  obtain ⟨call, phase⟩ := c
  obtain rfl : phase = .verified := hphase
  cases hreading : call.reading with
  | failed => simp [DetectionEventIngestor.advance, requireClock, hreading, policyFailure,
      CallPhase.fail] at h
  | notUtc => simp [DetectionEventIngestor.advance, requireClock, hreading, policyFailure,
      CallPhase.fail] at h
  | utc instant =>
    simp only [DetectionEventIngestor.advance, requireClock, hreading] at h
    cases hprepare : prepare ingestor.settings instant call.envelope.body with
    | error e =>
      simp only [OpenCall.body, hprepare, Prod.mk.injEq, true_and] at h
      cases hfailure : policyFailure e <;> simp [hfailure, CallPhase.fail] at h
    | ok r' =>
      simp only [OpenCall.body, hprepare, Prod.mk.injEq, true_and, CallPhase.waiting.injEq] at h
      obtain rfl := h
      rw [(prepare_ok_iff.mp hprepare).acceptedAt_eq]

/-- The call at the index moved on. -/
def update (d : Deployment ingestor.ed) (i : ℕ) (c : OpenCall) (next : IngestState × CallPhase) :
    Deployment ingestor.ed := { d with process := d.process.update i c next }

/-- A call that neither had nor has a pending commit, and added no row. -/
theorem Kept.quiet (h : Kept P d) (hi : d.process.calls[i]? = some c)
    (hold : c.storing? = none) {tables : Tables} {phase : CallPhase}
    (hevents : tables.detectionEvents = d.process.state.tables.detectionEvents)
    (hnew : (⟨c.call, phase⟩ : OpenCall).storing? = none)
    (hwaiting : ∀ r, phase = .waiting r →
      r.Valid ingestor.settings ∧ r.event = c.body ∧ c.call.reading = .utc r.acceptedAt) :
    Kept P (d.update i c (⟨d.process.state.policy, tables⟩, phase)) := by
  have hmem := List.mem_of_getElem? hi
  have hperm := Runs.filterMap_set_perm OpenCall.storing? hi ⟨c.call, phase⟩
  rw [hold, hnew] at hperm
  obtain ⟨newer, log, hrows, hlog, hlate, hclaimed⟩ := h.logged
  refine ⟨?_, ?_, newer, log, hevents.trans hrows, hlog, hlate, ?_⟩
  · intro c' hc'
    rcases List.mem_or_eq_of_mem_set hc' with hc' | rfl
    · exact h.readings c' hc'
    · exact h.readings c hmem
  · intro c' hc' r hr
    rcases List.mem_or_eq_of_mem_set hc' with hc' | rfl
    · exact h.waiting c' hc' r hr
    · exact hwaiting r hr
  · exact ((hperm.map _).append_left _).subperm.trans hclaimed

/-- A reservation that took the lock is logged, and its commit is pending. -/
theorem Kept.reserve (h : Kept P d) (hi : d.process.calls[i]? = some c) {r : Reservation}
    {decision : EventSecurityDecision} (hphase : c.phase = .waiting r)
    (hd : (enterLock d.process.state.policy r).2 = .ok decision) :
    Kept P (d.update i c (⟨(enterLock d.process.state.policy r).1, d.process.state.tables⟩,
      .storing decision)) := by
  have hmem := List.mem_of_getElem? hi
  obtain ⟨hvalid, hevent, hreading⟩ := h.waiting c hmem r hphase
  obtain ⟨rfl, -⟩ := enterLock_ok hd
  obtain ⟨newer, log, hrows, hlog, hlate, hclaimed⟩ := h.logged
  refine ⟨?_, ?_, newer, log ++ [r], hrows, hlog.enterLock hvalid hd, ?_, ?_⟩
  · intro c' hc'
    rcases List.mem_or_eq_of_mem_set hc' with hc' | rfl
    · exact h.readings c' hc'
    · exact h.readings c hmem
  · intro c' hc' r' hr'
    rcases List.mem_or_eq_of_mem_set hc' with hc' | rfl
    · exact h.waiting c' hc' r' hr'
    · cases hr'
  · intro r' hr'
    rcases List.mem_append.mp hr' with hr' | hr'
    · exact hlate r' hr'
    · obtain rfl := List.mem_singleton.mp hr'
      exact h.readings c hmem _ hreading
  · have hperm := Runs.filterMap_set_perm OpenCall.storing? hi ⟨c.call, .storing r.decision⟩
    have hold : c.storing? = none := by simp [OpenCall.storing?, hphase]
    have hnew : (⟨c.call, .storing r.decision⟩ : OpenCall).storing? =
        some ⟨r.event, r.decision⟩ := by
      rw [hevent]
      rfl
    rw [hold, hnew] at hperm
    have hcons := (List.subperm_cons r.event.identity).mpr hclaimed
    rw [List.map_append]
    refine List.Perm.subperm ?_ |>.trans
      (hcons.trans (List.perm_append_singleton _ _).symm.subperm)
    exact ((hperm.map _).append_left _).trans List.perm_middle

/-- A pending commit ends, with its row stored or not. -/
theorem Kept.store (h : Kept P d) (hi : d.process.calls[i]? = some c)
    {decision : EventSecurityDecision} (hphase : c.phase = .storing decision) :
    Kept P (d.update i c (⟨d.process.state.policy,
      (ingestor.recordEvent d.process.state.tables c.call decision).1⟩,
      .finished (ingestor.recordEvent d.process.state.tables c.call decision).2)) := by
  have hmem := List.mem_of_getElem? hi
  obtain ⟨newer, log, hrows, hlog, hlate, hclaimed⟩ := h.logged
  have hstoring : c.storing? = some ⟨c.body, decision⟩ := by simp [OpenCall.storing?, hphase]
  have hperm := Runs.filterMap_set_perm OpenCall.storing? hi
    ⟨c.call, .finished (ingestor.recordEvent d.process.state.tables c.call decision).2⟩
  have hnew : ∀ outcome, (⟨c.call, .finished outcome⟩ : OpenCall).storing? = none := fun _ => rfl
  rw [hstoring, hnew] at hperm
  have hpending := hperm.map fun r => r.event.identity
  have hreadings : ∀ c' ∈ d.process.calls.set i ⟨c.call,
      .finished (ingestor.recordEvent d.process.state.tables c.call decision).2⟩,
      ∀ now, c'.call.reading = .utc now → P d.inherited now := by
    intro c' hc'
    rcases List.mem_or_eq_of_mem_set hc' with hc' | rfl
    · exact h.readings c' hc'
    · exact h.readings c hmem
  have hwaiting : ∀ c' ∈ d.process.calls.set i ⟨c.call,
      .finished (ingestor.recordEvent d.process.state.tables c.call decision).2⟩,
      ∀ r, c'.phase = .waiting r → r.Valid ingestor.settings ∧ r.event = c'.body ∧
        c'.call.reading = .utc r.acceptedAt := by
    intro c' hc' r hr
    rcases List.mem_or_eq_of_mem_set hc' with hc' | rfl
    · exact h.waiting c' hc' r hr
    · cases hr
  have htables : (ingestor.recordEvent d.process.state.tables c.call decision).1 =
      d.process.state.tables ∨ _ :=
    DetectionEventIngestor.recordEvent_tables d.process.state.tables c.call decision
  rcases htables with hr | ⟨stored, hstored, hr⟩
  · refine ⟨hreadings, hwaiting, newer, log, ?_, hlog, hlate, ?_⟩
    · simp only [rows, update, Aggregator.update, hr]
      exact hrows
    · refine List.Subperm.trans ?_ hclaimed
      have hsub := (List.sublist_cons_self c.body.identity _).subperm.trans hpending.subperm
      exact (List.subperm_append_left _).mpr hsub
  · refine ⟨hreadings, hwaiting, newer ++ [stored], log, ?_, hlog, hlate, ?_⟩
    · simp only [rows, update, Aggregator.update, hr, Tables.addEvent_events]
      rw [← List.append_assoc, ← hrows]
      rfl
    · have hidentity : stored.identity = c.body.identity := hstored.isOf.1.identity_eq
      rw [List.map_append, List.append_assoc, List.map_singleton, hidentity]
      exact (hpending.append_left _).subperm.trans hclaimed

theorem Kept.advance (h : Kept P d) (hi : d.process.calls[i]? = some c) :
    Kept P (d.update i c (ingestor.advance d.process.state c)) := by
  have hmem := List.mem_of_getElem? hi
  rcases advance_cases ingestor d.process.state c with ⟨failure, hold, hs⟩ | ⟨hphase, -, hs⟩ |
    ⟨now, r, hphase, hr, hs⟩ | ⟨r, decision, hphase, hd, hs⟩ | ⟨decision, hphase, hs⟩ |
    ⟨tables, outcome, hold, hevents, -, hs⟩
  · rw [hs]
    have hnew : (⟨c.call, .fail failure⟩ : OpenCall).storing? = none := by cases failure <;> rfl
    exact h.quiet hi hold rfl hnew fun r hr => by cases failure <;> cases hr
  · rw [hs]
    exact h.quiet hi (by simp [OpenCall.storing?, hphase]) rfl rfl fun r hr => by cases hr
  · rw [hs]
    refine h.quiet hi (by simp [OpenCall.storing?, hphase]) rfl rfl fun r' hr' => ?_
    obtain rfl := CallPhase.waiting.inj hr'
    exact ⟨hr.valid, hr.event_eq, advance_waiting hphase hr hs⟩
  · rw [hs]
    exact h.reserve hi hphase hd
  · rw [hs]
    exact h.store hi hphase
  · rw [hs]
    exact h.quiet hi hold hevents rfl fun r hr => by cases hr

theorem Kept.submit (h : Kept P d) (call : IngestCall)
    (hreading : ∀ now, call.reading = .utc now → P d.inherited now) :
    Kept P (d.step (.act (.submit call))) := by
  obtain ⟨newer, log, hrows, hlog, hlate, hclaimed⟩ := h.logged
  have hopened : [(⟨call, .opened⟩ : OpenCall)].filterMap OpenCall.storing? = [] := rfl
  refine ⟨?_, ?_, newer, log, hrows, hlog, hlate, by
    simpa [Deployment.step, Aggregator.step, hopened] using hclaimed⟩
  · intro c hc
    rcases List.mem_append.mp hc with hc | hc
    · exact h.readings c hc
    · obtain rfl := List.mem_singleton.mp hc
      exact hreading
  · intro c hc r hr
    rcases List.mem_append.mp hc with hc | hc
    · exact h.waiting c hc r hr
    · obtain rfl := List.mem_singleton.mp hc
      cases hr

/-- Step lemma: every action of the process keeps the invariant, and a restart restores it. -/
theorem Kept.step (h : Kept P d) {a : DeploymentAction ingestor.ed} (ha : d.Reads P a) :
    Kept P (d.step a) := by
  cases a with
  | restart => exact kept_of_new rfl rfl rfl
  | act a =>
    cases a with
    | submit call => exact h.submit call ha
    | sign privateKey event =>
      simp only [Deployment.step, Aggregator.step]
      split
      next => exact h
      next => exact ⟨h.readings, h.waiting, h.logged⟩
    | advance i =>
      cases hi : d.process.calls[i]? with
      | none =>
        simp only [Deployment.step, Aggregator.step_absent hi]
        exact h
      | some c =>
        simp only [Deployment.step, Aggregator.step_advance hi]
        exact h.advance hi

/-- One process stores an event at most once, and only while the log of its policy lists it. -/
theorem Kept.newer (h : Kept P d) : ∃ newer, d.rows = d.inherited ++ newer ∧
    (newer.map DetectionEventRecord.identity).Nodup ∧
    ∀ row ∈ newer, ∃ now, P d.inherited now ∧ now.micros ≤
      row.timestampUtc.micros + microsPerSecond * ingestor.settings.maxClockSkewSeconds := by
  obtain ⟨newer, log, hrows, hlog, hlate, reserved, hperm, hsublist⟩ := h.logged
  have hnodup : reserved.Nodup := hlog.identities_nodup.sublist hsublist
  refine ⟨newer, hrows, (List.nodup_append.mp (hperm.nodup_iff.mp hnodup)).1, ?_⟩
  intro row hrow
  have hmem : row.identity ∈ log.map fun r => r.event.identity := by
    apply hsublist.subset
    apply hperm.mem_iff.mpr
    exact List.mem_append_left _ (List.mem_map_of_mem hrow)
  obtain ⟨r, hr, hidentity⟩ := List.mem_map.mp hmem
  have hinstant : r.event.instant = row.timestampUtc :=
    congrArg (fun identity => identity.2.2) hidentity
  refine ⟨r.acceptedAt, hlate r hr, ?_⟩
  rw [← hinstant]
  exact (hlog.valid r hr).fresh.2

end Step

theorem run_concat (d : Deployment ingestor.ed) (actions : List (DeploymentAction ingestor.ed))
    (a : DeploymentAction ingestor.ed) : d.run (actions ++ [a]) = (d.run actions).step a := by
  simp [run]

theorem restarts_concat {ed : Ed25519} (actions : List (DeploymentAction ed))
    (a : DeploymentAction ed) : restarts (actions ++ [a]) = restarts actions + restarts [a] := by
  simp [restarts]

/-- Run lemma for the invariant. -/
theorem kept_run {P : List DetectionEventRecord → UtcDatetime → Prop} (tables : Tables)
    (actions : List (DeploymentAction ingestor.ed))
    (hreads : Runs.Guarded
      (fun before a => ((start ingestor.ed tables).run before).Reads P a) actions) :
    Kept P ((start ingestor.ed tables).run actions) := by
  induction actions using List.reverseRecOn with
  | nil => exact kept_of_new rfl rfl rfl
  | append_singleton actions a ih =>
    obtain ⟨hbefore, ha⟩ := Runs.guarded_concat.mp hreads
    rw [run_concat]
    exact (ih hbefore).step ha

/-- Each restart adds at most one to the rows of an event. -/
theorem count_le (tables : Tables) (actions : List (DeploymentAction ingestor.ed))
    (identity : String × String × UtcDatetime) :
    let d := (start ingestor.ed tables).run actions
    let before := (tables.detectionEvents.map DetectionEventRecord.identity).count identity
    (d.inherited.map DetectionEventRecord.identity).count identity ≤
        before + restarts actions ∧
      (d.rows.map DetectionEventRecord.identity).count identity ≤
        before + restarts actions + 1 := by
  intro d before
  have hreads : ∀ actions : List (DeploymentAction ingestor.ed), Runs.Guarded
      (fun before a => ((start ingestor.ed tables).run before).Reads (fun _ _ => True) a)
      actions := by
    intro actions past a after hsplit
    cases a with
    | restart => trivial
    | act a => cases a <;> simp [Reads]
  have hrows : ∀ actions : List (DeploymentAction ingestor.ed),
      ((((start ingestor.ed tables).run actions).rows).map DetectionEventRecord.identity).count
          identity ≤
        (((start ingestor.ed tables).run actions).inherited.map
          DetectionEventRecord.identity).count identity + 1 := by
    intro actions
    obtain ⟨newer, hnewer, hnodup, -⟩ := (kept_run tables actions (hreads actions)).newer
    have hone := List.nodup_iff_count_le_one.mp hnodup identity
    rw [hnewer, List.map_append, List.count_append]
    omega
  suffices hinherited : (d.inherited.map DetectionEventRecord.identity).count identity ≤
      before + restarts actions by
    have hlast : (d.rows.map DetectionEventRecord.identity).count identity ≤
      (d.inherited.map DetectionEventRecord.identity).count identity + 1 := hrows actions
    exact ⟨hinherited, by omega⟩
  induction actions using List.reverseRecOn with
  | nil => simp [d, before, run, start, restarts]
  | append_singleton actions a ih =>
    have hpast := hrows actions
    simp only [d, before, run_concat, restarts_concat] at ih ⊢
    cases a with
    | act a =>
      have hzero : restarts [DeploymentAction.act a] = 0 := rfl
      simp only [Deployment.step, hzero]
      omega
    | restart =>
      have hone : restarts [(DeploymentAction.restart : DeploymentAction ingestor.ed)] = 1 := rfl
      simp only [Deployment.step, restart, hone]
      omega

/-- What could be fresh when a process stores it is no row that the process found expired. -/
theorem nodup_of_expired {d : Deployment ingestor.ed} (h : Kept (Expired ingestor.settings) d)
    (hinherited : (d.inherited.map DetectionEventRecord.identity).Nodup) :
    (d.rows.map DetectionEventRecord.identity).Nodup := by
  obtain ⟨newer, hnewer, hnodup, hlate⟩ := h.newer
  rw [hnewer, List.map_append]
  refine hinherited.append hnodup ?_
  intro identity hold hnew
  obtain ⟨old, hfound, rfl⟩ := List.mem_map.mp hold
  obtain ⟨row, hrow, hidentity⟩ := List.mem_map.mp hnew
  obtain ⟨now, hexpired, hfresh⟩ := hlate row hrow
  have hpast := hexpired old hfound
  have hinstant : row.timestampUtc = old.timestampUtc :=
    congrArg (fun identity => identity.2.2) hidentity
  rw [hinstant] at hfresh
  omega

theorem inherited_nodup {tables : Tables} {actions : List (DeploymentAction ingestor.ed)}
    (hnodup : (tables.detectionEvents.map DetectionEventRecord.identity).Nodup)
    (hreads : Runs.Guarded (fun before a =>
      ((start ingestor.ed tables).run before).Reads (Expired ingestor.settings) a) actions) :
    (((start ingestor.ed tables).run actions).inherited.map
      DetectionEventRecord.identity).Nodup := by
  induction actions using List.reverseRecOn with
  | nil => exact hnodup
  | append_singleton actions a ih =>
    obtain ⟨hbefore, -⟩ := Runs.guarded_concat.mp hreads
    rw [run_concat]
    cases a with
    | act a => exact ih hbefore
    | restart => exact nodup_of_expired (kept_run tables actions hbefore) (ih hbefore)

/-- Replays across restarts. However calls interleave, whatever they carry and whenever the
process restarts, an event gets at most one row from each process; and it gets none from a
process that reads its clock only after everything it found in the tables has expired. -/
theorem restarts_bound_duplicates (ingestor : DetectionEventIngestor) (tables : Tables)
    (actions : List (DeploymentAction ingestor.ed)) :
    let d := (start ingestor.ed tables).run actions
    (∀ identity, (d.rows.map DetectionEventRecord.identity).count identity ≤
      (tables.detectionEvents.map DetectionEventRecord.identity).count identity +
        (restarts actions + 1)) ∧
    ((tables.detectionEvents.map DetectionEventRecord.identity).Nodup →
      Runs.Guarded (fun before a =>
        ((start ingestor.ed tables).run before).Reads (Expired ingestor.settings) a) actions →
      (d.rows.map DetectionEventRecord.identity).Nodup) := by
  intro d
  constructor
  · intro identity
    have hcount : (d.rows.map DetectionEventRecord.identity).count identity ≤ _ :=
      (count_le tables actions identity).2
    omega
  · intro hnodup hreads
    exact nodup_of_expired (kept_run tables actions hreads) (inherited_nodup hnodup hreads)

/-- A process with an empty replay state stores the event of the call. -/
def Storable (ingestor : DetectionEventIngestor) (tables : Tables) (call : IngestCall) : Prop :=
  ingestor.authenticate tables call.lookupRaises call.envelope = .ok () ∧
    (∃ now, call.reading = .utc now ∧
      WithinSkew ingestor.settings now call.envelope.body.instant ∧
      SupportedRange ingestor.settings now call.envelope.body.instant) ∧
    call.envelope.body.FitsColumns ∧ call.commit ≠ .failed

theorem Storable.congr {tables tables' : Tables} (h : tables'.nodes = tables.nodes)
    (call : IngestCall) : Storable ingestor tables' call ↔ Storable ingestor tables call := by
  unfold Storable
  rw [DetectionEventIngestor.authenticate_registry (Tables.registry_congr h)]

theorem enterLock_initial (r : Reservation) : (enterLock .initial r).2 = .ok r.decision := by
  have hclock : clockBehind ReplayState.initial.latestAcceptedAtUtc r.acceptedAt = false := rfl
  have hempty : ∀ k, k ∉ Expiry.prune r.acceptedAt ReplayState.initial.seen := by
    intro k hk
    obtain ⟨a, ha, -⟩ := (holds_initial.mem_prune_iff hclock k).mp hk
    cases ha
  unfold enterLock
  rw [if_neg (by simp [hclock])]
  simp [hempty]

/-- A fresh event that fits is stored unless the commit fails. -/
theorem recordEvent_row {tables : Tables} {call : IngestCall}
    (hauth : ingestor.authenticate tables call.lookupRaises call.envelope = .ok ())
    (hfits : call.envelope.body.FitsColumns) (hcommit : call.commit ≠ .failed)
    (decision : EventSecurityDecision) : ∃ stored : DetectionEventRecord,
      stored.identity = call.envelope.body.identity ∧
      (ingestor.recordEvent tables call decision).1 = tables.addEvent stored := by
  obtain ⟨-, node, publicKey, hnode, -, hverify⟩ :=
    DetectionEventIngestor.authenticate_eq_ok.mp hauth
  obtain ⟨message, hmessage, -⟩ := verifyDetectionEnvelope_eq_true.mp hverify
  obtain ⟨record, hrecord⟩ := exists_fromEvent hmessage decision.acceptedAtUtc
  have hinsert := DetectionEventIngestor.insertEvent_of_fits hrecord hfits hnode
  have hstores : ingestor.Stores tables call.envelope.body decision.acceptedAtUtc
      { record with recordId := some tables.nextRecordId } := ⟨record, hrecord, rfl⟩
  refine ⟨_, hstores.isOf.1.identity_eq, ?_⟩
  unfold DetectionEventIngestor.recordEvent
  rw [hrecord]
  cases hc : call.commit with
  | failed => exact absurd hc hcommit
  | persisted => simp [hinsert, CommitOutcome.apply]
  | persistedRaised => simp [hinsert, CommitOutcome.apply]

/-- An event that does not fit, or whose commit fails, is not stored. -/
theorem recordEvent_none {tables : Tables} {call : IngestCall}
    (h : ¬ (call.envelope.body.FitsColumns ∧ call.commit ≠ .failed))
    (decision : EventSecurityDecision) :
    (ingestor.recordEvent tables call decision).1 = tables := by
  unfold DetectionEventIngestor.recordEvent
  cases hrecord : DetectionEventRecord.fromEvent ingestor.reprFloat call.envelope.body
    decision.acceptedAtUtc with
  | error e => rfl
  | ok record =>
    by_cases hfits : call.envelope.body.FitsColumns
    · have hcommit : call.commit = .failed := not_not.mp fun hcommit => h ⟨hfits, hcommit⟩
      dsimp only
      cases tables.insertEvent record with
      | none => rfl
      | some result => simp [hcommit, CommitOutcome.apply]
    · have hbindable : Tables.bindable record = false :=
        Bool.eq_false_iff.mpr fun hb => hfits ((bindable_fromEvent hrecord).mp hb)
      have hinsert : tables.insertEvent record = none := by
        unfold Tables.insertEvent
        simp [hbindable]
      simp [hinsert]

/-- What a process that has just started does with its first call. -/
theorem ingest_first (ingestor : DetectionEventIngestor) (tables : Tables) (call : IngestCall) :
    (Storable ingestor tables call → ∃ stored : DetectionEventRecord,
      stored.identity = call.envelope.body.identity ∧
      (ingestor.ingest ⟨.initial, tables⟩ call).1.tables = tables.addEvent stored) ∧
    (¬ Storable ingestor tables call →
      (ingestor.ingest ⟨.initial, tables⟩ call).1.tables.detectionEvents =
        tables.detectionEvents) := by
  constructor
  · rintro ⟨hauth, ⟨now, hreading, hfresh, hrange⟩, hfits, hcommit⟩
    obtain ⟨r, hr⟩ := exists_prepared hfresh hrange
    have haccept : (acceptVerifiedEvent ingestor.settings .initial call.reading
        call.envelope.body).2 = .ok r.decision := by
      simp [acceptVerifiedEvent, hreading, requireClock, prepare_ok_iff.mpr hr, enterLock_initial]
    rcases DetectionEventIngestor.ingest_cases ingestor ⟨.initial, tables⟩ call with
      ⟨failure, -, hfailure | ⟨-, e, he, -⟩⟩ | ⟨d, -, -, hs⟩
    · cases hauth.symm.trans hfailure
    · cases haccept.symm.trans he
    · obtain ⟨stored, hidentity, hrow⟩ := recordEvent_row hauth hfits hcommit d
      exact ⟨stored, hidentity, by rw [hs, hrow]⟩
  · intro hnot
    rcases DetectionEventIngestor.ingest_cases ingestor ⟨.initial, tables⟩ call with
      ⟨failure, hs, -⟩ | ⟨d, hauth, hd, hs⟩
    · rw [hs]
      exact (refuse_events tables call failure).1
    · rcases acceptVerifiedEvent_cases ingestor.settings .initial call.reading
        call.envelope.body with ⟨e, -, he⟩ | ⟨now, e, -, -, he⟩ | ⟨now, r, hreading, hr, -⟩
      · rw [he] at hd
        cases hd
      · rw [he] at hd
        cases hd
      · have hnone : ¬ (call.envelope.body.FitsColumns ∧ call.commit ≠ .failed) := fun hrest =>
          hnot ⟨hauth, ⟨now, hreading, hr.fresh, hr.supported⟩, hrest⟩
        rw [hs, recordEvent_none hnone]

/-- One delivery of the call to a process without open calls. -/
def delivery (ed : Ed25519) (call : IngestCall) : List (DeploymentAction ed) :=
  [.act (.submit call), .act (.advance 0), .act (.advance 0), .act (.advance 0), .act (.advance 0)]

/-- The call is delivered, and again after each of the restarts. -/
def deliveries (ed : Ed25519) (call : IngestCall) : ℕ → List (DeploymentAction ed)
  | 0 => delivery ed call
  | n + 1 => deliveries ed call n ++ .restart :: delivery ed call

theorem run_delivery {d : Deployment ingestor.ed} (hcalls : d.process.calls = [])
    (call : IngestCall) : (d.run (delivery ingestor.ed call)).process.state =
      (ingestor.ingest d.process.state call).1 := by
  have hserial := d.process.run_serial call
  rw [hcalls] at hserial
  exact congrArg Aggregator.state hserial

/-- Of a delivery only the first action reads the clock. -/
theorem reads_delivery {P : List DetectionEventRecord → UtcDatetime → Prop}
    (d : Deployment ingestor.ed) (call : IngestCall)
    (h : ∀ now, call.reading = .utc now → P d.inherited now) :
    Runs.Guarded (fun before a => (d.run before).Reads P a) (delivery ingestor.ed call) := by
  intro before a after hsplit
  cases before with
  | nil =>
    obtain ⟨rfl, -⟩ := List.cons.inj hsplit
    exact h
  | cons first before =>
    have hmem : a ∈ (delivery ingestor.ed call).tail := by
      rw [show (delivery ingestor.ed call).tail = _ from (List.cons.inj hsplit).2]
      simp
    obtain rfl : a = .act (.advance 0) := by simpa [delivery] using hmem
    trivial

theorem restarts_deliveries (ed : Ed25519) (call : IngestCall) (n : ℕ) :
    restarts (deliveries ed call n) = n := by
  induction n with
  | zero => rfl
  | succ n ih =>
    have hlast : restarts (.restart :: delivery ed call) = 1 := rfl
    unfold restarts at ih hlast ⊢
    rw [deliveries, List.countP_append, ih, hlast]

/-- The bound is met. A call that a process stores when it has just started is stored again after
every restart, so that n restarts give its event n + 1 rows; any other call gets none. -/
theorem restart_bound_is_attained (ingestor : DetectionEventIngestor) (tables : Tables)
    (call : IngestCall) (n : ℕ) :
    let d := (start ingestor.ed tables).run (deliveries ingestor.ed call n)
    restarts (deliveries ingestor.ed call n) = n ∧
    (Storable ingestor tables call →
      (d.rows.map DetectionEventRecord.identity).count call.envelope.body.identity =
        (tables.detectionEvents.map DetectionEventRecord.identity).count
          call.envelope.body.identity + (n + 1)) ∧
    (¬ Storable ingestor tables call → d.rows = tables.detectionEvents) := by
  intro d
  refine ⟨restarts_deliveries ingestor.ed call n, ?_⟩
  suffices h : d.process.state.tables.nodes = tables.nodes ∧
      (Storable ingestor tables call →
        (d.rows.map DetectionEventRecord.identity).count call.envelope.body.identity =
          (tables.detectionEvents.map DetectionEventRecord.identity).count
            call.envelope.body.identity + (n + 1)) ∧
      (¬ Storable ingestor tables call → d.rows = tables.detectionEvents) from h.2
  -- One delivery to a process that has just started, whatever earlier ones left in the tables.
  have hdeliver : ∀ before : Deployment ingestor.ed, before.process.calls = [] →
      before.process.state.policy = .initial → before.process.state.tables.nodes = tables.nodes →
      let after := before.run (delivery ingestor.ed call)
      after.process.state.tables.nodes = tables.nodes ∧
      (Storable ingestor tables call →
        (after.rows.map DetectionEventRecord.identity).count call.envelope.body.identity =
          (before.rows.map DetectionEventRecord.identity).count
            call.envelope.body.identity + 1) ∧
      (¬ Storable ingestor tables call → after.rows = before.rows) := by
    intro before hcalls hpolicy hnodes after
    have hstate : before.process.state = ⟨.initial, before.process.state.tables⟩ := by
      rw [← hpolicy]
    have hafter : after.process.state = _ := run_delivery hcalls call
    have hkept : (ingestor.ingest before.process.state call).1.tables.nodes =
        before.process.state.tables.nodes :=
      DetectionEventIngestor.ingest_nodes before.process.state call
    obtain ⟨hstores, hnothing⟩ := ingest_first ingestor before.process.state.tables call
    rw [← hstate, ← hafter, Storable.congr hnodes] at hstores hnothing
    refine ⟨by rw [hafter, hkept, hnodes], fun h => ?_, hnothing⟩
    obtain ⟨stored, hidentity, hrow⟩ := hstores h
    have hrows : after.rows = before.rows ++ [stored] := by
      unfold rows
      rw [hrow]
      rfl
    rw [hrows, List.map_append, List.count_append, List.map_singleton, hidentity,
      List.count_singleton_self]
  induction n with
  | zero => exact hdeliver (start ingestor.ed tables) rfl rfl rfl
  | succ n ih =>
    obtain ⟨hnodes, hstores, hnothing⟩ := ih
    obtain ⟨hnodes', hstores', hnothing'⟩ := hdeliver
      ((start ingestor.ed tables).run (deliveries ingestor.ed call n)).restart rfl rfl hnodes
    have hrun : d = ((start ingestor.ed tables).run (deliveries ingestor.ed call n)).restart.run
        (delivery ingestor.ed call) := by
      simp only [d, deliveries, run, List.foldl_append, List.foldl_cons]
      rfl
    rw [hrun]
    refine ⟨hnodes', fun h => ?_, fun h => (hnothing' h).trans (hnothing h)⟩
    have hlast := hstores' h
    have hbefore := hstores h
    have hsame : ∀ e : Deployment ingestor.ed, e.restart.rows = e.rows := fun _ => rfl
    rw [hsame] at hlast
    omega

section Sample
open DetectionEventIngestor (sample sampleTables sampleCall sampleEvent authenticate_sample
  fitsColumns_sample exists_sign_sampleEvent)

/-- A sample call is stored by a process that has just started. -/
theorem storable_sample {tables : Tables} (hnodes : tables.nodes = sampleTables.nodes)
    {instant : UtcDatetime} (hskew : WithinSkew sample.settings instant instant)
    (hrange : SupportedRange sample.settings instant instant) {envelope : SignedDetectionEnvelope}
    (hsign : signDetectionEvent sample.ed sample.reprFloat (sampleEvent instant) (7 : UInt8) =
      .ok envelope) : Storable sample tables (sampleCall envelope .persisted) := by
  rw [Storable.congr hnodes]
  have hbody := (signDetectionEvent_eq_ok hsign).1
  have hinstant : (sampleCall envelope .persisted).envelope.body.instant = instant := by
    show envelope.body.instant = instant
    rw [hbody]
    rfl
  have hreading : (sampleCall envelope .persisted).reading = .utc instant :=
    congrArg ClockReading.utc hinstant
  refine ⟨authenticate_sample hsign, ⟨instant, hreading, ?_, ?_⟩, ?_, by simp [sampleCall]⟩
  · rw [hinstant]
    exact hskew
  · rw [hinstant]
    exact hrange
  · show envelope.body.FitsColumns
    rw [hbody]
    exact fitsColumns_sample instant

/-- A process that starts late enough stores its event beside the one it found. -/
theorem restarts_bound_duplicates_late_start : ∃ older newer,
    let d := (start sample.ed sampleTables).run
      (delivery sample.ed (sampleCall older .persisted) ++
        ([.restart] ++ delivery sample.ed (sampleCall newer .persisted)))
    d.rows.length = 2 ∧ (d.rows.map DetectionEventRecord.identity).Nodup := by
  let first : UtcDatetime := ⟨63893000000000000, by decide⟩
  let second : UtcDatetime := ⟨63893000031000000, by decide⟩
  obtain ⟨older, holder⟩ := exists_sign_sampleEvent first
  obtain ⟨newer, hnewer⟩ := exists_sign_sampleEvent second
  have hbody := (signDetectionEvent_eq_ok holder).1
  have hbody' := (signDetectionEvent_eq_ok hnewer).1
  refine ⟨older, newer, ?_⟩
  let found := ((start sample.ed sampleTables).run
    (delivery sample.ed (sampleCall older .persisted))).restart
  obtain ⟨row, hidentity, hrow⟩ := (ingest_first sample sampleTables
    (sampleCall older .persisted)).1 (storable_sample rfl (by decide)
      ⟨by decide, by decide, by decide, by decide⟩ holder)
  have hfound : found.process.state = ⟨.initial, sampleTables.addEvent row⟩ := by
    show IngestState.mk .initial _ = _
    rw [run_delivery rfl]
    exact congrArg (IngestState.mk .initial) hrow
  have hinherited : found.inherited = [row] :=
    (congrArg (fun state => state.tables.detectionEvents) hfound : found.rows = _)
  have hinstant : row.timestampUtc = first := by
    have hinstants := congrArg (fun identity => identity.2.2) hidentity
    refine hinstants.trans ?_
    show older.body.instant = first
    rw [hbody]
    rfl
  obtain ⟨row', hidentity', hrow'⟩ := (ingest_first sample (sampleTables.addEvent row)
    (sampleCall newer .persisted)).1 (storable_sample rfl (by decide)
      ⟨by decide, by decide, by decide, by decide⟩ hnewer)
  intro d
  have hd : d = found.run (delivery sample.ed (sampleCall newer .persisted)) := by
    show (start _ _).run (_ ++ (_ ++ _)) = _
    unfold run
    rw [List.foldl_append, List.foldl_append]
    rfl
  constructor
  · have hrows : d.rows = [row, row'] := by
      unfold rows
      rw [hd, run_delivery rfl, hfound, hrow']
      rfl
    rw [hrows]
    rfl
  · apply (restarts_bound_duplicates sample sampleTables _).2 List.nodup_nil
    apply Runs.Guarded.append
    · exact reads_delivery _ _ fun now _ row hrow => absurd hrow List.not_mem_nil
    · apply Runs.Guarded.append
      · exact Runs.guarded_concat.mpr ⟨Runs.Guarded.nil, trivial⟩
      · have hlate : Runs.Guarded (fun before a =>
            (found.run before).Reads (Expired sample.settings) a)
            (delivery sample.ed (sampleCall newer .persisted)) := by
          apply reads_delivery
          intro now hnow stored hstored
          rw [hinherited] at hstored
          obtain rfl := List.mem_singleton.mp hstored
          have hreading : ClockReading.utc newer.body.instant = .utc now := hnow
          obtain rfl := ClockReading.utc.inj hreading
          rw [hinstant, hbody']
          show first.micros + _ < second.micros
          decide
        intro before a after hsplit
        have hrun : (start sample.ed sampleTables).run
            (delivery sample.ed (sampleCall older .persisted) ++ ([.restart] ++ before)) =
            found.run before := by
          unfold run
          rw [List.foldl_append, List.foldl_append]
          rfl
        rw [hrun]
        exact hlate before a after hsplit

theorem restart_bound_is_attained_two_restarts : ∃ envelope,
    let d := (start sample.ed sampleTables).run
      (deliveries sample.ed (sampleCall envelope .persisted) 2)
    (d.rows.map DetectionEventRecord.identity).count envelope.body.identity = 3 := by
  obtain ⟨envelope, hsign⟩ := exists_sign_sampleEvent ⟨63893000000000000, by decide⟩
  have hstorable := storable_sample rfl (by decide) ⟨by decide, by decide, by decide, by decide⟩
    hsign
  exact ⟨envelope, (restart_bound_is_attained sample sampleTables
    (sampleCall envelope .persisted) 2).2.1 hstorable⟩

end Sample

end Deployment

end SecureEdge
