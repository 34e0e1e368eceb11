import SecureEdgeVision.Aggregator.Settlement
import SecureEdgeVision.Ingestion.Accounting
import SecureEdgeVision.Ingestion.Concurrent
import SecureEdgeVision.Runs.Order

/-! Concurrent ingestion is linearizable. Every interleaving answers as the serial process does
that takes the calls in the order in which they were decided, and stores what that one stores. -/
namespace SecureEdge

namespace CallPhase

/-- Neither refused nor accepted by the policy. -/
def undecided : CallPhase → Bool
  | .opened | .verified | .waiting _ => true
  | .storing _ | .rejecting _ | .finished _ => false

def ofResolution : Resolution → CallPhase
  | .error failure => .fail failure
  | .ok d => .storing d

/-- The resolution of a call that is decided and has yet to write. -/
def pending? : CallPhase → Option Resolution
  | .storing d => some (.ok d)
  | .rejecting reason => some (.error (.rejection reason))
  | _ => none

theorem ofResolution_decided (resolution : Resolution) :
    (ofResolution resolution).undecided = false := by
  cases resolution with
  | error failure => cases failure <;> rfl
  | ok d => rfl

theorem pending?_of_undecided {phase : CallPhase} (h : phase.undecided = true) :
    phase.pending? = none := by
  cases phase <;> simp_all [undecided, pending?]

end CallPhase

/-- What is known of a call that is still undecided. -/
def DetectionEventIngestor.Underway (ingestor : DetectionEventIngestor) (tables : Tables)
    (c : OpenCall) : Prop :=
  match c.phase with
  | .verified => ingestor.authenticate tables c.call.lookupRaises c.call.envelope = .ok ()
  | .waiting r => ingestor.authenticate tables c.call.lookupRaises c.call.envelope = .ok () ∧
      ∃ now, requireClock c.call.reading = .ok now ∧ prepare ingestor.settings now c.body = .ok r
  | _ => True

section Advance
variable {ingestor : DetectionEventIngestor} {state : IngestState} {c : OpenCall}

theorem advance_decided (h : c.phase.undecided = false) :
    (ingestor.advance state c).2.undecided = false := by
  obtain ⟨call, phase⟩ := c
  cases phase <;> simp_all [CallPhase.undecided, DetectionEventIngestor.advance]

/-- A step of an undecided call learns something about it, or decides it as a serial call that
starts now would be decided. -/
theorem advance_undecided (h : c.phase.undecided = true)
    (hunderway : ingestor.Underway state.tables c) :
    (∃ phase, ingestor.advance state c = (state, phase) ∧ phase.undecided = true ∧
      ingestor.Underway state.tables ⟨c.call, phase⟩) ∨
    ingestor.advance state c = (⟨(ingestor.resolve state c.call).1, state.tables⟩,
      .ofResolution (ingestor.resolve state c.call).2) := by
  obtain ⟨call, phase⟩ := c
  cases phase with
  | opened =>
    cases hauth : ingestor.authenticate state.tables call.lookupRaises call.envelope with
    | error failure =>
      right
      simp [DetectionEventIngestor.advance, DetectionEventIngestor.resolve, hauth,
        CallPhase.ofResolution]
    | ok _ =>
      exact Or.inl ⟨.verified, by simp [DetectionEventIngestor.advance, hauth], rfl, hauth⟩
  | verified =>
    have hauth : ingestor.authenticate state.tables call.lookupRaises call.envelope = .ok () :=
      hunderway
    cases hclock : requireClock call.reading with
    | error e =>
      right
      simp [DetectionEventIngestor.advance, DetectionEventIngestor.resolve, acceptVerifiedEvent,
        hauth, hclock, CallPhase.ofResolution]
    | ok now =>
      cases hprepare : prepare ingestor.settings now call.envelope.body with
      | error e =>
        right
        simp [DetectionEventIngestor.advance, DetectionEventIngestor.resolve, acceptVerifiedEvent,
          hauth, hclock, OpenCall.body, hprepare, CallPhase.ofResolution]
      | ok r =>
        left
        refine ⟨.waiting r, ?_, rfl, hauth, now, hclock, hprepare⟩
        simp [DetectionEventIngestor.advance, hclock, OpenCall.body, hprepare]
  | waiting r =>
    obtain ⟨hauth, now, hclock, hprepare⟩ := hunderway
    have hcall : acceptVerifiedEvent ingestor.settings state.policy call.reading
        call.envelope.body = enterLock state.policy r := by
      simp only [OpenCall.body] at hprepare
      simp [acceptVerifiedEvent, hclock, hprepare]
    right
    simp only [DetectionEventIngestor.advance, DetectionEventIngestor.resolve, hauth, hcall]
    cases enterLock state.policy r with
    | mk policy outcome => cases outcome <;> simp [CallPhase.ofResolution]
  | storing d => cases h
  | rejecting reason => cases h
  | finished outcome => cases h

theorem advance_pending {resolution : Resolution} (h : c.phase.pending? = some resolution) :
    ingestor.advance state c =
      (⟨state.policy, (ingestor.settle state.tables c.call resolution).1⟩,
        .finished (ingestor.settle state.tables c.call resolution).2) := by
  obtain ⟨call, phase⟩ := c
  cases phase <;> simp [CallPhase.pending?] at h <;> subst h <;> rfl

end Advance

namespace Aggregator
variable {ingestor : DetectionEventIngestor}

def Decided {ed : Ed25519} (s : Aggregator ed) (i : ℕ) : Prop :=
  ∃ c, s.calls[i]? = some c ∧ c.phase.undecided = false

/-- The call that the action decides. -/
def decides (s : Aggregator ingestor.ed) : AggregatorAction ingestor.ed → Option ℕ
  | .advance i =>
    match s.calls[i]? with
    | none => none
    | some c =>
      if c.phase.undecided && !(ingestor.advance s.state c).2.undecided then some i else none
  | _ => none

/-- The calls in the order in which the run decides them. -/
def decisionOrder (s : Aggregator ingestor.ed) (actions : List (AggregatorAction ingestor.ed)) :
    List ℕ :=
  Runs.decisions (@step ingestor) decides s actions

/-- The calls that the actions submit. -/
def submitted {ed : Ed25519} (actions : List (AggregatorAction ed)) : List IngestCall :=
  actions.filterMap fun
    | .submit call => some call
    | _ => none

theorem decides_advance {s : Aggregator ingestor.ed} {i : ℕ} {c : OpenCall}
    (hi : s.calls[i]? = some c) : s.decides (.advance i) =
      if c.phase.undecided && !(ingestor.advance s.state c).2.undecided then some i else none := by
  simp [decides, hi]

theorem deciding : Runs.Deciding (@step ingestor) decides Decided where
  next s a i := by
    cases a with
    | sign privateKey event =>
      have hcalls : (s.step (.sign privateKey event)).calls = s.calls := by
        simp only [step]
        split <;> rfl
      simp [Decided, hcalls, decides]
    | submit call =>
      simp only [Decided, step, decides, List.getElem?_append, reduceCtorEq, or_false]
      constructor
      · rintro ⟨c, hc, hdecided⟩
        split at hc
        · exact ⟨c, hc, hdecided⟩
        · obtain rfl := List.mem_singleton.mp (List.mem_of_getElem? hc)
          cases hdecided
      · rintro ⟨c, hc, hdecided⟩
        exact ⟨c, by rw [if_pos (List.getElem?_eq_some_iff.mp hc).1, hc], hdecided⟩
    | advance j =>
      cases hj : s.calls[j]? with
      | none => simp [step_absent hj, decides, hj]
      | some c =>
        have hlt := (List.getElem?_eq_some_iff.mp hj).1
        rw [step_advance hj, decides_advance hj]
        by_cases hij : i = j
        · subst hij
          simp only [Decided, update, List.getElem?_set_self hlt, hj, Option.some.injEq,
            exists_eq_left']
          cases hc : c.phase.undecided with
          | false => simp [advance_decided hc]
          | true => simp
        · have hset : ∀ c' : OpenCall, (s.calls.set j c')[i]? = s.calls[i]? := fun c' =>
            List.getElem?_set_ne (Ne.symm hij)
          have hne : ¬ j = i := fun h => hij h.symm
          simp [Decided, update, hset, hne]
  once s a i hdecides := by
    cases a with
    | sign privateKey event => cases hdecides
    | submit call => cases hdecides
    | advance j =>
      cases hj : s.calls[j]? with
      | none => simp [decides, hj] at hdecides
      | some c =>
        rw [decides_advance hj] at hdecides
        split_ifs at hdecides with hopen
        obtain rfl := Option.some.inj hdecides
        simp only [Bool.and_eq_true] at hopen
        simp [Decided, hj, hopen.1]

/-- A decided call. -/
structure Decision where
  index : ℕ
  call : IngestCall
  resolution : Resolution

/-- What the decision comes to, among these nodes. -/
def Decision.effect (ingestor : DetectionEventIngestor) (nodes : List NodeRecord) (e : Decision) :
    Effect :=
  ingestor.effect nodes e.call e.resolution

/-- The call moves towards the effect of its decision. -/
def Follows (ingestor : DetectionEventIngestor) (nodes : List NodeRecord) (c : OpenCall)
    (e : Decision) : Prop :=
  c.call = e.call ∧ (c.phase = .ofResolution e.resolution ∨
    ∃ outcome, c.phase = .finished outcome ∧ outcome.response = (e.effect ingestor nodes).response)

/-- What the call is still to write. -/
def pendingEffect (ingestor : DetectionEventIngestor) (nodes : List NodeRecord) (c : OpenCall) :
    Option Effect :=
  c.phase.pending?.map (ingestor.effect nodes c.call)

/-- The serial process that took the decided calls in this order. -/
def serialRun (ingestor : DetectionEventIngestor) (tables : Tables) (log : List Decision) :
    IngestState × List IngestOutcome :=
  ingestor.serve ⟨.initial, tables⟩ (log.map Decision.call)

/-- The serial process has the replay state, and did what its calls come to. -/
structure Serial (ingestor : DetectionEventIngestor) (tables : Tables) (log : List Decision)
    (policy : ReplayState) : Prop where
  policy : (serialRun ingestor tables log).1.policy = policy
  nodes : (serialRun ingestor tables log).1.tables.nodes = tables.nodes
  rows : (serialRun ingestor tables log).1.tables.detectionEvents.map
      DetectionEventRecord.unnumbered =
    tables.detectionEvents.map DetectionEventRecord.unnumbered ++
      (log.map (Decision.effect ingestor tables.nodes)).flatMap Effect.rows
  alerts : (serialRun ingestor tables log).1.tables.securityAlerts = tables.securityAlerts ++
    (log.map (Decision.effect ingestor tables.nodes)).flatMap Effect.alerts
  responses : (serialRun ingestor tables log).2.map IngestOutcome.response =
    (log.map (Decision.effect ingestor tables.nodes)).map Effect.response

/-- The invariant: the decided calls, taken serially, explain the process but for what is still
to be written. -/
structure Linearized (tables : Tables) (s : Aggregator ingestor.ed) (log : List Decision) :
    Prop where
  nodes : s.state.tables.nodes = tables.nodes
  underway : ∀ c ∈ s.calls, ingestor.Underway tables c
  decided : ∀ e ∈ log, ∃ c, s.calls[e.index]? = some c ∧ Follows ingestor tables.nodes c e
  alertIds : ∀ alert ∈ s.state.tables.securityAlerts, alert ∈ tables.securityAlerts ∨
    ∃ (j : ℕ) (c : OpenCall), s.calls[j]? = some c ∧ (∃ outcome, c.phase = .finished outcome) ∧
      c.call.alertId = some alert.alertId.text
  rows : Runs.Deferred Effect.rows (tables.detectionEvents.map DetectionEventRecord.unnumbered)
    (s.state.tables.detectionEvents.map DetectionEventRecord.unnumbered)
    (s.calls.filterMap (pendingEffect ingestor tables.nodes))
    (log.map (Decision.effect ingestor tables.nodes))
  alerts : Runs.Deferred Effect.alerts tables.securityAlerts s.state.tables.securityAlerts
    (s.calls.filterMap (pendingEffect ingestor tables.nodes))
    (log.map (Decision.effect ingestor tables.nodes))
  serial : Serial ingestor tables log s.state.policy

/-- The alert factory gives no ID twice. -/
def DistinctIds {ed : Ed25519} (s : Aggregator ed) : Prop :=
  ∀ (i j : ℕ) (c c' : OpenCall) (alertId : String), s.calls[i]? = some c →
    s.calls[j]? = some c' → c.call.alertId = some alertId → c'.call.alertId = some alertId → i = j

section Step
variable {tables : Tables} {s : Aggregator ingestor.ed} {log : List Decision} {i : ℕ}
  {c : OpenCall}

theorem update_self (hi : s.calls[i]? = some c) (next : IngestState × CallPhase) :
    (s.update i c next).calls[i]? = some ⟨c.call, next.2⟩ :=
  List.getElem?_set_self (List.getElem?_eq_some_iff.mp hi).1

theorem update_other {j : ℕ} (hij : i ≠ j) (next : IngestState × CallPhase) :
    (s.update i c next).calls[j]? = s.calls[j]? :=
  List.getElem?_set_ne hij

/-- Moving one call on replaces what it is still to write. -/
theorem pendingEffect_set (nodes : List NodeRecord) (hi : s.calls[i]? = some c)
    (phase : CallPhase) :
    ((pendingEffect ingestor nodes c).toList ++
        (s.calls.set i ⟨c.call, phase⟩).filterMap (pendingEffect ingestor nodes)).Perm
      ((pendingEffect ingestor nodes ⟨c.call, phase⟩).toList ++
        s.calls.filterMap (pendingEffect ingestor nodes)) :=
  Runs.filterMap_set_perm (pendingEffect ingestor nodes) hi ⟨c.call, phase⟩

/-- A finished call stays finished. -/
theorem Linearized.alertIds_set (h : Linearized tables s log) (hi : s.calls[i]? = some c)
    (hc : ∀ outcome, c.phase ≠ .finished outcome) (c' : OpenCall) {alert : SecurityAlert}
    (ha : alert ∈ s.state.tables.securityAlerts) : alert ∈ tables.securityAlerts ∨
      ∃ (j : ℕ) (d : OpenCall), (s.calls.set i c')[j]? = some d ∧
        (∃ outcome, d.phase = .finished outcome) ∧ d.call.alertId = some alert.alertId.text := by
  rcases h.alertIds alert ha with ha | ⟨j, d, hj, hfinished, hid⟩
  · exact Or.inl ha
  · have hne : i ≠ j := by
      intro heq
      subst heq
      obtain rfl := Option.some.inj (hi.symm.trans hj)
      obtain ⟨outcome, hphase⟩ := hfinished
      exact hc outcome hphase
    exact Or.inr ⟨j, d, by rw [List.getElem?_set_ne hne, hj], hfinished, hid⟩

theorem Linearized.underway_set (h : Linearized tables s log) {c' : OpenCall}
    (hc' : ingestor.Underway tables c') : ∀ d ∈ s.calls.set i c', ingestor.Underway tables d := by
  intro d hd
  rcases List.mem_or_eq_of_mem_set hd with hd | rfl
  · exact h.underway d hd
  · exact hc'

/-- A decided call is not an undecided one. -/
theorem Linearized.index_ne (h : Linearized tables s log) (hi : s.calls[i]? = some c)
    (hopen : c.phase.undecided = true) {e : Decision} (he : e ∈ log) : i ≠ e.index := by
  intro heq
  obtain ⟨d, hd, -, hphase⟩ := h.decided e he
  rw [← heq, hi] at hd
  obtain rfl := Option.some.inj hd
  rcases hphase with hphase | ⟨outcome, hphase, -⟩
  · simp [hphase, CallPhase.ofResolution_decided] at hopen
  · simp [hphase, CallPhase.undecided] at hopen

/-- An undecided call learned something about itself. -/
theorem Linearized.learn (h : Linearized tables s log) (hi : s.calls[i]? = some c)
    (hopen : c.phase.undecided = true) {phase : CallPhase} (hphase : phase.undecided = true)
    (hunderway : ingestor.Underway tables ⟨c.call, phase⟩) :
    Linearized tables (s.update i c (s.state, phase)) log where
  nodes := h.nodes
  underway := h.underway_set hunderway
  decided e he := by
    obtain ⟨d, hd, hfollows⟩ := h.decided e he
    have hne := h.index_ne hi hopen he
    exact ⟨d, (update_other hne _).trans hd, hfollows⟩
  alertIds alert ha := by
    have hc : ∀ outcome, c.phase ≠ .finished outcome := fun outcome hc => by
      simp [hc, CallPhase.undecided] at hopen
    exact h.alertIds_set hi hc _ ha
  rows := by
    have hperm := pendingEffect_set tables.nodes hi phase
    simp only [pendingEffect, CallPhase.pending?_of_undecided hopen,
      CallPhase.pending?_of_undecided hphase] at hperm
    exact h.rows.congr hperm
  alerts := by
    have hperm := pendingEffect_set tables.nodes hi phase
    simp only [pendingEffect, CallPhase.pending?_of_undecided hopen,
      CallPhase.pending?_of_undecided hphase] at hperm
    exact h.alerts.congr hperm
  serial := h.serial

/-- The serial process takes one more call. -/
theorem Serial.concat {policy : ReplayState} (h : Serial ingestor tables log policy)
    (call : IngestCall) (index : ℕ)
    (hfresh : (serialRun ingestor tables log).1.tables.FreshFor call.alertId) :
    Serial ingestor tables
      (log ++ [⟨index, call, (ingestor.resolve ⟨policy, tables⟩ call).2⟩])
      (ingestor.resolve ⟨policy, tables⟩ call).1 := by
  have hresolve : ingestor.resolve (serialRun ingestor tables log).1 call =
      ingestor.resolve ⟨policy, tables⟩ call :=
    ingestor.resolve_nodes h.policy h.nodes call
  have hrun : ∀ resolution, serialRun ingestor tables (log ++ [⟨index, call, resolution⟩]) =
      ((ingestor.ingest (serialRun ingestor tables log).1 call).1,
        (serialRun ingestor tables log).2 ++
          [(ingestor.ingest (serialRun ingestor tables log).1 call).2]) := by
    intro resolution
    unfold serialRun DetectionEventIngestor.serve
    rw [List.map_append, List.map_singleton, Runs.run_concat]
  have hingest := ingestor.ingest_eq_settle (serialRun ingestor tables log).1 call
  obtain ⟨hnodes, hrows, halerts, hresponse⟩ :=
    ingestor.settle_effect hfresh (ingestor.resolve ⟨policy, tables⟩ call).2
  rw [h.nodes] at hnodes hrows halerts hresponse
  rw [hresolve] at hingest
  refine ⟨?_, ?_, ?_, ?_, ?_⟩
  all_goals rw [hrun, hingest]
  · exact hnodes
  · simp [hrows, h.rows, Decision.effect]
  · simp [halerts, h.alerts, Decision.effect]
  · simp [hresponse, h.responses, Decision.effect]

/-- The serial process has no alert of a call that is still undecided. -/
theorem Linearized.serial_fresh (h : Linearized tables s log) (hdistinct : s.DistinctIds)
    (hfresh : tables.FreshFor c.call.alertId) (hi : s.calls[i]? = some c)
    (hopen : c.phase.undecided = true) :
    (serialRun ingestor tables log).1.tables.FreshFor c.call.alertId := by
  intro alert ha hid
  rw [h.serial.alerts] at ha
  rcases List.mem_append.mp ha with ha | ha
  · exact hfresh alert ha hid
  · obtain ⟨effect, heffect, ha⟩ := List.mem_flatMap.mp ha
    obtain ⟨e, he, rfl⟩ := List.mem_map.mp heffect
    obtain ⟨d, hd, hcall, -⟩ := h.decided e he
    have hother : d.call.alertId = some alert.alertId.text := by
      rw [hcall]
      exact DetectionEventIngestor.effect_alertId ha
    exact h.index_ne hi hopen he (hdistinct i e.index c d _ hi hd hid hother)

/-- A decided call is to write what its decision comes to, if anything. -/
theorem pendingEffect_ofResolution (nodes : List NodeRecord) (call : IngestCall)
    (resolution : Resolution) :
    pendingEffect ingestor nodes ⟨call, .ofResolution resolution⟩ =
        some (ingestor.effect nodes call resolution) ∨
      pendingEffect ingestor nodes ⟨call, .ofResolution resolution⟩ = none ∧
        (ingestor.effect nodes call resolution).rows = [] ∧
        (ingestor.effect nodes call resolution).alerts = [] := by
  cases resolution with
  | error failure =>
    cases failure with
    | rejection reason => exact Or.inl rfl
    | service => exact Or.inr ⟨rfl, rfl, rfl⟩
  | ok d => exact Or.inl rfl

/-- The decision is written down, and its effect is pending unless there is none. -/
theorem deferred_decide {β : Type*} {part : Effect → List β} {origin written : List β}
    (h : Runs.Deferred part origin written
      (s.calls.filterMap (pendingEffect ingestor tables.nodes))
      (log.map (Decision.effect ingestor tables.nodes)))
    (hi : s.calls[i]? = some c) (hopen : c.phase.undecided = true) (resolution : Resolution)
    (hpart : ∀ effect : Effect, effect.rows = [] → effect.alerts = [] → part effect = []) :
    Runs.Deferred part origin written
      ((s.calls.set i ⟨c.call, .ofResolution resolution⟩).filterMap
        (pendingEffect ingestor tables.nodes))
      ((log ++ [(⟨i, c.call, resolution⟩ : Decision)]).map
        (Decision.effect ingestor tables.nodes)) := by
  have hperm := pendingEffect_set tables.nodes hi (.ofResolution resolution)
  have hold : pendingEffect ingestor tables.nodes c = none := by
    simp [pendingEffect, CallPhase.pending?_of_undecided hopen]
  rw [hold] at hperm
  rw [List.map_append]
  rcases pendingEffect_ofResolution tables.nodes c.call resolution with
    hnew | ⟨hnew, hrows, halerts⟩
  · rw [hnew] at hperm
    exact (h.decide _).congr hperm
  · rw [hnew] at hperm
    exact (h.decide_nothing (hpart _ hrows halerts)).congr hperm

/-- An undecided call is decided as the serial process decides it. -/
theorem Linearized.decide (h : Linearized tables s log) (hdistinct : s.DistinctIds)
    (hfresh : tables.FreshFor c.call.alertId) (hi : s.calls[i]? = some c)
    (hopen : c.phase.undecided = true) :
    Linearized tables (s.update i c (⟨(ingestor.resolve s.state c.call).1, s.state.tables⟩,
        .ofResolution (ingestor.resolve s.state c.call).2))
      (log ++ [⟨i, c.call, (ingestor.resolve s.state c.call).2⟩]) where
  nodes := h.nodes
  underway := by
    refine h.underway_set ?_
    cases (ingestor.resolve s.state c.call).2 with
    | error failure => cases failure <;> trivial
    | ok d => trivial
  decided e he := by
    rcases List.mem_append.mp he with he | he
    · obtain ⟨d, hd, hfollows⟩ := h.decided e he
      exact ⟨d, (update_other (h.index_ne hi hopen he) _).trans hd, hfollows⟩
    · obtain rfl := List.mem_singleton.mp he
      exact ⟨⟨c.call, _⟩, update_self hi _, rfl, Or.inl rfl⟩
  alertIds alert ha := by
    have hc : ∀ outcome, c.phase ≠ .finished outcome := fun outcome hc => by
      simp [hc, CallPhase.undecided] at hopen
    exact h.alertIds_set hi hc _ ha
  rows := deferred_decide h.rows hi hopen _ fun _ hrows _ => hrows
  alerts := deferred_decide h.alerts hi hopen _ fun _ _ halerts => halerts
  serial := by
    have hresolve : ingestor.resolve s.state c.call =
        ingestor.resolve ⟨s.state.policy, tables⟩ c.call := by
      apply DetectionEventIngestor.resolve_nodes
      · rfl
      · exact h.nodes
    have hserial := h.serial.concat c.call i (h.serial_fresh hdistinct hfresh hi hopen)
    rwa [← hresolve] at hserial

theorem resolution_of_pending {resolution resolution' : Resolution}
    (h : (CallPhase.ofResolution resolution).pending? = some resolution') :
    resolution' = resolution := by
  cases resolution with
  | error failure => cases failure <;> simp_all [CallPhase.ofResolution, CallPhase.fail,
      CallPhase.pending?]
  | ok d => simp_all [CallPhase.ofResolution, CallPhase.pending?]

/-- The process has no alert of a call that is yet to write one. -/
theorem Linearized.fresh (h : Linearized tables s log) (hdistinct : s.DistinctIds)
    (hfresh : tables.FreshFor c.call.alertId) (hi : s.calls[i]? = some c)
    (hc : ∀ outcome, c.phase ≠ .finished outcome) :
    s.state.tables.FreshFor c.call.alertId := by
  intro alert ha hid
  rcases h.alertIds alert ha with ha | ⟨j, d, hj, ⟨outcome, hfinished⟩, hother⟩
  · exact hfresh alert ha hid
  · obtain rfl := hdistinct i j c d _ hi hj hid hother
    obtain rfl := Option.some.inj (hi.symm.trans hj)
    exact hc outcome hfinished

/-- A decided call writes what its decision comes to. -/
theorem Linearized.settle (h : Linearized tables s log) (hdistinct : s.DistinctIds)
    (hfresh : tables.FreshFor c.call.alertId) (hi : s.calls[i]? = some c)
    {resolution : Resolution} (hpending : c.phase.pending? = some resolution) :
    Linearized tables (s.update i c
      (⟨s.state.policy, (ingestor.settle s.state.tables c.call resolution).1⟩,
        .finished (ingestor.settle s.state.tables c.call resolution).2)) log := by
  have hc : ∀ outcome, c.phase ≠ .finished outcome := fun outcome hc => by
    simp [hc, CallPhase.pending?] at hpending
  obtain ⟨hnodes, hrows, halerts, hresponse⟩ :=
    ingestor.settle_effect (h.fresh hdistinct hfresh hi hc) resolution
  rw [h.nodes] at hnodes hrows halerts hresponse
  have hperm := pendingEffect_set tables.nodes hi
    (.finished (ingestor.settle s.state.tables c.call resolution).2)
  have hold : pendingEffect ingestor tables.nodes c =
      some (ingestor.effect tables.nodes c.call resolution) := by simp [pendingEffect, hpending]
  have hnew : ∀ outcome, pendingEffect ingestor tables.nodes ⟨c.call, .finished outcome⟩ = none :=
    fun _ => rfl
  rw [hold, hnew] at hperm
  refine ⟨hnodes, h.underway_set trivial, ?_, ?_, ?_, ?_, h.serial⟩
  · intro e he
    obtain ⟨d, hd, hcall, hphase⟩ := h.decided e he
    by_cases hie : i = e.index
    · subst hie
      obtain rfl := Option.some.inj (hi.symm.trans hd)
      refine ⟨_, update_self hi _, hcall, Or.inr ⟨_, rfl, ?_⟩⟩
      rcases hphase with hphase | ⟨outcome, hphase, -⟩
      · rw [hphase] at hpending
        rw [hresponse, Decision.effect, hcall, resolution_of_pending hpending]
      · exact absurd hphase (hc outcome)
    · exact ⟨d, (update_other hie _).trans hd, hcall, hphase⟩
  · intro alert ha
    have ha : alert ∈ (ingestor.settle s.state.tables c.call resolution).1.securityAlerts := ha
    rw [halerts] at ha
    rcases List.mem_append.mp ha with ha | ha
    · exact h.alertIds_set hi hc _ ha
    · exact Or.inr ⟨i, ⟨c.call, _⟩, update_self hi _, ⟨_, rfl⟩,
        DetectionEventIngestor.effect_alertId ha⟩
  · show Runs.Deferred _ _ ((ingestor.settle s.state.tables c.call
      resolution).1.detectionEvents.map DetectionEventRecord.unnumbered) _ _
    rw [hrows]
    exact (h.rows.congr hperm).write
  · show Runs.Deferred _ _
      (ingestor.settle s.state.tables c.call resolution).1.securityAlerts _ _
    rw [halerts]
    exact (h.alerts.congr hperm).write

theorem Linearized.submit (h : Linearized tables s log) (call : IngestCall) :
    Linearized tables { s with calls := s.calls ++ [⟨call, .opened⟩] } log := by
  have hkept : ∀ {j : ℕ} {d : OpenCall}, s.calls[j]? = some d →
      (s.calls ++ [(⟨call, .opened⟩ : OpenCall)])[j]? = some d := by
    intro j d hd
    rw [List.getElem?_append_left (List.getElem?_eq_some_iff.mp hd).1, hd]
  have hpending : (s.calls ++ [(⟨call, .opened⟩ : OpenCall)]).filterMap
      (pendingEffect ingestor tables.nodes) =
      s.calls.filterMap (pendingEffect ingestor tables.nodes) := by
    simp [pendingEffect, CallPhase.pending?]
  refine ⟨h.nodes, ?_, ?_, ?_, ?_, ?_, h.serial⟩
  · intro c hc
    rcases List.mem_append.mp hc with hc | hc
    · exact h.underway c hc
    · rw [List.mem_singleton.mp hc]
      trivial
  · intro e he
    obtain ⟨d, hd, hfollows⟩ := h.decided e he
    exact ⟨d, hkept hd, hfollows⟩
  · intro alert ha
    rcases h.alertIds alert ha with ha | ⟨j, d, hj, hd⟩
    · exact Or.inl ha
    · exact Or.inr ⟨j, d, hkept hj, hd⟩
  · dsimp only
    rw [hpending]
    exact h.rows
  · dsimp only
    rw [hpending]
    exact h.alerts

theorem Underway.congr {tables' : Tables} (hnodes : tables'.nodes = tables.nodes)
    (h : ingestor.Underway tables c) : ingestor.Underway tables' c := by
  obtain ⟨call, phase⟩ := c
  have hauth : ingestor.authenticate tables' call.lookupRaises call.envelope =
      ingestor.authenticate tables call.lookupRaises call.envelope :=
    DetectionEventIngestor.authenticate_registry (Tables.registry_congr hnodes) _ _
  cases phase <;> simp_all [DetectionEventIngestor.Underway]

/-- Step lemma: what the action decides goes to the end of the serial order. -/
theorem Linearized.step (h : Linearized tables s log) (hdistinct : s.DistinctIds)
    (hfresh : ∀ c ∈ s.calls, tables.FreshFor c.call.alertId)
    (a : AggregatorAction ingestor.ed) : ∃ log' : List Decision,
      log'.map Decision.index = log.map Decision.index ++ (s.decides a).toList ∧
      Linearized tables (s.step a) log' := by
  cases a with
  | sign privateKey event =>
    refine ⟨log, by simp [decides], ?_⟩
    simp only [Aggregator.step]
    split
    next => exact h
    next => exact ⟨h.nodes, h.underway, h.decided, h.alertIds, h.rows, h.alerts, h.serial⟩
  | submit call => exact ⟨log, by simp [decides], h.submit call⟩
  | advance i =>
    cases hi : s.calls[i]? with
    | none => exact ⟨log, by simp [decides, hi], by rwa [step_absent hi]⟩
    | some c =>
      have hmem := List.mem_of_getElem? hi
      rw [step_advance hi, decides_advance hi]
      cases hopen : c.phase.undecided with
      | true =>
        have hunderway := Underway.congr h.nodes (h.underway c hmem)
        rcases advance_undecided hopen hunderway with ⟨phase, hs, hphase, hlearned⟩ | hs
        · rw [hs]
          exact ⟨log, by simp [hphase],
            h.learn hi hopen hphase (Underway.congr h.nodes.symm hlearned)⟩
        · rw [hs]
          exact ⟨_, by simp [CallPhase.ofResolution_decided],
            h.decide hdistinct (hfresh c hmem) hi hopen⟩
      | false =>
        refine ⟨log, by simp, ?_⟩
        cases hpending : c.phase.pending? with
        | some resolution =>
          rw [advance_pending hpending]
          exact h.settle hdistinct (hfresh c hmem) hi hpending
        | none =>
          obtain ⟨call, phase⟩ := c
          cases phase with
          | finished outcome =>
            have hsame : s.calls.set i ⟨call, .finished outcome⟩ = s.calls := by
              obtain ⟨hlt, hget⟩ := List.getElem?_eq_some_iff.mp hi
              rw [← hget, List.set_getElem_self]
            rw [advance_finished]
            unfold update
            rw [hsame]
            exact h
          | storing d => cases hpending
          | rejecting reason => cases hpending
          | opened => cases hopen
          | verified => cases hopen
          | waiting r => cases hopen

end Step

theorem linearized_start (tables : Tables) :
    Linearized tables (start ingestor.ed tables) [] where
  nodes := rfl
  underway c hc := by cases hc
  decided e he := by cases he
  alertIds alert ha := Or.inl ha
  rows := by simp [Runs.Deferred, start]
  alerts := by simp [Runs.Deferred, start]
  serial := ⟨rfl, rfl, by simp [serialRun, DetectionEventIngestor.serve],
    by simp [serialRun, DetectionEventIngestor.serve], rfl⟩

theorem step_submitted (s : Aggregator ingestor.ed) (a : AggregatorAction ingestor.ed) :
    (s.step a).calls.map OpenCall.call = s.calls.map OpenCall.call ++ submitted [a] := by
  cases a with
  | sign privateKey event =>
    simp only [step, submitted]
    split <;> simp
  | submit call => simp [step, submitted]
  | advance i =>
    cases hi : s.calls[i]? with
    | none => simp [step_absent hi, submitted]
    | some c =>
      rw [step_advance hi]
      have hcalls : (s.calls.set i ⟨c.call, (ingestor.advance s.state c).2⟩).map OpenCall.call =
          s.calls.map OpenCall.call := Runs.map_set_of_eq OpenCall.call hi rfl
      simpa [update, submitted] using hcalls

theorem run_concat (s : Aggregator ingestor.ed) (actions : List (AggregatorAction ingestor.ed))
    (a : AggregatorAction ingestor.ed) : s.run (actions ++ [a]) = (s.run actions).step a := by
  simp [run]

/-- The calls of a process are those submitted to it, in order. -/
theorem run_submitted (tables : Tables) (actions : List (AggregatorAction ingestor.ed)) :
    ((start ingestor.ed tables).run actions).calls.map OpenCall.call = submitted actions := by
  induction actions using List.reverseRecOn with
  | nil => rfl
  | append_singleton actions a ih =>
    rw [run_concat, step_submitted, ih]
    simp [submitted]

theorem distinctIds_of_nodup {ed : Ed25519} {s : Aggregator ed}
    (h : ((s.calls.map OpenCall.call).filterMap IngestCall.alertId).Nodup) : s.DistinctIds := by
  have hpairwise : s.calls.Pairwise fun c c' => ∀ x, c.call.alertId = some x →
      ∀ y, c'.call.alertId = some y → x ≠ y := by
    simpa [List.Nodup, List.pairwise_filterMap, List.pairwise_map] using h
  have hlt : ∀ (i j : ℕ) (c c' : OpenCall) (alertId : String), s.calls[i]? = some c →
      s.calls[j]? = some c' → c.call.alertId = some alertId → c'.call.alertId = some alertId →
      ¬ i < j := by
    intro i j c c' alertId hi hj hc hc' hij
    obtain ⟨hilt, rfl⟩ := List.getElem?_eq_some_iff.mp hi
    obtain ⟨hjlt, rfl⟩ := List.getElem?_eq_some_iff.mp hj
    exact List.pairwise_iff_getElem.mp hpairwise i j hilt hjlt hij alertId hc alertId hc' rfl
  intro i j c c' alertId hi hj hc hc'
  have hij := hlt i j c c' alertId hi hj hc hc'
  have hji := hlt j i c' c alertId hj hi hc' hc
  omega

/-- Run lemma: every run has a serial order of its decided calls. -/
theorem exists_linearized (tables : Tables) (actions : List (AggregatorAction ingestor.ed))
    (hdistinct : ((submitted actions).filterMap IngestCall.alertId).Nodup)
    (hfresh : ∀ call ∈ submitted actions, tables.FreshFor call.alertId) :
    ∃ log : List Decision,
      log.map Decision.index = (start ingestor.ed tables).decisionOrder actions ∧
      Linearized tables ((start ingestor.ed tables).run actions) log := by
  induction actions using List.reverseRecOn with
  | nil => exact ⟨[], rfl, linearized_start tables⟩
  | append_singleton actions a ih =>
    have hsplit : submitted (actions ++ [a]) = submitted actions ++ submitted [a] := by
      simp [submitted]
    rw [hsplit] at hdistinct hfresh
    rw [List.filterMap_append] at hdistinct
    have hdistinct := (List.nodup_append.mp hdistinct).1
    have hfresh := fun call hcall => hfresh call (List.mem_append_left _ hcall)
    obtain ⟨log, horder, h⟩ := ih hdistinct hfresh
    have hcalls := run_submitted tables actions
    have hids : ((start ingestor.ed tables).run actions).DistinctIds := by
      apply distinctIds_of_nodup
      rwa [hcalls]
    have hfreshCalls : ∀ c ∈ ((start ingestor.ed tables).run actions).calls,
        tables.FreshFor c.call.alertId := by
      intro c hc
      apply hfresh
      rw [← hcalls]
      exact List.mem_map_of_mem hc
    obtain ⟨log', horder', h'⟩ := h.step hids hfreshCalls a
    refine ⟨log', ?_, ?_⟩
    · rw [horder', horder]
      exact (Runs.decisions_concat _ _ _ actions a).symm
    · rwa [run_concat]

/-- The log lists the decided calls as the process holds them. -/
theorem Linearized.calls_eq {tables : Tables} {s : Aggregator ingestor.ed} {log : List Decision}
    (h : Linearized tables s log) :
    ((log.map Decision.index).filterMap fun i => (s.calls[i]?).map OpenCall.call) =
      log.map Decision.call := by
  rw [List.filterMap_map, ← List.filterMap_eq_map]
  apply List.filterMap_congr
  intro e he
  obtain ⟨c, hc, hcall, -⟩ := h.decided e he
  simp [hc, hcall]

/-- Linearizability. In every interleaving of calls whose alerts get fresh IDs, each decided call
takes effect once, at the step that decides it: the serial process that takes the calls in this
order has the same replay state, gives every finished call the same response and, when nothing is
still to be written, has stored the same events and the same alerts. What was decided before a
call was decided, or submitted, comes before it. -/
theorem concurrent_ingestion_is_linearizable (ingestor : DetectionEventIngestor) (tables : Tables)
    (actions : List (AggregatorAction ingestor.ed))
    (hdistinct : ((submitted actions).filterMap IngestCall.alertId).Nodup)
    (hfresh : ∀ call ∈ submitted actions, tables.FreshFor call.alertId) :
    let s := (start ingestor.ed tables).run actions
    let order := (start ingestor.ed tables).decisionOrder actions
    let serial := ingestor.serve ⟨.initial, tables⟩
      (order.filterMap fun i => (s.calls[i]?).map OpenCall.call)
    order.Nodup ∧ (∀ i, i ∈ order ↔ s.Decided i) ∧
      serial.1.policy = s.state.policy ∧
      (∀ (k i : ℕ) (c : OpenCall) (outcome : IngestOutcome), order[k]? = some i →
        s.calls[i]? = some c → c.phase = .finished outcome →
          (serial.2[k]?).map IngestOutcome.response = some outcome.response) ∧
      ((∀ c ∈ s.calls, c.phase.pending? = none) →
        s.state.tables.nodes = serial.1.tables.nodes ∧
        (s.state.tables.detectionEvents.map DetectionEventRecord.unnumbered).Perm
          (serial.1.tables.detectionEvents.map DetectionEventRecord.unnumbered) ∧
        s.state.tables.securityAlerts.Perm serial.1.tables.securityAlerts) ∧
      ∀ before after i j, actions = before ++ after →
        ((start ingestor.ed tables).run before).Decided i →
        ¬ ((start ingestor.ed tables).run before).Decided j →
          order.idxOf i < order.idxOf j := by
  intro s order serial
  obtain ⟨log, horder, h⟩ := exists_linearized tables actions hdistinct hfresh
  have hopen : ∀ i, ¬ (start ingestor.ed tables).Decided i := by
    intro i hi
    obtain ⟨c, hc, -⟩ := hi
    cases hc
  have hserial : serial = serialRun ingestor tables log := by
    show ingestor.serve _ (((start ingestor.ed tables).decisionOrder actions).filterMap _) = _
    rw [← horder, h.calls_eq]
    rfl
  refine ⟨deciding.nodup _ actions, deciding.mem hopen actions, ?_, ?_, ?_, ?_⟩
  · rw [hserial]
    exact h.serial.policy
  · intro k i c outcome hk hi hphase
    have hindex : (log.map Decision.index)[k]? = some i := by rw [horder]; exact hk
    rw [List.getElem?_map] at hindex
    obtain ⟨e, he, rfl⟩ := Option.map_eq_some_iff.mp hindex
    obtain ⟨d, hd, hcall, hfollows⟩ := h.decided e (List.mem_of_getElem? he)
    obtain rfl := Option.some.inj (hi.symm.trans hd)
    have hresponse : outcome.response = (e.effect ingestor tables.nodes).response := by
      rcases hfollows with hresolved | ⟨outcome', hfinished, hresponse⟩
      · -- Only a service error is finished as soon as it is decided.
        rw [hphase] at hresolved
        cases hresolution : e.resolution with
        | ok d =>
          rw [hresolution] at hresolved
          cases hresolved
        | error failure =>
          rw [hresolution] at hresolved
          cases failure with
          | rejection reason => cases hresolved
          | service =>
            obtain rfl := CallPhase.finished.inj hresolved
            rw [Decision.effect, hresolution]
            rfl
      · obtain rfl := CallPhase.finished.inj (hphase.symm.trans hfinished)
        exact hresponse
    rw [hserial, ← List.getElem?_map, h.serial.responses, hresponse]
    simp [he]
  · intro hsettled
    have hnone : s.calls.filterMap (pendingEffect ingestor tables.nodes) = [] := by
      rw [List.filterMap_eq_nil_iff]
      intro c hc
      simp [pendingEffect, hsettled c hc]
    have hrows := h.rows
    have halerts := h.alerts
    rw [show ((start ingestor.ed tables).run actions).calls = s.calls from rfl, hnone]
      at hrows halerts
    rw [hserial, h.serial.rows, h.serial.alerts]
    exact ⟨h.nodes.trans h.serial.nodes.symm, hrows.done, halerts.done⟩
  · intro before after i j hsplit hi hj
    show (decisionOrder _ actions).idxOf i < (decisionOrder _ actions).idxOf j
    rw [hsplit]
    exact deciding.lt hopen before after hi hj

section Sample
open DetectionEventIngestor (sample sampleCall exists_sign_sampleEvent)

/-- Two calls for nodes that nobody registered, of which the second is looked up first. -/
def crossedCalls (envelope : SignedDetectionEnvelope) : List (AggregatorAction sample.ed) :=
  [.submit (sampleCall envelope .persisted),
    .submit { sampleCall envelope .persisted with alertId := some "alert-2" },
    .advance 1, .advance 0, .advance 0, .advance 1]

theorem concurrent_ingestion_is_linearizable_crossed_calls : ∃ envelope,
    let s := (start sample.ed ⟨[], [], []⟩).run (crossedCalls envelope)
    let serial := sample.serve ⟨.initial, ⟨[], [], []⟩⟩
      [{ sampleCall envelope .persisted with alertId := some "alert-2" },
        sampleCall envelope .persisted]
    (start sample.ed ⟨[], [], []⟩).decisionOrder (crossedCalls envelope) = [1, 0] ∧
      s.state.tables.securityAlerts.Perm serial.1.tables.securityAlerts := by
  obtain ⟨envelope, -⟩ := exists_sign_sampleEvent ⟨63893000000000000, by decide⟩
  refine ⟨envelope, rfl, ?_⟩
  have hdistinct : ((submitted (crossedCalls envelope)).filterMap IngestCall.alertId).Nodup := by
    show ["alert-1", "alert-2"].Nodup
    decide
  obtain ⟨-, -, -, -, hstored, -⟩ := concurrent_ingestion_is_linearizable sample ⟨[], [], []⟩
    (crossedCalls envelope) hdistinct (fun _ _ _ h => by cases h)
  have hsettled : ((start sample.ed ⟨[], [], []⟩).run (crossedCalls envelope)).calls.all
      (fun c => c.phase.pending?.isNone) = true := rfl
  refine (hstored fun c hc => ?_).2.2
  simpa using List.all_eq_true.mp hsettled c hc

end Sample

end Aggregator

end SecureEdge
