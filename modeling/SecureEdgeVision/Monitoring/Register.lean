import SecureEdgeVision.Monitoring.Convergence
import SecureEdgeVision.Monitoring.Queries

/-! The heartbeat register of a node as callers see it: what a call writes against its answer, and
what the node view shows. -/
namespace SecureEdge

open LastWrite (Evolves)

/-- What a heartbeat offers to the register of the node. -/
def NodeHeartbeat.offers (heartbeat : NodeHeartbeat) (nodeId : SafeIdentifier) : List Liveness :=
  if heartbeat.nodeId = nodeId then [heartbeat.liveness] else []

/-- The register of the node evolved, and it is there if it was. -/
structure Tables.Beats (nodeId : SafeIdentifier) (before after : Tables)
    (offered confirmed : List Liveness) : Prop where
  registry : after.registry = before.registry
  known : ∀ stored, before.liveness nodeId = some stored → ∃ last,
    after.liveness nodeId = some last ∧ Evolves Liveness.key stored last offered confirmed
  unknown : before.liveness nodeId = none → after.liveness nodeId = none ∧ confirmed = []

namespace Tables.Beats
variable {nodeId : SafeIdentifier} {before after last : Tables}
  {offered offered' confirmed confirmed' : List Liveness}

/-- What leaves the register alone confirms nothing. -/
theorem of_same (hregistry : after.registry = before.registry)
    (hliveness : after.liveness nodeId = before.liveness nodeId) (offered : List Liveness) :
    Beats nodeId before after offered [] := by
  constructor
  · exact hregistry
  · intro stored hstored
    exact ⟨stored, hliveness.trans hstored, .refl stored offered⟩
  · intro hnone
    exact ⟨hliveness.trans hnone, rfl⟩

theorem of_nodes (h : after.nodes = before.nodes) (offered : List Liveness) :
    Beats nodeId before after offered [] := by
  apply of_same
  · unfold Tables.registry
    rw [h]
  · unfold Tables.liveness getNode
    rw [h]

theorem trans (h : Beats nodeId before after offered confirmed)
    (h' : Beats nodeId after last offered' confirmed') :
    Beats nodeId before last (offered ++ offered') (confirmed ++ confirmed') := by
  constructor
  · exact h'.registry.trans h.registry
  · intro stored hstored
    obtain ⟨middle, hmiddle, hevolves⟩ := h.known stored hstored
    obtain ⟨final, hfinal, hevolves'⟩ := h'.known middle hmiddle
    exact ⟨final, hfinal, hevolves.trans hevolves'⟩
  · intro hnone
    obtain ⟨hafter, hconfirmed⟩ := h.unknown hnone
    obtain ⟨hlast, hconfirmed'⟩ := h'.unknown hafter
    exact ⟨hlast, by rw [hconfirmed, hconfirmed', List.append_nil]⟩

end Tables.Beats

section Record
variable {tables : Tables} {nodeId : SafeIdentifier}

/-- The update of one row writes what the heartbeat offers. -/
theorem Tables.updateNodes_beats (hkeys : tables.NodesDistinct) {heartbeat : NodeHeartbeat}
    (hrows : (tables.updateNodes heartbeat).2 = 1) {confirmed : List Liveness}
    (hconfirmed : confirmed.Sublist (heartbeat.offers nodeId)) :
    Tables.Beats nodeId tables (tables.updateNodes heartbeat).1 (heartbeat.offers nodeId)
      confirmed := by
  obtain ⟨stored, hstored, hkey⟩ := (updateNodes_one_iff hkeys).mp hrows
  unfold NodeHeartbeat.offers at hconfirmed ⊢
  split_ifs at hconfirmed ⊢ with hid
  · subst hid
    have hafter : (tables.updateNodes heartbeat).1.liveness heartbeat.nodeId =
        some heartbeat.liveness := by
      rw [liveness_updateNodes_self, hstored, Option.map_some, LastWrite.put_of_lt hkey]
    constructor
    · exact tables.updateNodes_registry heartbeat
    · intro found hfound
      obtain rfl := Option.some.inj (hstored.symm.trans hfound)
      exact ⟨_, hafter, .of_lt hkey hconfirmed⟩
    · intro hnone
      cases hstored.symm.trans hnone
  · obtain rfl := List.sublist_nil.mp hconfirmed
    exact .of_same (tables.updateNodes_registry heartbeat) (liveness_updateNodes_of_ne hid) []

/-- A call that returns has written its heartbeat. One that raises may have. -/
theorem HeartbeatService.record_beats (settings : SecuritySettings) (hkeys : tables.NodesDistinct)
    (call : HeartbeatCall) {confirmed : List Liveness}
    (hconfirmed : confirmed.Sublist (call.heartbeat.offers nodeId))
    (hreturned : confirmed ≠ [] → (record settings tables call).2 = .ok ()) :
    Tables.Beats nodeId tables (record settings tables call).1 (call.heartbeat.offers nodeId)
      confirmed := by
  rcases record_cases settings tables call with
    ⟨failure, h⟩ | ⟨-, -, hrows, ⟨-, h⟩ | ⟨-, h⟩⟩
  · have hnone : confirmed = [] := by
      by_contra hsome
      rw [h] at hreturned
      cases hreturned hsome
    rw [h, hnone]
    exact .of_nodes rfl _
  · rw [h]
    exact Tables.updateNodes_beats hkeys hrows hconfirmed
  · rw [h]
    exact Tables.updateNodes_beats hkeys hrows hconfirmed

end Record

section View
variable {tables : Tables}

def NodeHealth.liveness (health : NodeHealth) : Liveness :=
  ⟨health.lastSeenAtUtc, health.healthStatus⟩

theorem NodeRecord.toHeartbeat_eq_ok {record : NodeRecord} {heartbeat : Option NodeHeartbeat}
    (h : record.toHeartbeat = .ok heartbeat) :
    record.lastSeenAtUtc = heartbeat.map (fun x => x.timestampUtc.instant) ∧
      record.healthStatus = heartbeat.map NodeHeartbeat.status := by
  unfold toHeartbeat at h
  cases hseen : record.lastSeenAtUtc with
  | none =>
    cases hstatus : record.healthStatus with
    | none =>
      rw [hseen, hstatus] at h
      obtain rfl := Except.ok.inj h
      exact ⟨rfl, rfl⟩
    | some status => simp [hseen, hstatus] at h
  | some lastSeen =>
    cases hstatus : record.healthStatus with
    | none => simp [hseen, hstatus] at h
    | some status =>
      rw [hseen, hstatus] at h
      dsimp only at h
      cases hid : SafeIdentifier.ofText? record.nodeId with
      | none => simp [hid] at h
      | some nodeId =>
        rw [hid] at h
        obtain rfl := Except.ok.inj h
        exact ⟨rfl, rfl⟩

theorem readBack_eq_ok {α : Type} {result : Except PersistenceError α} {x : α} :
    readBack result = .ok x ↔ result = .ok x := by
  cases result <;> simp [readBack]

/-- A view that returns has read all its rows. -/
theorem result_of_monitored {α : Type} {call : ListCall} {result : Except ReadFailure α} {x : α}
    (h : monitored call result = .ok x) : result = .ok x := by
  unfold monitored at h
  cases result with
  | error e => split_ifs at h
  | ok y =>
    dsimp only at h
    split_ifs at h
    exact congrArg Except.ok (Except.ok.inj h)

/-- The view shows the columns of a record. -/
theorem NodeRecord.health_eq_ok {record : NodeRecord} {health : NodeHealth}
    (h : record.health = .ok health) :
    record.nodeId = health.nodeId.text ∧ record.liveness = health.liveness := by
  unfold NodeRecord.health at h
  obtain ⟨registration, hregistration, h⟩ := Python.bind_eq_ok.mp h
  obtain ⟨heartbeat, hheartbeat, h⟩ := Python.bind_eq_ok.mp h
  obtain rfl := Except.ok.inj h
  obtain ⟨hseen, hstatus⟩ := toHeartbeat_eq_ok (readBack_eq_ok.mp hheartbeat)
  refine ⟨(toRegistration_text (readBack_eq_ok.mp hregistration)).1, ?_⟩
  rw [NodeRecord.liveness, NodeHealth.liveness, hseen, hstatus]

/-- What the node view lists is what the registers hold. -/
theorem listNodeHealth_liveness (hkeys : tables.NodesDistinct) {call : ListCall}
    {healths : List NodeHealth} (h : listNodeHealth tables.database call = .ok healths)
    {health : NodeHealth} (hhealth : health ∈ healths) :
    tables.liveness health.nodeId = some health.liveness := by
  obtain ⟨records, hrecords, hhealths⟩ := Python.bind_eq_ok.mp (result_of_monitored h)
  obtain ⟨record, hrecord, hshown⟩ := Python.exists_of_mapM hhealths hhealth
  obtain ⟨row, hrow, hfetched⟩ := Python.exists_of_mapM (readBack_eq_ok.mp hrecords) hrecord
  obtain ⟨stored, hstored, rfl⟩ := List.mem_map.mp (mem_of_mem_listed hrow)
  obtain rfl := Except.ok.inj (stored.fetch_row.symm.trans hfetched)
  obtain ⟨hid, hliveness⟩ := NodeRecord.health_eq_ok hshown
  rw [Tables.liveness, Tables.getNode_of_mem hkeys hstored hid, Option.map_some, hliveness]

end View

end SecureEdge
