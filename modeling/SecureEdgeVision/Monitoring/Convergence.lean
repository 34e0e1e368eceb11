import SecureEdgeVision.Monitoring.Concurrent
import SecureEdgeVision.Runs.Serial

/-! Heartbeats of a node never regress, and their order does not matter: to each node the server
is a register that keeps the latest write. -/
namespace SecureEdge

open LastWrite (put puts kept)

/-- The liveness columns of a node. -/
structure Liveness where
  lastSeenAtUtc : Option UtcDatetime
  healthStatus : Option HealthStatus
deriving DecidableEq

def Liveness.key (liveness : Liveness) : WithBot UtcDatetime :=
  match liveness.lastSeenAtUtc with
  | none => ⊥
  | some lastSeen => (lastSeen : WithBot UtcDatetime)

def NodeRecord.liveness (record : NodeRecord) : Liveness :=
  ⟨record.lastSeenAtUtc, record.healthStatus⟩

/-- What a node stores of its heartbeat. -/
def NodeHeartbeat.liveness (heartbeat : NodeHeartbeat) : Liveness :=
  ⟨some heartbeat.timestampUtc.instant, some heartbeat.status⟩

def Tables.liveness (tables : Tables) (nodeId : SafeIdentifier) : Option Liveness :=
  (tables.getNode nodeId).map NodeRecord.liveness

/-- The update ran and was committed. -/
def HeartbeatAnswer.accepted (answer : HeartbeatAnswer) : Bool :=
  match answer.outcome with
  | .ok () => true
  | .error _ => false

/-- The update ran, whether it found its row or not. -/
def HeartbeatAnswer.attempted (answer : HeartbeatAnswer) : Bool :=
  match answer.outcome with
  | .ok () => true
  | .error failure => failure = .rejection .outOfOrderHeartbeat

namespace HeartbeatServer

/-- The heartbeats of the node that were accepted, in commit order. -/
def accepted (s : HeartbeatServer) (nodeId : SafeIdentifier) : List NodeHeartbeat :=
  (s.answers.filter fun a => a.accepted && a.heartbeat.nodeId = nodeId).map
    HeartbeatAnswer.heartbeat

def attempted (s : HeartbeatServer) (nodeId : SafeIdentifier) : List NodeHeartbeat :=
  (s.answers.filter fun a => a.attempted && a.heartbeat.nodeId = nodeId).map
    HeartbeatAnswer.heartbeat

end HeartbeatServer

section Register
variable {tables : Tables} {heartbeat : NodeHeartbeat} {nodeId : SafeIdentifier}

/-- Older and newer are decided as by the register. -/
theorem NodeRecord.advancedBy_iff {record : NodeRecord} :
    record.advancedBy heartbeat = true ↔ record.nodeId = heartbeat.nodeId.text ∧
      record.liveness.key < heartbeat.liveness.key := by
  unfold advancedBy liveness NodeHeartbeat.liveness Liveness.key
  cases record.lastSeenAtUtc with
  | none => simp
  | some lastSeen => simp

theorem NodeRecord.liveness_update (record : NodeRecord) (heartbeat : NodeHeartbeat)
    (h : record.nodeId = heartbeat.nodeId.text) :
    (if record.advancedBy heartbeat then record.withHeartbeat heartbeat else record).liveness =
      put Liveness.key record.liveness heartbeat.liveness := by
  unfold put
  by_cases hkey : record.liveness.key < heartbeat.liveness.key
  · rw [if_pos hkey, if_pos (advancedBy_iff.mpr ⟨h, hkey⟩)]
    rfl
  · rw [if_neg hkey, if_neg fun hadvanced => hkey (advancedBy_iff.mp hadvanced).2]

/-- The update of the node a lookup finds. -/
theorem Tables.getNode_updateNodes (tables : Tables) (heartbeat : NodeHeartbeat)
    (nodeId : SafeIdentifier) : (tables.updateNodes heartbeat).1.getNode nodeId =
      (tables.getNode nodeId).map fun record =>
        if record.advancedBy heartbeat then record.withHeartbeat heartbeat else record := by
  unfold getNode updateNodes
  rw [List.find?_map]
  congr 2
  funext record
  show decide ((if _ then record.withHeartbeat heartbeat else record).nodeId = _) = _
  split_ifs <;> rfl

theorem Tables.liveness_updateNodes_self (tables : Tables) (heartbeat : NodeHeartbeat) :
    (tables.updateNodes heartbeat).1.liveness heartbeat.nodeId =
      (tables.liveness heartbeat.nodeId).map fun stored =>
        put Liveness.key stored heartbeat.liveness := by
  unfold liveness
  rw [getNode_updateNodes]
  cases hnode : tables.getNode heartbeat.nodeId with
  | none => rfl
  | some record =>
    exact congrArg some (record.liveness_update heartbeat (getNode_nodeId hnode))

theorem Tables.liveness_updateNodes_of_ne (h : heartbeat.nodeId ≠ nodeId) :
    (tables.updateNodes heartbeat).1.liveness nodeId = tables.liveness nodeId := by
  unfold liveness
  rw [getNode_updateNodes]
  cases hnode : tables.getNode nodeId with
  | none => rfl
  | some record =>
    have hid : ¬ record.advancedBy heartbeat = true := by
      rw [NodeRecord.advancedBy_iff, getNode_nodeId hnode]
      exact fun hadvanced => h (SafeIdentifier.ext hadvanced.1.symm)
    rw [Option.map_some, if_neg hid]

/-- One row is updated exactly if the node is known with an older heartbeat or none. -/
theorem Tables.updateNodes_one_iff (hkeys : tables.NodesDistinct) :
    (tables.updateNodes heartbeat).2 = 1 ↔ ∃ stored,
      tables.liveness heartbeat.nodeId = some stored ∧ stored.key < heartbeat.liveness.key := by
  show tables.nodes.countP (fun record => record.advancedBy heartbeat) = 1 ↔ _
  constructor
  · intro h
    obtain ⟨record, hmem, hrecord⟩ :=
      List.countP_pos_iff.mp (Nat.lt_of_lt_of_eq Nat.zero_lt_one h.symm)
    obtain ⟨hid, hkey⟩ := NodeRecord.advancedBy_iff.mp hrecord
    refine ⟨record.liveness, ?_, hkey⟩
    rw [liveness, getNode_of_mem hkeys hmem hid, Option.map_some]
  · rintro ⟨stored, hstored, hkey⟩
    obtain ⟨record, hnode, rfl⟩ := Option.map_eq_some_iff.mp hstored
    have hpos : 0 < tables.nodes.countP fun record => record.advancedBy heartbeat :=
      List.countP_pos_iff.mpr ⟨record, List.mem_of_find?_eq_some hnode,
        NodeRecord.advancedBy_iff.mpr ⟨getNode_nodeId hnode, hkey⟩⟩
    have hcount : (tables.nodes.map NodeRecord.nodeId).count heartbeat.nodeId.text ≤ 1 :=
      List.nodup_iff_count_le_one.mp hkeys _
    have hle : tables.nodes.countP (fun record => record.advancedBy heartbeat) ≤
        (tables.nodes.map NodeRecord.nodeId).count heartbeat.nodeId.text := by
      rw [List.count_eq_countP, List.countP_map]
      apply List.countP_mono_left
      intro record _ hrecord
      exact beq_iff_eq.mpr (NodeRecord.advancedBy_iff.mp hrecord).1
    omega

theorem Tables.NodesDistinct.congr {tables' : Tables} (hkeys : tables.NodesDistinct)
    (h : tables'.registry = tables.registry) : tables'.NodesDistinct := by
  have hids : ∀ tables : Tables, tables.nodes.map NodeRecord.nodeId =
      tables.registry.map Prod.fst := by
    intro tables
    rw [registry, List.map_map]
    rfl
  unfold NodesDistinct
  rw [hids, h, ← hids]
  exact hkeys

end Register

section Step
variable {tables : Tables} {c : OpenHeartbeat} {nodeId : SafeIdentifier}

/-- The answer is no attempt to write the node. -/
def HeartbeatAnswer.Foreign (answer : HeartbeatAnswer) (nodeId : SafeIdentifier) : Prop :=
  answer.heartbeat.nodeId ≠ nodeId ∨ answer.accepted = false ∧ answer.attempted = false

theorem advance_registry (settings : SecuritySettings) (tables : Tables) (c : OpenHeartbeat) :
    (HeartbeatService.advance settings tables c).1.registry = tables.registry := by
  rcases HeartbeatService.advance_cases settings tables c with
    ⟨_, -, h⟩ | ⟨_, h, -⟩ | ⟨_, h, -⟩ | ⟨-, ⟨-, h⟩ | ⟨-, ⟨-, h⟩ | ⟨-, h⟩⟩⟩ <;> rw [h]
  · exact tables.updateNodes_registry _
  · exact tables.updateNodes_registry _

/-- A step leaves the register of the node alone, or offers it the heartbeat of the call. -/
theorem advance_register (settings : SecuritySettings) (hkeys : tables.NodesDistinct)
    (hcommit : c.call.heartbeat.nodeId = nodeId → c.call.commit ≠ .persistedRaised) :
    let next := HeartbeatService.advance settings tables c
    (next.1.liveness nodeId = tables.liveness nodeId ∧
      ∀ answer ∈ c.answer? next.2, answer.Foreign nodeId) ∨
    ∃ outcome, c.call.heartbeat.nodeId = nodeId ∧
      c.answer? next.2 = some ⟨c.call.heartbeat, outcome⟩ ∧
      next.1.liveness nodeId = (tables.liveness nodeId).map
        (fun stored => put Liveness.key stored c.call.heartbeat.liveness) ∧
      (outcome = .error (.rejection .outOfOrderHeartbeat) ∧
          (∀ stored, tables.liveness nodeId = some stored →
            c.call.heartbeat.liveness.key ≤ stored.key) ∨
        outcome = .ok () ∧ ∃ stored, tables.liveness nodeId = some stored ∧
          stored.key < c.call.heartbeat.liveness.key) := by
  intro next
  have hanswer : ∀ {phase outcome}, next = (phase, .finished outcome) →
      ∀ answer ∈ c.answer? next.2, answer = ⟨c.call.heartbeat, outcome⟩ := by
    intro phase outcome h answer hmem
    rw [h] at hmem
    unfold OpenHeartbeat.answer? at hmem
    dsimp only at hmem
    split at hmem
    · cases hmem
    · exact (Option.some.inj hmem).symm
  rcases HeartbeatService.advance_cases settings tables c with
    ⟨outcome, hphase, h⟩ | ⟨failure, h, hfailure, -⟩ | ⟨phase, h, hphase⟩ | ⟨hphase, hfresh⟩
  · refine Or.inl ⟨by rw [show next = _ from h], ?_⟩
    rw [show next = _ from h]
    unfold OpenHeartbeat.answer?
    rw [hphase]
    nofun
  · refine Or.inl ⟨by rw [show next = _ from h], fun answer hmem => Or.inr ?_⟩
    rw [hanswer h answer hmem]
    exact ⟨rfl, decide_eq_false hfailure⟩
  · refine Or.inl ⟨by rw [show next = _ from h], ?_⟩
    rw [show next = _ from h]
    rcases hphase with ⟨-, rfl⟩ | ⟨-, rfl⟩ <;> nofun
  · have hfinished : ∀ outcome, c.answer? (.finished outcome) =
        some ⟨c.call.heartbeat, outcome⟩ := by
      intro outcome
      unfold OpenHeartbeat.answer?
      rw [hphase]
    by_cases hid : c.call.heartbeat.nodeId = nodeId
    · subst hid
      refine Or.inr ?_
      rcases hfresh with ⟨hrows, h⟩ | ⟨hrows, ⟨-, h⟩ | ⟨hraised, -⟩⟩
      · have hold : ∀ stored, tables.liveness c.call.heartbeat.nodeId = some stored →
            c.call.heartbeat.liveness.key ≤ stored.key := by
          intro stored hstored
          by_contra hlt
          exact hrows ((Tables.updateNodes_one_iff hkeys).mpr ⟨stored, hstored, not_le.mp hlt⟩)
        rw [show next = _ from h]
        refine ⟨_, rfl, hfinished _, ?_, Or.inl ⟨rfl, hold⟩⟩
        cases hstored : tables.liveness c.call.heartbeat.nodeId with
        | none => rfl
        | some stored => rw [Option.map_some, LastWrite.put_of_le (hold stored hstored)]
      · rw [show next = _ from h]
        exact ⟨_, rfl, hfinished _, tables.liveness_updateNodes_self _,
          Or.inr ⟨rfl, (Tables.updateNodes_one_iff hkeys).mp hrows⟩⟩
      · exact absurd hraised (hcommit rfl)
    · refine Or.inl ?_
      rcases hfresh with ⟨-, h⟩ | ⟨-, ⟨-, h⟩ | ⟨-, h⟩⟩
      · exact ⟨by rw [show next = _ from h], fun answer hmem => Or.inl (by
          rw [hanswer h answer hmem]; exact hid)⟩
      · exact ⟨by rw [show next = _ from h]; exact Tables.liveness_updateNodes_of_ne hid,
          fun answer hmem => Or.inl (by rw [hanswer h answer hmem]; exact hid)⟩
      · exact ⟨by rw [show next = _ from h]; exact Tables.liveness_updateNodes_of_ne hid,
          fun answer hmem => Or.inl (by rw [hanswer h answer hmem]; exact hid)⟩

end Step

def HeartbeatAction.call? : HeartbeatAction → Option HeartbeatCall
  | .submit call => some call
  | .advance _ => none

namespace HeartbeatServer
variable {settings : SecuritySettings} {tables : Tables} {s : HeartbeatServer}
  {nodeId : SafeIdentifier}

/-- What one action can do. -/
theorem step_cases (settings : SecuritySettings) (s : HeartbeatServer) (a : HeartbeatAction) :
    (∃ call, a = .submit call ∧
      s.step settings a = { s with calls := s.calls ++ [⟨call, .opened⟩] }) ∨
    ∃ i, a = .advance i ∧ (s.step settings a = s ∨ ∃ c, s.calls[i]? = some c ∧
      s.step settings a = s.update i c (HeartbeatService.advance settings s.tables c)) := by
  cases a with
  | submit call => exact Or.inl ⟨call, rfl, rfl⟩
  | advance i =>
    refine Or.inr ⟨i, rfl, ?_⟩
    cases hi : s.calls[i]? with
    | none => exact Or.inl (step_absent hi)
    | some c => exact Or.inr ⟨c, rfl, step_advance hi⟩

theorem calls_step (s : HeartbeatServer) (a : HeartbeatAction) :
    (s.step settings a).calls.map OpenHeartbeat.call =
      s.calls.map OpenHeartbeat.call ++ a.call?.toList := by
  rcases step_cases settings s a with ⟨call, rfl, h⟩ | ⟨i, rfl, h | ⟨c, hi, h⟩⟩ <;> rw [h]
  · exact List.map_append
  · exact (List.append_nil _).symm
  · show (s.calls.set i _).map OpenHeartbeat.call = s.calls.map OpenHeartbeat.call ++ []
    rw [List.append_nil]
    exact Runs.map_set_of_eq _ hi rfl

/-- The calls there are were submitted. -/
theorem calls_run (s : HeartbeatServer) (actions : List HeartbeatAction) :
    (s.run settings actions).calls.map OpenHeartbeat.call =
      s.calls.map OpenHeartbeat.call ++ actions.filterMap HeartbeatAction.call? := by
  induction actions generalizing s with
  | nil => exact (List.append_nil _).symm
  | cons a actions ih =>
    show ((s.step settings a).run settings actions).calls.map _ = _
    rw [ih, calls_step, List.append_assoc]
    congr 1
    cases a <;> rfl

/-- An invariant that each step keeps as long as the calls are of a kind. -/
theorem run_invariant {P : HeartbeatCall → Prop} {Inv : HeartbeatServer → Prop}
    (hstep : ∀ s a, (∀ c ∈ s.calls, P c.call) → Inv s → Inv (s.step settings a))
    (hs : Inv s) (actions : List HeartbeatAction)
    (hcalls : ∀ c ∈ (s.run settings actions).calls, P c.call) :
    Inv (s.run settings actions) := by
  induction actions generalizing s with
  | nil => exact hs
  | cons a actions ih =>
    refine ih (hstep s a ?_ hs) hcalls
    intro c hc
    have hmem : c.call ∈ (s.run settings (a :: actions)).calls.map OpenHeartbeat.call := by
      rw [calls_run]
      exact List.mem_append_left _ (List.mem_map_of_mem hc)
    obtain ⟨c', hc', hcall⟩ := List.mem_map.mp hmem
    rw [← hcall]
    exact hcalls c' hc'

theorem accepted_update_foreign {i : ℕ} {c : OpenHeartbeat} {next : Tables × HeartbeatPhase}
    (h : ∀ answer ∈ c.answer? next.2, answer.Foreign nodeId) :
    (s.update i c next).accepted nodeId = s.accepted nodeId ∧
      (s.update i c next).attempted nodeId = s.attempted nodeId := by
  unfold accepted attempted update
  cases hanswer : c.answer? next.2 with
  | none => simp
  | some answer =>
    rcases h answer hanswer with hid | ⟨haccepted, hattempted⟩
    · simp [hid]
    · simp [haccepted, hattempted]

theorem accepted_update {i : ℕ} {c : OpenHeartbeat} {next : Tables × HeartbeatPhase}
    {outcome : Except HeartbeatFailure Unit} (hid : c.call.heartbeat.nodeId = nodeId)
    (hanswer : c.answer? next.2 = some ⟨c.call.heartbeat, outcome⟩) :
    (outcome = .ok () → (s.update i c next).accepted nodeId =
        s.accepted nodeId ++ [c.call.heartbeat] ∧
      (s.update i c next).attempted nodeId = s.attempted nodeId ++ [c.call.heartbeat]) ∧
    (outcome = .error (.rejection .outOfOrderHeartbeat) →
      (s.update i c next).accepted nodeId = s.accepted nodeId ∧
      (s.update i c next).attempted nodeId = s.attempted nodeId ++ [c.call.heartbeat]) := by
  unfold accepted attempted update
  rw [hanswer]
  constructor
  · rintro rfl
    simp [HeartbeatAnswer.accepted, HeartbeatAnswer.attempted, hid]
  · rintro rfl
    simp [HeartbeatAnswer.accepted, HeartbeatAnswer.attempted, hid]

/-- To the node the server is a register that was offered the attempts on it. -/
structure Reflects (s : HeartbeatServer) (tables : Tables) (nodeId : SafeIdentifier) : Prop where
  keys : s.tables.NodesDistinct
  stored : s.tables.liveness nodeId = (tables.liveness nodeId).map fun stored =>
    puts Liveness.key stored ((s.attempted nodeId).map NodeHeartbeat.liveness)
  accepted : (s.accepted nodeId).map NodeHeartbeat.liveness =
    (tables.liveness nodeId).elim [] fun stored =>
      kept Liveness.key stored ((s.attempted nodeId).map NodeHeartbeat.liveness)

theorem reflects_start (hkeys : tables.NodesDistinct) (nodeId : SafeIdentifier) :
    (start tables).Reflects tables nodeId := by
  refine ⟨hkeys, ?_, ?_⟩
  · show tables.liveness nodeId = (tables.liveness nodeId).map fun stored => stored
    exact Option.map_id'.symm
  · cases h : tables.liveness nodeId <;> rfl

theorem Reflects.step (h : s.Reflects tables nodeId)
    (hcommit : ∀ c ∈ s.calls, c.call.heartbeat.nodeId = nodeId →
      c.call.commit ≠ .persistedRaised) (a : HeartbeatAction) :
    (s.step settings a).Reflects tables nodeId := by
  rcases step_cases settings s a with ⟨call, rfl, hs⟩ | ⟨i, rfl, hs | ⟨c, hi, hs⟩⟩ <;> rw [hs]
  · exact ⟨h.keys, h.stored, h.accepted⟩
  · exact h
  have hkeys := h.keys.congr (advance_registry settings s.tables c)
  rcases advance_register settings h.keys
    (hcommit c (List.mem_of_getElem? hi)) with
    ⟨hstored, hforeign⟩ | ⟨outcome, hid, hanswer, hstored, houtcome⟩
  · obtain ⟨haccepted, hattempted⟩ := accepted_update_foreign (s := s) (i := i) hforeign
    refine ⟨hkeys, ?_, ?_⟩
    · rw [hattempted]
      exact hstored.trans h.stored
    · rw [haccepted, hattempted]
      exact h.accepted
  · obtain ⟨hok, hold⟩ := accepted_update (s := s) (i := i) hid hanswer
    have hput : (s.update i c (HeartbeatService.advance settings s.tables c)).tables.liveness
        nodeId = (tables.liveness nodeId).map fun stored => puts Liveness.key stored
          ((s.attempted nodeId ++ [c.call.heartbeat]).map NodeHeartbeat.liveness) := by
      refine hstored.trans ?_
      rw [h.stored, Option.map_map, List.map_append]
      congr 1
      funext stored
      exact (LastWrite.puts_concat _ _ _).symm
    have hkept := h.accepted
    have hregister := h.stored
    rcases houtcome with ⟨rfl, hle⟩ | ⟨rfl, stored, hsome, hlt⟩
    · obtain ⟨haccepted, hattempted⟩ := hold rfl
      refine ⟨hkeys, by rw [hattempted, hput], ?_⟩
      rw [haccepted, hattempted, List.map_append, hkept]
      cases hinit : tables.liveness nodeId with
      | none => rfl
      | some stored =>
        rw [hinit] at hregister
        have hnot := not_lt.mpr (hle _ hregister)
        show kept _ _ _ = kept _ _ (_ ++ [_])
        rw [LastWrite.kept_concat, if_neg hnot, List.append_nil]
    · obtain ⟨haccepted, hattempted⟩ := hok rfl
      refine ⟨hkeys, by rw [hattempted, hput], ?_⟩
      rw [haccepted, hattempted, List.map_append, List.map_append, hkept]
      cases hinit : tables.liveness nodeId with
      | none =>
        rw [hinit, hsome] at hregister
        cases hregister
      | some first =>
        rw [hinit, hsome] at hregister
        rw [Option.some.inj hregister] at hlt
        show kept _ _ _ ++ [_] = kept _ _ (_ ++ [_])
        rw [LastWrite.kept_concat, if_pos hlt]

theorem reflects_run (settings : SecuritySettings) (hkeys : tables.NodesDistinct)
    (nodeId : SafeIdentifier) (actions : List HeartbeatAction)
    (hcommit : ∀ c ∈ ((start tables).run settings actions).calls,
      c.call.heartbeat.nodeId = nodeId → c.call.commit ≠ .persistedRaised) :
    ((start tables).run settings actions).Reflects tables nodeId := by
  have hstep : ∀ (s : HeartbeatServer) (a : HeartbeatAction),
      (∀ c ∈ s.calls, c.call.heartbeat.nodeId = nodeId → c.call.commit ≠ .persistedRaised) →
      s.Reflects tables nodeId → (s.step settings a).Reflects tables nodeId :=
    fun s a hs h => h.step hs a
  exact run_invariant
    (P := fun call => call.heartbeat.nodeId = nodeId → call.commit ≠ .persistedRaised)
    hstep (reflects_start hkeys nodeId) actions hcommit

/-- The accepted timestamps increase from the stored one. -/
theorem Reflects.chain (h : s.Reflects tables nodeId) {stored : Liveness}
    (hstored : tables.liveness nodeId = some stored) :
    (stored.key :: (s.accepted nodeId).map fun heartbeat =>
      (heartbeat.timestampUtc.instant : WithBot UtcDatetime)).Pairwise (· < ·) := by
  have hkept := h.accepted
  rw [hstored, Option.elim_some] at hkept
  have hincreasing : (_ :: List.map Liveness.key _).Pairwise (· < ·) :=
    LastWrite.kept_increasing stored ((s.attempted nodeId).map NodeHeartbeat.liveness)
  rw [← hkept, List.map_map] at hincreasing
  exact hincreasing

theorem Reflects.increasing (h : s.Reflects tables nodeId) :
    ((s.accepted nodeId).map fun heartbeat => heartbeat.timestampUtc.instant).Pairwise
      (· < ·) := by
  cases hstored : tables.liveness nodeId with
  | none =>
    have hkept := h.accepted
    rw [hstored, Option.elim_none, List.map_eq_nil_iff] at hkept
    rw [hkept]
    exact List.Pairwise.nil
  | some stored =>
    have hchain := (List.pairwise_cons.mp (h.chain hstored)).2
    rw [List.pairwise_map] at hchain ⊢
    exact hchain.imp WithBot.coe_lt_coe.mp

/-- The columns hold the last accepted heartbeat. -/
theorem Reflects.last (h : s.Reflects tables nodeId) :
    s.tables.liveness nodeId = (match (s.accepted nodeId).getLast? with
      | none => tables.liveness nodeId
      | some last => some last.liveness) := by
  have hkept := h.accepted
  rw [h.stored]
  cases hstored : tables.liveness nodeId with
  | none =>
    rw [hstored, Option.elim_none, List.map_eq_nil_iff] at hkept
    rw [hkept]
    rfl
  | some stored =>
    rw [hstored, Option.elim_some] at hkept
    rw [Option.map_some, LastWrite.puts_eq_getLast, ← hkept, List.getLast?_map]
    cases (s.accepted nodeId).getLast? <;> rfl

/-- The tables change only when a call succeeds. -/
theorem answer_of_change {c : OpenHeartbeat} (hcommit : c.call.commit ≠ .persistedRaised)
    (h : (HeartbeatService.advance settings tables c).1 ≠ tables) :
    c.answer? (HeartbeatService.advance settings tables c).2 =
      some ⟨c.call.heartbeat, .ok ()⟩ := by
  rcases HeartbeatService.advance_cases settings tables c with
    ⟨_, -, hs⟩ | ⟨_, hs, -⟩ | ⟨_, hs, -⟩ | ⟨hphase, ⟨-, hs⟩ | ⟨-, ⟨-, hs⟩ | ⟨hraised, -⟩⟩⟩
  · exact absurd (congrArg Prod.fst hs) h
  · exact absurd (congrArg Prod.fst hs) h
  · exact absurd (congrArg Prod.fst hs) h
  · exact absurd (congrArg Prod.fst hs) h
  · rw [hs]
    unfold OpenHeartbeat.answer?
    rw [hphase]
  · exact absurd hraised hcommit

end HeartbeatServer

/-- The call meets no failure and its timestamp is in the window, whenever it is processed. -/
structure HeartbeatCall.Healthy (settings : SecuritySettings) (call : HeartbeatCall) : Prop where
  lookup : call.lookupRaises = false
  window : checkHeartbeatWindow settings call.reading
    call.heartbeat.timestampUtc.instant = .ok ()
  update : call.updateRaises = false
  commit : call.commit = .persisted

def HeartbeatCall.heartbeatOf? (nodeId : SafeIdentifier) (call : HeartbeatCall) :
    Option NodeHeartbeat :=
  if call.heartbeat.nodeId = nodeId then some call.heartbeat else none

/-- The heartbeat of a call that has yet to answer. -/
def OpenHeartbeat.pending? (nodeId : SafeIdentifier) (c : OpenHeartbeat) :
    Option NodeHeartbeat :=
  match c.phase with
  | .finished _ => none
  | _ => c.call.heartbeatOf? nodeId

namespace HeartbeatServer
variable {settings : SecuritySettings} {tables : Tables} {s : HeartbeatServer}
  {nodeId : SafeIdentifier}

/-- The heartbeats of the node that were submitted. -/
def heartbeats (s : HeartbeatServer) (nodeId : SafeIdentifier) : List NodeHeartbeat :=
  (s.calls.map OpenHeartbeat.call).filterMap (HeartbeatCall.heartbeatOf? nodeId)

/-- Every call for the node was healthy and has ended. -/
structure Completed (settings : SecuritySettings) (nodeId : SafeIdentifier)
    (s : HeartbeatServer) : Prop where
  healthy : ∀ c ∈ s.calls, c.call.heartbeat.nodeId = nodeId → c.call.Healthy settings
  finished : ∀ c ∈ s.calls, c.call.heartbeat.nodeId = nodeId →
    ∃ outcome, c.phase = .finished outcome

/-- A healthy call of a known node gets to its update. -/
theorem advance_healthy {c : OpenHeartbeat} (hhealthy : c.call.Healthy settings)
    (hknown : tables.liveness c.call.heartbeat.nodeId ≠ none) :
    let next := HeartbeatService.advance settings tables c
    (c.answer? next.2 = none ∧
      ∀ nodeId, OpenHeartbeat.pending? nodeId { c with phase := next.2 } = c.pending? nodeId) ∨
    ∃ outcome, c.answer? next.2 = some ⟨c.call.heartbeat, outcome⟩ ∧
      (outcome = .ok () ∨ outcome = .error (.rejection .outOfOrderHeartbeat)) ∧
      ∀ nodeId, c.pending? nodeId = c.call.heartbeatOf? nodeId ∧
        OpenHeartbeat.pending? nodeId { c with phase := next.2 } = none := by
  intro next
  rcases HeartbeatService.advance_cases settings tables c with
    ⟨outcome, hphase, h⟩ | ⟨failure, -, -, hcause⟩ | ⟨phase, h, hphase⟩ | ⟨hphase, hfresh⟩
  · refine Or.inl ?_
    rw [show next = _ from h]
    unfold OpenHeartbeat.answer? OpenHeartbeat.pending?
    rw [hphase]
    exact ⟨rfl, fun _ => rfl⟩
  · rcases hcause with ⟨-, hlookup | hnode⟩ | ⟨-, hwindow⟩ | ⟨-, hcommit⟩
    · rw [hhealthy.lookup] at hlookup
      cases hlookup
    · exact absurd (congrArg (Option.map NodeRecord.liveness) hnode) hknown
    · rw [hhealthy.window] at hwindow
      cases hwindow
    · rw [hhealthy.update, hhealthy.commit] at hcommit
      rcases hcommit with hcommit | hcommit <;> cases hcommit
  · refine Or.inl ?_
    rw [show next = _ from h]
    unfold OpenHeartbeat.answer? OpenHeartbeat.pending?
    rcases hphase with ⟨hopened, rfl⟩ | ⟨hopened, rfl⟩ <;> rw [hopened] <;>
      exact ⟨rfl, fun _ => rfl⟩
  · refine Or.inr ?_
    rcases hfresh with ⟨-, h⟩ | ⟨-, ⟨-, h⟩ | ⟨hraised, -⟩⟩
    · rw [show next = _ from h]
      unfold OpenHeartbeat.answer? OpenHeartbeat.pending?
      rw [hphase]
      exact ⟨_, rfl, Or.inr rfl, fun _ => ⟨rfl, rfl⟩⟩
    · rw [show next = _ from h]
      unfold OpenHeartbeat.answer? OpenHeartbeat.pending?
      rw [hphase]
      exact ⟨_, rfl, Or.inl rfl, fun _ => ⟨rfl, rfl⟩⟩
    · rw [hhealthy.commit] at hraised
      cases hraised

theorem heartbeats_update {i : ℕ} {c : OpenHeartbeat} (hi : s.calls[i]? = some c)
    (next : Tables × HeartbeatPhase) :
    (s.update i c next).heartbeats nodeId = s.heartbeats nodeId := by
  unfold heartbeats
  congr 1
  exact Runs.map_set_of_eq _ hi rfl

/-- Every heartbeat for the known node was offered to it once or is pending. -/
structure Balanced (s : HeartbeatServer) (nodeId : SafeIdentifier) : Prop where
  known : s.tables.liveness nodeId ≠ none
  perm : (s.attempted nodeId ++ s.calls.filterMap (OpenHeartbeat.pending? nodeId)).Perm
    (s.heartbeats nodeId)

/-- Only the answer of the call itself counts. -/
theorem foreign_of_ne {c : OpenHeartbeat} (h : c.call.heartbeat.nodeId ≠ nodeId)
    (phase : HeartbeatPhase) : ∀ answer ∈ c.answer? phase, answer.Foreign nodeId := by
  intro answer hanswer
  unfold OpenHeartbeat.answer? at hanswer
  split at hanswer
  · split at hanswer
    · cases hanswer
    · obtain rfl := Option.some.inj hanswer
      exact Or.inl h
  · cases hanswer

theorem pending_of_ne {call : HeartbeatCall} (h : call.heartbeat.nodeId ≠ nodeId)
    (phase : HeartbeatPhase) : OpenHeartbeat.pending? nodeId ⟨call, phase⟩ = none := by
  unfold OpenHeartbeat.pending? HeartbeatCall.heartbeatOf?
  rw [if_neg h]
  split <;> rfl

theorem Balanced.step (h : s.Balanced nodeId)
    (hhealthy : ∀ c ∈ s.calls, c.call.heartbeat.nodeId = nodeId → c.call.Healthy settings)
    (a : HeartbeatAction) : (s.step settings a).Balanced nodeId := by
  rcases step_cases settings s a with ⟨call, rfl, hs⟩ | ⟨i, rfl, hs | ⟨c, hi, hs⟩⟩ <;> rw [hs]
  · refine ⟨h.known, ?_⟩
    show (s.attempted nodeId ++ (s.calls ++ [_]).filterMap _).Perm
      (((s.calls ++ [_]).map _).filterMap _)
    rw [List.filterMap_append, List.map_append, List.filterMap_append, ← List.append_assoc]
    exact h.perm.append_right _
  · exact h
  have hknown : (HeartbeatService.advance settings s.tables c).1.liveness nodeId ≠ none := by
    have hlookup := Tables.getNode_registry (advance_registry settings s.tables c) nodeId
    intro hnone
    rw [Option.map_eq_none_iff.mp hnone, Option.map_none] at hlookup
    exact h.known (congrArg (Option.map NodeRecord.liveness)
      (Option.map_eq_none_iff.mp hlookup.symm))
  have hset := Runs.filterMap_set_perm (OpenHeartbeat.pending? nodeId) hi
    { c with phase := (HeartbeatService.advance settings s.tables c).2 }
  refine ⟨hknown, ?_⟩
  rw [heartbeats_update hi]
  refine List.Perm.trans ?_ h.perm
  by_cases hid : c.call.heartbeat.nodeId = nodeId
  · rcases advance_healthy (hhealthy c (List.mem_of_getElem? hi) hid) (hid ▸ h.known) with
      ⟨hanswer, hpending⟩ | ⟨outcome, hanswer, houtcome, hpending⟩
    · rw [hpending] at hset
      have hforeign : ∀ answer ∈ c.answer? (HeartbeatService.advance settings s.tables c).2,
          answer.Foreign nodeId := by
        rw [hanswer]
        nofun
      rw [(accepted_update_foreign hforeign).2]
      exact ((List.perm_append_left_iff _).mp hset).append_left _
    · have hbefore : c.pending? nodeId = some c.call.heartbeat :=
        (hpending nodeId).1.trans (if_pos hid)
      have hattempted : (s.update i c (HeartbeatService.advance settings s.tables c)).attempted
          nodeId = s.attempted nodeId ++ [c.call.heartbeat] := by
        obtain ⟨hok, hold⟩ := accepted_update (s := s) (i := i) hid hanswer
        rcases houtcome with rfl | rfl
        · exact (hok rfl).2
        · exact (hold rfl).2
      rw [hbefore, (hpending nodeId).2] at hset
      rw [hattempted, List.append_assoc]
      exact hset.append_left _
  · have hbefore : c.pending? nodeId = none := pending_of_ne hid c.phase
    rw [hbefore, pending_of_ne hid] at hset
    rw [(accepted_update_foreign (foreign_of_ne hid _)).2]
    exact List.Perm.append_left _ hset

theorem balanced_run (settings : SecuritySettings) (hknown : tables.liveness nodeId ≠ none)
    (actions : List HeartbeatAction)
    (hhealthy : ∀ c ∈ ((start tables).run settings actions).calls,
      c.call.heartbeat.nodeId = nodeId → c.call.Healthy settings) :
    ((start tables).run settings actions).Balanced nodeId := by
  have hstep : ∀ (s : HeartbeatServer) (a : HeartbeatAction),
      (∀ c ∈ s.calls, c.call.heartbeat.nodeId = nodeId → c.call.Healthy settings) →
      s.Balanced nodeId → (s.step settings a).Balanced nodeId := fun s a hs h => h.step hs a
  exact run_invariant
    (P := fun call => call.heartbeat.nodeId = nodeId → call.Healthy settings)
    hstep ⟨hknown, List.Perm.refl _⟩ actions hhealthy

/-- Heartbeats with timestamps of their own are told apart by what they store. -/
theorem liveness_inj {heartbeats : List NodeHeartbeat}
    (h : (heartbeats.map fun heartbeat => heartbeat.timestampUtc.instant).Nodup) {a b : Liveness}
    (ha : a ∈ heartbeats.map NodeHeartbeat.liveness)
    (hb : b ∈ heartbeats.map NodeHeartbeat.liveness) (hkey : a.key = b.key) : a = b := by
  obtain ⟨x, hx, rfl⟩ := List.mem_map.mp ha
  obtain ⟨y, hy, rfl⟩ := List.mem_map.mp hb
  have hxy : x.timestampUtc.instant = y.timestampUtc.instant := WithBot.coe_injective hkey
  rw [List.inj_on_of_nodup_map h hx hy hxy]

/-- Once all is done the register was offered every heartbeat. -/
theorem liveness_completed (hkeys : tables.NodesDistinct) {actions : List HeartbeatAction}
    (hdone : ((start tables).run settings actions).Completed settings nodeId)
    (hdistinct : ((((start tables).run settings actions).heartbeats nodeId).map fun heartbeat =>
      heartbeat.timestampUtc.instant).Nodup)
    {heartbeats : List NodeHeartbeat}
    (hperm : (((start tables).run settings actions).heartbeats nodeId).Perm heartbeats) :
    ((start tables).run settings actions).tables.liveness nodeId =
      (tables.liveness nodeId).map fun stored =>
        puts Liveness.key stored (heartbeats.map NodeHeartbeat.liveness) := by
  have hreflects : ((start tables).run settings actions).Reflects tables nodeId := by
    apply reflects_run settings hkeys nodeId
    intro c hc hid
    rw [(hdone.healthy c hc hid).commit]
    nofun
  rw [hreflects.stored]
  by_cases hknown : tables.liveness nodeId = none
  · rw [hknown]
    rfl
  have hbalanced := balanced_run settings hknown actions hdone.healthy
  have hpending : ((start tables).run settings actions).calls.filterMap
      (OpenHeartbeat.pending? nodeId) = [] := by
    refine List.filterMap_eq_nil_iff.mpr fun c hc => ?_
    by_cases hid : c.call.heartbeat.nodeId = nodeId
    · obtain ⟨outcome, hphase⟩ := hdone.finished c hc hid
      unfold OpenHeartbeat.pending?
      rw [hphase]
    · exact pending_of_ne hid c.phase
  have hattempted := hbalanced.perm
  rw [hpending, List.append_nil] at hattempted
  congr 1
  funext stored
  refine LastWrite.puts_perm ((hattempted.trans hperm).map _) ?_ stored
  intro a ha b hb
  exact liveness_inj hdistinct (((hattempted.map _).mem_iff).mp ha)
    (((hattempted.map _).mem_iff).mp hb)

/-- Once all is done the node has its latest heartbeat, or had a later one before. -/
theorem liveness_latest (hkeys : tables.NodesDistinct) {actions : List HeartbeatAction}
    (hdone : ((start tables).run settings actions).Completed settings nodeId)
    (hdistinct : ((((start tables).run settings actions).heartbeats nodeId).map fun heartbeat =>
      heartbeat.timestampUtc.instant).Nodup)
    {latest : NodeHeartbeat}
    (hlatest : latest ∈ ((start tables).run settings actions).heartbeats nodeId)
    (hle : ∀ heartbeat ∈ ((start tables).run settings actions).heartbeats nodeId,
      heartbeat.timestampUtc.instant ≤ latest.timestampUtc.instant)
    {stored : Liveness} (hstored : tables.liveness nodeId = some stored) :
    ((start tables).run settings actions).tables.liveness nodeId =
      some (put Liveness.key stored latest.liveness) := by
  rw [liveness_completed hkeys hdone hdistinct (List.Perm.refl _), hstored, Option.map_some]
  congr 1
  apply LastWrite.puts_eq_put (List.mem_map_of_mem hlatest)
  · intro write hwrite
    obtain ⟨heartbeat, hmem, rfl⟩ := List.mem_map.mp hwrite
    exact WithBot.coe_le_coe.mpr (hle heartbeat hmem)
  · intro a ha b hb
    exact liveness_inj hdistinct ha hb

end HeartbeatServer

open HeartbeatServer in
/-- Heartbeats never regress and converge, to the latest of them. -/
theorem heartbeats_converge (settings : SecuritySettings) {tables : Tables}
    (hkeys : tables.NodesDistinct) (nodeId : SafeIdentifier) :
    (∀ actions s, (start tables).run settings actions = s →
      (∀ c ∈ s.calls, c.call.commit ≠ .persistedRaised) →
      ((s.accepted nodeId).map fun heartbeat => heartbeat.timestampUtc.instant).Pairwise (· < ·) ∧
      (∀ stored lastSeen, tables.liveness nodeId = some stored →
        stored.lastSeenAtUtc = some lastSeen →
        ∀ heartbeat ∈ s.accepted nodeId, lastSeen < heartbeat.timestampUtc.instant) ∧
      s.tables.liveness nodeId = (match (s.accepted nodeId).getLast? with
        | none => tables.liveness nodeId
        | some last => some last.liveness) ∧
      (∀ last ∈ (s.accepted nodeId).getLast?, ∀ heartbeat ∈ s.accepted nodeId,
        heartbeat.timestampUtc.instant ≤ last.timestampUtc.instant) ∧
      ∀ a, (s.step settings a).tables ≠ s.tables → ∃ heartbeat,
        (s.step settings a).answers = s.answers ++ [⟨heartbeat, .ok ()⟩]) ∧
    (∀ actions actions' s s', (start tables).run settings actions = s →
      (start tables).run settings actions' = s' →
      s.Completed settings nodeId → s'.Completed settings nodeId →
      (s.heartbeats nodeId).Perm (s'.heartbeats nodeId) →
      ((s.heartbeats nodeId).map fun heartbeat => heartbeat.timestampUtc.instant).Nodup →
      s.tables.liveness nodeId = s'.tables.liveness nodeId) ∧
    ∀ actions s, (start tables).run settings actions = s → s.Completed settings nodeId →
      ((s.heartbeats nodeId).map fun heartbeat => heartbeat.timestampUtc.instant).Nodup →
      ∀ latest ∈ s.heartbeats nodeId, (∀ heartbeat ∈ s.heartbeats nodeId,
        heartbeat.timestampUtc.instant ≤ latest.timestampUtc.instant) →
      ∀ stored, tables.liveness nodeId = some stored →
      s.tables.liveness nodeId =
        some (if stored.key < latest.liveness.key then latest.liveness else stored) := by
  refine ⟨?_, ?_, ?_⟩
  · rintro actions s rfl hcommit
    have hreflects := reflects_run settings hkeys nodeId actions
      fun c hc _ => hcommit c hc
    refine ⟨hreflects.increasing, ?_, hreflects.last, ?_, ?_⟩
    · rintro stored lastSeen hstored hlastSeen heartbeat hmem
      have habove := (List.pairwise_cons.mp (hreflects.chain hstored)).1 _
        (List.mem_map_of_mem hmem)
      unfold Liveness.key at habove
      rw [hlastSeen] at habove
      exact WithBot.coe_lt_coe.mp habove
    · rintro last hlast heartbeat hmem
      obtain ⟨before, hsplit⟩ := List.getLast?_eq_some_iff.mp hlast
      have hpairwise := hreflects.increasing
      rw [hsplit, List.map_append, List.pairwise_append] at hpairwise
      rw [hsplit, List.mem_append, List.mem_singleton] at hmem
      rcases hmem with hmem | rfl
      · exact (hpairwise.2.2 _ (List.mem_map_of_mem hmem) _ (List.mem_singleton_self _)).le
      · exact le_rfl
    · intro a hchange
      generalize (start tables).run settings actions = s at hcommit hchange ⊢
      rcases step_cases settings s a with ⟨call, rfl, hs⟩ | ⟨i, rfl, hs | ⟨c, hi, hs⟩⟩
      · exact absurd (congrArg HeartbeatServer.tables hs) hchange
      · exact absurd (congrArg HeartbeatServer.tables hs) hchange
      · rw [hs] at hchange ⊢
        have hanswer := answer_of_change (hcommit c (List.mem_of_getElem? hi)) hchange
        refine ⟨c.call.heartbeat, ?_⟩
        show s.answers ++ (c.answer? _).toList = _
        rw [hanswer]
        rfl
  · rintro actions actions' s s' rfl rfl hdone hdone' hperm hdistinct
    rw [liveness_completed hkeys hdone hdistinct hperm,
      liveness_completed hkeys hdone' ((hperm.map _).nodup_iff.mp hdistinct) (List.Perm.refl _)]
  · rintro actions s rfl hdone hdistinct latest hlatest hle stored hstored
    exact liveness_latest hkeys hdone hdistinct hlatest hle hstored

open HeartbeatServer in
/-- Two heartbeats of one node whose calls overlap, committed in either order. -/
theorem heartbeats_converge_two_orders :
    let settings : SecuritySettings := ⟨60, 60, 1024, by decide, by decide, by decide⟩
    let edge : SafeIdentifier := ⟨"edge-1", by decide⟩
    let instant : UtcDatetime := ⟨100000000, by decide⟩
    let tables : Tables := ⟨[⟨"edge-1", "", instant, none, none⟩], [], []⟩
    let older : HeartbeatCall :=
      ⟨⟨edge, ⟨⟨100000001, by decide⟩, .utc⟩, .degraded⟩, false, .utc instant, false,
        .persisted⟩
    let newer : HeartbeatCall :=
      ⟨⟨edge, ⟨⟨100000002, by decide⟩, .utc⟩, .healthy⟩, false, .utc instant, false,
        .persisted⟩
    let overlapping := [HeartbeatAction.submit older, .submit newer, .advance 0, .advance 1,
      .advance 0, .advance 1]
    ((start tables).run settings (overlapping ++ [.advance 0, .advance 1])).tables.liveness edge =
      ((start tables).run settings (overlapping ++ [.advance 1, .advance 0])).tables.liveness
        edge ∧
    ((start tables).run settings (overlapping ++ [.advance 1, .advance 0])).tables.liveness edge =
      some newer.heartbeat.liveness := by
  intro settings edge instant tables older newer overlapping
  have hkeys : tables.NodesDistinct := List.nodup_singleton _
  have hcalls : ((start tables).run settings (overlapping ++ [.advance 0, .advance 1])).calls =
      [⟨older, .finished (.ok ())⟩, ⟨newer, .finished (.ok ())⟩] := by
    decide +kernel
  have hcalls' : ((start tables).run settings (overlapping ++ [.advance 1, .advance 0])).calls =
      [⟨older, .finished (.error (.rejection .outOfOrderHeartbeat))⟩,
        ⟨newer, .finished (.ok ())⟩] := by
    decide +kernel
  have holder : older.Healthy settings := ⟨rfl, by decide +kernel, rfl, rfl⟩
  have hnewer : newer.Healthy settings := ⟨rfl, by decide +kernel, rfl, rfl⟩
  have hdone : ∀ {s : HeartbeatServer} {outcome outcome'},
      s.calls = [⟨older, .finished outcome⟩, ⟨newer, .finished outcome'⟩] →
      s.Completed settings edge ∧ s.heartbeats edge = [older.heartbeat, newer.heartbeat] := by
    intro s outcome outcome' hs
    refine ⟨⟨fun c hc _ => ?_, fun c hc _ => ?_⟩, ?_⟩
    · rw [hs, List.mem_pair] at hc
      rcases hc with rfl | rfl
      · exact holder
      · exact hnewer
    · rw [hs, List.mem_pair] at hc
      rcases hc with rfl | rfl
      · exact ⟨_, rfl⟩
      · exact ⟨_, rfl⟩
    · unfold heartbeats
      rw [hs]
      rfl
  obtain ⟨hfirst, hheartbeats⟩ := hdone hcalls
  obtain ⟨hsecond, hheartbeats'⟩ := hdone hcalls'
  have hdistinct :
      [older.heartbeat.timestampUtc.instant, newer.heartbeat.timestampUtc.instant].Nodup := by
    decide +kernel
  obtain ⟨-, horders, hlatest⟩ := heartbeats_converge settings hkeys edge
  constructor
  · refine horders _ _ _ _ rfl rfl hfirst hsecond ?_ ?_
    · rw [hheartbeats, hheartbeats']
    · rw [hheartbeats]
      exact hdistinct
  · have hnone : tables.liveness edge = some ⟨none, none⟩ := rfl
    refine hlatest _ _ rfl hsecond ?_ newer.heartbeat ?_ ?_ _ hnone
    · rw [hheartbeats']
      exact hdistinct
    · rw [hheartbeats']
      simp
    · rw [hheartbeats']
      simp only [List.mem_pair]
      rintro heartbeat (rfl | rfl)
      · decide +kernel
      · exact le_rfl

end SecureEdge
