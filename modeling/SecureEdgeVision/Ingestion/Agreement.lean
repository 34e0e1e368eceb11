import SecureEdgeVision.Ingestion.Concurrent

/-! Injective agreement between workers and aggregator: every row is the event of an envelope
that a worker signed, fresh when it was accepted, and no event has two rows. -/
namespace SecureEdge

open Json (InjectiveRepr)

namespace Aggregator
variable {ingestor : DetectionEventIngestor}

/-- The holder of the key signed the message. -/
def Signed (s : Aggregator ingestor.ed) (publicKey : ingestor.ed.PublicKey)
    (message : ByteArray) : Prop :=
  ∃ x ∈ s.signed, ingestor.ed.publicKey x.privateKey = publicKey ∧
    canonicalEventBytes ingestor.reprFloat x.envelope.body = .ok message

/-- If the action checks a signature and the check succeeds, then the holder of the key has
signed the message. -/
def Unforged (s : Aggregator ingestor.ed) : AggregatorAction ingestor.ed → Prop
  | .advance i => ∀ c node publicKey message, s.calls[i]? = some c → c.phase = .opened →
      s.state.tables.getNode c.body.nodeId = some node →
      ingestor.registeredKey node = some publicKey →
      canonicalEventBytes ingestor.reprFloat c.body = .ok message →
      ingestor.ed.verify publicKey c.call.envelope.signature message = true →
      s.Signed publicKey message
  | _ => True

/-- The states of a process under any actions that forge nothing. -/
inductive Reachable (ingestor : DetectionEventIngestor) (tables : Tables) :
    Aggregator ingestor.ed → Prop
  | start : Reachable ingestor tables (.start ingestor.ed tables)
  | step {s : Aggregator ingestor.ed} {a : AggregatorAction ingestor.ed} :
      Reachable ingestor tables s → s.Unforged a → Reachable ingestor tables (s.step a)

/-- A worker signed the event, with the key registered for its node. -/
def Genuine (s : Aggregator ingestor.ed) (x : Signing ingestor.ed) : Prop :=
  x ∈ s.signed ∧
    signDetectionEvent ingestor.ed ingestor.reprFloat x.envelope.body x.privateKey =
      .ok x.envelope ∧
    ∃ node, s.state.tables.getNode x.envelope.body.nodeId = some node ∧
      ingestor.registeredKey node = some (ingestor.ed.publicKey x.privateKey)

/-- A call for a genuine event, or for one that agrees with it. -/
def Authentic (s : Aggregator ingestor.ed) (c : OpenCall) : Prop :=
  ∃ x, s.Genuine x ∧ x.envelope.body.Agree c.body

/-- What is known of a call that passed its signature check. -/
def CallSound (s : Aggregator ingestor.ed) (c : OpenCall) : Prop :=
  match c.phase with
  | .verified => s.Authentic c
  | .waiting r => s.Authentic c ∧ r.Valid ingestor.settings ∧ r.event = c.body
  | .storing d => s.Authentic c ∧ WithinSkew ingestor.settings d.acceptedAtUtc c.body.instant
  | _ => True

/-- The row is a genuine event, fresh when it was accepted. -/
def RowSound (s : Aggregator ingestor.ed) (row : DetectionEventRecord) : Prop :=
  ∃ x, s.Genuine x ∧ row.IsOf ingestor.reprFloat x.envelope.body ∧
    WithinSkew ingestor.settings row.acceptedAtUtc row.timestampUtc

/-- The events that have a row or are about to get one. -/
def claimed (s : Aggregator ingestor.ed) : List (String × String × UtcDatetime) :=
  s.state.tables.detectionEvents.map DetectionEventRecord.identity ++
    (s.calls.filterMap OpenCall.storing?).map fun r => r.event.identity

/-- The invariant: each row and each pending commit has its own reservation in the log. -/
structure Sound (s : Aggregator ingestor.ed) : Prop where
  signed : ∀ x ∈ s.signed, signDetectionEvent ingestor.ed ingestor.reprFloat x.envelope.body
    x.privateKey = .ok x.envelope
  calls : ∀ c ∈ s.calls, s.CallSound c
  rows : ∀ row ∈ s.state.tables.detectionEvents, s.RowSound row
  logged : ∃ log, Logged ingestor.settings s.state.policy log ∧
    s.claimed.Subperm (log.map fun r => r.event.identity)

section Frame
variable {s s' : Aggregator ingestor.ed}

/-- Signatures are never unmade, and nodes are fixed. -/
structure Extends (s s' : Aggregator ingestor.ed) : Prop where
  signed : s.signed ⊆ s'.signed
  nodes : s'.state.tables.nodes = s.state.tables.nodes

theorem Genuine.mono {x : Signing ingestor.ed} (h : s.Genuine x) (he : s.Extends s') :
    s'.Genuine x := by
  obtain ⟨hmem, hsign, node, hnode, hkey⟩ := h
  refine ⟨he.signed hmem, hsign, node, ?_, hkey⟩
  unfold Tables.getNode at hnode ⊢
  rwa [he.nodes]

theorem Authentic.mono {c : OpenCall} (h : s.Authentic c) (he : s.Extends s') :
    s'.Authentic c := by
  obtain ⟨x, hx, hagree⟩ := h
  exact ⟨x, hx.mono he, hagree⟩

theorem CallSound.mono {c : OpenCall} (h : s.CallSound c) (he : s.Extends s') :
    s'.CallSound c := by
  obtain ⟨call, phase⟩ := c
  cases phase with
  | verified => exact Authentic.mono h he
  | waiting r => exact ⟨h.1.mono he, h.2⟩
  | storing d => exact ⟨h.1.mono he, h.2⟩
  | opened => trivial
  | rejecting reason => trivial
  | finished outcome => trivial

theorem RowSound.mono {row : DetectionEventRecord} (h : s.RowSound row) (he : s.Extends s') :
    s'.RowSound row := by
  obtain ⟨x, hx, hrow⟩ := h
  exact ⟨x, hx.mono he, hrow⟩

end Frame

/-- Moving one call on replaces its own pending commit and no other. -/
theorem storing_set {calls : List OpenCall} {i : ℕ} {c : OpenCall} (hi : calls[i]? = some c)
    (c' : OpenCall) : (c.storing?.toList ++ (calls.set i c').filterMap OpenCall.storing?).Perm
      (c'.storing?.toList ++ calls.filterMap OpenCall.storing?) :=
  Runs.filterMap_set_perm OpenCall.storing? hi c'

section Invariant
variable {s : Aggregator ingestor.ed} {i : ℕ} {c : OpenCall} {next : IngestState × CallPhase}

theorem extends_update (hnodes : next.1.tables.nodes = s.state.tables.nodes) :
    s.Extends (s.update i c next) :=
  ⟨fun _ hx => hx, hnodes⟩

theorem claimed_update (hi : s.calls[i]? = some c) (next : IngestState × CallPhase) :
    (c.storing?.toList.map (fun r => r.event.identity) ++ (s.update i c next).claimed).Perm
      ((⟨c.call, next.2⟩ : OpenCall).storing?.toList.map (fun r => r.event.identity) ++
        (next.1.tables.detectionEvents.map DetectionEventRecord.identity ++
          (s.calls.filterMap OpenCall.storing?).map fun r => r.event.identity)) := by
  have hperm := (storing_set hi ⟨c.call, next.2⟩).map fun r => r.event.identity
  rw [List.map_append, List.map_append] at hperm
  exact (List.perm_append_comm_assoc _ _ _).trans
    ((hperm.append_left _).trans (List.perm_append_comm_assoc _ _ _))

/-- A call moves on soundly: its new phase is backed, a new row is genuine, and the log
covers what is claimed now. -/
theorem Sound.update (h : s.Sound)
    (hnodes : next.1.tables.nodes = s.state.tables.nodes)
    (hcall : s.CallSound ⟨c.call, next.2⟩)
    (hrows : ∀ row ∈ next.1.tables.detectionEvents, s.RowSound row)
    (hlogged : ∃ log, Logged ingestor.settings next.1.policy log ∧
      (s.update i c next).claimed.Subperm (log.map fun r => r.event.identity)) :
    (s.update i c next).Sound where
  signed := h.signed
  calls c' hc' := by
    rcases List.mem_or_eq_of_mem_set hc' with hc' | rfl
    · exact (h.calls c' hc').mono (extends_update hnodes)
    · exact hcall.mono (extends_update hnodes)
  rows row hrow := (hrows row hrow).mono (extends_update hnodes)
  logged := hlogged

/-- A call that neither had nor has a pending commit, and added no row. -/
theorem Sound.quiet (h : s.Sound) (hi : s.calls[i]? = some c) (hold : c.storing? = none)
    {tables : Tables} {phase : CallPhase}
    (hevents : tables.detectionEvents = s.state.tables.detectionEvents)
    (hnodes : tables.nodes = s.state.tables.nodes)
    (hnew : (⟨c.call, phase⟩ : OpenCall).storing? = none)
    (hcall : s.CallSound ⟨c.call, phase⟩) :
    (s.update i c (⟨s.state.policy, tables⟩, phase)).Sound := by
  obtain ⟨log, hlog, hclaimed⟩ := h.logged
  refine h.update hnodes hcall (fun row hrow => h.rows row (hevents ▸ hrow)) ⟨log, hlog, ?_⟩
  have hperm := claimed_update hi (⟨s.state.policy, tables⟩, phase)
  rw [hold, hnew, hevents] at hperm
  exact hperm.subperm.trans hclaimed

theorem callSound_fail (s : Aggregator ingestor.ed) (call : IngestCall) (failure : IngestFailure) :
    s.CallSound ⟨call, .fail failure⟩ := by
  cases failure <;> trivial

/-- A checked signature belongs to a worker. -/
theorem authentic_of_unforged (hrepr : InjectiveRepr ingestor.reprFloat) (h : s.Sound)
    (hi : s.calls[i]? = some c) (hopened : c.phase = .opened)
    (hunforged : s.Unforged (.advance i))
    (hauth : ingestor.authenticate s.state.tables c.call.lookupRaises c.call.envelope = .ok ()) :
    s.Authentic c := by
  obtain ⟨-, node, publicKey, hnode, hkey, hverify⟩ :=
    DetectionEventIngestor.authenticate_eq_ok.mp hauth
  obtain ⟨message, hmessage, hvalid⟩ := verifyDetectionEnvelope_eq_true.mp hverify
  obtain ⟨x, hx, hsigner, hsigned⟩ :=
    hunforged c node publicKey message hi hopened hnode hkey hmessage hvalid
  have hagree := agree_of_canonicalEventBytes hrepr hsigned hmessage
  refine ⟨x, ⟨hx, h.signed x hx, node, ?_, hsigner ▸ hkey⟩, hagree⟩
  rw [hagree.nodeId]
  exact hnode

theorem Sound.store (h : s.Sound) {d : EventSecurityDecision} (hi : s.calls[i]? = some c)
    (hphase : c.phase = .storing d) :
    (s.update i c (⟨s.state.policy, (ingestor.recordEvent s.state.tables c.call d).1⟩,
      .finished (ingestor.recordEvent s.state.tables c.call d).2)).Sound := by
  have hsound := h.calls c (List.mem_of_getElem? hi)
  have hstoring : c.storing? = some ⟨c.body, d⟩ := by simp [OpenCall.storing?, hphase]
  simp only [CallSound, hphase] at hsound
  obtain ⟨⟨x, hx, hagree⟩, hfresh⟩ := hsound
  obtain ⟨log, hlog, hclaimed⟩ := h.logged
  have htables : (ingestor.recordEvent s.state.tables c.call d).1 = s.state.tables ∨ _ :=
    DetectionEventIngestor.recordEvent_tables s.state.tables c.call d
  rcases htables with hr | ⟨stored, hs, hr⟩
  · rw [hr]
    refine h.update rfl trivial h.rows ⟨log, hlog, ?_⟩
    have hperm := claimed_update hi (s.state, .finished
      (ingestor.recordEvent s.state.tables c.call d).2)
    rw [hstoring] at hperm
    exact (List.sublist_cons_self _ _).subperm.trans (hperm.subperm.trans hclaimed)
  · obtain ⟨hisOf, haccepted⟩ := hs.isOf
    have hrow : s.RowSound stored := by
      refine ⟨x, hx, hisOf.congr hagree.symm, ?_⟩
      have htimestamp : stored.timestampUtc = c.body.instant :=
        congrArg (fun identity => identity.2.2) hisOf.identity_eq
      rw [haccepted, htimestamp]
      exact hfresh
    rw [hr]
    refine h.update rfl trivial ?_ ⟨log, hlog, ?_⟩
    · intro row hmem
      rcases List.mem_append.mp hmem with hmem | hmem
      · exact h.rows row hmem
      · rw [List.mem_singleton.mp hmem]
        exact hrow
    · have hperm := claimed_update hi (⟨s.state.policy, s.state.tables.addEvent stored⟩,
        .finished (ingestor.recordEvent s.state.tables c.call d).2)
      rw [hstoring, Tables.addEvent_events, List.map_append, List.append_assoc] at hperm
      have hnew : [stored].map DetectionEventRecord.identity = [c.body.identity] := by
        rw [List.map_singleton, hisOf.identity_eq]
        rfl
      rw [hnew] at hperm
      exact (hperm.trans List.perm_middle).cons_inv.subperm.trans hclaimed

theorem Sound.advance (hrepr : InjectiveRepr ingestor.reprFloat) (h : s.Sound)
    (hi : s.calls[i]? = some c) (hunforged : s.Unforged (.advance i)) :
    (s.update i c (ingestor.advance s.state c)).Sound := by
  have hsound := h.calls c (List.mem_of_getElem? hi)
  rcases advance_cases ingestor s.state c with ⟨failure, hold, hs⟩ | ⟨hphase, hauth, hs⟩ |
    ⟨now, r, hphase, hr, hs⟩ | ⟨r, d, hphase, hd, hs⟩ | ⟨d, hphase, hs⟩ |
    ⟨tables, outcome, hold, hevents, hnodes, hs⟩
  · rw [hs]
    have hnew : (⟨c.call, .fail failure⟩ : OpenCall).storing? = none := by cases failure <;> rfl
    exact h.quiet hi hold rfl rfl hnew (callSound_fail s c.call failure)
  · rw [hs]
    have hauthentic : s.Authentic c := authentic_of_unforged hrepr h hi hphase hunforged hauth
    exact h.quiet hi (by simp [OpenCall.storing?, hphase]) rfl rfl rfl hauthentic
  · rw [hs]
    simp only [CallSound, hphase] at hsound
    exact h.quiet hi (by simp [OpenCall.storing?, hphase]) rfl rfl rfl
      ⟨hsound, hr.valid, hr.event_eq⟩
  · rw [hs]
    simp only [CallSound, hphase] at hsound
    obtain ⟨hauthentic, hvalid, hevent⟩ := hsound
    obtain ⟨rfl, -⟩ := enterLock_ok hd
    obtain ⟨log, hlog, hclaimed⟩ := h.logged
    have hfresh : WithinSkew ingestor.settings r.acceptedAt c.body.instant := hevent ▸ hvalid.fresh
    refine h.update rfl ⟨hauthentic, hfresh⟩ h.rows ⟨log ++ [r], hlog.enterLock hvalid hd, ?_⟩
    have hperm := claimed_update hi (⟨(enterLock s.state.policy r).1, s.state.tables⟩,
      .storing r.decision)
    have hold : c.storing? = none := by simp [OpenCall.storing?, hphase]
    have hnew : (⟨c.call, .storing r.decision⟩ : OpenCall).storing?.toList.map
        (fun r => r.event.identity) = [r.event.identity] := by
      rw [hevent]
      rfl
    rw [hold, hnew] at hperm
    rw [List.map_append]
    have hcons : (r.event.identity :: s.claimed).Subperm
        (r.event.identity :: log.map fun r => r.event.identity) :=
      (List.subperm_cons _).mpr hclaimed
    exact hperm.subperm.trans (hcons.trans (List.perm_append_singleton _ _).symm.subperm)
  · rw [hs]
    exact h.store hi hphase
  · rw [hs]
    exact h.quiet hi hold hevents hnodes rfl trivial

theorem Sound.step (hrepr : InjectiveRepr ingestor.reprFloat) (h : s.Sound)
    {a : AggregatorAction ingestor.ed} (hunforged : s.Unforged a) : (s.step a).Sound := by
  rcases s.step_cases a with hs | ⟨x, hsign, hs⟩ | ⟨call, hs⟩ | ⟨i, c, rfl, hi, hs⟩
  · rwa [hs]
  · have he : s.Extends { s with signed := s.signed ++ [x] } :=
      ⟨List.subset_append_left _ _, rfl⟩
    rw [hs]
    refine ⟨?_, fun c hc => (h.calls c hc).mono he, fun row hrow => (h.rows row hrow).mono he,
      h.logged⟩
    intro y hy
    rcases List.mem_append.mp hy with hy | hy
    · exact h.signed y hy
    · rw [List.mem_singleton.mp hy]
      exact hsign
  · have he : s.Extends { s with calls := s.calls ++ [⟨call, .opened⟩] } :=
      ⟨List.Subset.refl _, rfl⟩
    rw [hs]
    refine ⟨h.signed, ?_, fun row hrow => (h.rows row hrow).mono he, ?_⟩
    · intro c hc
      rcases List.mem_append.mp hc with hc | hc
      · exact (h.calls c hc).mono he
      · rw [List.mem_singleton.mp hc]
        trivial
    · have hopened : [(⟨call, .opened⟩ : OpenCall)].filterMap OpenCall.storing? = [] := rfl
      simpa [claimed, hopened] using h.logged
  · rw [hs]
    exact h.advance hrepr hi hunforged

theorem step_nodes (s : Aggregator ingestor.ed) (a : AggregatorAction ingestor.ed) :
    (s.step a).state.tables.nodes = s.state.tables.nodes := by
  rcases s.step_cases a with hs | ⟨x, -, hs⟩ | ⟨call, hs⟩ | ⟨i, c, -, -, hs⟩
  · rw [hs]
  · rw [hs]
  · rw [hs]
  · rw [hs]
    show (ingestor.advance s.state c).1.tables.nodes = _
    rcases advance_cases ingestor s.state c with ⟨_, -, hc⟩ | ⟨-, -, hc⟩ | ⟨_, _, -, -, hc⟩ |
      ⟨_, _, -, -, hc⟩ | ⟨d, -, hc⟩ | ⟨tables, _, -, -, hnodes, hc⟩
    all_goals rw [hc]
    · exact DetectionEventIngestor.recordEvent_nodes s.state.tables c.call d
    · exact hnodes

theorem Reachable.nodes_eq {tables : Tables} (h : Reachable ingestor tables s) :
    s.state.tables.nodes = tables.nodes := by
  induction h with
  | start => rfl
  | step _ _ ih => rw [step_nodes, ih]

/-- Every reachable state is sound. -/
theorem Reachable.sound (hrepr : InjectiveRepr ingestor.reprFloat) {tables : Tables}
    (hempty : tables.detectionEvents = []) (h : Reachable ingestor tables s) : s.Sound := by
  induction h with
  | start =>
    refine ⟨by simp [Aggregator.start], by simp [Aggregator.start], ?_, [], logged_initial _, ?_⟩
    · simp [Aggregator.start, hempty]
    · simp [claimed, Aggregator.start, hempty]
  | step _ hunforged ih => exact ih.step hrepr hunforged

end Invariant

/-- Injective agreement. Whatever the network submits and however calls interleave, clocks
jump and commits end, every row is the event of an envelope signed with the key registered for
its node, was fresh when it was accepted, and shares its event with no other row. -/
theorem injective_agreement (ingestor : DetectionEventIngestor)
    (hrepr : InjectiveRepr ingestor.reprFloat) (tables : Tables)
    (hempty : tables.detectionEvents = []) (s : Aggregator ingestor.ed)
    (hreach : Reachable ingestor tables s) :
    (∀ row ∈ s.state.tables.detectionEvents, ∃ x ∈ s.signed,
      signDetectionEvent ingestor.ed ingestor.reprFloat x.envelope.body x.privateKey =
        .ok x.envelope ∧
      (∃ node, tables.getNode x.envelope.body.nodeId = some node ∧
        ingestor.registeredKey node = some (ingestor.ed.publicKey x.privateKey)) ∧
      row.IsOf ingestor.reprFloat x.envelope.body ∧
      WithinSkew ingestor.settings row.acceptedAtUtc row.timestampUtc) ∧
    s.state.tables.detectionEvents.Pairwise fun row row' =>
      ∀ event, row.IsOf ingestor.reprFloat event → ¬ row'.IsOf ingestor.reprFloat event := by
  have h := hreach.sound hrepr hempty
  constructor
  · intro row hrow
    obtain ⟨x, ⟨hx, hsign, node, hnode, hkey⟩, hrow⟩ := h.rows row hrow
    refine ⟨x, hx, hsign, ⟨node, ?_, hkey⟩, hrow⟩
    unfold Tables.getNode at hnode ⊢
    rwa [← hreach.nodes_eq]
  · obtain ⟨log, hlog, reserved, hperm, hsublist⟩ := h.logged
    have hclaimed : s.claimed.Nodup := hperm.nodup_iff.mp (hlog.identities_nodup.sublist hsublist)
    have hnodup : (s.state.tables.detectionEvents.map DetectionEventRecord.identity).Nodup :=
      (List.nodup_append.mp hclaimed).1
    refine (List.pairwise_map.mp hnodup).imp ?_
    intro row row' hne event hrow hrow'
    exact hne (hrow.identity_eq.trans hrow'.identity_eq.symm)

section Sample
open DetectionEventIngestor (sample sampleTables sampleEvent sampleCall getNode_sample
  registeredKey_sampleNode exists_sign_sampleEvent ingest_sample)

variable {now : UtcDatetime} {envelope : SignedDetectionEnvelope} {s : Aggregator sample.ed}

/-- The worker has signed the envelope, and nothing else was submitted. -/
structure OneSigned (envelope : SignedDetectionEnvelope) (s : Aggregator sample.ed) : Prop where
  reachable : Reachable sample sampleTables s
  signed : ⟨(7 : UInt8), envelope⟩ ∈ s.signed
  calls : ∀ c ∈ s.calls, c.call = sampleCall envelope .persisted

theorem OneSigned.unforged (hbody : envelope.body = sampleEvent now) (h : OneSigned envelope s)
    (i : ℕ) : s.Unforged (.advance i) := by
  intro c node publicKey message hi _ hnode hkey hmessage _
  have hc : c.body = envelope.body :=
    congrArg (fun call => call.envelope.body) (h.calls c (List.mem_of_getElem? hi))
  have hregistered := getNode_sample now
  unfold Tables.getNode at hnode hregistered
  rw [hc, hbody, h.reachable.nodes_eq, hregistered] at hnode
  obtain rfl := Option.some.inj hnode
  rw [registeredKey_sampleNode] at hkey
  rw [hc] at hmessage
  exact ⟨_, h.signed, Option.some.inj hkey, hmessage⟩

theorem OneSigned.advance (hbody : envelope.body = sampleEvent now) (h : OneSigned envelope s)
    (i : ℕ) : OneSigned envelope (s.step (.advance i)) := by
  have hreachable := h.reachable.step (h.unforged hbody i)
  cases hi : s.calls[i]? with
  | none =>
    rw [step_absent hi]
    exact h
  | some c =>
    rw [step_advance hi] at hreachable ⊢
    refine ⟨hreachable, h.signed, fun c' hc' => ?_⟩
    rcases List.mem_or_eq_of_mem_set hc' with hc' | rfl
    · exact h.calls c' hc'
    · exact h.calls c (List.mem_of_getElem? hi)

/-- A reachable state with a row, whose event was signed. -/
theorem injective_agreement_one_row :
    ∃ s : Aggregator sample.ed, s.state.tables.detectionEvents.length = 1 ∧
      ∀ row ∈ s.state.tables.detectionEvents, ∃ x ∈ s.signed,
        row.IsOf sample.reprFloat x.envelope.body ∧
        WithinSkew sample.settings row.acceptedAtUtc row.timestampUtc := by
  obtain ⟨envelope, hsign⟩ := exists_sign_sampleEvent ⟨63893000000000000, by decide⟩
  have hbody := (signDetectionEvent_eq_ok hsign).1
  have hstored := ingest_sample hsign (by decide)
  let signing : Aggregator sample.ed :=
    { Aggregator.start sample.ed sampleTables with signed := [⟨(7 : UInt8), envelope⟩] }
  have hsigning : Reachable sample sampleTables signing := by
    have hstep : Reachable sample sampleTables ((Aggregator.start sample.ed sampleTables).step
        (.sign (7 : UInt8) (sampleEvent ⟨63893000000000000, by decide⟩))) :=
      Reachable.start.step trivial
    rwa [step_sign _ hsign] at hstep
  have hsubmitted : OneSigned envelope (signing.step (.submit (sampleCall envelope .persisted))) :=
    ⟨hsigning.step trivial, List.mem_singleton_self _, by simp [step, signing, Aggregator.start]⟩
  have hdone := (((hsubmitted.advance hbody 0).advance hbody 0).advance hbody 0).advance hbody 0
  obtain ⟨stored, hstored⟩ := ingest_sample hsign (by decide)
  have hserial := signing.run_serial (sampleCall envelope .persisted)
  have hrows := congrArg (fun s => s.state.tables.detectionEvents.length) hserial
  refine ⟨_, hrows.trans ?_, fun row hrow => ?_⟩
  · show (sample.ingest ⟨.initial, sampleTables⟩ _).1.tables.detectionEvents.length = 1
    rw [hstored]
    rfl
  · obtain ⟨x, hx, -, -, hof⟩ := (injective_agreement sample Json.exactRepr_floatRepr.injectiveRepr
      sampleTables rfl _ hdone.reachable).1 row hrow
    exact ⟨x, hx, hof⟩

end Sample

end Aggregator

end SecureEdge
