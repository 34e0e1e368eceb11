import SecureEdgeVision.Persistence.Records
import SecureEdgeVision.Python.Dict

/-! Seeding of the node registry: one transaction that adds the new identities of a batch, or
nothing. -/
namespace SecureEdge

open Python (Dict)

/-- A `PersistenceError`, or what else a session raises. -/
inductive SeedFailure where
  | persistence (error : PersistenceError)
  | other
deriving DecidableEq

/-- A call with what it will meet: the time it is given, what escapes when the session factory
or its query raises, and the commit. -/
structure SeedCall where
  registrations : List NodeRegistration
  registeredAt : ClockReading
  queryRaises : Option SeedFailure
  commit : CommitOutcome
deriving DecidableEq

/-- A call on a healthy store. -/
def SeedCall.healthy (registrations : List NodeRegistration) (registeredAtUtc : UtcDatetime) :
    SeedCall :=
  ⟨registrations, .utc registeredAtUtc, none, .persisted⟩

def PersistenceError.transactionFailed : PersistenceError := ⟨"database transaction failed"⟩

def PersistenceError.identityConflict : PersistenceError :=
  ⟨"node identity conflicts with registered public key"⟩

/-- `NodeRecord.from_registration` -/
def NodeRecord.fromRegistration (registration : NodeRegistration) (registeredAtUtc : UtcDatetime) :
    NodeRecord where
  nodeId := registration.nodeId.text
  publicKeyB64 := registration.publicKeyB64.text
  registeredAtUtc := registeredAtUtc
  lastSeenAtUtc := none
  healthStatus := none

/-- One turn of the loop that collects the batch by node ID. -/
def collectRegistration (byId : Dict SafeIdentifier NodeRegistration)
    (registration : NodeRegistration) :
    Except PersistenceError (Dict SafeIdentifier NodeRegistration) :=
  match byId.get? registration.nodeId with
  | none => .ok (byId.set registration.nodeId registration)
  | some previous =>
    if previous.publicKeyB64 ≠ registration.publicKeyB64 then .error .identityConflict
    else .ok (byId.set registration.nodeId registration)

/-- The loop over the collected batch: the records that the session adds. -/
def newRecords (tables : Tables) (timestamp : UtcDatetime) :
    List (SafeIdentifier × NodeRegistration) → Except PersistenceError (List NodeRecord)
  | [] => .ok []
  | (nodeId, registration) :: rest =>
    match tables.getNode nodeId with
    | some record => do
      let stored ← record.toRegistration
      if stored.publicKeyB64 ≠ registration.publicKeyB64 then .error .identityConflict
      else newRecords tables timestamp rest
    | none => do
      let records ← newRecords tables timestamp rest
      .ok (NodeRecord.fromRegistration registration timestamp :: records)

/-- Flush new node rows; `none` is a primary key that is taken. -/
def Tables.insertNodes (tables : Tables) (records : List NodeRecord) : Option Tables :=
  if ((tables.nodes ++ records).map NodeRecord.nodeId).Nodup then
    some { tables with nodes := tables.nodes ++ records }
  else none

/-- `seed_node_registry` -/
def seedNodeRegistry (tables : Tables) (call : SeedCall) : Tables × Except SeedFailure ℕ :=
  match call.registeredAt with
  | .utc timestamp =>
    match call.registrations.foldlM collectRegistration Dict.empty with
    | .error e => (tables, .error (.persistence e))
    | .ok byId =>
      if byId.entries = [] then (tables, .ok 0)
      else
        match call.queryRaises with
        | some failure => (tables, .error failure)
        | none =>
          match newRecords tables timestamp byId.entries with
          | .error e => (tables, .error (.persistence e))
          | .ok records =>
            match tables.insertNodes records with
            | none => (tables, .error (.persistence .transactionFailed))
            | some after =>
              match call.commit.apply tables after with
              | (tables, true) => (tables, .ok records.length)
              | (tables, false) => (tables, .error (.persistence .transactionFailed))
  | _ => (tables, .error (.persistence ⟨"registration timestamp must be aware UTC"⟩))

def NodeRegistration.identity (registration : NodeRegistration) : String × String :=
  (registration.nodeId.text, registration.publicKeyB64.text)

theorem NodeRegistration.identity_injective : Function.Injective NodeRegistration.identity := by
  rintro ⟨⟨id, hid⟩, ⟨key, hkey⟩⟩ ⟨⟨id', hid'⟩, ⟨key', hkey'⟩⟩ h
  obtain ⟨rfl, rfl⟩ := Prod.mk.inj h
  rfl

section Collecting

/-- What the loop has collected of the registrations it went through. -/
structure Collects (byId : Dict SafeIdentifier NodeRegistration) (seen : List NodeRegistration) :
    Prop where
  sound : ∀ nodeId registration, byId.get? nodeId = some registration →
    registration ∈ seen ∧ registration.nodeId = nodeId
  complete : ∀ registration ∈ seen, byId.get? registration.nodeId = some registration

/-- No two registrations give one node different keys. -/
def Uniform (registrations : List NodeRegistration) : Prop :=
  ∀ a ∈ registrations, ∀ b ∈ registrations, a.nodeId = b.nodeId → a = b

theorem Collects.uniform {byId : Dict SafeIdentifier NodeRegistration}
    {seen : List NodeRegistration} (h : Collects byId seen) : Uniform seen := by
  intro a ha b hb hab
  have hget := h.complete a ha
  rw [hab, h.complete b hb] at hget
  exact (Option.some.inj hget).symm

theorem Collects.set {byId : Dict SafeIdentifier NodeRegistration} {seen : List NodeRegistration}
    (h : Collects byId seen) {registration : NodeRegistration}
    (hsame : ∀ previous, byId.get? registration.nodeId = some previous → previous = registration) :
    Collects (byId.set registration.nodeId registration) (seen ++ [registration]) where
  sound nodeId found hfound := by
    rw [Dict.get?_set] at hfound
    split_ifs at hfound with hid
    · obtain rfl := Option.some.inj hfound
      exact ⟨by simp, hid⟩
    · obtain ⟨hmem, hnode⟩ := h.sound nodeId found hfound
      exact ⟨List.mem_append_left _ hmem, hnode⟩
  complete other hother := by
    rw [Dict.get?_set]
    split_ifs with hid
    · rcases List.mem_append.mp hother with hmem | hmem
      · rw [hsame other (hid ▸ h.complete other hmem)]
      · rw [List.mem_singleton.mp hmem]
    · rcases List.mem_append.mp hother with hmem | hmem
      · exact h.complete other hmem
      · exact absurd (congrArg NodeRegistration.nodeId (List.mem_singleton.mp hmem).symm) hid

theorem collectRegistration_cases {byId : Dict SafeIdentifier NodeRegistration}
    {seen : List NodeRegistration} (h : Collects byId seen) (registration : NodeRegistration) :
    (∃ byId', collectRegistration byId registration = .ok byId' ∧
      Collects byId' (seen ++ [registration])) ∨
    collectRegistration byId registration = .error .identityConflict ∧
      ∃ previous ∈ seen, previous.nodeId = registration.nodeId ∧ previous ≠ registration := by
  unfold collectRegistration
  cases hget : byId.get? registration.nodeId with
  | none =>
    refine Or.inl ⟨_, rfl, h.set fun previous hprevious => ?_⟩
    rw [hget] at hprevious
    cases hprevious
  | some previous =>
    obtain ⟨hmem, hid⟩ := h.sound _ _ hget
    dsimp only
    split_ifs with hkey
    · exact Or.inr ⟨rfl, previous, hmem, hid, fun he => hkey (he ▸ rfl)⟩
    · rw [not_not] at hkey
      have hsame : previous = registration := by
        apply NodeRegistration.identity_injective
        rw [NodeRegistration.identity, NodeRegistration.identity, hid, hkey]
      refine Or.inl ⟨_, rfl, h.set fun other hother => ?_⟩
      rw [hget] at hother
      rw [← Option.some.inj hother, hsame]

/-- The loop collects a batch exactly when it is uniform. -/
theorem collectRegistrations_cases {byId : Dict SafeIdentifier NodeRegistration}
    {seen : List NodeRegistration} (h : Collects byId seen) (batch : List NodeRegistration) :
    (∃ byId', batch.foldlM collectRegistration byId = .ok byId' ∧ Collects byId' (seen ++ batch)) ∨
    batch.foldlM collectRegistration byId = .error .identityConflict ∧
      ¬ Uniform (seen ++ batch) := by
  induction batch generalizing byId seen with
  | nil => exact Or.inl ⟨byId, rfl, by rwa [List.append_nil]⟩
  | cons registration batch ih =>
    rw [List.foldlM_cons]
    rcases collectRegistration_cases h registration with
      ⟨byId', hstep, hcollects⟩ | ⟨hstep, previous, hmem, hid, hne⟩
    · rw [hstep, Python.ok_bind]
      rw [List.append_cons]
      exact ih hcollects
    · rw [hstep, Python.error_bind]
      refine Or.inr ⟨rfl, fun huniform => hne ?_⟩
      exact huniform previous (List.mem_append_left _ hmem) registration (by simp) hid

end Collecting

section Adding
variable {tables : Tables} {timestamp : UtcDatetime}

/-- The records of a collected batch for the nodes that are not registered yet. -/
def freshRecords (tables : Tables) (timestamp : UtcDatetime)
    (entries : List (SafeIdentifier × NodeRegistration)) : List NodeRecord :=
  (entries.filter fun x => (tables.getNode x.1).isNone).map fun x =>
    NodeRecord.fromRegistration x.2 timestamp

/-- The key that is registered for a node is the one of the registration. -/
def Tables.Confirms (tables : Tables) (registration : NodeRegistration) : Prop :=
  ∀ record, tables.getNode registration.nodeId = some record →
    record.publicKeyB64 = registration.publicKeyB64.text

theorem Tables.getNode_nodeId {nodeId : SafeIdentifier} {record : NodeRecord}
    (h : tables.getNode nodeId = some record) : record.nodeId = nodeId.text := by
  simpa using List.find?_some h

theorem NodeRecord.toRegistration_text {record : NodeRecord} {stored : NodeRegistration}
    (h : record.toRegistration = .ok stored) :
    record.nodeId = stored.nodeId.text ∧ record.publicKeyB64 = stored.publicKeyB64.text := by
  unfold toRegistration at h
  split_ifs at h with hid
  cases hkey : validatePublicKeyB64 record.publicKeyB64 with
  | error e => rw [hkey] at h; cases h
  | ok publicKeyB64 =>
    rw [hkey] at h
    obtain rfl := Except.ok.inj h
    exact ⟨rfl, (validateCanonicalBase64_eq_ok hkey).symm⟩

theorem NodeRecord.toRegistration_of_text {record : NodeRecord} {registration : NodeRegistration}
    (hid : record.nodeId = registration.nodeId.text)
    (hkey : record.publicKeyB64 = registration.publicKeyB64.text) :
    record.toRegistration = .ok registration := by
  have hvalid : validatePublicKeyB64 record.publicKeyB64 = .ok registration.publicKeyB64 :=
    hkey ▸ validateCanonicalBase64_text _ _
  unfold toRegistration
  rw [dif_pos (hid ▸ registration.nodeId.valid), hvalid]
  have hnode : (⟨record.nodeId, hid ▸ registration.nodeId.valid⟩ : SafeIdentifier) =
      registration.nodeId := SafeIdentifier.ext hid
  dsimp only
  rw [hnode]

/-- The loop over the batch adds the fresh records, or meets a node with another key. -/
theorem newRecords_cases (tables : Tables) (timestamp : UtcDatetime)
    {entries : List (SafeIdentifier × NodeRegistration)} (h : ∀ x ∈ entries, x.2.nodeId = x.1) :
    newRecords tables timestamp entries = .ok (freshRecords tables timestamp entries) ∧
      (∀ x ∈ entries, tables.Confirms x.2) ∨
    (∃ e, newRecords tables timestamp entries = .error e) ∧
      ∃ x ∈ entries, ¬ tables.Confirms x.2 := by
  induction entries with
  | nil => exact Or.inl ⟨rfl, by simp⟩
  | cons x entries ih =>
    obtain ⟨nodeId, registration⟩ := x
    obtain rfl : registration.nodeId = nodeId := h (nodeId, registration) List.mem_cons_self
    have hrest := ih fun x hx => h x (List.mem_cons_of_mem _ hx)
    unfold newRecords freshRecords
    cases hnode : tables.getNode registration.nodeId with
    | none =>
      dsimp only
      have hconfirms : tables.Confirms registration := fun record hrecord => by
        rw [hnode] at hrecord
        cases hrecord
      rcases hrest with ⟨hok, hall⟩ | ⟨⟨e, herror⟩, x, hx, hbad⟩
      · rw [hok, Python.ok_bind]
        refine Or.inl ⟨by simp [freshRecords, hnode], ?_⟩
        exact List.forall_mem_cons.mpr ⟨hconfirms, hall⟩
      · rw [herror, Python.error_bind]
        exact Or.inr ⟨⟨e, rfl⟩, x, List.mem_cons_of_mem _ hx, hbad⟩
    | some record =>
      dsimp only
      have hid := Tables.getNode_nodeId hnode
      by_cases hkey : record.publicKeyB64 = registration.publicKeyB64.text
      · rw [NodeRecord.toRegistration_of_text hid hkey, Python.ok_bind, if_neg (by simp)]
        have hconfirms : tables.Confirms registration := fun other hother => by
          rw [hnode] at hother
          rw [← Option.some.inj hother, hkey]
        rcases hrest with ⟨hok, hall⟩ | ⟨herror, x, hx, hbad⟩
        · refine Or.inl ⟨by rw [hok]; simp [freshRecords, hnode], ?_⟩
          exact List.forall_mem_cons.mpr ⟨hconfirms, hall⟩
        · exact Or.inr ⟨herror, x, List.mem_cons_of_mem _ hx, hbad⟩
      · refine Or.inr ⟨?_, _, List.mem_cons_self, fun hconfirms => hkey (hconfirms record hnode)⟩
        cases hstored : record.toRegistration with
        | error e => exact ⟨e, rfl⟩
        | ok stored =>
          obtain ⟨-, htext⟩ := NodeRecord.toRegistration_text hstored
          refine ⟨.identityConflict, ?_⟩
          have hother : stored.publicKeyB64 ≠ registration.publicKeyB64 := by
            intro he
            exact hkey (htext.trans (congrArg CanonicalBase64.text he))
          rw [Python.ok_bind, if_pos hother]

/-- The rows that a batch adds: one for each node that was not registered. -/
structure Adds (tables : Tables) (batch : List NodeRegistration) (timestamp : UtcDatetime)
    (added : List NodeRecord) : Prop where
  nodup : (added.map NodeRecord.nodeId).Nodup
  mem : ∀ row, row ∈ added ↔ ∃ registration ∈ batch,
    tables.getNode registration.nodeId = none ∧
      row = NodeRecord.fromRegistration registration timestamp

theorem adds_freshRecords {byId : Dict SafeIdentifier NodeRegistration}
    {batch : List NodeRegistration} (h : Collects byId batch) :
    Adds tables batch timestamp (freshRecords tables timestamp byId.entries) where
  nodup := by
    have hids : (freshRecords tables timestamp byId.entries).map NodeRecord.nodeId =
        ((byId.entries.filter fun x => (tables.getNode x.1).isNone).map Prod.fst).map
          SafeIdentifier.text := by
      rw [freshRecords, List.map_map, List.map_map]
      refine List.map_congr_left fun x hx => ?_
      have hget := Dict.get?_eq_some.mpr (List.mem_of_mem_filter hx : (x.1, x.2) ∈ byId.entries)
      show x.2.nodeId.text = x.1.text
      rw [(h.sound _ _ hget).2]
    rw [hids]
    refine List.Nodup.map (fun a b => SafeIdentifier.ext) ?_
    exact byId.keys_nodup.sublist (List.filter_sublist.map Prod.fst)
  mem row := by
    unfold freshRecords
    rw [List.mem_map]
    constructor
    · rintro ⟨⟨nodeId, registration⟩, hx, rfl⟩
      obtain ⟨hx, hnone⟩ := List.mem_filter.mp hx
      obtain ⟨hmem, rfl⟩ := h.sound _ _ (Dict.get?_eq_some.mpr hx)
      exact ⟨registration, hmem, by simpa using hnone, rfl⟩
    · rintro ⟨registration, hmem, hnone, rfl⟩
      refine ⟨(registration.nodeId, registration), List.mem_filter.mpr ⟨?_, by simp [hnone]⟩, rfl⟩
      exact Dict.get?_eq_some.mp (h.complete registration hmem)

theorem Adds.congr {batch batch' : List NodeRegistration} {added added' : List NodeRecord}
    (h : Adds tables batch timestamp added) (h' : Adds tables batch' timestamp added')
    (hsame : ∀ registration, registration ∈ batch' ↔ registration ∈ batch) :
    added'.Perm added := by
  refine (List.perm_ext_iff_of_nodup h'.nodup.of_map h.nodup.of_map).mpr fun row => ?_
  rw [h'.mem, h.mem]
  simp only [hsame]

def Tables.addNodes (tables : Tables) (records : List NodeRecord) : Tables :=
  { tables with nodes := tables.nodes ++ records }

/-- `node_id` is the primary key. -/
def Tables.NodesDistinct (tables : Tables) : Prop := (tables.nodes.map NodeRecord.nodeId).Nodup

theorem Tables.getNode_eq_none {nodeId : SafeIdentifier} :
    tables.getNode nodeId = none ↔ nodeId.text ∉ tables.nodes.map NodeRecord.nodeId := by
  unfold getNode
  rw [List.find?_eq_none, List.mem_map]
  simp

theorem Tables.getNode_of_mem (hkeys : tables.NodesDistinct) {record : NodeRecord}
    (hmem : record ∈ tables.nodes) {nodeId : SafeIdentifier} (hid : record.nodeId = nodeId.text) :
    tables.getNode nodeId = some record := by
  cases hfound : tables.getNode nodeId with
  | none =>
    exact absurd (hid ▸ List.mem_map_of_mem hmem) (getNode_eq_none.mp hfound)
  | some other =>
    have hother : other.nodeId = record.nodeId := (getNode_nodeId hfound).trans hid.symm
    rw [List.inj_on_of_nodup_map hkeys (List.mem_of_find?_eq_some hfound) hmem hother]

/-- Rows that a batch adds do not clash with each other or with the rows before them. -/
theorem Adds.nodesDistinct {batch : List NodeRegistration} {added : List NodeRecord}
    (h : Adds tables batch timestamp added) (hkeys : tables.NodesDistinct) :
    (tables.addNodes added).NodesDistinct := by
  show ((tables.nodes ++ added).map NodeRecord.nodeId).Nodup
  rw [List.map_append]
  refine List.nodup_append.mpr ⟨hkeys, h.nodup, fun a ha b hb hab => ?_⟩
  obtain ⟨row, hrow, rfl⟩ := List.mem_map.mp hb
  obtain ⟨registration, -, hnone, rfl⟩ := (h.mem row).mp hrow
  rw [hab] at ha
  exact Tables.getNode_eq_none.mp hnone ha

theorem Adds.insertNodes {batch : List NodeRegistration} {added : List NodeRecord}
    (h : Adds tables batch timestamp added) (hkeys : tables.NodesDistinct) :
    tables.insertNodes added = some (tables.addNodes added) := if_pos (h.nodesDistinct hkeys)

/-- The batch agrees with itself and with the registry. -/
def Tables.Accepts (tables : Tables) (batch : List NodeRegistration) : Prop :=
  Uniform batch ∧ ∀ registration ∈ batch, tables.Confirms registration

/-- What a call decides before it writes: the keys decide, and they leave the rows to add. -/
theorem seed_plan (tables : Tables) (batch : List NodeRegistration) (timestamp : UtcDatetime) :
    (tables.Accepts batch ∧ ∃ byId added,
      batch.foldlM collectRegistration Dict.empty = .ok byId ∧
      newRecords tables timestamp byId.entries = .ok added ∧
      (byId.entries = [] → added = []) ∧ Adds tables batch timestamp added) ∨
    ¬ tables.Accepts batch ∧
      ((∃ e, batch.foldlM collectRegistration Dict.empty = .error e) ∨
        ∃ byId e, batch.foldlM collectRegistration Dict.empty = .ok byId ∧ byId.entries ≠ [] ∧
          newRecords tables timestamp byId.entries = .error e) := by
  have hstart : Collects Dict.empty [] := ⟨by simp, by simp⟩
  rcases collectRegistrations_cases hstart batch with ⟨byId, hfold, hcollects⟩ | ⟨hfold, hbad⟩
  · rw [List.nil_append] at hcollects
    have hids : ∀ x ∈ byId.entries, x.2.nodeId = x.1 := fun x hx =>
      (hcollects.sound _ _ (Dict.get?_eq_some.mpr hx)).2
    rcases newRecords_cases tables timestamp hids with ⟨hrecords, hall⟩ | ⟨⟨e, he⟩, x, hx, hbad⟩
    · refine Or.inl ⟨⟨hcollects.uniform, fun registration h => ?_⟩, byId, _, hfold, hrecords,
        fun hempty => by rw [hempty]; rfl, adds_freshRecords hcollects⟩
      exact hall _ (Dict.get?_eq_some.mp (hcollects.complete registration h))
    · refine Or.inr ⟨fun haccepts => hbad ?_, Or.inr ⟨byId, e, hfold, List.ne_nil_of_mem hx, he⟩⟩
      exact haccepts.2 x.2 (hcollects.sound _ _ (Dict.get?_eq_some.mpr hx)).1
  · rw [List.nil_append] at hbad
    exact Or.inr ⟨fun haccepts => hbad haccepts.1, Or.inl ⟨_, hfold⟩⟩

/-- A call raises, or it adds the new nodes of its batch; then the commit may still raise. -/
theorem seedNodeRegistry_cases (tables : Tables) (call : SeedCall) :
    (∃ failure, seedNodeRegistry tables call = (tables, .error failure)) ∨
    ∃ timestamp added, tables.Accepts call.registrations ∧
      Adds tables call.registrations timestamp added ∧
      (seedNodeRegistry tables call = (tables.addNodes added, .ok added.length) ∨
        call.commit = .persistedRaised ∧
          ∃ failure, seedNodeRegistry tables call = (tables.addNodes added, .error failure)) := by
  unfold seedNodeRegistry
  cases call.registeredAt with
  | failed => exact Or.inl ⟨_, rfl⟩
  | notUtc => exact Or.inl ⟨_, rfl⟩
  | utc timestamp =>
    dsimp only
    rcases seed_plan tables call.registrations timestamp with
      ⟨haccepts, byId, added, hfold, hrecords, hempty, hadds⟩ |
        ⟨-, ⟨e, hfold⟩ | ⟨byId, e, hfold, hne, he⟩⟩
    · rw [hfold]
      dsimp only
      split_ifs with hnone
      · obtain rfl := hempty hnone
        exact Or.inr ⟨timestamp, [], haccepts, hadds, Or.inl (by simp [Tables.addNodes])⟩
      · cases call.queryRaises with
        | some failure => exact Or.inl ⟨failure, rfl⟩
        | none =>
          dsimp only
          rw [hrecords]
          dsimp only
          unfold Tables.insertNodes
          split_ifs
          · cases call.commit with
            | persisted => exact Or.inr ⟨timestamp, added, haccepts, hadds, Or.inl rfl⟩
            | failed => exact Or.inl ⟨_, rfl⟩
            | persistedRaised =>
              exact Or.inr ⟨timestamp, added, haccepts, hadds, Or.inr ⟨rfl, _, rfl⟩⟩
          · exact Or.inl ⟨_, rfl⟩
    · rw [hfold]
      exact Or.inl ⟨_, rfl⟩
    · rw [hfold]
      dsimp only
      rw [if_neg hne]
      cases call.queryRaises with
      | some failure => exact Or.inl ⟨failure, rfl⟩
      | none =>
        dsimp only
        rw [he]
        exact Or.inl ⟨_, rfl⟩

/-- On a healthy store only the keys decide. -/
theorem seedNodeRegistry_healthy (hkeys : tables.NodesDistinct) (batch : List NodeRegistration)
    (timestamp : UtcDatetime) :
    (tables.Accepts batch ∧ ∃ added, Adds tables batch timestamp added ∧
      seedNodeRegistry tables (.healthy batch timestamp) =
        (tables.addNodes added, .ok added.length)) ∨
    ¬ tables.Accepts batch ∧ ∃ failure,
      seedNodeRegistry tables (.healthy batch timestamp) = (tables, .error failure) := by
  unfold seedNodeRegistry SeedCall.healthy
  dsimp only
  rcases seed_plan tables batch timestamp with
    ⟨haccepts, byId, added, hfold, hrecords, hempty, hadds⟩ |
      ⟨hbad, ⟨e, hfold⟩ | ⟨byId, e, hfold, hne, he⟩⟩
  · refine Or.inl ⟨haccepts, added, hadds, ?_⟩
    rw [hfold]
    dsimp only
    split_ifs with hnone
    · rw [hempty hnone]
      simp [Tables.addNodes]
    · rw [hrecords]
      dsimp only
      rw [hadds.insertNodes hkeys]
      rfl
  · rw [hfold]
    exact Or.inr ⟨hbad, _, rfl⟩
  · rw [hfold]
    dsimp only
    rw [if_neg hne, he]
    exact Or.inr ⟨hbad, _, rfl⟩

end Adding

end SecureEdge
