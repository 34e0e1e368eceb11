import SecureEdgeVision.Store.Operations

/-! The store is append-only, and the key that events of a node are verified against is the one
of the node's first seeding. -/
namespace SecureEdge

namespace DetectionEventIngestor
variable {ingestor : DetectionEventIngestor} {tables : Tables}

theorem getNode_addNodes (tables : Tables) (added : List NodeRecord) (nodeId : SafeIdentifier) :
    (tables.addNodes added).getNode nodeId =
      (tables.getNode nodeId).or (added.find? fun record => record.nodeId = nodeId.text) :=
  List.find?_append

/-- A row that a batch adds for a node is the record of one of its registrations. -/
theorem toRegistration_of_adds {batch : List NodeRegistration} {timestamp : UtcDatetime}
    {added : List NodeRecord} (h : Adds tables batch timestamp added) {nodeId : SafeIdentifier}
    {node : NodeRecord}
    (hnode : added.find? (fun record => record.nodeId = nodeId.text) = some node) :
    ∃ registration ∈ batch, registration.nodeId = nodeId ∧
      node.toRegistration = .ok registration := by
  obtain ⟨registration, hmem, -, rfl⟩ := (h.mem node).mp (List.mem_of_find?_eq_some hnode)
  have hfound := List.find?_some hnode
  have hid : registration.nodeId.text = nodeId.text := of_decide_eq_true hfound
  exact ⟨registration, hmem, SafeIdentifier.ext hid, NodeRecord.toRegistration_of_text rfl rfl⟩

/-- After a successful seeding every registration of the batch is what its node reads back as. -/
theorem seed_registers {call : SeedCall} {count : ℕ}
    (h : (seedNodeRegistry tables call).2 = .ok count) {registration : NodeRegistration}
    (hmem : registration ∈ call.registrations) : ∃ node,
      (seedNodeRegistry tables call).1.getNode registration.nodeId = some node ∧
      node.toRegistration = .ok registration := by
  rcases seedNodeRegistry_cases tables call with
    ⟨failure, hseed⟩ | ⟨timestamp, added, ⟨huniform, hconfirms⟩, hadds, hseed | ⟨-, failure, hseed⟩⟩
  · rw [hseed] at h
    cases h
  · rw [hseed, getNode_addNodes]
    cases hnode : tables.getNode registration.nodeId with
    | some node =>
      exact ⟨node, rfl, NodeRecord.toRegistration_of_text (Tables.getNode_nodeId hnode)
        (hconfirms registration hmem node hnode)⟩
    | none =>
      have hadded := (hadds.mem _).mpr ⟨registration, hmem, hnode, rfl⟩
      obtain ⟨node, hfind⟩ : ∃ node, added.find?
          (fun record => record.nodeId = registration.nodeId.text) = some node := by
        refine Option.isSome_iff_exists.mp (List.find?_isSome.mpr ⟨_, hadded, ?_⟩)
        exact decide_eq_true rfl
      obtain ⟨other, hother, hid, hregistration⟩ := toRegistration_of_adds hadds hfind
      rw [huniform other hother registration hmem hid] at hregistration
      exact ⟨node, hfind, hregistration⟩
  · rw [hseed] at h
    cases h

/-- A node that a call made known came with a seeding. -/
theorem seed_of_new_node {call : StoreCall} {nodeId : SafeIdentifier} {node : NodeRecord}
    (hnone : tables.getNode nodeId = none)
    (hnode : (ingestor.store tables call).1.getNode nodeId = some node) :
    ∃ seed : SeedCall, call = .seed seed ∧
      (∃ registration ∈ seed.registrations, registration.nodeId = nodeId ∧
        node.toRegistration = .ok registration) ∧
      ((∃ count, (seedNodeRegistry tables seed).2 = .ok count) ∨
        seed.commit = .persistedRaised) := by
  have hregistry : (ingestor.store tables call).1.registry = tables.registry → False := by
    intro hsame
    have hmap := Tables.getNode_registry hsame nodeId
    rw [hnode, hnone] at hmap
    cases hmap
  have hwrites := store_writes ingestor tables call
  cases call with
  | ingest policy call => exact (hregistry (Tables.registry_congr hwrites.1)).elim
  | record call =>
    refine (hregistry ?_).elim
    rcases hwrites.1 with hnodes | ⟨above, row, below, _, _, -, hbefore, hafter⟩
    · exact Tables.registry_congr hnodes
    · rw [Tables.registry, Tables.registry, hbefore, hafter, List.map_append, List.map_append]
      rfl
  | seed call =>
    refine ⟨call, rfl, ?_⟩
    have hnode' : (seedNodeRegistry tables call).1.getNode nodeId = some node := hnode
    rcases seedNodeRegistry_cases tables call with
      ⟨failure, hseed⟩ | ⟨timestamp, added, -, hadds, hseed | ⟨hcommit, failure, hseed⟩⟩
    · rw [hseed, hnone] at hnode'
      cases hnode'
    · rw [hseed, getNode_addNodes, hnone] at hnode'
      exact ⟨toRegistration_of_adds hadds hnode', Or.inl ⟨_, by rw [hseed]⟩⟩
    · rw [hseed, getNode_addNodes, hnone] at hnode'
      exact ⟨toRegistration_of_adds hadds hnode', Or.inr hcommit⟩

variable (ingestor)

/-- The seeding that made a node known. -/
structure FirstSeeding (tables : Tables) (calls : List StoreCall) (nodeId : SafeIdentifier)
    (before : List StoreCall) (seed : SeedCall) (registration : NodeRegistration) : Prop where
  split : ∃ after, calls = before ++ .seed seed :: after
  unknown : (ingestor.stored tables before).getNode nodeId = none
  member : registration ∈ seed.registrations
  nodeId_eq : registration.nodeId = nodeId
  persisted : (∃ count, (seedNodeRegistry (ingestor.stored tables before) seed).2 = .ok count) ∨
    seed.commit = .persistedRaised

variable {ingestor}

theorem exists_firstSeeding (hempty : tables.nodes = []) (calls : List StoreCall)
    {nodeId : SafeIdentifier} {node : NodeRecord}
    (hnode : (ingestor.stored tables calls).getNode nodeId = some node) :
    ∃ before seed registration,
      FirstSeeding ingestor tables calls nodeId before seed registration ∧
      node.toRegistration = .ok registration := by
  induction calls using List.reverseRecOn generalizing node with
  | nil =>
    have hfind : tables.nodes.find? (fun record => record.nodeId = nodeId.text) = some node := hnode
    rw [hempty] at hfind
    cases hfind
  | append_singleton calls call ih =>
    rw [stored_concat] at hnode
    cases hbefore : (ingestor.stored tables calls).getNode nodeId with
    | some node' =>
      obtain ⟨before, seed, registration, hfirst, hregistration⟩ := ih hbefore
      obtain ⟨after, hsplit⟩ := hfirst.split
      obtain ⟨found, hfound, hidentity⟩ := (store_extends ingestor _ call).getNode hbefore
      rw [hnode] at hfound
      obtain rfl := Option.some.inj hfound
      refine ⟨before, seed, registration, ⟨⟨after ++ [call], ?_⟩, hfirst.unknown, hfirst.member,
        hfirst.nodeId_eq, hfirst.persisted⟩, ?_⟩
      · rw [hsplit, List.append_assoc, List.cons_append]
      · rw [NodeRecord.toRegistration_congr hidentity, hregistration]
    | none =>
      obtain ⟨seed, rfl, ⟨registration, hmem, hid, hregistration⟩, hpersisted⟩ :=
        seed_of_new_node hbefore hnode
      exact ⟨calls, seed, registration, ⟨⟨[], rfl⟩, hbefore, hmem, hid, hpersisted⟩, hregistration⟩

end DetectionEventIngestor

open DetectionEventIngestor in
/-- The store is append-only and identities are pinned, along every sequence of calls. -/
theorem store_append_only (ingestor : DetectionEventIngestor) (tables : Tables)
    (calls : List StoreCall) :
    (∀ before call after, calls = before ++ call :: after →
      tables.Extends (ingestor.stored tables before) ∧
      call.Writes (ingestor.stored tables before) (ingestor.stored tables (before ++ [call])) ∧
      (ingestor.stored tables (before ++ [call])).Extends (ingestor.stored tables calls)) ∧
    (∀ before seed after count, calls = before ++ .seed seed :: after →
      (seedNodeRegistry (ingestor.stored tables before) seed).2 = .ok count →
      ∀ registration ∈ seed.registrations, ∃ node,
        (ingestor.stored tables calls).getNode registration.nodeId = some node ∧
        node.toRegistration = .ok registration ∧
        ingestor.registeredKey node =
          (loadPublicKey ingestor.ed registration.publicKeyB64.text).toOption) ∧
    (tables.nodes = [] → ∀ nodeId node,
      (ingestor.stored tables calls).getNode nodeId = some node →
      ∃ before seed registration,
        FirstSeeding ingestor tables calls nodeId before seed registration ∧
        node.toRegistration = .ok registration ∧
        ingestor.registeredKey node =
          (loadPublicKey ingestor.ed registration.publicKeyB64.text).toOption) := by
  have hkey : ∀ {node : NodeRecord} {registration : NodeRegistration},
      node.toRegistration = .ok registration → ingestor.registeredKey node =
        (loadPublicKey ingestor.ed registration.publicKeyB64.text).toOption := by
    intro node registration h
    unfold registeredKey
    rw [h]
  refine ⟨?_, ?_, ?_⟩
  · rintro before call after rfl
    rw [stored_concat, stored_append _ _ before call after]
    exact ⟨stored_extends ingestor tables before, store_writes ingestor _ call,
      stored_extends ingestor _ after⟩
  · rintro before seed after count rfl hok registration hmem
    obtain ⟨node, hnode, hregistration⟩ := seed_registers hok hmem
    rw [stored_append]
    obtain ⟨later, hlater, hidentity⟩ := (stored_extends ingestor _ after).getNode
      (show (ingestor.store _ (.seed seed)).1.getNode registration.nodeId = some node from hnode)
    have hsame := (NodeRecord.toRegistration_congr hidentity).trans hregistration
    exact ⟨later, hlater, hsame, hkey hsame⟩
  · intro hempty nodeId node hnode
    obtain ⟨before, seed, registration, hfirst, hregistration⟩ :=
      exists_firstSeeding hempty calls hnode
    exact ⟨before, seed, registration, hfirst, hregistration, hkey hregistration⟩

end SecureEdge
