import SecureEdgeVision.Persistence.Seeding

/-! Seeding as the union of two finite maps: which batches are accepted, what they leave, and
why their order does not matter. -/
namespace SecureEdge

section Union
variable {tables : Tables} {timestamp : UtcDatetime} {batch : List NodeRegistration}

/-- The identities of the registry, without their registration times. -/
def Tables.identities (tables : Tables) : List (String × String) :=
  tables.nodes.map fun record => (record.nodeId, record.publicKeyB64)

/-- At most one key for each node. -/
def OneKeyEach (identities : List (String × String)) : Prop :=
  ∀ nodeId key key', (nodeId, key) ∈ identities → (nodeId, key') ∈ identities → key = key'

theorem Tables.accepts_iff (hkeys : tables.NodesDistinct) :
    tables.Accepts batch ↔
      OneKeyEach (tables.identities ++ batch.map NodeRegistration.identity) := by
  have hstored : ∀ nodeId key, (nodeId, key) ∈ tables.identities →
      ∃ record ∈ tables.nodes, record.nodeId = nodeId ∧ record.publicKeyB64 = key := by
    intro nodeId key h
    obtain ⟨record, hmem, he⟩ := List.mem_map.mp h
    exact ⟨record, hmem, congrArg Prod.fst he, congrArg Prod.snd he⟩
  have hclaimed : ∀ nodeId key, (nodeId, key) ∈ batch.map NodeRegistration.identity →
      ∃ registration ∈ batch, registration.nodeId.text = nodeId ∧
        registration.publicKeyB64.text = key := by
    intro nodeId key h
    obtain ⟨registration, hmem, he⟩ := List.mem_map.mp h
    exact ⟨registration, hmem, congrArg Prod.fst he, congrArg Prod.snd he⟩
  constructor
  · rintro ⟨huniform, hconfirms⟩ nodeId key key' h h'
    have hcross : ∀ key key', (nodeId, key) ∈ tables.identities →
        (nodeId, key') ∈ batch.map NodeRegistration.identity → key = key' := by
      intro key key' h h'
      obtain ⟨record, hmem, hid, rfl⟩ := hstored _ _ h
      obtain ⟨registration, hmem', hid', rfl⟩ := hclaimed _ _ h'
      exact hconfirms registration hmem' record
        (Tables.getNode_of_mem hkeys hmem (hid.trans hid'.symm))
    rcases List.mem_append.mp h with h | h <;> rcases List.mem_append.mp h' with h' | h'
    · obtain ⟨record, hmem, hid, rfl⟩ := hstored _ _ h
      obtain ⟨record', hmem', hid', rfl⟩ := hstored _ _ h'
      rw [List.inj_on_of_nodup_map hkeys hmem hmem' (hid.trans hid'.symm)]
    · exact hcross key key' h h'
    · exact (hcross key' key h' h).symm
    · obtain ⟨registration, hmem, hid, rfl⟩ := hclaimed _ _ h
      obtain ⟨registration', hmem', hid', rfl⟩ := hclaimed _ _ h'
      rw [huniform registration hmem registration' hmem' (SafeIdentifier.ext (hid.trans hid'.symm))]
  · intro h
    refine ⟨fun a ha b hb hab => NodeRegistration.identity_injective ?_,
      fun registration hmem record hrecord => ?_⟩
    · refine Prod.ext (congrArg SafeIdentifier.text hab) ?_
      refine h a.nodeId.text _ _ (List.mem_append_right _ (List.mem_map_of_mem ha)) ?_
      rw [hab]
      exact List.mem_append_right _ (List.mem_map_of_mem hb)
    · refine h registration.nodeId.text _ _ (List.mem_append_left _ ?_)
        (List.mem_append_right _ (List.mem_map_of_mem hmem))
      refine List.mem_map.mpr ⟨record, List.mem_of_find?_eq_some hrecord, ?_⟩
      rw [Tables.getNode_nodeId hrecord]

theorem seed_eq_ok (hkeys : tables.NodesDistinct) {inserted : ℕ}
    (h : (seedNodeRegistry tables (.healthy batch timestamp)).2 = .ok inserted) :
    tables.Accepts batch ∧ ∃ added, Adds tables batch timestamp added ∧
      added.length = inserted ∧
      seedNodeRegistry tables (.healthy batch timestamp) =
        (tables.addNodes added, .ok added.length) := by
  rcases seedNodeRegistry_healthy hkeys batch timestamp with
    ⟨haccepts, added, hadds, hseed⟩ | ⟨-, failure, hseed⟩
  · rw [hseed] at h
    exact ⟨haccepts, added, hadds, Except.ok.inj h, hseed⟩
  · rw [hseed] at h
    cases h

theorem seed_isOk (hkeys : tables.NodesDistinct) :
    (seedNodeRegistry tables (.healthy batch timestamp)).2.isOk = true ↔
      tables.Accepts batch := by
  rcases seedNodeRegistry_healthy hkeys batch timestamp with
    ⟨haccepts, added, -, hseed⟩ | ⟨hbad, failure, hseed⟩
  · rw [hseed]
    exact iff_of_true rfl haccepts
  · rw [hseed]
    exact iff_of_false Bool.false_ne_true hbad

/-- The same registrations in another order, or repeated, have the same effect. -/
theorem seed_congr (hkeys : tables.NodesDistinct) {batch' : List NodeRegistration}
    (hsame : ∀ registration, registration ∈ batch' ↔ registration ∈ batch) :
    (seedNodeRegistry tables (.healthy batch' timestamp)).2.toOption =
        (seedNodeRegistry tables (.healthy batch timestamp)).2.toOption ∧
      (seedNodeRegistry tables (.healthy batch' timestamp)).1.nodes.Perm
        (seedNodeRegistry tables (.healthy batch timestamp)).1.nodes := by
  have haccepts : tables.Accepts batch' ↔ tables.Accepts batch := by
    unfold Tables.Accepts Uniform
    simp only [hsame]
  rcases seedNodeRegistry_healthy hkeys batch timestamp with
    ⟨h, added, hadds, hseed⟩ | ⟨h, failure, hseed⟩ <;>
  rcases seedNodeRegistry_healthy hkeys batch' timestamp with
    ⟨h', added', hadds', hseed'⟩ | ⟨h', failure', hseed'⟩
  · have hperm := hadds.congr hadds' hsame
    rw [hseed, hseed', hperm.length_eq]
    exact ⟨rfl, hperm.append_left _⟩
  · exact absurd (haccepts.mpr h) h'
  · exact absurd (haccepts.mp h') h
  · rw [hseed, hseed']
    exact ⟨rfl, .refl _⟩

theorem OneKeyEach.mono {a b : List (String × String)} (h : OneKeyEach b) (hsub : a ⊆ b) :
    OneKeyEach a :=
  fun nodeId key key' hkey hkey' => h nodeId key key' (hsub hkey) (hsub hkey')

/-- An accepted batch is united with the registry. -/
theorem Adds.mem_identities {added : List NodeRecord} (h : Adds tables batch timestamp added)
    (haccepts : tables.Accepts batch) {identity : String × String} :
    identity ∈ (tables.addNodes added).identities ↔
      identity ∈ tables.identities ++ batch.map NodeRegistration.identity := by
  have hsplit : (tables.addNodes added).identities =
      tables.identities ++ added.map fun record => (record.nodeId, record.publicKeyB64) :=
    List.map_append
  rw [hsplit, List.mem_append, List.mem_append]
  constructor
  · rintro (hold | hnew)
    · exact Or.inl hold
    · obtain ⟨row, hrow, rfl⟩ := List.mem_map.mp hnew
      obtain ⟨registration, hmem, -, rfl⟩ := (h.mem row).mp hrow
      exact Or.inr (List.mem_map.mpr ⟨registration, hmem, rfl⟩)
  · rintro (hold | hnew)
    · exact Or.inl hold
    · obtain ⟨registration, hmem, rfl⟩ := List.mem_map.mp hnew
      cases hnode : tables.getNode registration.nodeId with
      | none =>
        have hrow := (h.mem _).mpr ⟨registration, hmem, hnode, rfl⟩
        exact Or.inr (List.mem_map.mpr ⟨_, hrow, rfl⟩)
      | some record =>
        refine Or.inl (List.mem_map.mpr ⟨record, List.mem_of_find?_eq_some hnode, ?_⟩)
        rw [Tables.getNode_nodeId hnode, haccepts.2 registration hmem record hnode]
        rfl

/-- Seeding a batch that is there already returns zero and changes nothing. -/
theorem seed_again (hkeys : tables.NodesDistinct) {added : List NodeRecord}
    (h : Adds tables batch timestamp added) (haccepts : tables.Accepts batch)
    (again : UtcDatetime) :
    seedNodeRegistry (tables.addNodes added) (.healthy batch again) =
      (tables.addNodes added, .ok 0) := by
  have hkeys' := h.nodesDistinct hkeys
  have hagain : (tables.addNodes added).Accepts batch := by
    rw [Tables.accepts_iff hkeys']
    refine ((Tables.accepts_iff hkeys).mp haccepts).mono fun identity hidentity => ?_
    rcases List.mem_append.mp hidentity with hmem | hmem
    · exact (h.mem_identities haccepts).mp hmem
    · exact List.mem_append_right _ hmem
  rcases seedNodeRegistry_healthy hkeys' batch again with ⟨-, rows, hrows, hseed⟩ | ⟨hbad, -⟩
  · have hnone : rows = [] := by
      refine List.eq_nil_iff_forall_not_mem.mpr fun row hrow => ?_
      obtain ⟨registration, hmem, hnode, -⟩ := (hrows.mem row).mp hrow
      have hidentity := (h.mem_identities haccepts).mpr
        (List.mem_append_right _ (List.mem_map_of_mem (f := NodeRegistration.identity) hmem))
      obtain ⟨record, hrecord, he⟩ := List.mem_map.mp hidentity
      refine Tables.getNode_eq_none.mp hnode (List.mem_map.mpr ⟨record, hrecord, ?_⟩)
      exact congrArg Prod.fst he
    rw [hseed, hnone]
    simp [Tables.addNodes]
  · exact absurd hagain hbad

theorem Tables.NodesDistinct.identities_nodup (h : tables.NodesDistinct) :
    tables.identities.Nodup := by
  have hids : tables.identities.map Prod.fst = tables.nodes.map NodeRecord.nodeId := by
    rw [identities, List.map_map]
    rfl
  have hnodup : (tables.identities.map Prod.fst).Nodup := hids ▸ h
  exact hnodup.of_map

/-- Two batches one after the other leave the identities of both in one. -/
theorem seed_append (hkeys : tables.NodesDistinct) {later : List NodeRegistration}
    {added rows : List NodeRecord} {timestamp' : UtcDatetime} (once : UtcDatetime)
    (h : Adds tables batch timestamp added) (haccepts : tables.Accepts batch)
    (h' : Adds (tables.addNodes added) later timestamp' rows)
    (haccepts' : (tables.addNodes added).Accepts later) :
    tables.Accepts (batch ++ later) ∧ ∀ both,
      Adds tables (batch ++ later) once both →
      (tables.addNodes both).identities.Perm
        ((tables.addNodes added).addNodes rows).identities := by
  have hkeys' := h.nodesDistinct hkeys
  have haccepts'' : tables.Accepts (batch ++ later) := by
    rw [Tables.accepts_iff hkeys]
    refine ((Tables.accepts_iff hkeys').mp haccepts').mono fun identity hidentity => ?_
    rw [List.map_append, ← List.append_assoc] at hidentity
    rcases List.mem_append.mp hidentity with hmem | hmem
    · exact List.mem_append_left _ ((h.mem_identities haccepts).mpr hmem)
    · exact List.mem_append_right _ hmem
  refine ⟨haccepts'', fun both hboth => ?_⟩
  refine (List.perm_ext_iff_of_nodup (hboth.nodesDistinct hkeys).identities_nodup
    (h'.nodesDistinct hkeys').identities_nodup).mpr fun identity => ?_
  rw [hboth.mem_identities haccepts'', h'.mem_identities haccepts']
  simp only [List.mem_append, h.mem_identities haccepts, List.map_append, or_assoc]

/-- Seeding unites the registry with the batch in one step, or leaves it as it is. -/
theorem seedNodeRegistry_atomic_union (hkeys : tables.NodesDistinct)
    (batch : List NodeRegistration) (timestamp : UtcDatetime) :
    ((seedNodeRegistry tables (.healthy batch timestamp)).2.isOk = true ↔
      OneKeyEach (tables.identities ++ batch.map NodeRegistration.identity)) ∧
    (∀ inserted, (seedNodeRegistry tables (.healthy batch timestamp)).2 = .ok inserted →
      ∃ added, (seedNodeRegistry tables (.healthy batch timestamp)).1 = tables.addNodes added ∧
        added.length = inserted ∧ Adds tables batch timestamp added) ∧
    (∀ failure, (seedNodeRegistry tables (.healthy batch timestamp)).2 = .error failure →
      (seedNodeRegistry tables (.healthy batch timestamp)).1 = tables) ∧
    (∀ batch' : List NodeRegistration,
      (∀ registration, registration ∈ batch' ↔ registration ∈ batch) →
      (seedNodeRegistry tables (.healthy batch' timestamp)).2.toOption =
          (seedNodeRegistry tables (.healthy batch timestamp)).2.toOption ∧
        (seedNodeRegistry tables (.healthy batch' timestamp)).1.nodes.Perm
          (seedNodeRegistry tables (.healthy batch timestamp)).1.nodes) ∧
    ∀ inserted, (seedNodeRegistry tables (.healthy batch timestamp)).2 = .ok inserted →
      (∀ again, seedNodeRegistry (seedNodeRegistry tables (.healthy batch timestamp)).1
          (.healthy batch again) =
        ((seedNodeRegistry tables (.healthy batch timestamp)).1, .ok 0)) ∧
      ∀ later timestamp' inserted',
        (seedNodeRegistry (seedNodeRegistry tables (.healthy batch timestamp)).1
          (.healthy later timestamp')).2 = .ok inserted' →
        (seedNodeRegistry tables (.healthy (batch ++ later) timestamp)).2.isOk = true ∧
          (seedNodeRegistry tables (.healthy (batch ++ later) timestamp)).1.identities.Perm
            (seedNodeRegistry (seedNodeRegistry tables (.healthy batch timestamp)).1
              (.healthy later timestamp')).1.identities := by
  refine ⟨(seed_isOk hkeys).trans (Tables.accepts_iff hkeys), fun inserted h => ?_,
    fun failure h => ?_, fun batch' => seed_congr hkeys, fun inserted h => ?_⟩
  · obtain ⟨-, added, hadds, hlength, hseed⟩ := seed_eq_ok hkeys h
    exact ⟨added, by rw [hseed], hlength, hadds⟩
  · rcases seedNodeRegistry_healthy hkeys batch timestamp with
      ⟨-, added, -, hseed⟩ | ⟨-, failure, hseed⟩
    · rw [hseed] at h
      cases h
    · rw [hseed]
  · obtain ⟨haccepts, added, hadds, -, hseed⟩ := seed_eq_ok hkeys h
    rw [hseed]
    refine ⟨seed_again hkeys hadds haccepts, fun later timestamp' inserted' h' => ?_⟩
    obtain ⟨haccepts', rows, hrows, -, hseed'⟩ := seed_eq_ok (hadds.nodesDistinct hkeys) h'
    obtain ⟨hboth, hidentities⟩ := seed_append hkeys timestamp hadds haccepts hrows haccepts'
    rcases seedNodeRegistry_healthy hkeys (batch ++ later) timestamp with
      ⟨-, both, hadded, hseed''⟩ | ⟨hbad, -⟩
    · rw [hseed'', hseed']
      exact ⟨rfl, hidentities both hadded⟩
    · exact absurd hboth hbad

/-- A known node, a new one and a repetition. -/
theorem seedNodeRegistry_atomic_union_three :
    let edge1 : NodeRegistration := ⟨⟨"edge-1", by decide⟩,
      CanonicalBase64.encode (List.replicate 32 1) (List.length_replicate ..)⟩
    let edge2 : NodeRegistration := ⟨⟨"edge-2", by decide⟩,
      CanonicalBase64.encode (List.replicate 32 2) (List.length_replicate ..)⟩
    let start : UtcDatetime := ⟨0, by decide⟩
    let tables : Tables := ⟨[.fromRegistration edge1 start], [], []⟩
    let call := SeedCall.healthy [edge2, edge1, edge2] ⟨1, by decide⟩
    OneKeyEach (tables.identities ++ call.registrations.map NodeRegistration.identity) ∧
      ∃ added : List NodeRecord, (seedNodeRegistry tables call).1 = tables.addNodes added ∧
        added.length = 1 := by
  intro edge1 edge2 start tables call
  have hkeys : tables.NodesDistinct := List.nodup_singleton _
  have hunion := seedNodeRegistry_atomic_union hkeys [edge2, edge1, edge2] ⟨1, by decide⟩
  have hresult : (seedNodeRegistry tables call).2 = .ok 1 := by decide +kernel
  refine ⟨hunion.1.mp (congrArg Except.isOk hresult), ?_⟩
  obtain ⟨added, hadded, hlength, -⟩ := hunion.2.1 1 hresult
  exact ⟨added, hadded, hlength⟩

end Union

end SecureEdge
