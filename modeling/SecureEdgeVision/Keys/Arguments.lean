import SecureEdgeVision.Keys.Generation
import SecureEdgeVision.Persistence.Codec

/-! The keys of nodes as arguments of the aggregator. It takes the keys that the key generator
prints, each after its node, and takes nothing but the text of registrations. -/
namespace SecureEdge

open Python (ValueError)

/-- What `_registrations` raises: its own error, or the one of the contract. -/
inductive RegistrationError where
  | value (error : ValueError)
  | validation
deriving DecidableEq

/-- `NODE_ID=PUBLIC_KEY_B64` -/
def NodeRegistration.argument (registration : NodeRegistration) : String :=
  registration.nodeId.text ++ "=" ++ registration.publicKeyB64.text

/-- `NodeRegistration(node_id=..., public_key_b64=...)` -/
def NodeRegistration.validate (nodeId publicKeyB64 : String) :
    Except RegistrationError NodeRegistration :=
  match SafeIdentifier.ofText? nodeId, validatePublicKeyB64 publicKeyB64 with
  | some nodeId, .ok publicKeyB64 => .ok ⟨nodeId, publicKeyB64⟩
  | _, _ => .error .validation

/-- One turn of the loop in `_registrations`. The text is parted at its first separator. -/
def NodeRegistration.ofArgument (value : String) : Except RegistrationError NodeRegistration :=
  match value.toList.dropWhile (· ≠ '=') with
  | [] => .error (.value ⟨"node registration must use NODE_ID=PUBLIC_KEY_B64"⟩)
  | _ :: publicKeyB64 =>
    validate (String.ofList (value.toList.takeWhile (· ≠ '='))) (String.ofList publicKeyB64)

/-- `_registrations` -/
def registrations (values : List String) : Except RegistrationError (List NodeRegistration) :=
  values.mapM NodeRegistration.ofArgument

theorem isIdentifierChar_ne_separator {c : Char} (h : isIdentifierChar c = true) : c ≠ '=' := by
  rintro rfl
  exact absurd h (by decide)

/-- An identifier has no separator, so the first one of an argument follows it. -/
theorem SafeIdentifier.ne_separator (nodeId : SafeIdentifier) :
    ∀ c ∈ nodeId.text.toList, (decide (c ≠ '=')) = true := by
  have hvalid := nodeId.valid
  unfold isSafeIdentifier at hvalid
  intro c hc
  split at hvalid
  · simp at hvalid
  next first rest htext =>
    obtain ⟨⟨hfirst, hrest⟩, -⟩ : (first.isAlphanum = true ∧ ∀ x ∈ rest, isIdentifierChar x = true)
        ∧ rest.length + 1 ≤ 128 := by simpa [and_assoc] using hvalid
    apply decide_eq_true
    apply isIdentifierChar_ne_separator
    rw [htext] at hc
    rcases List.mem_cons.mp hc with rfl | hc
    · simp [isIdentifierChar, hfirst]
    · exact hrest c hc

theorem NodeRegistration.validate_eq_ok {nodeId publicKeyB64 : String}
    {registration : NodeRegistration} : validate nodeId publicKeyB64 = .ok registration ↔
      nodeId = registration.nodeId.text ∧ publicKeyB64 = registration.publicKeyB64.text := by
  unfold validate
  constructor
  · intro h
    cases hid : SafeIdentifier.ofText? nodeId with
    | none => simp [hid] at h
    | some id =>
      cases hkey : validatePublicKeyB64 publicKeyB64 with
      | error e => simp [hid, hkey] at h
      | ok key =>
        have htext : id.text = nodeId := by
          unfold SafeIdentifier.ofText? at hid
          split_ifs at hid
          exact congrArg SafeIdentifier.text (Option.some.inj hid).symm
        simp only [hid, hkey, Except.ok.injEq] at h
        rw [← h]
        exact ⟨htext.symm, (validateCanonicalBase64_eq_ok hkey).symm⟩
  · rintro ⟨rfl, rfl⟩
    have hkey : validatePublicKeyB64 registration.publicKeyB64.text =
        .ok registration.publicKeyB64 := validateCanonicalBase64_text _ _
    rw [SafeIdentifier.ofText?_text, hkey]

theorem NodeRegistration.argument_toList (registration : NodeRegistration) :
    registration.argument.toList =
      registration.nodeId.text.toList ++ '=' :: registration.publicKeyB64.text.toList := by
  unfold argument
  rw [String.toList_append, String.toList_append, List.append_assoc]
  rfl

theorem NodeRegistration.ofArgument_eq_ok {value : String} {registration : NodeRegistration} :
    ofArgument value = .ok registration ↔ value = registration.argument := by
  unfold ofArgument
  constructor
  · intro h
    have hparts := List.takeWhile_append_dropWhile (p := fun c => decide (c ≠ '='))
      (l := value.toList)
    have hseparator := List.head?_dropWhile_not (fun c => decide (c ≠ '=')) value.toList
    cases hdrop : value.toList.dropWhile (fun c => decide (c ≠ '=')) with
    | nil =>
      rw [hdrop] at h
      cases h
    | cons c rest =>
      rw [hdrop] at h hparts hseparator
      obtain ⟨hid, hkey⟩ := validate_eq_ok.mp h
      obtain rfl : c = '=' := by simpa using hseparator
      apply String.toList_injective
      rw [argument_toList, ← hid, ← hkey, String.toList_ofList, String.toList_ofList, hparts]
  · rintro rfl
    have hid := registration.nodeId.ne_separator
    rw [argument_toList, List.takeWhile_append_of_pos hid, List.dropWhile_append_of_pos hid]
    simp [validate_eq_ok]

theorem NodeRegistration.argument_injective : Function.Injective NodeRegistration.argument := by
  intro a b h
  have ha : ofArgument a.argument = .ok a := ofArgument_eq_ok.mpr rfl
  rw [h, ofArgument_eq_ok.mpr rfl] at ha
  exact (Except.ok.inj ha).symm

/-- The arguments that are taken are the printed ones, each for its own registration. -/
theorem registrations_eq_ok {values : List String} {batch : List NodeRegistration} :
    registrations values = .ok batch ↔ values = batch.map NodeRegistration.argument := by
  unfold registrations
  rw [Python.mapM_eq_ok]
  induction values generalizing batch with
  | nil => cases batch <;> simp
  | cons value values ih =>
    cases batch with
    | nil => simp
    | cons registration batch =>
      rw [List.forall₂_cons, List.map_cons, List.cons.injEq, ih,
        NodeRegistration.ofArgument_eq_ok]

variable {ed : Ed25519} {serializePrivateKey : ed.PrivateKey → List UInt8} {platform : Platform}

theorem generateInDirectory_publicKeyB64 {nodeId : String} {privateKey : ed.PrivateKey}
    {calls : GenerateCalls} {session : KeySession} {paths : GeneratedKeyPaths}
    (h : (generateInDirectory ed serializePrivateKey platform nodeId privateKey calls
      session).2 = .ok paths) :
    paths.publicKeyB64 = encodePublicKey ed (ed.publicKey privateKey) := by
  unfold generateInDirectory at h
  dsimp only at h
  split at h
  · cases h
  · split at h
    · cases h
    · obtain rfl := Except.ok.inj h
      rfl

/-- A node and the key generated for it are the argument of their registration. -/
theorem generated_registration (hed : ed.Lawful) {nodeId : String} {privateKey : ed.PrivateKey}
    {calls : GenerateCalls} {path : OutputPath} {files : Files.FileSystem}
    {paths : GeneratedKeyPaths}
    (h : (generateNodeKeyFiles ed serializePrivateKey platform nodeId privateKey calls path
      files).2.2 = .ok paths) :
    ∃ registration : NodeRegistration, registration.nodeId.text = nodeId ∧
      registration.publicKeyB64.text = paths.publicKeyB64 ∧
      nodeId ++ "=" ++ paths.publicKeyB64 = registration.argument ∧
      paths.publicKeyB64 = encodePublicKey ed (ed.publicKey privateKey) := by
  unfold generateNodeKeyFiles validateNodeId at h
  split_ifs at h with hid
  dsimp only at h
  rcases hdirectory : ensureSecureDirectory calls.directory path with ⟨path', e | u⟩
  · rw [hdirectory] at h
    cases h
  · rw [hdirectory] at h
    have hpaths := generateInDirectory_publicKeyB64 h
    refine ⟨⟨⟨nodeId, hid⟩, .encode _ (hed.publicBytes_length (ed.publicKey privateKey))⟩,
      rfl, hpaths.symm, ?_, hpaths⟩
    rw [hpaths]
    rfl

end SecureEdge
