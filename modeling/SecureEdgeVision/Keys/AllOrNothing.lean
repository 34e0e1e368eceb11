import SecureEdgeVision.Keys.Generation

/-! Key files are written both or not at all. What a call has created can be taken back at every
point where it may fail. -/
namespace SecureEdge

open Files (FileId FileSystem Node Change Keeps)

variable {files : FileSystem} {session later : KeySession} {path : String} {id : FileId}
  {content : List UInt8} {known : Option FileId}

namespace KeySession

/-- The changes account for the files, and none concerns what was there. -/
structure Sound (files : FileSystem) (session : KeySession) : Prop where
  run : session.files = files.run session.changes
  avoids : ∀ change ∈ session.changes, change.Avoids files

theorem sound_start (files : FileSystem) : (start files).Sound files := ⟨rfl, nofun⟩

theorem Sound.keeps (h : session.Sound files) : Keeps files session.files := by
  rw [h.run]
  exact Keeps.run h.avoids

theorem Sound.perform {change : Change} (h : session.Sound files) (havoids : change.Avoids files) :
    (session.perform change).Sound files := by
  constructor
  · show session.files.apply change = files.run (session.changes ++ [change])
    rw [FileSystem.run_concat, h.run]
  · intro c hc
    rcases List.mem_append.mp hc with hc | hc
    · exact h.avoids c hc
    · rw [List.mem_singleton.mp hc]
      exact havoids

/-- One new file later. -/
structure Added (files : FileSystem) (session later : KeySession) (path : String) (id : FileId)
    (content : List UInt8) (known : Option FileId) : Prop where
  sound : later.Sound files
  free : session.files.Free path id
  files : later.files = session.files.addFile path id content free
  created : later.created = session.created ++ [⟨path, known⟩]

theorem Sound.added (h : session.Sound files) (free : session.files.Free path id) :
    Added files session ((session.perform (.create path id)).append path) path id [] none := by
  have hperform : (session.perform (.create path id)).Sound files :=
    h.perform ⟨h.keeps.no_entry free.1, h.keeps.unused free.2⟩
  exact ⟨⟨hperform.run, hperform.avoids⟩, free, dif_pos free, rfl⟩

theorem Added.store (h : Added files session later path id content known)
    (hsession : session.Sound files) (content' : List UInt8) :
    Added files session (later.perform (.store id content')) path id content' known := by
  refine ⟨h.sound.perform (hsession.keeps.unused h.free.2), h.free, ?_, h.created⟩
  show later.files.setContent id content' = _
  rw [h.files]
  exact FileSystem.setContent_addFile h.free content'

theorem Added.identify (h : Added files session later path id content known) :
    Added files session (later.identify session.created.length path id) path id content
      (some id) := by
  refine ⟨⟨h.sound.run, h.sound.avoids⟩, h.free, h.files, ?_⟩
  show later.created.set session.created.length ⟨path, some id⟩ = _
  rw [h.created]
  simp

end KeySession

open KeySession (Sound Added)

section Write
variable (platform : Platform) (data : List UInt8) (calls : WriteCalls)

theorem writeStream_added (hsession : session.Sound files)
    (h : Added files session later path id content known) :
    ∃ content', Added files session (writeStream platform data calls id later).1 path id content'
        known ∧
      ((writeStream platform data calls id later).2 = true → content' = data) := by
  have hwrite := h.store hsession (calls.left .write)
  have hflush := hwrite.store hsession (calls.left .flush)
  have hdata := hwrite.store hsession data
  unfold writeStream
  dsimp only
  split_ifs
  · exact ⟨_, hwrite.store hsession (calls.left .closing), nofun⟩
  · exact ⟨_, hflush.store hsession (calls.left .closing), nofun⟩
  · exact ⟨_, hdata, fun _ => rfl⟩
  · exact ⟨_, hdata, fun _ => rfl⟩

/-- Wherever filling a new file stops, the file is empty or known. -/
theorem fillFile_added (hsession : session.Sound files)
    (h : Added files session later path id [] none) :
    let filled := fillFile platform path data calls id session.created.length later
    ∃ content known, Added files session filled.1 path id content known ∧
      (CreatedFile.mk path known).isRemovable id (.regular content) = true ∧
      (filled.2 = true → content = data) := by
  have hknown (content : List UInt8) :
      (CreatedFile.mk path (some id)).isRemovable id (.regular content) = true := by
    simp [CreatedFile.isRemovable]
  unfold fillFile
  dsimp only
  split_ifs
  · exact ⟨[], none, h, rfl, nofun⟩
  · exact ⟨[], some id, h.identify, hknown [], nofun⟩
  · exact ⟨[], some id, h.identify, hknown [], nofun⟩
  · obtain ⟨content, hadded, hdata⟩ := writeStream_added platform data calls hsession h.identify
    exact ⟨content, some id, hadded, hknown content, hdata⟩

variable {calls} in
theorem openExclusive_eq_ok (h : openExclusive session.files path calls = .ok id) :
    id = calls.fileId ∧ session.files.Free path id := by
  unfold openExclusive at h
  split_ifs at h with hraises hexists hname hid
  cases h
  exact ⟨rfl, by simpa using hname, by simpa using hid⟩

/-- A write that is refused changes nothing. Any other adds one file that can be removed again,
which is complete when the write succeeds. -/
theorem writeExclusive_cases (path : String) (hsession : session.Sound files) :
    let written := writeExclusive platform path data calls session
    (∃ e, written = (session, .error e)) ∨
      ∃ content known, Added files session written.1 path calls.fileId content known ∧
        (CreatedFile.mk path known).isRemovable calls.fileId (.regular content) = true ∧
        (written.2 = .ok () → content = data) := by
  unfold writeExclusive
  cases hopen : openExclusive session.files path calls with
  | error e => exact .inl ⟨e, rfl⟩
  | ok id =>
    right
    obtain ⟨rfl, free⟩ := openExclusive_eq_ok hopen
    dsimp only
    obtain ⟨content, known, hadded, hremovable, hdata⟩ :=
      fillFile_added platform data calls hsession (hsession.added free)
    generalize fillFile platform path data calls calls.fileId session.created.length
      ((session.perform (.create path calls.fileId)).append path) = filled at hadded hdata
    obtain ⟨filled, ok⟩ := filled
    cases ok with
    | false => exact ⟨content, known, hadded, hremovable, nofun⟩
    | true => exact ⟨content, known, hadded, hremovable, fun _ => hdata rfl⟩

/-- Removing a new file takes back what was added. -/
theorem cleanupFile_added (hlater : later.Sound files) (hsession : session.Sound files)
    {free : session.files.Free path id}
    (hfiles : later.files = session.files.addFile path id content free)
    (hremovable : (CreatedFile.mk path known).isRemovable id (.regular content) = true) :
    (cleanupFile later ⟨path, known⟩).Sound files ∧
      (cleanupFile later ⟨path, known⟩).files = session.files := by
  have hlstat : later.files.lstat path = some (id, .regular content) := by
    rw [hfiles]
    exact FileSystem.lstat_addFile free
  unfold cleanupFile
  rw [hlstat]
  dsimp only
  rw [if_pos hremovable]
  refine ⟨hlater.perform (hsession.keeps.no_entry free.1), ?_⟩
  show later.files.dropEntry path = session.files
  rw [hfiles]
  exact FileSystem.dropEntry_addFile free

/-- The cleanup of what was created leads back to where the call started. -/
structure Recoverable (files : FileSystem) (session : KeySession) : Prop where
  sound : session.Sound files
  restores : ∀ later : KeySession, later.Sound files → later.files = session.files →
    (session.created.reverse.foldl cleanupFile later).Sound files ∧
      (session.created.reverse.foldl cleanupFile later).files = files

theorem recoverable_start (files : FileSystem) : Recoverable files (.start files) :=
  ⟨KeySession.sound_start files, fun _ hlater hfiles => ⟨hlater, hfiles⟩⟩

/-- Every exclusive write keeps the files recoverable. -/
theorem Recoverable.writeExclusive (path : String) (h : Recoverable files session) :
    Recoverable files (writeExclusive platform path data calls session).1 := by
  rcases writeExclusive_cases platform data calls path h.sound with
    ⟨e, hrefused⟩ | ⟨content, known, hadded, hremovable, -⟩
  · rw [hrefused]
    exact h
  · refine ⟨hadded.sound, fun later hlater hfiles => ?_⟩
    rw [hadded.created, List.reverse_append, List.reverse_singleton, List.singleton_append,
      List.foldl_cons]
    obtain ⟨hsound, hrestored⟩ :=
      cleanupFile_added hlater h.sound (hfiles.trans hadded.files) hremovable
    exact h.restores _ hsound hrestored

/-- A write that succeeds adds the file with all its data. -/
theorem writeExclusive_ok (path : String) (hsession : session.Sound files)
    (h : (writeExclusive platform path data calls session).2 = .ok ()) :
    ∃ free, (writeExclusive platform path data calls session).1.files =
      session.files.addFile path calls.fileId data free := by
  rcases writeExclusive_cases platform data calls path hsession with
    ⟨e, hrefused⟩ | ⟨content, known, hadded, -, hdata⟩
  · rw [hrefused] at h
    cases h
  · obtain rfl := hdata h
    exact ⟨hadded.free, hadded.files⟩

/-- No step that this platform has raises. -/
def WriteCalls.Works (platform : Platform) (calls : WriteCalls) : Prop :=
  ∀ step, calls.raises step = true →
    step = .fchmod ∧ platform.hasFchmod = false ∨ step = .fsync ∧ platform.hasFsync = false

variable {platform calls} in
theorem WriteCalls.Works.not_raises (h : calls.Works platform) {step : WriteStep}
    (hfchmod : step ≠ .fchmod) (hfsync : step ≠ .fsync) : calls.raises step = false := by
  by_contra hraises
  rcases h step (eq_true_of_ne_false hraises) with ⟨hstep, -⟩ | ⟨hstep, -⟩
  · exact hfchmod hstep
  · exact hfsync hstep

variable {platform calls} in
theorem fillFile_works (h : calls.Works platform) (path : String) (id : FileId) (index : ℕ)
    (opened : KeySession) :
    (fillFile platform path data calls id index opened).2 = true := by
  have hfchmod : (platform.hasFchmod && calls.raises .fchmod) = false := by
    by_contra hraises
    simp only [Bool.not_eq_false, Bool.and_eq_true] at hraises
    simpa [hraises.1] using h .fchmod hraises.2
  have hfsync : (platform.hasFsync && calls.raises .fsync) = false := by
    by_contra hraises
    simp only [Bool.not_eq_false, Bool.and_eq_true] at hraises
    simpa [hraises.1] using h .fsync hraises.2
  unfold fillFile writeStream
  simp [h.not_raises, hfchmod, hfsync]

variable {platform calls} in
/-- A write under a free name succeeds when its system calls do. -/
theorem writeExclusive_works (hworks : calls.Works platform) (path : String)
    (hsession : session.Sound files) (free : session.files.Free path calls.fileId) :
    (writeExclusive platform path data calls session).2 = .ok () := by
  have hopen : openExclusive session.files path calls = .ok calls.fileId := by
    simp [openExclusive, hworks.not_raises, free.1, free.2]
  obtain ⟨content, known, hadded, -, -⟩ :=
    fillFile_added platform data calls hsession (hsession.added free)
  have hfilled := fillFile_works data hworks path calls.fileId session.created.length
    ((session.perform (.create path calls.fileId)).append path)
  unfold writeExclusive
  rw [hopen]
  dsimp only
  generalize fillFile platform path data calls calls.fileId session.created.length
    ((session.perform (.create path calls.fileId)).append path) = filled at hadded hfilled
  obtain ⟨filled, ok⟩ := filled
  obtain rfl : ok = true := hfilled
  have hlstat : filled.files.lstat path = some (calls.fileId, .regular content) := by
    rw [show filled.files = _ from hadded.files]
    exact FileSystem.lstat_addFile free
  simp [verifyFile, hworks.not_raises, hlstat]

end Write

section Generate
variable {platform : Platform} {calls : GenerateCalls} {privatePath publicPath : String}
  {privatePem publicB64 : List UInt8}

theorem Recoverable.writeKeyFiles {written : KeySession} {result : Except KeyGenerationError Unit}
    (h : Recoverable files session) (hwritten : writeKeyFiles platform privatePath publicPath
      privatePem publicB64 calls session = (written, result)) : Recoverable files written := by
  have hfirst := h.writeExclusive platform privatePem calls.privateFile privatePath
  unfold SecureEdge.writeKeyFiles at hwritten
  cases hprivate : SecureEdge.writeExclusive platform privatePath privatePem calls.privateFile
    session with
  | mk first answer =>
    rw [hprivate] at hfirst hwritten
    cases answer with
    | error e =>
      cases hwritten
      exact hfirst
    | ok u =>
      have hsecond := hfirst.writeExclusive platform publicB64 calls.publicFile publicPath
      dsimp only at hsecond hwritten
      rw [hwritten] at hsecond
      exact hsecond

/-- Two new files and nothing else. -/
structure KeyFilesAdded (files later : FileSystem) (privatePath publicPath : String)
    (privatePem publicB64 : List UInt8) (privateId publicId : FileId) : Prop where
  absent : files.lstat privatePath = none ∧ files.lstat publicPath = none
  unused : files.inodes privateId = none ∧ files.inodes publicId = none
  distinct : privatePath ≠ publicPath ∧ privateId ≠ publicId
  privateFile : later.lstat privatePath = some (privateId, .regular privatePem)
  publicFile : later.lstat publicPath = some (publicId, .regular publicB64)
  entries : ∀ name, name ≠ privatePath → name ≠ publicPath →
    later.entries name = files.entries name
  inodes : ∀ id, id ≠ privateId → id ≠ publicId → later.inodes id = files.inodes id

theorem keyFilesAdded {first second : FileSystem} {privateId publicId : FileId}
    {free : files.Free privatePath privateId}
    (hfirst : first = files.addFile privatePath privateId privatePem free)
    {free' : first.Free publicPath publicId}
    (hsecond : second = first.addFile publicPath publicId publicB64 free') :
    KeyFilesAdded files second privatePath publicPath privatePem publicB64 privateId publicId := by
  subst hfirst
  obtain ⟨hentry, hinode⟩ := free'
  have hpath : privatePath ≠ publicPath := by
    rintro rfl
    simp [FileSystem.addFile] at hentry
  have hid : privateId ≠ publicId := by
    rintro rfl
    simp [FileSystem.addFile] at hinode
  have hpublic : files.Free publicPath publicId := by
    constructor
    · simpa [FileSystem.addFile, hpath.symm] using hentry
    · simpa [FileSystem.addFile, hid.symm] using hinode
  subst hsecond
  refine ⟨⟨FileSystem.lstat_eq_none.mpr free.1, FileSystem.lstat_eq_none.mpr hpublic.1⟩,
    ⟨free.2, hpublic.2⟩, ⟨hpath, hid⟩, ?_, FileSystem.lstat_addFile _, ?_, ?_⟩
  · simp [FileSystem.lstat, FileSystem.addFile, hpath, hid]
  · intro name hprivate hpublic
    simp [FileSystem.addFile, hprivate, hpublic]
  · intro id hprivate hpublic
    simp [FileSystem.addFile, hprivate, hpublic]

theorem writeKeyFiles_ok {written : KeySession}
    (h : writeKeyFiles platform privatePath publicPath privatePem publicB64 calls (.start files) =
      (written, .ok ())) :
    ∃ privateId publicId, KeyFilesAdded files written.files privatePath publicPath privatePem
      publicB64 privateId publicId := by
  have hstart := recoverable_start files
  have hrecoverable := hstart.writeExclusive platform privatePem calls.privateFile privatePath
  have hprivate := writeExclusive_ok platform privatePem calls.privateFile privatePath hstart.sound
  unfold writeKeyFiles at h
  cases hfirst : SecureEdge.writeExclusive platform privatePath privatePem calls.privateFile
    (.start files) with
  | mk first result =>
    rw [hfirst] at h hrecoverable hprivate
    cases result with
    | error e => cases h
    | ok u =>
      obtain ⟨free, hadded⟩ := hprivate rfl
      dsimp only at h hadded hrecoverable
      have hpublic := writeExclusive_ok platform publicB64 calls.publicFile publicPath
        hrecoverable.sound
      rw [h] at hpublic
      obtain ⟨free', hadded'⟩ := hpublic rfl
      exact ⟨_, _, keyFilesAdded hadded hadded'⟩

variable (ed : Ed25519) (serializePrivateKey : ed.PrivateKey → List UInt8)

/-- A call gives the two complete key files and changes nothing else, or raises and leaves the file
system as it found it. -/
def Settled (files : FileSystem) (nodeId : String) (privateKey : ed.PrivateKey)
    (done : KeySession × Except KeyGenerationError GeneratedKeyPaths) : Prop :=
  (∃ e, done.2 = .error e ∧ done.1.files = files) ∨
    let publicKeyB64 := encodePublicKey ed (ed.publicKey privateKey)
    done.2 = .ok ⟨nodeId ++ ".key", nodeId ++ ".pub", publicKeyB64⟩ ∧
      ∃ privateId publicId, KeyFilesAdded files done.1.files (nodeId ++ ".key") (nodeId ++ ".pub")
        (serializePrivateKey privateKey) (encodeAscii publicKeyB64) privateId publicId

variable (platform) (nodeId : String) (privateKey : ed.PrivateKey) (calls) (files)

theorem generateInDirectory_settled :
    let done := generateInDirectory ed serializePrivateKey platform nodeId privateKey calls
      (.start files)
    done.1.Sound files ∧ Settled ed serializePrivateKey files nodeId privateKey done := by
  have hstart := recoverable_start files
  unfold generateInDirectory
  dsimp only
  split
  · exact ⟨hstart.sound, .inl ⟨_, rfl, rfl⟩⟩
  · split
    · rename_i written e hfailed
      have hwritten := hstart.writeKeyFiles hfailed
      obtain ⟨hsound, hrestored⟩ := hwritten.restores written hwritten.sound rfl
      exact ⟨hsound, .inl ⟨e, rfl, hrestored⟩⟩
    · rename_i written hok
      exact ⟨(hstart.writeKeyFiles hok).sound, .inr ⟨rfl, writeKeyFiles_ok hok⟩⟩

/-- A call that does not come to writing leaves the files alone. -/
theorem generateNodeKeyFiles_settled (path : OutputPath) :
    let done := generateNodeKeyFiles ed serializePrivateKey platform nodeId privateKey calls path
      files
    done.2.1.Sound files ∧ Settled ed serializePrivateKey files nodeId privateKey done.2 := by
  unfold generateNodeKeyFiles validateNodeId
  split_ifs
  · dsimp only
    split
    · exact ⟨KeySession.sound_start files, .inl ⟨_, rfl, rfl⟩⟩
    · exact generateInDirectory_settled ..
  · exact ⟨KeySession.sound_start files, .inl ⟨_, rfl, rfl⟩⟩

/-- Whatever system calls raise, a call gives both key files or none, and at no point on the way
is an entry or a file that was there any different. -/
theorem generateNodeKeyFiles_all_or_nothing (path : OutputPath) :
    let done := generateNodeKeyFiles ed serializePrivateKey platform nodeId privateKey calls path
      files
    Settled ed serializePrivateKey files nodeId privateKey done.2 ∧
    done.2.1.files = files.run done.2.1.changes ∧
    (∀ change ∈ done.2.1.changes, change.Avoids files) ∧
    ∀ before after, done.2.1.changes = before ++ after → Keeps files (files.run before) := by
  intro done
  obtain ⟨hsound, hsettled⟩ :=
    generateNodeKeyFiles_settled files platform calls ed serializePrivateKey nodeId privateKey path
  refine ⟨hsettled, hsound.run, hsound.avoids, fun before after hchanges => ?_⟩
  refine Keeps.run fun change hchange => hsound.avoids change ?_
  rw [hchanges]
  exact List.mem_append_left _ hchange

variable {platform nodeId calls files} {path : OutputPath}

/-- Every system call of a call works. -/
structure GenerateCalls.Works (calls : GenerateCalls) (platform : Platform) (path : OutputPath) :
    Prop where
  directory : (ensureSecureDirectory calls.directory path).2 = .ok ()
  inspect : calls.privateLstatRaises = false ∧ calls.publicLstatRaises = false
  privateFile : calls.privateFile.Works platform
  publicFile : calls.publicFile.Works platform

theorem writeKeyFiles_works (privatePem publicB64 : List UInt8) (hworks : calls.Works platform path)
    (hpath : privatePath ≠ publicPath) (hid : calls.privateFile.fileId ≠ calls.publicFile.fileId)
    (hprivate : files.Free privatePath calls.privateFile.fileId)
    (hpublic : files.Free publicPath calls.publicFile.fileId) :
    (writeKeyFiles platform privatePath publicPath privatePem publicB64 calls (.start files)).2 =
      .ok () := by
  have hstart := recoverable_start files
  have hfirst :=
    writeExclusive_works privatePem hworks.privateFile privatePath hstart.sound hprivate
  have hrecoverable := hstart.writeExclusive platform privatePem calls.privateFile privatePath
  obtain ⟨free, hadded⟩ :=
    writeExclusive_ok platform privatePem calls.privateFile privatePath hstart.sound hfirst
  unfold writeKeyFiles
  generalize writeExclusive platform privatePath privatePem calls.privateFile (.start files) =
    written at hfirst hrecoverable hadded
  obtain ⟨first, result⟩ := written
  obtain rfl : result = .ok () := hfirst
  dsimp only at hrecoverable hadded ⊢
  have hfree : first.files.Free publicPath calls.publicFile.fileId := by
    rw [hadded]
    constructor
    · simpa [FileSystem.addFile, KeySession.start, hpath.symm] using hpublic.1
    · simpa [FileSystem.addFile, KeySession.start, hid.symm] using hpublic.2
  exact writeExclusive_works publicB64 hworks.publicFile publicPath hrecoverable.sound hfree

/-- With every system call working, a call on absent targets succeeds. -/
theorem generateNodeKeyFiles_works (hworks : calls.Works platform path)
    (hnodeId : isSafeIdentifier nodeId = true)
    (hid : calls.privateFile.fileId ≠ calls.publicFile.fileId)
    (hprivate : files.Free (nodeId ++ ".key") calls.privateFile.fileId)
    (hpublic : files.Free (nodeId ++ ".pub") calls.publicFile.fileId) :
    ∃ paths, (generateNodeKeyFiles ed serializePrivateKey platform nodeId privateKey calls path
      files).2.2 = .ok paths := by
  have hpath : nodeId ++ ".key" ≠ nodeId ++ ".pub" := by simp
  have hdirectory := hworks.directory
  have hinspect : rejectExistingTargets files [(nodeId ++ ".key", calls.privateLstatRaises),
      (nodeId ++ ".pub", calls.publicLstatRaises)] = .ok () := by
    simp [rejectExistingTargets, hworks.inspect, FileSystem.lstat_eq_none.mpr hprivate.1,
      FileSystem.lstat_eq_none.mpr hpublic.1]
  have hwritten := writeKeyFiles_works (serializePrivateKey privateKey)
    (encodeAscii (encodePublicKey ed (ed.publicKey privateKey))) hworks hpath hid hprivate hpublic
  unfold generateNodeKeyFiles validateNodeId
  rw [if_pos hnodeId]
  dsimp only
  generalize ensureSecureDirectory calls.directory path = secured at hdirectory
  obtain ⟨secured, result⟩ := secured
  obtain rfl : result = .ok () := hdirectory
  unfold generateInDirectory
  dsimp only
  rw [show (KeySession.start files).files = files from rfl, hinspect]
  dsimp only
  split
  · rename_i hfailed
    rw [hfailed] at hwritten
    cases hwritten
  · exact ⟨_, rfl⟩

end Generate

end SecureEdge
