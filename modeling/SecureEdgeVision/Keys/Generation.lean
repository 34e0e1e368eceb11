import SecureEdgeVision.Crypto
import SecureEdgeVision.Runs.Files

/-! Generating the key files of a node. Which system calls raise an `OSError` is part of a call, and
so are the number of a new file and what a failed write leaves in it. -/
namespace SecureEdge

open Files (FileId FileSystem Node Change)

structure KeyGenerationError where
  message : String
deriving DecidableEq

/-- `GeneratedKeyPaths`, with files named in the key directory. -/
structure GeneratedKeyPaths where
  privateKey : String
  publicKey : String
  publicKeyB64 : String
deriving DecidableEq

/-- `os` on this platform. With `O_CREAT` and `O_EXCL` an open follows no link, whether there is an
`O_NOFOLLOW` or not. -/
structure Platform where
  hasFchmod : Bool
  hasFsync : Bool

inductive WriteStep where
  | opening
  | fstat
  | fchmod
  | fdopen
  | write
  | flush
  | fsync
  | closing
  | lstat
deriving DecidableEq

/-- The system calls of one `_write_exclusive`. -/
structure WriteCalls where
  raises : WriteStep → Bool
  /-- The exception of a raising open is a `FileExistsError`. -/
  saysFileExists : Bool
  /-- The file that a successful open creates. -/
  fileId : FileId
  /-- What the file holds after a write, a flush that raises, or a close of unflushed data. -/
  left : WriteStep → List UInt8

/-- What the key directory's path names. -/
inductive OutputPath where
  | missing
  | directory
  | other
deriving DecidableEq

structure DirectoryCalls where
  lstatRaises : Bool
  mkdirRaises : Bool
  createdLstatRaises : Bool
  chmodRaises : Bool
  /-- The permissions that `stat` reports after `chmod`, unless it raises. -/
  mode : Option ℕ

/-- The system calls of one `generate_node_key_files`. -/
structure GenerateCalls where
  directory : DirectoryCalls
  privateLstatRaises : Bool
  publicLstatRaises : Bool
  privateFile : WriteCalls
  publicFile : WriteCalls

/-- An entry of `created`: a path, and the device and inode once they are known. -/
structure CreatedFile where
  path : String
  identity : Option FileId
deriving DecidableEq

/-- The file system, all changes made to it, and the files created. -/
structure KeySession where
  files : FileSystem
  changes : List Change
  created : List CreatedFile

namespace KeySession

def start (files : FileSystem) : KeySession := ⟨files, [], []⟩

def perform (session : KeySession) (change : Change) : KeySession :=
  { session with
    files := session.files.apply change
    changes := session.changes ++ [change] }

/-- `created.append((path, None, None))` -/
def append (session : KeySession) (path : String) : KeySession :=
  { session with created := session.created ++ [⟨path, none⟩] }

/-- `created[index] = (path, st_dev, st_ino)` -/
def identify (session : KeySession) (index : ℕ) (path : String) (id : FileId) : KeySession :=
  { session with created := session.created.set index ⟨path, some id⟩ }

end KeySession

/-- `validate_node_id` -/
def validateNodeId (nodeId : String) : Except KeyGenerationError String :=
  if isSafeIdentifier nodeId then .ok nodeId
  else .error ⟨"node ID must be a safe 1-128 character identifier"⟩

/-- The part of `_ensure_secure_directory` that finds or makes the directory. -/
def findDirectory (calls : DirectoryCalls) (path : OutputPath) :
    OutputPath × Except KeyGenerationError Unit :=
  if calls.lstatRaises then (path, .error ⟨"could not inspect the key directory"⟩)
  else
    match path with
    | .missing =>
      if calls.mkdirRaises then (.missing, .error ⟨"could not create the key directory"⟩)
      else if calls.createdLstatRaises then
        (.directory, .error ⟨"could not create the key directory"⟩)
      else (.directory, .ok ())
    | .directory => (.directory, .ok ())
    | .other => (.other, .error ⟨"key output path must be a directory, not a symlink"⟩)

/-- The part of `_ensure_secure_directory` that closes the directory to others. -/
def secureDirectory (calls : DirectoryCalls) : Except KeyGenerationError Unit :=
  if calls.chmodRaises then .error ⟨"could not secure the key directory"⟩
  else
    match calls.mode with
    | none => .error ⟨"could not secure the key directory"⟩
    | some mode =>
      if mode &&& 0o077 ≠ 0 then
        .error ⟨"key directory must not be accessible by group or other users"⟩
      else .ok ()

/-- `_ensure_secure_directory` -/
def ensureSecureDirectory (calls : DirectoryCalls) (path : OutputPath) :
    OutputPath × Except KeyGenerationError Unit :=
  match findDirectory calls path with
  | (path, .error e) => (path, .error e)
  | (path, .ok ()) => (path, secureDirectory calls)

/-- `_reject_existing_targets`, with whether the `lstat` of each path raises. -/
def rejectExistingTargets (files : FileSystem) :
    List (String × Bool) → Except KeyGenerationError Unit
  | [] => .ok ()
  | (path, raises) :: paths =>
    if raises then .error ⟨"could not inspect an existing key target"⟩
    else
      match files.lstat path with
      | none => rejectExistingTargets files paths
      | some _ => .error ⟨"refusing to overwrite an existing key target"⟩

/-- The open of `_write_exclusive`. A file can be created only under a number that is not in use. -/
def openExclusive (files : FileSystem) (path : String) (calls : WriteCalls) :
    Except KeyGenerationError FileId :=
  if calls.raises .opening then
    if calls.saysFileExists then .error ⟨"refusing to overwrite an existing key target"⟩
    else .error ⟨"could not create a key file"⟩
  else if (files.entries path).isSome then
    .error ⟨"refusing to overwrite an existing key target"⟩
  else if (files.inodes calls.fileId).isSome then .error ⟨"could not create a key file"⟩
  else .ok calls.fileId

/-- The `with` block of `_write_exclusive`, and whether it ends without an `OSError`. Leaving it
after a write or a flush that raised tries to write again what is still buffered. -/
def writeStream (platform : Platform) (data : List UInt8) (calls : WriteCalls) (id : FileId)
    (session : KeySession) : KeySession × Bool :=
  let session := session.perform (.store id (calls.left .write))
  if calls.raises .write then (session.perform (.store id (calls.left .closing)), false)
  else if calls.raises .flush then
    let session := session.perform (.store id (calls.left .flush))
    (session.perform (.store id (calls.left .closing)), false)
  else
    let session := session.perform (.store id data)
    if platform.hasFsync && calls.raises .fsync then (session, false)
    else (session, !calls.raises .closing)

/-- The `try` block of `_write_exclusive`, and whether it ends without an `OSError`. -/
def fillFile (platform : Platform) (path : String) (data : List UInt8) (calls : WriteCalls)
    (id : FileId) (index : ℕ) (session : KeySession) : KeySession × Bool :=
  if calls.raises .fstat then (session, false)
  else
    let session := session.identify index path id
    if platform.hasFchmod && calls.raises .fchmod then (session, false)
    else if calls.raises .fdopen then (session, false)
    else writeStream platform data calls id session

/-- The end of `_write_exclusive`: the path still names the file that was written. -/
def verifyFile (files : FileSystem) (path : String) (calls : WriteCalls) (id : FileId) :
    Except KeyGenerationError Unit :=
  if calls.raises .lstat then .error ⟨"could not verify a key file"⟩
  else
    match files.lstat path with
    | none => .error ⟨"could not verify a key file"⟩
    | some (found, .regular _) =>
      if found = id then .ok () else .error ⟨"key file verification failed"⟩
    | some _ => .error ⟨"key file verification failed"⟩

/-- `_write_exclusive`. The descriptor is released in every case, and that changes no file. -/
def writeExclusive (platform : Platform) (path : String) (data : List UInt8) (calls : WriteCalls)
    (session : KeySession) : KeySession × Except KeyGenerationError Unit :=
  match openExclusive session.files path calls with
  | .error e => (session, .error e)
  | .ok id =>
    let index := session.created.length
    let opened := (session.perform (.create path id)).append path
    match fillFile platform path data calls id index opened with
    | (filled, false) => (filled, .error ⟨"could not write a key file"⟩)
    | (filled, true) => (filled, verifyFile filled.files path calls id)

/-- Whether `_cleanup_created` removes what it finds under a created path. -/
def CreatedFile.isRemovable (file : CreatedFile) (id : FileId) : Node → Bool
  | .regular content =>
    match file.identity with
    | none => content.isEmpty
    | some known => decide (id = known)
  | _ => false

/-- One round of `_cleanup_created`, with `lstat` and `unlink` working. -/
def cleanupFile (session : KeySession) (file : CreatedFile) : KeySession :=
  match session.files.lstat file.path with
  | none => session
  | some (id, node) =>
    if file.isRemovable id node then session.perform (.remove file.path) else session

/-- `_cleanup_created` -/
def cleanupCreated (session : KeySession) : KeySession :=
  session.created.reverse.foldl cleanupFile session

/-- The `try` block of `generate_node_key_files`, without its cleanup. Each `OSError` in it is
already a `KeyGenerationError`. -/
def writeKeyFiles (platform : Platform) (privatePath publicPath : String)
    (privatePem publicB64 : List UInt8) (calls : GenerateCalls) (session : KeySession) :
    KeySession × Except KeyGenerationError Unit :=
  match writeExclusive platform privatePath privatePem calls.privateFile session with
  | (session, .error e) => (session, .error e)
  | (session, .ok ()) => writeExclusive platform publicPath publicB64 calls.publicFile session

/-- `str.encode("ascii")` of ASCII text. -/
def encodeAscii (text : String) : List UInt8 := text.toList.map Char.toUInt8

theorem sextetChar_isAscii (n : ℕ) : (Python.Base64.sextetChar n).toNat < 128 := by
  unfold Python.Base64.sextetChar
  have halphabet : Python.Base64.alphabet.all (fun c => c.toNat < 128) = true := by decide
  rw [List.getD_eq_getElem?_getD]
  cases hc : Python.Base64.alphabet[n]? with
  | none => decide
  | some c => exact of_decide_eq_true (List.all_eq_true.mp halphabet c (List.mem_of_getElem? hc))

theorem b64encode_isAscii (bytes : List UInt8) :
    ∀ c ∈ Python.Base64.b64encode bytes, c.toNat < 128 := by
  fun_induction Python.Base64.b64encode bytes with
  | case1 => simp
  | case2 => simp [sextetChar_isAscii]
  | case3 => simp [sextetChar_isAscii]
  | case4 a b c rest ih => simpa [sextetChar_isAscii] using ih

/-- The text of a public key is ASCII. -/
theorem encodeAscii_encodePublicKey (ed : Ed25519) (publicKey : ed.PublicKey) :
    (encodeAscii (encodePublicKey ed publicKey)).map UInt8.toNat =
      (encodePublicKey ed publicKey).toList.map Char.toNat := by
  unfold encodeAscii encodePublicKey
  rw [String.toList_ofList, List.map_map]
  apply List.map_congr_left
  intro c hc
  have hascii : c.val.toNat < 128 := b64encode_isAscii _ c hc
  show c.val.toNat % 2 ^ 8 = c.val.toNat
  omega

variable (ed : Ed25519) (serializePrivateKey : ed.PrivateKey → List UInt8) (platform : Platform)

/-- `generate_node_key_files` once the key directory is secured, with the private key that is
generated. -/
def generateInDirectory (nodeId : String) (privateKey : ed.PrivateKey) (calls : GenerateCalls)
    (session : KeySession) : KeySession × Except KeyGenerationError GeneratedKeyPaths :=
  let privatePath := nodeId ++ ".key"
  let publicPath := nodeId ++ ".pub"
  match rejectExistingTargets session.files
      [(privatePath, calls.privateLstatRaises), (publicPath, calls.publicLstatRaises)] with
  | .error e => (session, .error e)
  | .ok () =>
    let privatePem := serializePrivateKey privateKey
    let publicKeyB64 := encodePublicKey ed (ed.publicKey privateKey)
    let publicB64 := encodeAscii publicKeyB64
    match writeKeyFiles platform privatePath publicPath privatePem publicB64 calls session with
    | (session, .error e) => (cleanupCreated session, .error e)
    | (session, .ok ()) => (session, .ok ⟨privatePath, publicPath, publicKeyB64⟩)

/-- `generate_node_key_files` -/
def generateNodeKeyFiles (nodeId : String) (privateKey : ed.PrivateKey) (calls : GenerateCalls)
    (path : OutputPath) (files : FileSystem) :
    OutputPath × KeySession × Except KeyGenerationError GeneratedKeyPaths :=
  match validateNodeId nodeId with
  | .error e => (path, .start files, .error e)
  | .ok safeNodeId =>
    match ensureSecureDirectory calls.directory path with
    | (path, .error e) => (path, .start files, .error e)
    | (path, .ok ()) =>
      (path, generateInDirectory ed serializePrivateKey platform safeNodeId privateKey calls
        (.start files))

end SecureEdge
