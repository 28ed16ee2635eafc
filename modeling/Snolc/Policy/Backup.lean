import Snolc.Lib.Fallible
import Snolc.Policy.Storage

/-! Backups and restores of a database, with every file operation that may fail. -/

namespace Snolc.Policy

inductive Node
  | file (content : Bytes)
  | directory
  deriving DecidableEq, Repr

/-- A file system, with the number of operations so far. -/
structure Disk (π : Type) [DecidableEq π] where
  nodes : Table π Node
  operations : Nat := 0

inductive Operation
  | stat
  | createDirectory
  | setPermissions
  | create
  | openFile
  | copy
  | syncFile
  | verify
  | rename
  | openDirectory
  | syncDirectory
  | remove
  deriving DecidableEq, Repr

/-- What the operating system and the libraries do; paths are theirs. -/
structure FileSystem (π : Type) where
  parent : π → Option π
  withExtension : π → String → π
  isAbsolute : π → Bool
  /-- A directory and those above it, the topmost first. -/
  ancestors : π → List π
  /-- Whether nobody but the owner may use a directory. -/
  isPrivate : π → Bool
  directoryBytes : Nat
  /-- Whether the bytes are a database with the policy table, read through a cache. -/
  isDatabase : Nat → Bytes → Bool
  processId : Nat
  /-- The time since the epoch, unless the clock is before it. -/
  nanos : Option Nat
  /-- Whether an operation fails, by its number. -/
  fails : Operation → Nat → Bool
  /-- How much is copied by an operation that fails. -/
  copied : Nat → Nat
  proper : ∀ path directory, parent path = some directory → path ∉ ancestors directory
  sibling : ∀ path extension, parent (withExtension path extension) = parent path

namespace FileSystem

variable {π α : Type} [DecidableEq π] (fs : FileSystem π)

/-- An operation, which leaves the files alone when it fails. -/
def attempt (operation : Operation) (fault : StorageError)
    (act : Table π Node → Except StorageError (α × Table π Node)) :
    Fallible (Disk π) StorageError α :=
  fun disk =>
    let operations := disk.operations + 1
    if fs.fails operation disk.operations then (.error fault, { disk with operations })
    else
      match act disk.nodes with
      | .error fault => (.error fault, { disk with operations })
      | .ok (value, nodes) => (.ok value, { nodes, operations })

/-- An operation that changes no file. -/
def consult (operation : Operation) (fault : StorageError)
    (ask : Table π Node → Except StorageError α) : Fallible (Disk π) StorageError α :=
  fs.attempt operation fault fun nodes => (ask nodes).map (·, nodes)

variable (path : π)

/-- A question about a path, which is answered with no when it fails. -/
def asks (holds : Node → Bool) : Fallible (Disk π) StorageError Bool :=
  fun disk =>
    (.ok (!fs.fails .stat disk.operations && (disk.nodes.lookup path).any holds),
      { disk with operations := disk.operations + 1 })

def exists_ : Fallible (Disk π) StorageError Bool :=
  fs.asks path fun _ => true

def isFile : Fallible (Disk π) StorageError Bool :=
  fs.asks path fun
    | .file _ => true
    | .directory => false

/-- The length of what is at a path. -/
def metadataLen : Fallible (Disk π) StorageError Nat :=
  fs.consult .stat .io fun nodes =>
    match nodes.lookup path with
    | none => .error .io
    | some (.file content) => .ok content.length
    | some .directory => .ok fs.directoryBytes

def createDirectory : Fallible (Disk π) StorageError Unit :=
  fs.attempt .createDirectory .io fun nodes =>
    match nodes.lookup path with
    | none => .ok ((), nodes.insert path .directory)
    | some (.file _) => .error .io
    | some .directory => .ok ((), nodes)

def createDirAll : List π → Fallible (Disk π) StorageError Unit
  | [] => pure ()
  | directory :: directories => do
    fs.createDirectory directory
    createDirAll directories

/-- Make sure that the directory of a path is there and private. -/
def preparePath : Fallible (Disk π) StorageError Unit :=
  match fs.parent path with
  | none => .fail .invalid
  | some directory => do
    let existed ← fs.exists_ directory
    fs.createDirAll (fs.ancestors directory)
    if existed then
      fs.consult .stat .io fun _ =>
        if fs.isPrivate directory then .ok () else .error .permissions
    else fs.consult .setPermissions .io fun _ => .ok ()

/-- Create a file where there is nothing. -/
def createNew : Fallible (Disk π) StorageError Unit :=
  fs.attempt .create .io fun nodes =>
    match nodes.lookup path with
    | none => .ok ((), nodes.insert path (.file []))
    | some _ => .error .io

def openFile : Fallible (Disk π) StorageError Unit :=
  fs.consult .openFile .io fun nodes =>
    if (nodes.lookup path).isSome then .ok () else .error .io

/-- Copy the bytes of a file; a copy that fails leaves some of them. -/
def copyBytes (source destination : π) : Fallible (Disk π) StorageError Unit :=
  fun disk =>
    let operations := disk.operations + 1
    match disk.nodes.lookup source with
    | some (.file content) =>
      if fs.fails .copy disk.operations then
        let some_ := Node.file (content.take (fs.copied disk.operations))
        (.error .io, { nodes := disk.nodes.insert destination some_, operations })
      else (.ok (), { nodes := disk.nodes.insert destination (.file content), operations })
    | _ => (.error .io, { disk with operations })

def copyPrivateFile (source destination : π) (maxBytes : Nat) :
    Fallible (Disk π) StorageError Unit := do
  let length ← fs.metadataLen source
  if length > maxBytes then .fail .limit
  else
    fs.createNew destination
    fs.openFile source
    fs.copyBytes source destination
    fs.consult .syncFile .io fun _ => .ok ()

def verifyDatabase (cacheBytes : Nat) : Fallible (Disk π) StorageError Unit :=
  fs.consult .verify .database fun nodes =>
    match nodes.lookup path with
    | some (.file content) =>
      if fs.isDatabase cacheBytes content then .ok () else .error .database
    | _ => .error .database

def rename (source destination : π) : Fallible (Disk π) StorageError Unit :=
  fs.attempt .rename .io fun nodes =>
    match nodes.lookup source with
    | none => .error .io
    | some node =>
      if nodes.lookup destination = some .directory then .error .io
      else .ok ((), (nodes.erase source).insert destination node)

def syncParent : Fallible (Disk π) StorageError Unit :=
  match fs.parent path with
  | none => .fail .invalid
  | some _ => do
    fs.consult .openDirectory .io fun _ => .ok ()
    fs.consult .syncDirectory .io fun _ => .ok ()

def removeFile : Fallible (Disk π) StorageError Unit :=
  fs.attempt .remove .io fun nodes =>
    match nodes.lookup path with
    | some (.file _) => .ok ((), nodes.erase path)
    | _ => .error .io

/-- The name of a copy that is not complete. -/
def temporary (kind : String) (destination : π) (nanos : Nat) : π :=
  fs.withExtension destination s!"{kind}-{fs.processId}-{nanos}"

/-- Copy a file aside, verify the copy, and move it to its place. -/
def place (source temporary destination : π) (cacheBytes maxDatabaseBytes : Nat) :
    Fallible (Disk π) StorageError Unit := do
  fs.copyPrivateFile source temporary maxDatabaseBytes
  fs.verifyDatabase temporary cacheBytes
  fs.rename temporary destination

/-- Put a copy of a file in its place, and make the new name last. -/
def transfer (source temporary destination : π) (cacheBytes maxDatabaseBytes : Nat) :
    Fallible (Disk π) StorageError Unit := do
  fs.place source temporary destination cacheBytes maxDatabaseBytes
  fs.syncParent destination

/-- Transfer a file, and remove the incomplete copy when that fails. -/
def install (kind : String) (source destination : π) (cacheBytes maxDatabaseBytes : Nat) :
    Fallible (Disk π) StorageError Unit :=
  match fs.nanos with
  | none => .fail .invalid
  | some nanos => fun disk =>
    let temporary := fs.temporary kind destination nanos
    match fs.transfer source temporary destination cacheBytes maxDatabaseBytes disk with
    | (.ok (), disk) => (.ok (), disk)
    | (.error fault, disk) => (.error fault, (fs.removeFile temporary disk).2)

/-- What a backup checks before it copies anything. -/
def backupChecks (source destination : π) : Fallible (Disk π) StorageError Unit := do
  if source = destination then .fail .invalid
  else if ← fs.exists_ destination then .fail .invalid
  else fs.preparePath destination

def backupClosedDatabase (source destination : π) (cacheBytes maxDatabaseBytes : Nat) :
    Fallible (Disk π) StorageError Unit := do
  fs.backupChecks source destination
  fs.install "backup" source destination cacheBytes maxDatabaseBytes

/-- What a restore checks before it copies anything. -/
def restoreChecks (backup destination : π) (cacheBytes maxDatabaseBytes : Nat) :
    Fallible (Disk π) StorageError Unit := do
  if backup = destination then .fail .invalid
  else if !(← fs.isFile backup) || !fs.isAbsolute destination then .fail .invalid
  else if (← fs.metadataLen backup) > maxDatabaseBytes then .fail .limit
  else
    fs.verifyDatabase backup cacheBytes
    fs.preparePath destination

def restoreStoppedDatabase (backup destination : π) (cacheBytes maxDatabaseBytes : Nat) :
    Fallible (Disk π) StorageError Unit := do
  fs.restoreChecks backup destination cacheBytes maxDatabaseBytes
  fs.install "restore" backup destination cacheBytes maxDatabaseBytes

variable {fs}

/--
What a computation comes to from given files, however many operations came before.

One condition is on the files when it fails, one on its value and the files when it succeeds.
-/
def Does (computation : Fallible (Disk π) StorageError α) (nodes : Table π Node)
    (failed : Table π Node → Prop) (done : α → Table π Node → Prop) : Prop :=
  ∀ operations,
    match computation ⟨nodes, operations⟩ with
    | (.error _, after) => failed after.nodes
    | (.ok value, after) => done value after.nodes

namespace Does

variable {nodes : Table π Node} {failed : Table π Node → Prop} {done : α → Table π Node → Prop}
  {operation : Operation} {fault : StorageError}

theorem bind {β : Type} {first : Fallible (Disk π) StorageError β}
    {rest : β → Fallible (Disk π) StorageError α} {mid : β → Table π Node → Prop}
    (starts : Does first nodes failed mid)
    (goes : ∀ value between, mid value between → Does (rest value) between failed done) :
    Does (first >>= rest) nodes failed done := by
  intro operations
  have started := starts operations
  simp only [Bind.bind]
  split at started
  · next ran => simpa only [ran] using started
  · next value between ran => simpa only [ran] using goes value _ started between.operations

theorem attempt {act : Table π Node → Except StorageError (α × Table π Node)}
    (fails : failed nodes)
    (acts : ∀ value after, act nodes = .ok (value, after) → done value after) :
    Does (fs.attempt operation fault act) nodes failed done := by
  intro operations
  cases refused : fs.fails operation operations with
  | true => simpa [FileSystem.attempt, refused] using fails
  | false =>
    cases answer : act nodes with
    | error => simpa [FileSystem.attempt, refused, answer] using fails
    | ok => simpa [FileSystem.attempt, refused, answer] using acts _ _ answer

theorem consult {ask : Table π Node → Except StorageError α} (fails : failed nodes)
    (asks : ∀ value, ask nodes = .ok value → done value nodes) :
    Does (fs.consult operation fault ask) nodes failed done := by
  refine attempt fails fun value after answer => ?_
  cases answered : ask nodes with
  | error => simp [answered, Except.map] at answer
  | ok found =>
    rw [answered] at answer
    cases answer
    exact asks value answered

end Does

theorem asks_does {path : π} {holds : Node → Bool} {nodes : Table π Node}
    {failed : Table π Node → Prop} :
    Does (fs.asks path holds) nodes failed fun _ after => after = nodes :=
  fun _ => rfl

section Copies

variable {source temporary destination : π} {nodes between after : Table π Node}

/-- What an incomplete copy may change: only its own file, which is a new one. -/
structure Aside (temporary : π) (before after : Table π Node) : Prop where
  others : ∀ path, path ≠ temporary → after.lookup path = before.lookup path
  file : after.lookup temporary = before.lookup temporary ∨
    before.lookup temporary = none ∧ ∃ content, after.lookup temporary = some (.file content)

theorem Aside.refl (nodes : Table π Node) : Aside temporary nodes nodes :=
  ⟨fun _ _ => rfl, .inl rfl⟩

theorem Aside.insert (aside : Aside temporary nodes after)
    (absent : nodes.lookup temporary = none) (content : Bytes) :
    Aside temporary nodes (after.insert temporary (.file content)) where
  others path other := by
    rw [Table.lookup_insert_eq, if_neg other]
    exact aside.others path other
  file := .inr ⟨absent, content, by simp⟩

/-- A copy is made aside, and of the whole file if it succeeds. -/
theorem copyPrivateFile_does (maxBytes : Nat) :
    Does (fs.copyPrivateFile source temporary maxBytes) nodes (Aside temporary nodes)
      fun _ after => Aside temporary nodes after ∧ nodes.lookup temporary = none ∧
        ∃ content, nodes.lookup source = some (.file content) ∧
          after.lookup temporary = some (.file content) := by
  have measured : Does (fs.metadataLen source) nodes (Aside temporary nodes) fun _ after =>
      after = nodes ∧ nodes.lookup source ≠ none := by
    refine .consult (.refl _) fun length found => ⟨rfl, fun absent => ?_⟩
    simp [absent] at found
  refine measured.bind fun length between ⟨same, there⟩ => ?_
  rw [same]
  split
  · exact fun _ => .refl _
  -- The file is new, so it is not the one that is copied.
  have created : Does (fs.createNew temporary) nodes (Aside temporary nodes) fun _ after =>
      Aside temporary nodes after ∧ nodes.lookup temporary = none ∧ source ≠ temporary := by
    refine .attempt (.refl _) fun _ after made => ?_
    split at made
    · next absent =>
      cases made
      exact ⟨(Aside.refl _).insert absent [], absent, fun same => there (same ▸ absent)⟩
    · cases made
  refine created.bind fun _ between ⟨aside, absent, apart⟩ => ?_
  refine Does.bind (Does.consult aside fun _ _ => rfl :
    Does _ between _ fun _ after => after = between) fun _ opened same => ?_
  rw [same]
  have copied : Does (fs.copyBytes source temporary) between (Aside temporary nodes)
      fun _ after => Aside temporary nodes after ∧ nodes.lookup temporary = none ∧
        ∃ content, nodes.lookup source = some (.file content) ∧
          after.lookup temporary = some (.file content) := by
    intro operations
    simp only [copyBytes, aside.others source apart]
    cases found : nodes.lookup source with
    | none => exact aside
    | some node =>
      cases node with
      | directory => exact aside
      | file content =>
        cases fs.fails .copy operations with
        | true => exact aside.insert absent _
        | false => exact ⟨aside.insert absent _, absent, content, rfl, by simp⟩
  exact copied.bind fun _ after held => .consult held.1 fun _ _ => held

/-- What is in its place is the whole file, and the incomplete copy is gone. -/
structure Placed (source temporary destination : π) (before after : Table π Node) : Prop where
  arrived : after.lookup destination = before.lookup source
  whole : ∃ content, before.lookup source = some (.file content)
  gone : temporary ≠ destination → after.lookup temporary = none
  aside : temporary = destination → Aside temporary before after

/-- Until the file is moved to its place, only the incomplete copy is changed. -/
theorem place_does (cacheBytes maxDatabaseBytes : Nat) :
    Does (fs.place source temporary destination cacheBytes maxDatabaseBytes) nodes
      (Aside temporary nodes) fun _ => Placed source temporary destination nodes := by
  refine (copyPrivateFile_does maxDatabaseBytes).bind fun _ between held => ?_
  obtain ⟨aside, fresh, content, found, made⟩ := held
  refine Does.bind (Does.consult aside fun _ _ => rfl :
    Does _ between _ fun _ after => after = between) fun _ verified same => ?_
  rw [same]
  refine .attempt aside fun _ after acts => ?_
  rw [made] at acts
  dsimp only at acts
  split at acts <;> cases acts
  have arrived : ((between.erase temporary).insert destination (.file content)).lookup destination =
      nodes.lookup source := by rw [Table.lookup_insert_eq, if_pos rfl, found]
  refine ⟨arrived, ⟨content, found⟩, fun apart => ?_, ?_⟩
  · rw [Table.lookup_insert_eq, if_neg apart]
    simp
  · rintro rfl
    refine ⟨fun path other => ?_, .inr ⟨fresh, content, arrived.trans found⟩⟩
    rw [Table.lookup_insert_eq, if_neg other, Table.lookup_erase_eq, if_neg other]
    exact aside.others path other

/-- Opening or syncing the directory of a path fails. -/
def UnsyncedAt (fs : FileSystem π) (operations : Nat) : Prop :=
  fs.fails .openDirectory operations = true ∨ fs.fails .syncDirectory (operations + 1) = true

instance (fs : FileSystem π) (operations : Nat) : Decidable (UnsyncedAt fs operations) :=
  inferInstanceAs (Decidable (_ ∨ _))

theorem syncParent_cases {disk : Disk π} (located : (fs.parent destination).isSome) :
    (fs.syncParent destination disk).2.nodes = disk.nodes ∧
      (UnsyncedAt fs disk.operations ∧ (fs.syncParent destination disk).1 = .error .io ∨
        ¬ UnsyncedAt fs disk.operations ∧ (fs.syncParent destination disk).1 = .ok ()) := by
  obtain ⟨directory, parent⟩ := Option.isSome_iff_exists.mp located
  simp only [syncParent, parent, Bind.bind, consult, attempt, Except.map, UnsyncedAt]
  cases opened : fs.fails .openDirectory disk.operations with
  | true => simp
  | false => cases synced : fs.fails .syncDirectory (disk.operations + 1) <;> simp [synced]

end Copies

section Directories

variable {path : π} {nodes : Table π Node}

/-- What preparing a path may change: nothing beside it, and no file. -/
structure Prepared (fs : FileSystem π) (path : π) (before after : Table π Node) : Prop where
  beside : ∀ other, fs.parent other = fs.parent path → after.lookup other = before.lookup other
  files : ∀ other content, after.lookup other = some (.file content) →
    before.lookup other = some (.file content)

theorem Prepared.refl (fs : FileSystem π) (path : π) (nodes : Table π Node) :
    Prepared fs path nodes nodes :=
  ⟨fun _ _ => rfl, fun _ _ => id⟩

theorem createDirAll_does {directory : π} {before : Table π Node}
    (parent : fs.parent path = some directory) {directories : List π}
    (above : ∀ other ∈ directories, other ∈ fs.ancestors directory)
    (prepared : Prepared fs path before nodes) :
    Does (fs.createDirAll directories) nodes (Prepared fs path before)
      fun _ => Prepared fs path before := by
  induction directories generalizing nodes with
  | nil => exact fun _ => prepared
  | cons first directories ih =>
    obtain ⟨here, rest⟩ := List.forall_mem_cons.mp above
    have made : Does (fs.createDirectory first) nodes (Prepared fs path before)
        fun _ => Prepared fs path before := by
      refine .attempt prepared fun _ after acts => ?_
      split at acts
      · cases acts
        refine ⟨fun other same => ?_, fun other content found => ?_⟩
        · -- What is beside the path is no directory above it.
          rw [Table.lookup_insert_eq, if_neg]
          · exact prepared.beside other same
          · rintro rfl
            exact fs.proper _ _ (same.trans parent) here
        · rcases Table.of_lookup_insert found with ⟨_, bad⟩ | ⟨_, old⟩
          · cases bad
          · exact prepared.files other content old
      · cases acts
      · cases acts
        exact prepared
    exact made.bind fun _ _ => ih rest

theorem preparePath_does :
    Does (fs.preparePath path) nodes (Prepared fs path nodes)
      fun _ after => Prepared fs path nodes after ∧ (fs.parent path).isSome := by
  cases parent : fs.parent path with
  | none =>
    rw [preparePath, parent]
    exact fun _ => .refl _ _ _
  | some directory =>
    rw [preparePath, parent]
    refine Does.bind asks_does fun existed between same => ?_
    rw [same]
    refine (createDirAll_does parent (fun _ => id) (.refl _ _ _)).bind fun _ after prepared => ?_
    cases existed with
    | true => exact .consult prepared fun _ _ => ⟨prepared, rfl⟩
    | false => exact .consult prepared fun _ _ => ⟨prepared, rfl⟩

end Directories

section Calls

variable {kind : String} {source destination : π} {nodes between after : Table π Node}

/--
Files after a call that failed: the destination is as it was, and nothing is left of the incomplete
copy if files can be removed.
-/
structure Restored (fs : FileSystem π) (kind : String) (destination : π)
    (before after : Table π Node) : Prop where
  unchanged : after.lookup destination = before.lookup destination
  cleared : (∀ count, fs.fails .remove count = false) → ∀ nanos, fs.nanos = some nanos →
    after.lookup (fs.temporary kind destination nanos) = none ∨
      after.lookup (fs.temporary kind destination nanos) =
        before.lookup (fs.temporary kind destination nanos)

theorem Restored.refl (fs : FileSystem π) (kind : String) (destination : π)
    (nodes : Table π Node) : Restored fs kind destination nodes nodes :=
  ⟨rfl, fun _ _ _ => .inr rfl⟩

/-- What preparing a path changes does not matter for what a call restores. -/
theorem Prepared.restored_iff (prepared : Prepared fs destination nodes between) :
    Restored fs kind destination nodes after ↔ Restored fs kind destination between after := by
  have here := prepared.beside destination rfl
  have copy (nanos : Nat) := prepared.beside (fs.temporary kind destination nanos)
    (fs.sibling destination _)
  constructor
  · rintro ⟨unchanged, cleared⟩
    exact ⟨unchanged.trans here.symm, by simpa only [copy] using cleared⟩
  · rintro ⟨unchanged, cleared⟩
    exact ⟨unchanged.trans here, by simpa only [copy] using cleared⟩

/-- A call is all or nothing: a failed one changes nothing, another copies the source. -/
def AllOrNothing (fs : FileSystem π) (kind : String) (source destination : π)
    (call : Fallible (Disk π) StorageError Unit) (disk : Disk π) : Prop :=
  match call disk with
  | (.error _, after) => Restored fs kind destination disk.nodes after.nodes
  | (.ok (), after) => ∃ content, disk.nodes.lookup source = some (.file content) ∧
      after.nodes.lookup destination = some (.file content)

def HasFile (nodes : Table π Node) (path : π) : Prop :=
  ∃ content, nodes.lookup path = some (.file content)

/--
What goes wrong in a call that has begun to copy.

Either the directory cannot be synced after the copy is in its place, where something else was; or
the incomplete copy has the name of the destination, and the call fails and removes a file that it
has not made, or cannot remove the one it has made.
-/
def Spoils (fs : FileSystem π) (source temporary destination : π)
    (cacheBytes maxDatabaseBytes : Nat) (before : Table π Node) (begun : Disk π) : Prop :=
  temporary ≠ destination ∧ before.lookup destination ≠ before.lookup source ∧
      (∃ placed, fs.place source temporary destination cacheBytes maxDatabaseBytes begun =
        (.ok (), placed) ∧ UnsyncedAt fs placed.operations) ∨
    temporary = destination ∧ ∃ fault stopped,
      fs.transfer source temporary destination cacheBytes maxDatabaseBytes begun =
        (.error fault, stopped) ∧ HasFile stopped.nodes destination ∧
      (HasFile before destination ↔ fs.fails .remove stopped.operations = false)

/-- A call passes its checks, and then something goes wrong. -/
def Spoiled (fs : FileSystem π) (kind : String) (source destination : π)
    (cacheBytes maxDatabaseBytes : Nat) (checks : Fallible (Disk π) StorageError Unit)
    (disk : Disk π) : Prop :=
  ∃ nanos begun, fs.nanos = some nanos ∧ checks disk = (.ok (), begun) ∧
    Spoils fs source (fs.temporary kind destination nanos) destination cacheBytes
      maxDatabaseBytes disk.nodes begun

theorem removeFile_cases (path : π) (disk : Disk π) :
    fs.fails .remove disk.operations = false ∧ HasFile disk.nodes path ∧
        (fs.removeFile path disk).2.nodes = disk.nodes.erase path ∨
      (fs.fails .remove disk.operations = true ∨ ¬ HasFile disk.nodes path) ∧
        (fs.removeFile path disk).2.nodes = disk.nodes := by
  simp only [removeFile, attempt, HasFile]
  cases fs.fails .remove disk.operations with
  | true => simp
  | false => rcases disk.nodes.lookup path with _ | (_ | _) <;> simp

/-- The removal of the incomplete copy leaves everything as it was. -/
theorem removeFile_restored {nanos : Nat} {disk : Disk π} (now : fs.nanos = some nanos)
    (apart : fs.temporary kind destination nanos ≠ destination)
    (aside : Aside (fs.temporary kind destination nanos) nodes disk.nodes) :
    Restored fs kind destination nodes
      (fs.removeFile (fs.temporary kind destination nanos) disk).2.nodes := by
  have kept := aside.others destination apart.symm
  rcases removeFile_cases (fs.temporary kind destination nanos) disk with
    ⟨_, _, removed⟩ | ⟨stays, removed⟩
  · rw [removed]
    refine ⟨by rw [Table.lookup_erase_eq, if_neg apart.symm, kept], fun _ _ same => .inl ?_⟩
    cases now.symm.trans same
    simp
  · rw [removed]
    refine ⟨kept, fun removable _ same => .inr ?_⟩
    cases now.symm.trans same
    -- What cannot be removed is no file, so it is what was there before.
    rcases aside.file with unchanged | ⟨_, made⟩
    · exact unchanged
    · simp [removable, HasFile, made] at stays

/-- Where the incomplete copy has the name of the destination, the destination is removed. -/
theorem removeFile_clash {nanos : Nat} {disk : Disk π} (now : fs.nanos = some nanos)
    (clash : fs.temporary kind destination nanos = destination)
    (aside : Aside destination nodes disk.nodes) :
    Restored fs kind destination nodes (fs.removeFile destination disk).2.nodes ↔
      ¬ (HasFile disk.nodes destination ∧
        (HasFile nodes destination ↔ fs.fails .remove disk.operations = false)) := by
  have only : Restored fs kind destination nodes (fs.removeFile destination disk).2.nodes ↔
      (fs.removeFile destination disk).2.nodes.lookup destination = nodes.lookup destination := by
    refine ⟨Restored.unchanged, fun unchanged => ⟨unchanged, fun _ _ same => .inr ?_⟩⟩
    cases now.symm.trans same
    rw [clash, unchanged]
  rw [only]
  rcases removeFile_cases destination disk with
    ⟨works, ⟨content, there⟩, removed⟩ | ⟨stays, removed⟩
  · rw [removed]
    rcases aside.file with same | ⟨absent, _⟩
    · simp [works, HasFile, there, ← same]
    · simp [works, HasFile, there, absent]
  · rw [removed]
    rcases aside.file with same | ⟨absent, content, made⟩
    · rcases stays with fails | none
      · simp [same, fails, HasFile]
      · simp [same, none]
    · rcases stays with fails | none
      · simp [fails, HasFile, made, absent]
      · exact absurd ⟨content, made⟩ none

/-- A copy in its place is no change only where it is what was there. -/
theorem removeFile_placed {nanos : Nat} {disk : Disk π} (now : fs.nanos = some nanos)
    (apart : fs.temporary kind destination nanos ≠ destination)
    (there : Placed source (fs.temporary kind destination nanos) destination nodes disk.nodes) :
    Restored fs kind destination nodes
        (fs.removeFile (fs.temporary kind destination nanos) disk).2.nodes ↔
      nodes.lookup destination = nodes.lookup source := by
  have gone := there.gone apart
  rcases removeFile_cases (fs.temporary kind destination nanos) disk with
    ⟨_, ⟨content, found⟩, _⟩ | ⟨_, removed⟩
  · cases gone.symm.trans found
  · rw [removed]
    constructor
    · intro restored
      exact restored.unchanged.symm.trans there.arrived
    · intro same
      refine ⟨there.arrived.trans same.symm, fun _ _ again => .inl ?_⟩
      cases now.symm.trans again
      exact gone

/-- How far a transfer comes. -/
inductive Transferred (fs : FileSystem π) (source temporary destination : π)
    (cacheBytes maxDatabaseBytes : Nat) (begun : Disk π) : Except StorageError Unit × Disk π → Prop
  | stopped {fault : StorageError} {disk : Disk π}
      (unplaced : ∀ placed, fs.place source temporary destination cacheBytes maxDatabaseBytes
        begun ≠ (.ok (), placed)) (aside : Aside temporary begun.nodes disk.nodes) :
      Transferred fs source temporary destination cacheBytes maxDatabaseBytes begun
        (.error fault, disk)
  | unsynced {placed disk : Disk π}
      (moved : fs.place source temporary destination cacheBytes maxDatabaseBytes begun =
        (.ok (), placed)) (unsynced : UnsyncedAt fs placed.operations)
      (there : Placed source temporary destination begun.nodes disk.nodes) :
      Transferred fs source temporary destination cacheBytes maxDatabaseBytes begun
        (.error .io, disk)
  | done {placed disk : Disk π}
      (moved : fs.place source temporary destination cacheBytes maxDatabaseBytes begun =
        (.ok (), placed)) (synced : ¬ UnsyncedAt fs placed.operations)
      (there : Placed source temporary destination begun.nodes disk.nodes) :
      Transferred fs source temporary destination cacheBytes maxDatabaseBytes begun (.ok (), disk)

theorem transfer_cases (source temporary : π) (cacheBytes maxDatabaseBytes : Nat)
    (located : (fs.parent destination).isSome) (begun : Disk π) :
    Transferred fs source temporary destination cacheBytes maxDatabaseBytes begun
      (fs.transfer source temporary destination cacheBytes maxDatabaseBytes begun) := by
  have went : Does (fs.place source temporary destination cacheBytes maxDatabaseBytes)
    begun.nodes _ _ := place_does cacheBytes maxDatabaseBytes
  replace went := went begun.operations
  simp only [transfer, Bind.bind]
  split at went
  · next fault stopped ran =>
    rw [ran]
    exact .stopped (by simp [ran]) went
  · next placed ran =>
    rw [ran]
    dsimp only
    obtain ⟨kept, outcome⟩ := @syncParent_cases _ _ fs _ placed located
    rw [← Prod.eta (fs.syncParent destination placed)]
    rcases outcome with ⟨unsynced, failed⟩ | ⟨synced, works⟩
    · rw [failed]
      exact .unsynced ran unsynced (kept ▸ went)
    · rw [works]
      exact .done ran synced (kept ▸ went)

theorem spoils_clash {temporary : π} {cacheBytes maxDatabaseBytes : Nat} {begun stopped : Disk π}
    {fault : StorageError} (clash : temporary = destination)
    (failed : fs.transfer source temporary destination cacheBytes maxDatabaseBytes begun =
      (.error fault, stopped)) :
    Spoils fs source temporary destination cacheBytes maxDatabaseBytes nodes begun ↔
      HasFile stopped.nodes destination ∧
        (HasFile nodes destination ↔ fs.fails .remove stopped.operations = false) := by
  constructor
  · rintro (⟨apart, _⟩ | ⟨_, _, _, again, spoils⟩)
    · exact absurd clash apart
    · cases failed.symm.trans again
      exact spoils
  · exact fun spoils => .inr ⟨clash, fault, stopped, failed, spoils⟩

/-- A call that passes its checks is all or nothing exactly when it is not spoiled. -/
theorem allOrNothing_iff {cacheBytes maxDatabaseBytes : Nat}
    {checks : Fallible (Disk π) StorageError Unit}
    (checked : ∀ nodes, Does checks nodes (Prepared fs destination nodes) fun _ after =>
      Prepared fs destination nodes after ∧ (fs.parent destination).isSome) (disk : Disk π) :
    AllOrNothing fs kind source destination (do
        checks
        fs.install kind source destination cacheBytes maxDatabaseBytes) disk ↔
      ¬ Spoiled fs kind source destination cacheBytes maxDatabaseBytes checks disk := by
  have passed := checked disk.nodes disk.operations
  simp only [AllOrNothing, Bind.bind]
  rcases ran : checks disk with ⟨fault | ⟨⟩, begun⟩
  · -- A call that does not pass its checks changes nothing that matters.
    simp only [ran] at passed
    refine iff_of_true (passed.restored_iff.mpr (.refl _ _ _ _)) ?_
    rintro ⟨_, _, _, other, _⟩
    cases ran.symm.trans other
  simp only [ran] at passed
  obtain ⟨prepared, located⟩ := passed
  cases now : fs.nanos with
  | none =>
    simp only [install, now]
    refine iff_of_true (prepared.restored_iff.mpr (.refl _ _ _ _)) ?_
    rintro ⟨_, _, same, _⟩
    cases now.symm.trans same
  | some nanos =>
    have spoiled : Spoiled fs kind source destination cacheBytes maxDatabaseBytes checks disk ↔
        Spoils fs source (fs.temporary kind destination nanos) destination cacheBytes
          maxDatabaseBytes disk.nodes begun := by
      refine ⟨?_, fun spoils => ⟨nanos, begun, now, ran, spoils⟩⟩
      rintro ⟨_, _, same, again, spoils⟩
      cases now.symm.trans same
      cases ran.symm.trans again
      exact spoils
    rw [spoiled]
    have went := transfer_cases source (fs.temporary kind destination nanos) cacheBytes
      maxDatabaseBytes located begun
    simp only [install, now]
    generalize outcome : fs.transfer source (fs.temporary kind destination nanos) destination
      cacheBytes maxDatabaseBytes begun = result at went ⊢
    have here : HasFile begun.nodes destination ↔ HasFile disk.nodes destination := by
      rw [HasFile, HasFile, prepared.beside destination rfl]
    cases went with
    | stopped unplaced aside =>
      dsimp only
      rw [prepared.restored_iff]
      by_cases clash : fs.temporary kind destination nanos = destination
      · rw [spoils_clash clash outcome, ← here]
        rw [clash] at aside ⊢
        exact removeFile_clash now clash aside
      · refine iff_of_true (removeFile_restored now clash aside) ?_
        rintro (⟨_, _, placed, moved, _⟩ | ⟨same, _⟩)
        · exact unplaced placed moved
        · exact clash same
    | @unsynced placed stopped moved unsynced there =>
      dsimp only
      rw [prepared.restored_iff]
      by_cases clash : fs.temporary kind destination nanos = destination
      · have aside := there.aside clash
        rw [spoils_clash clash outcome, ← here]
        rw [clash] at aside ⊢
        exact removeFile_clash now clash aside
      · obtain ⟨content, whole⟩ := there.whole
        rw [removeFile_placed now clash there, prepared.beside destination rfl, whole,
          ← prepared.files _ _ whole, ← not_iff_not, not_not]
        refine ⟨fun differs => .inl ⟨clash, differs, placed, moved, unsynced⟩, ?_⟩
        rintro (⟨_, differs, _⟩ | ⟨same, _⟩)
        · exact differs
        · exact absurd same clash
    | done moved synced there =>
      obtain ⟨content, whole⟩ := there.whole
      refine iff_of_true ⟨content, prepared.files _ _ whole, there.arrived.trans whole⟩ ?_
      rintro (⟨_, _, other, again, unsynced⟩ | ⟨_, _, _, failed, _⟩)
      · cases moved.symm.trans again
        exact synced unsynced
      · cases outcome.symm.trans failed

end Calls

/--
A backup or a restore is all or nothing, whatever operations fail, exactly when it is not spoiled by
a directory that cannot be synced or by a name that is taken for its incomplete copy.
-/
theorem backups_allOrNothing (fs : FileSystem π) (source destination : π)
    (cacheBytes maxDatabaseBytes : Nat) (disk : Disk π) :
    (AllOrNothing fs "backup" source destination
        (fs.backupClosedDatabase source destination cacheBytes maxDatabaseBytes) disk ↔
      ¬ Spoiled fs "backup" source destination cacheBytes maxDatabaseBytes
        (fs.backupChecks source destination) disk) ∧
    (AllOrNothing fs "restore" source destination
        (fs.restoreStoppedDatabase source destination cacheBytes maxDatabaseBytes) disk ↔
      ¬ Spoiled fs "restore" source destination cacheBytes maxDatabaseBytes
        (fs.restoreChecks source destination cacheBytes maxDatabaseBytes) disk) := by
  refine ⟨allOrNothing_iff (fun nodes => ?_) disk, allOrNothing_iff (fun nodes => ?_) disk⟩
  · unfold backupChecks
    split
    · exact fun _ => .refl _ _ _
    refine asks_does.bind fun found between same => ?_
    rw [same]
    cases found with
    | true => exact fun _ => .refl _ _ _
    | false => exact preparePath_does
  · unfold restoreChecks
    split
    · exact fun _ => .refl _ _ _
    refine asks_does.bind fun found between same => ?_
    rw [same]
    split
    · exact fun _ => .refl _ _ _
    refine Does.bind (Does.consult (.refl _ _ _) fun _ _ => rfl :
      Does _ nodes _ fun _ after => after = nodes) fun length between same => ?_
    rw [same]
    split
    · exact fun _ => .refl _ _ _
    refine Does.bind (Does.consult (.refl _ _ _) fun _ _ => rfl :
      Does _ nodes _ fun _ after => after = nodes) fun _ between same => ?_
    rw [same]
    exact preparePath_does

end FileSystem

open FileSystem

/-- A directory of numbered files, in which some operations always fail. -/
def flatFiles (failing : List Operation) : FileSystem Nat where
  parent path := if path = 0 then none else some 0
  withExtension path _ := if path = 0 then 0 else 3
  isAbsolute _ := true
  ancestors directory := [directory]
  isPrivate _ := true
  directoryBytes := 4096
  isDatabase _ _ := true
  processId := 1
  nanos := some 1
  fails operation _ := operation ∈ failing
  copied _ := 0
  proper path directory parent := by
    split at parent
    · cases parent
    · cases parent
      simpa
  sibling path _ := by split <;> simp_all

/-- A database and an older one. -/
def twoFiles : Disk Nat where
  nodes := ((∅ : Table Nat Node).insert 0 .directory).insert 1 (.file [7]) |>.insert 2 (.file [5])

/-- A restore that cannot move its copy fails and leaves nothing behind. -/
theorem backups_allOrNothing_unmoved :
    ((flatFiles [.rename, .syncDirectory]).restoreStoppedDatabase 1 2 0 64 twoFiles).1 =
        .error .io ∧
      AllOrNothing (flatFiles [.rename, .syncDirectory]) "restore" 1 2
        ((flatFiles [.rename, .syncDirectory]).restoreStoppedDatabase 1 2 0 64) twoFiles := by
  refine ⟨by decide, (backups_allOrNothing _ 1 2 0 64 twoFiles).2.mpr ?_⟩
  rintro ⟨nanos, begun, now, passed, ⟨_, _, placed, moved, _⟩ | ⟨clash, _⟩⟩
  · cases now
    have unmoved : ((flatFiles [.rename, .syncDirectory]).place 1 3 2 0 64 begun).1 ≠ .ok () := by
      have same : begun =
          ((flatFiles [.rename, .syncDirectory]).restoreChecks 1 2 0 64 twoFiles).2 := by
        rw [passed]
      rw [same]
      decide
    exact unmoved (congrArg Prod.fst moved)
  · simp [flatFiles, FileSystem.temporary] at clash

/-- When the directory cannot be synced, a call fails that has already replaced the destination. -/
theorem backups_unsynced :
    ((flatFiles [.syncDirectory]).backupClosedDatabase 1 4 0 64 twoFiles).1 = .error .io ∧
      twoFiles.nodes.lookup 4 = none ∧
      ((flatFiles [.syncDirectory]).backupClosedDatabase 1 4 0 64 twoFiles).2.nodes.lookup 4 =
        some (.file [7]) ∧
      ((flatFiles [.syncDirectory]).restoreStoppedDatabase 1 2 0 64 twoFiles).1 = .error .io ∧
      twoFiles.nodes.lookup 2 = some (.file [5]) ∧
      ((flatFiles [.syncDirectory]).restoreStoppedDatabase 1 2 0 64 twoFiles).2.nodes.lookup 2 =
        some (.file [7]) := by
  decide

end Snolc.Policy
