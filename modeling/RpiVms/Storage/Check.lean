import RpiVms.Media.Ingest

namespace RpiVms

structure FileId where
  dev : Nat
  ino : Nat
  deriving DecidableEq, Repr

-- what canonical and stat say of the storage root and its parent
structure RootView where
  canonical : Option Bytes
  pathStat : Option FileId
  parentStat : Option FileId
  deriving DecidableEq, Repr

-- parent_path of a canonical path: all before the last slash, the root its own parent
def parentPath (path : Bytes) : Bytes :=
  match path.reverse.dropWhile (· != 47) with
  | [] => []
  | slash :: rest => if rest.isEmpty then [slash] else rest.reverse

def isMountPoint (view : RootView) : Bool :=
  match view.canonical with
  | none => false
  | some canonicalPath =>
      let parent := parentPath canonicalPath
      if parent.isEmpty || parent == canonicalPath then true
      else
        match view.pathStat,view.parentStat with
        | some path,some parent => path.dev != parent.dev || path.ino == parent.ino
        | _,_ => false

inductive StorageState where
  | unconfigured
  | missing
  | checking
  | ready
  | readOnly
  | full
  | error
  deriving DecidableEq, Repr

structure StorageStatus where
  state : StorageState := .unconfigured
  isMountPoint : Bool := false
  availableBytes : Nat := 0
  message : Bytes := []
  deriving DecidableEq, Repr

-- the answers of the file system to check
structure StorageEnv where
  pathExists : Bool
  isDirectory : Bool
  recordings : Option Bytes
  index : Option Bytes
  probeOpens : Bool
  space : Except Bytes Nat
  deriving DecidableEq

inductive Write where
  | creates (path : Bytes)
  | handsOut (path : Bytes)
  deriving DecidableEq, Repr

structure StorageManager where
  storageRoot : Bytes
  minFreeBytes : Nat
  requireMountPoint : Bool
  deriving DecidableEq, Repr

namespace StorageManager

variable (s : StorageManager)

def checkSpace (env : StorageEnv) (status : StorageStatus) : StorageStatus :=
  match env.space with
  | .error message =>
      { status with state := .error, message := ascii "failed to query free space: " ++ message }
  | .ok available =>
      if available < s.minFreeBytes then
        { status with
          state := .full
          availableBytes := available
          message := ascii "storage free space is below threshold" }
      else
        { status with
          state := .ready
          availableBytes := available
          message := ascii "storage ready" }

def prepare (env : StorageEnv) (status : StorageStatus) : List Write × StorageStatus :=
  let recordings := Write.creates (pathJoin s.storageRoot (ascii "recordings"))
  let index := Write.creates (pathJoin s.storageRoot (ascii "index"))
  match env.recordings,env.index with
  | some message,_ =>
      ([recordings],{ status with
        state := .readOnly
        message := ascii "failed to create recordings directory: " ++ message })
  | none,some message =>
      ([recordings,index],{ status with
        state := .readOnly
        message := ascii "failed to create index directory: " ++ message })
  | none,none =>
      if env.probeOpens then ([recordings,index],s.checkSpace env status)
      else
        ([recordings,index],{ status with
          state := .readOnly, message := ascii "storage root is not writable" })

def check (view : RootView) (env : StorageEnv) : List Write × StorageStatus :=
  if s.storageRoot.isEmpty then ([],{ message := ascii "storage root is empty" })
  else if !env.pathExists then
    ([],{ state := .missing, message := ascii "storage root does not exist: " ++ s.storageRoot })
  else if !env.isDirectory then
    ([],{ state := .error, message := ascii "storage root is not a directory: " ++ s.storageRoot })
  else
    let mounted := isMountPoint view
    let status : StorageStatus := { state := .checking, isMountPoint := mounted }
    if !mounted && s.requireMountPoint then
      ([],{ status with
        state := .error
        message := ascii "storage root is not a mount point; writes may go to the OS filesystem" })
    else s.prepare env status

theorem check_on_mount (hr : s.requireMountPoint = true) (view : RootView) (env : StorageEnv)
    (hc : (s.check view env).1 ≠ [] ∨ (s.check view env).2.state = .ready) : isMountPoint view = true := by
  by_contra hm
  rw [Bool.not_eq_true] at hm
  unfold check at hc
  simp only [hm,hr] at hc
  split at hc
  · simp at hc
  · split at hc
    · simp at hc
    · split at hc <;> simp at hc

end StorageManager

end RpiVms
