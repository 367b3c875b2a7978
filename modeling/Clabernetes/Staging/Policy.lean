import Mathlib.Data.String.Basic
import Clabernetes.Base.GoMap

/-!
# The staging policy

`internal/deviceplan/staging_policy.go`, `staging_ledger.go` and the publication of one artifact,
`preparer.go:467-491,542-781`: when preparation may publish a planned file over what lies on the
Node's volume, and what it records about it. Nodes share nothing here, so the model is of one Node.
-/

namespace Clabernetes.Staging

open Base Std

abbrev Bytes := List UInt8

inductive ArtifactKind where
  | artifactRegular
  | artifactSymlink
  deriving DecidableEq

/-- What lies at a path. `readable` says whether the preparation identity can open the file. -/
inductive Entry where
  | regular (content : Bytes) (readable : Bool)
  | symlink (target : Bytes)
  /-- A directory, a socket, a device. -/
  | other
  deriving DecidableEq

def Entry.bytes : Entry → Bytes
  | .regular content _ => content
  | .symlink target => target
  | .other => []

inductive ArtifactSource where
  | generated
  | payload
  deriving DecidableEq

structure Artifact where
  source : ArtifactSource
  kind : ArtifactKind
  path : String
  /-- The accepted digest. -/
  digest : String
  content : Bytes
  /-- Its mode and owner let the preparation identity open it. -/
  readable : Bool := true
  deriving DecidableEq

def Artifact.entry (artifact : Artifact) : Entry :=
  match artifact.kind with
  | .artifactRegular => .regular artifact.content artifact.readable
  | .artifactSymlink => .symlink artifact.content

structure StagingLedger where
  files : GoMap String String := ∅
  acknowledgedResetToken : String := ""
  preserved : List String := []

inductive LedgerFile where
  | missing
  | corrupt
  | recorded (ledger : StagingLedger)

def loadStagingLedger : LedgerFile → StagingLedger × Bool
  | .missing => ({}, false)
  | .corrupt => ({}, false)
  | .recorded ledger => (ledger, true)

/-- A Node's artifact volume. `staged`, for the statements only, is what was last written at each
path that the device has not modified since. -/
structure NodeVolume where
  files : GoMap String Entry := ∅
  ledger : LedgerFile := .missing
  staged : GoMap String Entry := ∅

def preservedDeviceArtifact (volume : NodeVolume) (path : String) : Bool :=
  let (ledger, ok) := loadStagingLedger volume.ledger
  ok && ledger.preserved.contains path

structure NodeStagingState where
  persistent : Bool
  enforce : Bool
  ledger : StagingLedger
  preserved : GoMap String Unit := ∅

section

-- SHA-256 in its text form.
variable (digest : Bytes → String)

def destinationContentDigest (entry : Entry) (kind : ArtifactKind) : Option String :=
  match kind, entry with
  | .artifactRegular, .regular content true => some (digest content)
  | .artifactSymlink, .symlink target => some (digest target)
  | _, _ => none

def shouldPublish (state : NodeStagingState) (files : GoMap String Entry) (artifact : Artifact) :
    Bool :=
  if !state.persistent || state.enforce then true
  else
    match files[artifact.path]? with
    | none => true
    | some entry =>
      match destinationContentDigest digest entry artifact.kind with
      | none => false
      | some current =>
        match state.ledger.files[artifact.path]? with
        | some recorded => current == recorded
        | none => current == artifact.digest

def recordPublished (state : NodeStagingState) (path digest : String) : NodeStagingState :=
  { state with
    ledger := { state.ledger with files := state.ledger.files.insert path digest }
    preserved := state.preserved.erase path }

def changedMessage (artifact : Artifact) : String :=
  match artifact.source, artifact.kind with
  | .payload, _ => "payload bytes do not match the accepted digest"
  | .generated, .artifactRegular => "regenerated artifact changed after inventory"
  | .generated, .artifactSymlink => "regenerated symbolic link changed after inventory"

def replaceable (kind : ArtifactKind) : Option Entry → Bool
  | none => true
  | some entry =>
    match kind, entry with
    | .artifactRegular, .regular _ _ => true
    | .artifactSymlink, .symlink _ => true
    | _, _ => false

def wrongTypeMessage : ArtifactKind → String
  | .artifactRegular => "artifact destination is not a regular file"
  | .artifactSymlink => "symbolic-link destination has another file type"

def publish (volume : NodeVolume) (artifact : Artifact) : Except String NodeVolume :=
  if digest artifact.content ≠ artifact.digest then .error (changedMessage artifact)
  else if !replaceable artifact.kind volume.files[artifact.path]? then
    .error (wrongTypeMessage artifact.kind)
  else
    .ok { volume with
      files := volume.files.insert artifact.path artifact.entry
      staged := volume.staged.insert artifact.path artifact.entry }

end

end Clabernetes.Staging
