import Clabernetes.Base.Interrupted
import Clabernetes.Base.Runs
import Clabernetes.Staging.Policy

/-!
# Preparation runs

The part of `Preparer.Prepare` that changes a Node's volume
(`internal/deviceplan/preparer.go:182-248`): an honoured reset wipes the volume entry by entry, the
files are published one by one, and at the end the ledger is truncated and written. A run may be cut
off between any two of these effects; rendering, reading payloads and setting directory metadata
only add further points to fail at.
-/

namespace Clabernetes.Staging

open Base Std

structure Preparation where
  persistent : Bool := true
  enforce : Bool := false
  resetToken : String := ""
  /-- The files in the order of their publication: generated leaves, then payloads. -/
  artifacts : List Artifact

inductive Effect where
  | remove (path : String)
  | removeLedger
  | stage (artifact : Artifact)
  | truncateLedger
  | writeLedger

structure RunState where
  volume : NodeVolume
  state : NodeStagingState
  published : List Artifact := []

def stagingLedgerName : String := "staging-ledger.json"

namespace Preparation

variable (run : Preparation) (volume : NodeVolume)

def resets : Bool :=
  run.resetToken != "" &&
    run.resetToken != (loadStagingLedger volume.ledger).1.acknowledgedResetToken

def start : RunState where
  volume := volume
  state :=
    { persistent := run.persistent
      enforce := run.enforce
      ledger :=
        if run.resets volume then { acknowledgedResetToken := run.resetToken }
        else (loadStagingLedger volume.ledger).1 }

def wipe : List Effect :=
  (volume.files.keys.filter (· < stagingLedgerName)).map .remove ++
    .removeLedger :: (volume.files.keys.filter fun path => !(path < stagingLedgerName)).map .remove

def effects : List Effect :=
  (if run.resets volume then wipe volume else []) ++
    (run.artifacts.map .stage ++ [.truncateLedger, .writeLedger])

end Preparation

section

variable (digest : Bytes → String)

def stageArtifact (s : RunState) (artifact : Artifact) : Except String RunState :=
  if artifact.source = .payload ∧ digest artifact.content ≠ artifact.digest then
    .error (changedMessage artifact)
  else if shouldPublish digest s.state s.volume.files artifact then
    match publish digest s.volume artifact with
    | .error err => .error err
    | .ok volume =>
      .ok { volume, state := recordPublished s.state artifact.path artifact.digest,
            published := s.published ++ [artifact] }
  else
    .ok { s with state := { s.state with preserved := s.state.preserved.insert artifact.path () } }

def perform (s : RunState) : Effect → Except String RunState
  | .remove path =>
    .ok { s with volume :=
      { s.volume with files := s.volume.files.erase path, staged := s.volume.staged.erase path } }
  | .removeLedger => .ok { s with volume := { s.volume with ledger := .missing } }
  | .stage artifact => stageArtifact digest s artifact
  | .truncateLedger => .ok { s with volume := { s.volume with ledger := .corrupt } }
  | .writeLedger =>
    .ok { s with volume :=
      { s.volume with
        ledger := .recorded { s.state.ledger with preserved := s.state.preserved.keys } } }

/-- A run that is cut off after at most `cut` effects, and whether it completed. -/
def prepare (volume : NodeVolume) (run : Preparation) (cut : Nat) : RunState × Bool :=
  attempt (perform digest) cut (run.start volume) (run.effects volume)

inductive Happening where
  | prepare (run : Preparation) (cut : Nat)
  /-- The device writes or deletes a file. -/
  | deviceWrites (path : String) (entry : Option Entry)

def step (volume : NodeVolume) : Happening → Option NodeVolume
  | .prepare run cut => some (prepare digest volume run cut).1.volume
  | .deviceWrites path entry =>
    some { volume with
      files :=
        match entry with
        | some entry => volume.files.insert path entry
        | none => volume.files.erase path
      staged := volume.staged.erase path }

end

end Clabernetes.Staging
