import Clabernetes.Management.Identities
import Mathlib.Tactic.IntervalCases

/-!
# The shards of the peer directory

`internal/directruntime/peerdirectory.go:64-207` and `peerdirectoryreader.go:35-103`. Peers are
split by the hash of their name over a fixed number of files and read back from all of them. The
reader of a Pod reads again when the sizes or times of the files change. JSON and the hash are
parameters.
-/

namespace Clabernetes.Management

open Base List

def peerDirectoryShardCount : ℕ := 8

def peerDirectorySchemaVersion : Int := 1

structure PeerDirectory where
  schemaVersion : Int
  peers : List PeerIdentity
  deriving DecidableEq

/-- `encoding/json` on directories, where `β` are the contents of files, and `fnv.New32a`. -/
structure PeerCodec (β : Type) where
  marshal : PeerDirectory → β
  unmarshal : β → Option PeerDirectory
  isEmpty : β → Bool
  sum32 : String → ℕ

/-- A directory is read as it was written, and never written as nothing. -/
structure PeerCodec.Lawful {β : Type} (codec : PeerCodec β) : Prop where
  unmarshal_marshal : ∀ directory, codec.unmarshal (codec.marshal directory) = some directory
  isEmpty_marshal : ∀ directory, codec.isEmpty (codec.marshal directory) = false

inductive FileRead (β : Type) where
  | missing
  | failed
  | content (bytes : β)

def peerDirectoryShardFileName (shard : ℕ) : String := "peers-" ++ toString shard ++ ".json"

def peerDirectoryFiles : List String :=
  (List.range peerDirectoryShardCount).map peerDirectoryShardFileName ++ ["peers.json"]

variable (peers : List PeerIdentity)

def addPeer (peer : PeerIdentity) : List PeerIdentity :=
  if peer.name = "" ∨ peer.name ∈ peers.map PeerIdentity.name then peers else peers ++ [peer]

namespace PeerCodec

variable {β : Type} (codec : PeerCodec β)

def peerDirectoryShard (name : String) : ℕ := codec.sum32 name % peerDirectoryShardCount

def renderPeerDirectory : β :=
  codec.marshal ⟨peerDirectorySchemaVersion, sortBy PeerIdentity.name peers⟩

def byShard (shard : ℕ) : List PeerIdentity :=
  peers.filter fun peer => codec.peerDirectoryShard peer.name = shard

def renderPeerDirectoryShards : List β :=
  (List.range peerDirectoryShardCount).map fun shard =>
    codec.renderPeerDirectory (codec.byShard peers shard)

def parsePeerDirectory (content : β) : Option (List PeerIdentity) :=
  (codec.unmarshal content).bind fun directory =>
    if directory.schemaVersion = peerDirectorySchemaVersion then some directory.peers else none

def readPeers : FileRead β → Option (List PeerIdentity)
  | .missing => some []
  | .failed => none
  | .content bytes => if codec.isEmpty bytes then some [] else codec.parsePeerDirectory bytes

/-- With the files of which an error is returned. -/
def readPeerDirectory (readFile : String → FileRead β) : List PeerIdentity × List String :=
  (sortBy PeerIdentity.name (peerDirectoryFiles.foldl (fun peers file =>
      ((codec.readPeers (readFile file)).getD []).foldl addPeer peers) []),
    peerDirectoryFiles.filter fun file => (codec.readPeers (readFile file)).isNone)

variable {codec} {peers peers' : List PeerIdentity} {readFile : String → FileRead β}

theorem foldl_addPeer (hnames : ((peers ++ peers').map PeerIdentity.name).Nodup)
    (hempty : ∀ peer ∈ peers', peer.name ≠ "") : peers'.foldl addPeer peers = peers ++ peers' := by
  induction peers' generalizing peers with
  | nil => simp
  | cons peer rest ih =>
    rw [forall_mem_cons] at hempty
    have hnew : peer.name ∉ peers.map PeerIdentity.name := by
      rw [map_append, map_cons, nodup_middle, nodup_cons, mem_append, not_or] at hnames
      exact hnames.1.1
    rw [append_cons] at hnames ⊢
    rw [foldl_cons, addPeer, if_neg (not_or.mpr ⟨hempty.1, hnew⟩), ih hnames hempty.2]

theorem foldl_files {found : String → List PeerIdentity} {files : List String}
    (hnames : ((peers ++ files.flatMap found).map PeerIdentity.name).Nodup)
    (hempty : ∀ peer ∈ files.flatMap found, peer.name ≠ "") :
    files.foldl (fun peers file => (found file).foldl addPeer peers) peers =
      peers ++ files.flatMap found := by
  induction files generalizing peers with
  | nil => simp
  | cons file rest ih =>
    rw [flatMap_cons, ← append_assoc] at hnames ⊢
    rw [flatMap_cons, forall_mem_append] at hempty
    have hfirst := foldl_addPeer
      (List.Nodup.of_append_left (by rwa [map_append] at hnames)) hempty.1
    rw [foldl_cons, hfirst]
    exact ih hnames hempty.2

def mounted (codec : PeerCodec β) (peers : List PeerIdentity) (file : String) : FileRead β :=
  match (peerDirectoryFiles.zip (codec.renderPeerDirectoryShards peers)).lookup file with
  | some bytes => .content bytes
  | none => .missing

theorem mounted_shard {shard : ℕ} (h : shard < peerDirectoryShardCount) :
    codec.mounted peers (peerDirectoryShardFileName shard) =
      .content (codec.renderPeerDirectory (codec.byShard peers shard)) := by
  unfold peerDirectoryShardCount at h
  interval_cases shard <;> rfl

theorem readPeers_rendered (hlaws : codec.Lawful) :
    codec.readPeers (.content (codec.renderPeerDirectory peers)) =
      some (sortBy PeerIdentity.name peers) := by
  simp [readPeers, parsePeerDirectory, renderPeerDirectory, hlaws.unmarshal_marshal,
    hlaws.isEmpty_marshal]

def Readable (codec : PeerCodec β) (readFile : String → FileRead β) (peer : PeerIdentity) : Bool :=
  (codec.readPeers (readFile
    (peerDirectoryShardFileName (codec.peerDirectoryShard peer.name)))).isSome

theorem readPeerDirectory_eq (hlaws : codec.Lawful)
    (hnames : (peers.map PeerIdentity.name).Nodup) (hempty : ∀ peer ∈ peers, peer.name ≠ "")
    (hread : ∀ file ∈ peerDirectoryFiles, readFile file = codec.mounted peers file ∨
      codec.readPeers (readFile file) = none) : (codec.readPeerDirectory readFile).1 =
      sortBy PeerIdentity.name (peers.filter (codec.Readable readFile)) := by
  let found file := (codec.readPeers (readFile file)).getD []
  have hshard : ∀ shard < peerDirectoryShardCount, found (peerDirectoryShardFileName shard) =
      if (codec.readPeers (readFile (peerDirectoryShardFileName shard))).isSome then
        sortBy PeerIdentity.name (codec.byShard peers shard) else [] := by
    intro shard h
    rcases hread (peerDirectoryShardFileName shard)
      (mem_append_left _ (mem_map_of_mem (mem_range.mpr h))) with heq | hnone
    · simp [found, heq, mounted_shard h, readPeers_rendered hlaws]
    · simp [found, hnone]
  have hlegacy : found "peers.json" = [] := by
    rcases hread "peers.json" (by simp [peerDirectoryFiles]) with heq | hnone
    · simp only [found, heq]
      rfl
    · simp [found, hnone]
  have hmem : ∀ {peer shard}, shard < peerDirectoryShardCount →
      (peer ∈ found (peerDirectoryShardFileName shard) ↔
        (peer ∈ peers ∧ codec.Readable readFile peer = true) ∧
          codec.peerDirectoryShard peer.name = shard) := by
    intro peer shard h
    rw [hshard shard h]
    split
    · next hsome =>
      simp only [mem_sortBy, byShard, mem_filter, decide_eq_true_eq, Readable]
      exact ⟨fun h => ⟨⟨h.1, h.2 ▸ hsome⟩, h.2⟩, fun h => ⟨h.1.1, h.2⟩⟩
    · next hnone =>
      simp only [not_mem_nil, Readable, false_iff, not_and]
      exact fun hpeer heq => hnone (heq ▸ hpeer.2)
  have hflat : peerDirectoryFiles.flatMap found = (List.range peerDirectoryShardCount).flatMap
      fun shard => found (peerDirectoryShardFileName shard) := by
    rw [peerDirectoryFiles, flatMap_append, flatMap_singleton, hlegacy, append_nil, flatMap_map]
  have hperm :
      (peerDirectoryFiles.flatMap found).Perm (peers.filter (codec.Readable readFile)) := by
    rw [hflat, perm_ext_iff_of_nodup]
    · intro peer
      have hlt : codec.peerDirectoryShard peer.name < peerDirectoryShardCount :=
        Nat.mod_lt _ (by decide)
      simp only [mem_flatMap, mem_range, mem_filter]
      refine ⟨?_, fun hpeer => ⟨_, hlt, (hmem hlt).mpr ⟨hpeer, rfl⟩⟩⟩
      rintro ⟨shard, h, hpeer⟩
      exact ((hmem h).mp hpeer).1
    · refine nodup_flatMap.mpr ⟨fun shard h => ?_, nodup_range.imp_of_mem ?_⟩
      · rw [hshard shard (mem_range.mp h)]
        split
        · exact (perm_sortBy _ _).nodup_iff.mpr ((List.Nodup.of_map _ hnames).filter _)
        · exact nodup_nil
      · intro a b ha hb hne peer hpeer hpeer'
        exact hne (((hmem (mem_range.mp ha)).mp hpeer).2.symm.trans
          ((hmem (mem_range.mp hb)).mp hpeer').2)
    · exact (List.Nodup.of_map _ hnames).filter _
  have hnames' : ((peerDirectoryFiles.flatMap found).map PeerIdentity.name).Nodup :=
    (hperm.map _).nodup_iff.mpr (hnames.sublist (filter_sublist.map _))
  have hempty' : ∀ peer ∈ peerDirectoryFiles.flatMap found, peer.name ≠ "" := fun peer hpeer =>
    hempty peer (mem_of_mem_filter (hperm.mem_iff.mp hpeer))
  have hfiles : peerDirectoryFiles.foldl (fun peers file => (found file).foldl addPeer peers) [] =
      [] ++ peerDirectoryFiles.flatMap found := foldl_files hnames' hempty'
  exact (congrArg _ hfiles).trans (sortBy_eq_of_perm hperm hnames')

/-- Rendered shards are read back as the sorted peers; a change to one peer changes one shard, and
shards that cannot be read lose their own peers only. -/
theorem shards_lossless (hlaws : codec.Lawful) (hnames : (peers.map PeerIdentity.name).Nodup)
    (hempty : ∀ peer ∈ peers, peer.name ≠ "") :
    (∀ peers', peers'.Perm peers →
      codec.readPeerDirectory (codec.mounted peers') = (sortBy PeerIdentity.name peers, [])) ∧
    (∀ name peers', (peers'.filter (·.name ≠ name)).Perm (peers.filter (·.name ≠ name)) →
      ∀ shard, shard ≠ codec.peerDirectoryShard name →
        (codec.renderPeerDirectoryShards peers')[shard]? =
          (codec.renderPeerDirectoryShards peers)[shard]?) ∧
    ∀ readFile : String → FileRead β, (∀ file ∈ peerDirectoryFiles,
        readFile file = codec.mounted peers file ∨ codec.readPeers (readFile file) = none) →
      (codec.readPeerDirectory readFile).1 =
        sortBy PeerIdentity.name (peers.filter (codec.Readable readFile)) ∧
      ∀ file ∈ peerDirectoryFiles, file ∈ (codec.readPeerDirectory readFile).2 ↔
        codec.readPeers (readFile file) = none := by
  refine ⟨fun peers' hperm => ?_, fun name peers' hperm shard hshard => ?_, fun readFile hread =>
    ⟨readPeerDirectory_eq hlaws hnames hempty hread, fun file hfile => ?_⟩⟩
  · have hread : ∀ file ∈ peerDirectoryFiles,
        (codec.readPeers (codec.mounted peers' file)).isSome = true := by
      intro file hfile
      rw [peerDirectoryFiles, mem_append, mem_map, mem_singleton] at hfile
      rcases hfile with ⟨shard, hshard, rfl⟩ | rfl
      · rw [mounted_shard (mem_range.mp hshard), readPeers_rendered hlaws]
        rfl
      · rfl
    have hnames' := (hperm.map PeerIdentity.name).nodup_iff.mpr hnames
    have hall : peers'.filter (codec.Readable (codec.mounted peers')) = peers' :=
      filter_eq_self.mpr fun peer _ => hread _ (mem_append_left _
        (mem_map_of_mem (mem_range.mpr (Nat.mod_lt _ (by decide)))))
    apply Prod.ext
    · rw [readPeerDirectory_eq hlaws hnames' (fun peer h => hempty peer (hperm.mem_iff.mp h))
        fun file _ => .inl rfl, hall]
      exact sortBy_eq_of_perm hperm hnames'
    · exact filter_eq_nil_iff.mpr fun file hfile => by
        simpa [Option.isSome_iff_ne_none] using hread file hfile
  · have hsame : codec.renderPeerDirectory (codec.byShard peers' shard) =
        codec.renderPeerDirectory (codec.byShard peers shard) := by
      have hfilter : ∀ l : List PeerIdentity, codec.byShard l shard =
          codec.byShard (l.filter (·.name ≠ name)) shard := by
        intro l
        rw [byShard, byShard, filter_filter]
        refine filter_congr fun peer _ => ?_
        by_cases heq : peer.name = name
        · simp [heq, hshard.symm]
        · simp [heq]
      have hsorted : sortBy PeerIdentity.name (codec.byShard peers shard) =
          sortBy PeerIdentity.name (codec.byShard peers' shard) := by
        rw [hfilter peers', hfilter peers]
        exact sortBy_eq_of_perm (hperm.symm.filter _)
          (hnames.sublist ((filter_sublist.trans filter_sublist).map _))
      rw [renderPeerDirectory, renderPeerDirectory, hsorted]
    simp only [renderPeerDirectoryShards, getElem?_map]
    by_cases h : shard < peerDirectoryShardCount
    · rw [getElem?_range h, Option.map_some, Option.map_some, hsame]
    · simp [h]
  · simp [readPeerDirectory, hfile]

structure PeerDirectoryReader where
  fingerprint : String := ""
  peers : List PeerIdentity := []
  loaded : Bool := false

/-- What a tick finds: the size and modification time of each file, and what reading it gives. -/
structure Tick (β : Type) where
  stat : String → Option (Int × Int)
  readFile : String → FileRead β

def Tick.currentFingerprint (tick : Tick β) : String :=
  ",".intercalate (peerDirectoryFiles.map fun file =>
    match tick.stat file with
    | none => "-"
    | some (size, modTime) => toString size ++ "@" ++ toString modTime)

/-- The reader after a tick, the peers, and whether they are new. -/
def load (codec : PeerCodec β) (reader : PeerDirectoryReader) (tick : Tick β) :
    PeerDirectoryReader × List PeerIdentity × Bool :=
  let fingerprint := tick.currentFingerprint
  if reader.loaded ∧ fingerprint = reader.fingerprint then (reader, reader.peers, false)
  else
    let (peers, errs) := codec.readPeerDirectory tick.readFile
    if errs ≠ [] ∧ reader.loaded then ({ reader with fingerprint }, reader.peers, false)
    else ({ fingerprint, peers, loaded := true }, peers, true)

def loads (codec : PeerCodec β) (ticks : List (Tick β)) : PeerDirectoryReader :=
  ticks.foldl (fun reader tick => (codec.load reader tick).1) {}

/-- The tick that last read the directory: the first since the fingerprint changed. -/
def lastRead (ticks : List (Tick β)) : Option (Tick β) :=
  ticks.foldl (fun last tick =>
    if last.any (·.currentFingerprint = tick.currentFingerprint) then last else some tick) none

variable {ticks : List (Tick β)} {tick : Tick β}

theorem loads_eq_default (h : lastRead ticks = none) : codec.loads ticks = {} := by
  rcases eq_nil_or_concat ticks with rfl | ⟨ticks, last, rfl⟩
  · rfl
  · rw [concat_eq_append, lastRead, foldl_append, foldl_cons, foldl_nil] at h
    split at h
    · next hany =>
      rw [show List.foldl _ none ticks = none from h] at hany
      cases hany
    · cases h

theorem loads_lastRead {t : Tick β} (h : lastRead ticks = some t) :
    (codec.loads ticks).loaded = true ∧
      t.currentFingerprint = (codec.loads ticks).fingerprint ∧
      ((codec.readPeerDirectory t.readFile).2 = [] →
        (codec.loads ticks).peers = (codec.readPeerDirectory t.readFile).1) := by
  induction ticks using List.reverseRecOn generalizing t with
  | nil => cases h
  | append_singleton ticks last ih =>
    rw [lastRead, foldl_append] at h
    change (if (lastRead ticks).any _ then lastRead ticks else some last) = some t at h
    rw [loads, foldl_append]
    change (codec.load (codec.loads ticks) last).1.loaded = true ∧
      t.currentFingerprint = (codec.load (codec.loads ticks) last).1.fingerprint ∧
      (_ → (codec.load (codec.loads ticks) last).1.peers = _)
    unfold load
    dsimp only
    cases hread : lastRead ticks with
    | none =>
      rw [hread] at h
      cases h
      simp [loads_eq_default hread]
    | some t' =>
      obtain ⟨hloaded, hfingerprint, hpeers⟩ := ih hread
      rw [hread, Option.any_some] at h
      by_cases hsame : t'.currentFingerprint = last.currentFingerprint
      · rw [if_pos (by simpa using hsame)] at h
        cases h
        rw [if_pos ⟨hloaded, hsame.symm.trans hfingerprint⟩]
        exact ⟨hloaded, hfingerprint, hpeers⟩
      · rw [if_neg (by simpa using hsame)] at h
        cases h
        rw [if_neg fun hkept => hsame (hfingerprint.trans hkept.2.symm)]
        split
        · next herrs => exact ⟨hloaded, rfl, fun hnone => absurd hnone herrs.1⟩
        · exact ⟨rfl, rfl, fun _ => rfl⟩

/-- A tick that can read all files returns their peers, if the last tick that read the directory
read the same or found another fingerprint; under the fingerprint of that tick, which may have
failed, nothing is read. -/
theorem load_current :
    ((codec.readPeerDirectory tick.readFile).2 = [] →
      (∀ t ∈ lastRead ticks, t.currentFingerprint = tick.currentFingerprint →
        codec.readPeerDirectory t.readFile = codec.readPeerDirectory tick.readFile) →
      (codec.load (codec.loads ticks) tick).2.1 = (codec.readPeerDirectory tick.readFile).1) ∧
    ∀ t ∈ lastRead ticks, t.currentFingerprint = tick.currentFingerprint →
      codec.load (codec.loads ticks) tick =
        (codec.loads ticks, (codec.loads ticks).peers, false) := by
  have hskips : ∀ t ∈ lastRead ticks, t.currentFingerprint = tick.currentFingerprint →
      codec.load (codec.loads ticks) tick =
        (codec.loads ticks, (codec.loads ticks).peers, false) := by
    intro t ht hfingerprint
    obtain ⟨hloaded, hrecorded, -⟩ := loads_lastRead ht
    exact if_pos ⟨hloaded, hfingerprint.symm.trans hrecorded⟩
  refine ⟨fun hread hsame => ?_, hskips⟩
  by_cases hskip : ∃ t ∈ lastRead ticks, t.currentFingerprint = tick.currentFingerprint
  · obtain ⟨t, ht, hfingerprint⟩ := hskip
    have heq := hsame t ht hfingerprint
    rw [hskips t ht hfingerprint, (loads_lastRead ht).2.2 (by rw [heq, hread]), heq]
  · unfold load
    dsimp only
    rw [if_neg, if_neg (by simp [hread])]
    rintro ⟨hloaded, hrecorded⟩
    cases ht : lastRead ticks with
    | none => simp [loads_eq_default ht] at hloaded
    | some t => exact hskip ⟨t, ht, (loads_lastRead ht).2.1.trans hrecorded.symm⟩

/-- Directories are their own files; the sum is that of `fnv.New32a` on ASCII names. -/
def plainCodec : PeerCodec (Option PeerDirectory) where
  marshal := some
  unmarshal := id
  isEmpty := Option.isNone
  sum32 name :=
    name.toList.foldl (fun sum c => (sum ^^^ c.toNat) * 16777619 % 2 ^ 32) 2166136261

def samplePeers : List PeerIdentity := [{ name := "r10" }, { name := "r2" }]

/-- Two peers of different shards, of which one cannot be read. -/
theorem one_shard_lost :
    (plainCodec.readPeerDirectory fun file => if file = "peers-4.json" then .failed
      else plainCodec.mounted samplePeers file).1 = [{ name := "r2" }] := by
  refine ((@shards_lossless _ plainCodec samplePeers ⟨fun _ => rfl, fun _ => rfl⟩ (by decide)
    (by decide)).2.2 _ fun file _ => ?_).1.trans (by decide +kernel)
  split
  · exact .inr rfl
  · exact .inl rfl

def steadyTick (readFile : String → FileRead (Option PeerDirectory)) :
    Tick (Option PeerDirectory) where
  stat _ := none
  readFile

/-- The first tick cannot read the files; the directory is rewritten and read. -/
def rewrittenTicks : List (Tick (Option PeerDirectory)) :=
  [steadyTick fun _ => .failed, ⟨fun _ => some (1, 1), plainCodec.mounted samplePeers⟩]

theorem rewritten_current :
    (plainCodec.load (plainCodec.loads rewrittenTicks)
        ⟨fun _ => some (1, 1), plainCodec.mounted samplePeers⟩).2.1 =
      (plainCodec.readPeerDirectory (plainCodec.mounted samplePeers)).1 := by
  have hlast : lastRead rewrittenTicks =
      some ⟨fun _ => some (1, 1), plainCodec.mounted samplePeers⟩ := by
    rfl
  refine (@load_current _ plainCodec rewrittenTicks _).1 (by decide +kernel) ?_
  intro t ht _
  rw [hlast] at ht
  cases ht
  rfl

/-- After a tick that could not read the files, the same directory is not read again. -/
theorem failed_read_kept :
    let tick := steadyTick (plainCodec.mounted samplePeers)
    plainCodec.readPeerDirectory tick.readFile = ([{ name := "r10" }, { name := "r2" }], []) ∧
      (plainCodec.load (plainCodec.loads [steadyTick fun _ => .failed]) tick).2.1 = [] := by
  decide +kernel

end PeerCodec

end Clabernetes.Management
