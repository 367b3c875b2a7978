import Clabernetes.DevicePlan.Validate

/-!
# The captured resolver configuration

`internal/directruntime/resolverconfig.go`: what a sidecar takes from the file that it shares with
the device, and from the copy in its state directory.
-/

namespace Clabernetes.Connectivity

open List DevicePlan

abbrev Text := List Char

structure ResolverConfig where
  nameservers : List Text := []
  search : List Text := []
  deriving DecidableEq

/-- `strings.Fields`, which drops the outer space of a line as well. -/
def fields (text : Text) : List Text := (text.splitOnP isSpace).filter (· ≠ [])

namespace ResolverConfig

variable (config : ResolverConfig)

def usable : Bool := config.nameservers.length > 0

/-- The fields of the lines that are written. -/
def lines : List (List Text) :=
  config.nameservers.map (["nameserver".toList, ·]) ++
    if config.search.length > 0 then ["search".toList :: config.search] else []

def encode : Text := config.lines.flatMap fun line => [' '].intercalate line ++ ['\n']

def addLine (line : List Text) : ResolverConfig :=
  match line with
  | key :: value :: rest =>
    if key.head? = some '#' ∨ key.head? = some ';' then config
    else if key = "nameserver".toList then
      { config with nameservers := config.nameservers ++ [value] }
    else if key = "search".toList ∨ key = "domain".toList then
      { config with search := config.search ++ value :: rest }
    else config
  | _ => config

end ResolverConfig

open ResolverConfig

def parseResolverConfig (content : Text) : ResolverConfig :=
  ((content.splitOn '\n').map fields).foldl addLine {}

/-- The configuration of a file that can be read and names a server. -/
def readUsable (file : Option Text) : Option ResolverConfig :=
  (file.map parseResolverConfig).filter usable

def loadPersistedResolverConfig (stored : Option Text) : Option ResolverConfig := readUsable stored

/-- The configuration that a start uses, and the stored copy after it. -/
def captureResolverConfig (shared stored : Option Text) : Option ResolverConfig × Option Text :=
  match readUsable shared with
  | some config => (some config, some config.encode)
  | none => (loadPersistedResolverConfig stored, stored)

/-- The configurations of successive starts, each of which finds some shared file. -/
def starts : List (Option Text) → Option Text → List (Option ResolverConfig)
  | [], _ => []
  | shared :: later, stored =>
    (captureResolverConfig shared stored).1 ::
      starts later (captureResolverConfig shared stored).2

abbrev Word (text : Text) : Prop := text ≠ [] ∧ ∀ c ∈ text, isSpace c = false

theorem word_of_mem_fields {text word : Text} (h : word ∈ fields text) : Word word := by
  obtain ⟨hpiece, hne⟩ := mem_filter.mp h
  refine ⟨by simpa using hne, ?_⟩
  clear h hne
  induction text generalizing word with
  | nil =>
    obtain rfl : word = [] := by simpa using hpiece
    simp
  | cons c rest ih =>
    obtain ⟨first, pieces, hrest⟩ := exists_cons_of_ne_nil (splitOnP_ne_nil isSpace rest)
    rw [splitOnP_cons_eq_if_modifyHead, hrest] at hpiece
    rw [hrest] at ih
    split_ifs at hpiece <;> simp at hpiece <;> grind

theorem fields_intercalate {line : List Text} (h : ∀ word ∈ line, Word word) :
    fields ([' '].intercalate line) = line ∧ '\n' ∉ [' '].intercalate line := by
  induction line with
  | nil => exact ⟨rfl, by simp⟩
  | cons word rest ih =>
    obtain ⟨⟨hne, hword⟩, hrest⟩ := forall_mem_cons.mp h
    have hsingle : fields word = [word] := by
      rw [fields, splitOnP_eq_singleton (by simpa using hword)]
      simp [hne]
    have hnewline : '\n' ∉ word := fun hmem => by
      have := hword '\n' hmem
      revert this
      decide
    cases rest with
    | nil => simpa using ⟨hsingle, hnewline⟩
    | cons next rest =>
      obtain ⟨hfields, hline⟩ := ih hrest
      rw [intercalate_cons_cons, append_assoc, singleton_append]
      refine ⟨?_, by simp [hnewline, hline]⟩
      rw [fields, splitOnP_append_cons _ _ (by decide), filter_append]
      exact congrArg₂ _ hsingle hfields

theorem foldl_nameservers (config : ResolverConfig) (servers : List Text) :
    (servers.map (["nameserver".toList, ·])).foldl addLine config =
      { config with nameservers := config.nameservers ++ servers } := by
  induction servers generalizing config with
  | nil => simp
  | cons server rest ih =>
    rw [map_cons, foldl_cons, ih]
    simp [addLine]

/-- A configuration of plain words is read as it was written. -/
theorem parse_encode {config : ResolverConfig}
    (h : ∀ word ∈ config.nameservers ++ config.search, Word word) :
    parseResolverConfig config.encode = config := by
  have hlines : ∀ lines : List (List Text), (∀ line ∈ lines, ∀ word ∈ line, Word word) →
      ((lines.flatMap fun line => [' '].intercalate line ++ ['\n']).splitOn '\n').map fields =
        lines ++ [[]] := by
    intro lines hwords
    induction lines with
    | nil => rfl
    | cons line rest ih =>
      obtain ⟨hline, hrest⟩ := forall_mem_cons.mp hwords
      obtain ⟨hfields, hnewline⟩ := fields_intercalate hline
      rw [flatMap_cons, append_assoc, singleton_append, splitOn_append_cons_self, map_append,
        ih hrest, splitOn_eq_singleton hnewline]
      simp [hfields]
  have hnameserver : Word "nameserver".toList := by simp [Word, isSpace]
  have hsearch : Word "search".toList := by simp [Word, isSpace]
  have hwords : ∀ line ∈ config.lines, ∀ word ∈ line, Word word := by
    intro line hline word hword
    rcases mem_append.mp hline with hline | hline
    · obtain ⟨server, hserver, rfl⟩ := mem_map.mp hline
      simp only [mem_cons, not_mem_nil, or_false] at hword
      grind
    · split_ifs at hline <;> grind
  rw [parseResolverConfig, encode, hlines _ hwords, foldl_append, ResolverConfig.lines,
    foldl_append, foldl_nameservers]
  obtain ⟨servers, _ | ⟨first, rest⟩⟩ := config <;> simp [addLine]

theorem word_of_parse (content : Text) (word : Text)
    (h : word ∈ (parseResolverConfig content).nameservers ++ (parseResolverConfig content).search) :
    Word word := by
  have hfold : ∀ (lines : List (List Text)) (config : ResolverConfig),
      (∀ line ∈ lines, ∀ word ∈ line, Word word) →
      (∀ word ∈ config.nameservers ++ config.search, Word word) →
      ∀ word ∈ (lines.foldl addLine config).nameservers ++ (lines.foldl addLine config).search,
        Word word := by
    intro lines
    induction lines with
    | nil => exact fun _ _ hconfig => hconfig
    | cons line rest ih =>
      intro config hlines hconfig
      obtain ⟨hline, hrest⟩ := forall_mem_cons.mp hlines
      refine ih _ hrest fun word hword => ?_
      unfold addLine at hword
      split at hword
      · split_ifs at hword <;> clear * - hline hconfig hword <;> grind
      · exact hconfig word hword
  refine hfold _ {} (fun line hline => ?_) (by simp) word h
  obtain ⟨text, -, rfl⟩ := mem_map.mp hline
  exact fun _ => word_of_mem_fields

theorem readUsable_encode {file : Option Text} {config : ResolverConfig}
    (h : readUsable file = some config) : readUsable (some config.encode) = some config := by
  obtain ⟨hparse, husable⟩ := Option.filter_eq_some_iff.mp h
  obtain ⟨content, -, rfl⟩ := Option.map_eq_some_iff.mp hparse
  simp [readUsable, parse_encode (word_of_parse content), Option.filter, husable]

/-- The starts after a capture all use it if and only if no shared file that they find has servers
and differs from it. -/
theorem starts_use_capture (shared stored : Option Text) (captured : ResolverConfig)
    (h : readUsable shared = some captured) (later : List (Option Text)) :
    (∀ used ∈ starts later (captureResolverConfig shared stored).2, used = some captured) ↔
      ∀ file ∈ later, ∀ config, readUsable file = some config → config = captured := by
  have hstored := readUsable_encode h
  simp only [captureResolverConfig, h]
  clear h
  induction later with
  | nil => simp [starts]
  | cons file later ih =>
    rw [starts, forall_mem_cons, forall_mem_cons, captureResolverConfig]
    cases readUsable file with
    | none => simp [loadPersistedResolverConfig, hstored, ih]
    | some config =>
      by_cases heq : config = captured
      · simp [heq, ih]
      · simp [heq]

def kubelet : Text := "search lab.svc\nnameserver 10.0.0.1\n".toList

theorem starts_use_capture_kubelet : starts [none, some "domain x".toList, some kubelet]
    (captureResolverConfig (some kubelet) none).2 =
      replicate 3 (some (parseResolverConfig kubelet)) := by
  refine eq_replicate_iff.mpr ⟨rfl, (starts_use_capture (some kubelet) none _ rfl _).mpr ?_⟩
  decide +kernel

/-- A device that names a server of its own is followed by the next start. -/
theorem rewritten_is_used : starts [some "nameserver 9.9.9.9\n".toList]
    (captureResolverConfig (some kubelet) none).2 = [some ⟨["9.9.9.9".toList], []⟩] := by
  decide +kernel

/-- Starts of which some cannot write and leave the stored copy. -/
def startsWriting : List (Option Text × Bool) → Option Text → List (Option ResolverConfig)
  | [], _ => []
  | (shared, writes) :: later, stored =>
    (captureResolverConfig shared stored).1 ::
      startsWriting later (if writes then (captureResolverConfig shared stored).2 else stored)

/-- The copy in the state directory stands for the configuration that was last written: each start
uses that of its own shared file or, failing that, of the last start that had one and wrote it. -/
theorem startsWriting_eq_zipWith (attempts : List (Option Text × Bool)) (stored : Option Text) :
    startsWriting attempts stored = zipWith (fun attempt last => (readUsable attempt.1).or last)
      attempts (attempts.scanl (fun last attempt =>
        if attempt.2 then (readUsable attempt.1).or last else last) (readUsable stored)) := by
  induction attempts generalizing stored with
  | nil => rfl
  | cons attempt attempts ih =>
    obtain ⟨file, writes⟩ := attempt
    have hused : (captureResolverConfig file stored).1 =
        (readUsable file).or (readUsable stored) := by
      unfold captureResolverConfig
      cases readUsable file <;> rfl
    have hstored : readUsable (captureResolverConfig file stored).2 =
        (captureResolverConfig file stored).1 := by
      unfold captureResolverConfig
      cases hfile : readUsable file with
      | none => rfl
      | some config => exact readUsable_encode hfile
    rw [startsWriting, ih, scanl_cons, zipWith_cons_cons, hused]
    cases writes <;> simp [hstored, hused]

end Clabernetes.Connectivity
