import Clabernetes.Base.Checks
import Clabernetes.Base.Evaluation
import Clabernetes.Links.Api

/-!
# Registry policies of a merged Config

`internal/ocimetadata/auth.go:63-108,401-419`, `internal/ocimetadata/mirror.go:58-107,224-243` and
`config/bootstrap.go:244-283`. The merge tells registries apart by their texts, the policies by
their normal forms.
-/

namespace Clabernetes.Images

open Base Links List

/-- `auth.go:45-53`; the entries of the Config have the same fields. -/
structure RegistryTrust where
  registry : String
  caBundle : String
  plainHTTP : Bool

structure RegistryMirror where
  registry : String
  endpoint : String
  overridePath : Bool

/-- What is called: the registry that `name.NewRegistry` reads, the host of a text that parses as a
URL with one, whether a bundle holds a certificate, what `compile` finds wrong with the endpoint of
a mirror (`mirror.go:63-90`), and two functions of `strings`. -/
structure RegistryLibrary where
  newRegistry : String → Option String
  urlHost : String → Option String
  hasCertificate : String → Bool
  endpointError : RegistryMirror → Option String
  trimSpace : String → String
  toLower : String → String

variable (lib : RegistryLibrary)

def normalizeRegistryAddress (value : String) : String :=
  let value := lib.trimSpace value
  let host := ((lib.urlHost value).map String.toList).getD (value.toList.takeWhile (· ≠ '/'))
  lib.toLower (String.ofList (if host.getLast? = some '/' then host.dropLast else host))

def normalizeRegistry (value : String) : String :=
  let host := normalizeRegistryAddress lib value
  if host ∈ ["docker.io", "registry-1.docker.io"] then "index.docker.io" else host

def registryName (raw : String) : Option String :=
  (lib.newRegistry (lib.trimSpace raw)).map (normalizeRegistry lib)

/-- What the two policies share: an entry is named, told apart from those before, and checked. -/
structure PolicyKind (E : Type) where
  kind : String
  registry : E → String
  name : E → Except String String
  check : E → Except String Unit
  named : ∀ {e registryName'}, name e = .ok registryName' →
    registryName lib (registry e) = some registryName'

def trustKind : PolicyKind lib RegistryTrust where
  kind := "trust"
  registry := RegistryTrust.registry
  name entry := match registryName lib entry.registry with
    | none => .error "has an invalid registry authority"
    | some registry => .ok registry
  check entry :=
    if entry.plainHTTP ∧ entry.caBundle ≠ "" then .error "combines HTTP and a TLS CA bundle"
    else if ¬entry.plainHTTP ∧ entry.caBundle = "" then .error "contains no trust exception"
    else if entry.caBundle ≠ "" ∧ ¬lib.hasCertificate entry.caBundle then
      .error "has no valid PEM certificate"
    else .ok ()
  named h := by
    split at h
    · cases h
    · cases h
      assumption

def mirrorKind : PolicyKind lib RegistryMirror where
  kind := "mirror"
  registry := RegistryMirror.registry
  name entry := match registryName lib entry.registry, lib.endpointError entry with
    | none, _ => .error ("is invalid: mirror for " ++ quoted entry.registry ++
        " has an invalid source registry authority")
    | some _, some err => .error ("is invalid: " ++ err)
    | some registry, none => .ok registry
  check _ := .ok ()
  named h := by
    split at h
    · cases h
    · cases h
    · cases h
      assumption

variable {lib} {E : Type} (policy : PolicyKind lib E)

/-- One turn of the loops of `NewRegistryTrustPolicy` and `NewRegistryMirrorPolicy`, whose policy
holds the names of the entries before. -/
def PolicyKind.add (before : List E) (entry : E) : Except String Unit :=
  let fail := fun text => .error s!"registry metadata {policy.kind} entry {before.length} {text}"
  match policy.name entry with
  | .error err => fail err
  | .ok registry =>
    if ∃ earlier ∈ before, policy.name earlier = .ok registry then
      fail ("duplicates registry " ++ registry)
    else match policy.check entry with
      | .error err => fail err
      | .ok () => .ok ()

def PolicyKind.Accepts (entries : List E) : Prop := checkEach policy.add entries = .ok ()

/-- `bootstrap.go:246-283`: the registries that are there so far are those of the list. -/
def mergeRegistries (registry : E → String) (config bootstrap : List E) : List E :=
  bootstrap.foldl (fun entries entry =>
    if registry entry ∈ entries.map registry then entries else entries ++ [entry]) config

/-- Entries of the Config and of the bootstrap for one registry give it by one text. -/
def PolicyKind.SameTexts (config bootstrap : List E) : Prop :=
  ∀ e ∈ config, ∀ f ∈ bootstrap, registryName lib (policy.registry e) =
    registryName lib (policy.registry f) → policy.registry e = policy.registry f

variable {policy} {entries config bootstrap : List E}

def PolicyKind.Good (e : E) : Prop :=
  (∃ name, policy.name e = .ok name) ∧ policy.check e = .ok ()

theorem add_eq_ok {before : List E} {e : E} : policy.add before e = .ok () ↔
    policy.Good e ∧ ∀ earlier ∈ before, policy.name earlier ≠ policy.name e := by
  unfold PolicyKind.add PolicyKind.Good
  cases hname : policy.name e with
  | error err => simp
  | ok name =>
    by_cases hmem : ∃ earlier ∈ before, policy.name earlier = .ok name
    · simp [hmem]
    · cases hcheck : policy.check e with
      | error err => simp [hmem]
      | ok u =>
        dsimp only
        rw [if_neg hmem]
        simpa using hmem

theorem accepts_iff : policy.Accepts entries ↔ (∀ e ∈ entries, policy.Good e) ∧
    entries.Pairwise fun e f => policy.name e ≠ policy.name f :=
  checkEach_eq_ok fun _ _ => add_eq_ok

theorem mergeRegistries_eq {registry : E → String} (h : (bootstrap.map registry).Nodup) :
    mergeRegistries registry config bootstrap =
      config ++ bootstrap.filter fun f => registry f ∉ config.map registry := by
  induction bootstrap generalizing config with
  | nil => simp [mergeRegistries]
  | cons f rest ih =>
    obtain ⟨hf, hrest⟩ := nodup_cons.mp h
    rw [mergeRegistries, foldl_cons, ← mergeRegistries, ih hrest]
    split
    · next hmem => rw [filter_cons_of_neg (by simpa using hmem)]
    · next hmem =>
      rw [filter_cons_of_pos (by simpa using hmem), append_assoc, singleton_append]
      refine congrArg (config ++ f :: ·) (filter_congr fun g hg => ?_)
      have hne : registry g ≠ registry f := fun heq => hf (heq ▸ mem_map_of_mem hg)
      simp [hne]

theorem name_eq_iff {e f : E} (he : policy.Good e) (hf : policy.Good f) :
    policy.name e = policy.name f ↔
      registryName lib (policy.registry e) = registryName lib (policy.registry f) := by
  obtain ⟨⟨m, hm⟩, -⟩ := he
  obtain ⟨⟨n, hn⟩, -⟩ := hf
  rw [hm, hn, policy.named hm, policy.named hn, Except.ok.injEq, Option.some.injEq]

theorem accepts_merge_iff (hconfig : policy.Accepts config)
    (hbootstrap : policy.Accepts bootstrap) :
    policy.Accepts (mergeRegistries policy.registry config bootstrap) ↔
      policy.SameTexts config bootstrap := by
  obtain ⟨hc, hcpair⟩ := accepts_iff.mp hconfig
  obtain ⟨hb, hbpair⟩ := accepts_iff.mp hbootstrap
  have hraw : (bootstrap.map policy.registry).Nodup := by
    refine pairwise_map.mpr (hbpair.imp_of_mem fun he hf hne heq => hne ?_)
    rw [name_eq_iff (hb _ he) (hb _ hf), heq]
  rw [mergeRegistries_eq hraw, accepts_iff, pairwise_append]
  constructor
  · rintro ⟨-, -, -, hcross⟩ e he f hf heq
    rw [← name_eq_iff (hc e he) (hb f hf)] at heq
    by_cases hmem : policy.registry f ∈ config.map policy.registry
    · -- the Config holds the text too, and only one entry of this name
      obtain ⟨e', he', hsame⟩ := mem_map.mp hmem
      have hname := (name_eq_iff (hc e' he') (hb f hf)).mpr (by rw [hsame])
      by_contra hne
      have hdistinct : e ≠ e' := fun h => hne (h ▸ hsame)
      have : Std.Symm fun e f => policy.name e ≠ policy.name f := ⟨fun _ _ h => h.symm⟩
      exact hcpair.forall he he' hdistinct (heq.trans hname.symm)
    · exact absurd heq (hcross e he f (mem_filter.mpr ⟨hf, by simpa using hmem⟩))
  · intro hsame
    refine ⟨forall_mem_append.mpr ⟨hc, fun f hf => hb f (mem_of_mem_filter hf)⟩, hcpair,
      hbpair.sublist filter_sublist, fun e he f hf heq => ?_⟩
    obtain ⟨hf, hmem⟩ := mem_filter.mp hf
    rw [name_eq_iff (hc e he) (hb f hf)] at heq
    exact of_decide_eq_true hmem (hsame e he f hf heq ▸ mem_map_of_mem he)

/-- Lists that are accepted each on their own merge to accepted ones exactly if no registry is
given by two texts. -/
theorem merged_policies_iff (lib : RegistryLibrary) (trust trust' : List RegistryTrust)
    (mirrors mirrors' : List RegistryMirror) (htrust : (trustKind lib).Accepts trust)
    (htrust' : (trustKind lib).Accepts trust') (hmirrors : (mirrorKind lib).Accepts mirrors)
    (hmirrors' : (mirrorKind lib).Accepts mirrors') :
    ((trustKind lib).Accepts (mergeRegistries RegistryTrust.registry trust trust') ∧
      (mirrorKind lib).Accepts (mergeRegistries RegistryMirror.registry mirrors mirrors')) ↔
    (trustKind lib).SameTexts trust trust' ∧ (mirrorKind lib).SameTexts mirrors mirrors' :=
  and_congr (accepts_merge_iff htrust htrust') (accepts_merge_iff hmirrors hmirrors')

def plainRegistries : RegistryLibrary :=
  ⟨some, fun _ => none, fun _ => true, fun _ => none, id, String.toLower⟩

theorem merged_policies_sample :
    let trust : List RegistryTrust := [⟨"quay.io", "", true⟩, ⟨"ghcr.io", "pem", false⟩]
    let mirrors : List RegistryMirror := [⟨"docker.io", "https://mirror", false⟩]
    (trustKind plainRegistries).Accepts (mergeRegistries RegistryTrust.registry trust
      [⟨"gcr.io", "pem", false⟩, ⟨"quay.io", "pem", false⟩]) ∧
    (mirrorKind plainRegistries).Accepts (mergeRegistries RegistryMirror.registry mirrors
      [⟨"docker.io", "https://other", true⟩, ⟨"quay.io", "https://mirror", false⟩]) := by
  apply (merged_policies_iff plainRegistries _ _ _ _ ?_ ?_ ?_ ?_).mpr
  · unfold PolicyKind.SameTexts
    decide +kernel
  all_goals
    unfold PolicyKind.Accepts
    decide +kernel

/-- Two spellings of one registry, each accepted alone. -/
theorem docker_aliases_clash :
    (trustKind plainRegistries).Accepts [⟨"docker.io", "", true⟩] ∧
      (trustKind plainRegistries).Accepts [⟨"index.docker.io", "", true⟩] ∧
      checkEach (trustKind plainRegistries).add (mergeRegistries RegistryTrust.registry
        [⟨"docker.io", "", true⟩] [⟨"index.docker.io", "", true⟩]) =
        .error "registry metadata trust entry 1 duplicates registry index.docker.io" :=
  ⟨rfl, rfl, by decide +kernel⟩

end Clabernetes.Images
