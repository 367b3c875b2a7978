import Clabernetes.Base.Checks
import Clabernetes.Base.Evaluation
import Clabernetes.Base.Paths
import Clabernetes.Base.Sorting
import Clabernetes.DevicePlan.Types
import Clabernetes.Links.Api

/-!
# Reserved container paths

`internal/deviceplan/mapper.go:834-888,1001-1086` and `util/kubernetes/reservedpaths.go`: the mounts
of what a user declares for a Node. The volume, the files and the actions that go with them are left
out.
-/

namespace Clabernetes.DevicePlan

open Base Path List

def kubeletFiles : List String :=
  ["/etc/hosts", "/etc/hostname", "/etc/resolv.conf", "/dev/termination-log"]

def runtimeDirectories : List String :=
  ["/var/lib/clabernetes", "/var/run/clabernetes", "/var/run/secrets/kubernetes.io/serviceaccount"]

def reservedContainerPathReason (value : String) : Option String :=
  let cleaned := cleanText value
  if cleaned ∈ kubeletFiles then
    some "the kubelet manages this file in every container; it cannot be bind-mounted"
  else if runtimeDirectories.any fun owned =>
      cleaned = owned || (owned ++ "/").toList.isPrefixOf cleaned.toList then
    some "the direct runtime owns this path inside device containers"
  else none

def nodeMappingError (nodeID field message : String) : Error :=
  { code := .errorUnsupported, nodeID, field, behavior := "kubernetes-mapping", message }

def collision (subject path reason : String) : String :=
  subject ++ " " ++ Links.quoted path ++ " collides with a reserved container path: " ++ reason

def parseUserBind (raw : String) : Except String (String × String) :=
  match (raw.toList.splitOn ':').map String.ofList with
  | source :: target :: options =>
    if options.length > 1 || source = "" || target.toList.head? ≠ some '/' then
      .error "user bind is not representable"
    else if (options.flatMap fun option => option.toList.splitOn ',').all fun option =>
        option ∈ [[], ['r', 'o'], ['r', 'w']] then
      let source := cleanText source
      let source := if source.toList.head? = some '/' then source else "/" ++ source
      match reservedContainerPathReason (cleanText target) with
      | some reason => .error (collision "user bind target" (cleanText target) reason)
      | none => .ok (source, cleanText target)
    else .error "user bind option is not representable"
  | _ => .error "user bind is not representable"

def bindDestination (bind : String × String) (path : String) : Option String :=
  if path = bind.1 then some bind.2
  else if (bind.1 ++ "/").toList.isPrefixOf path.toList then
    some (bind.2 ++ String.ofList (path.toList.drop bind.1.toList.length))
  else none

variable (nodeID containerID : String) (payloads : List PayloadInput)

def payloadMount (id destination : String) (payload : PayloadInput) : MountPlan :=
  { id, containerID, volumeID := nodeID ++ "/artifacts", sourcePath := "payloads/" ++ payload.id
    destination, readOnly := true }

def appendUserBindPlan (bind : String × ℕ) : Except Error (List MountPlan) :=
  match parseUserBind bind.1 with
  | .error message => .error (nodeMappingError nodeID "definition.binds" message)
  | .ok parsed =>
    let mounts := (payloads.filter (·.nodeID = nodeID)).filterMap fun payload =>
      (bindDestination parsed payload.destination).map fun destination =>
        payloadMount nodeID containerID s!"mount/bind/{bind.2}/{payload.id}" destination payload
    if mounts = [] then
      .error (nodeMappingError nodeID "definition.binds"
        "user bind mapping requires an explicit c9s volume or payload")
    else .ok mounts

/-- With `planHasEquivalentMount` (`:894-908`). -/
def appendPayloadPlans (planned : List MountPlan) :
    List PayloadInput → Except Error (List MountPlan)
  | [] => .ok []
  | payload :: rest =>
    match reservedContainerPathReason payload.destination with
    | some reason => .error (nodeMappingError nodeID "files"
        (collision "file destination" payload.destination reason))
    | none =>
      let mount :=
        payloadMount nodeID containerID ("mount/" ++ payload.id) payload.destination payload
      if planned.any fun other => other.containerID = containerID &&
          other.destination = payload.destination && other.volumeID = mount.volumeID &&
          other.sourcePath = mount.sourcePath then
        appendPayloadPlans planned rest
      else do return mount :: (← appendPayloadPlans (planned ++ [mount]) rest)

/-- The mounts of the binds, then those of the payloads; `planned` is what the plan mounts by
then. -/
def userMounts (planned : List MountPlan) (binds : List String) :
    Except Error (List MountPlan) := do
  let bound ← binds.zipIdx.mapM (appendUserBindPlan nodeID containerID payloads)
  let files ← appendPayloadPlans nodeID containerID planned (payloads.filter (·.nodeID = nodeID))
  return bound.flatten ++ files

/-- A file that the kubelet manages, or a path in a directory of the runtime. -/
def Reserved (path : String) : Prop :=
  path ∈ kubeletFiles ∨
    ∃ owned ∈ runtimeDirectories, path = owned ∨ (owned ++ "/").toList <+: path.toList

instance : DecidablePred Reserved := fun path => by unfold Reserved; infer_instance

/-- Where a reserved path stands below the target of a bind, no payload stands so below its
source. -/
def BindsApart (binds : List String) : Prop :=
  ∀ raw ∈ binds, ∀ source target, parseUserBind raw = .ok (source, target) →
    ∀ rest, Reserved (target ++ "/" ++ rest) → ∀ payload ∈ payloads, payload.nodeID = nodeID →
      payload.destination ≠ source ++ "/" ++ rest

variable {nodeID containerID payloads} {planned mounts : List MountPlan}

theorem reservedContainerPathReason_eq_none {path : String} :
    reservedContainerPathReason path = none ↔ ¬Reserved (cleanText path) := by
  simp only [reservedContainerPathReason, Reserved, any_eq_true, Bool.or_eq_true, decide_eq_true_eq,
    isPrefixOf_iff_prefix]
  split_ifs with hfile hdirectory
  · simp [hfile]
  · simp only [hdirectory, or_true, not_true]
  · simp only [hfile, hdirectory, or_false, not_false_eq_true]

theorem bindDestination_below (bind : String × String) (rest : String) :
    bindDestination bind (bind.1 ++ "/" ++ rest) = some (bind.2 ++ "/" ++ rest) := by
  have hne : bind.1 ++ "/" ++ rest ≠ bind.1 := by
    intro h
    simpa using congrArg (fun path => path.toList.length) h
  rw [bindDestination, if_neg hne, if_pos]
  · simp [← String.toList_inj]
  · exact isPrefixOf_iff_prefix.mpr ⟨rest.toList, by simp⟩

theorem destination_of_bindDestination {bind : String × String} {path destination : String}
    (h : bindDestination bind path = some destination) : destination = bind.2 ∨
      ∃ rest, path = bind.1 ++ "/" ++ rest ∧ destination = bind.2 ++ "/" ++ rest := by
  unfold bindDestination at h
  split_ifs at h with hsame hbelow
  · exact .inl (Option.some.inj h).symm
  · obtain ⟨rest, hrest⟩ := isPrefixOf_iff_prefix.mp hbelow
    refine .inr ⟨String.ofList rest, ?_, ?_⟩
    · simpa [← String.toList_inj] using hrest.symm
    · rw [← Option.some.inj h, ← hrest]
      simp [← String.toList_inj]

theorem target_not_reserved {raw : String} {bind : String × String}
    (h : parseUserBind raw = .ok bind) : reservedContainerPathReason bind.2 = none := by
  rw [parseUserBind] at h
  split at h
  · split_ifs at h
    dsimp only at h
    split at h
    · cases h
    · next hfree =>
      cases h
      exact hfree
  · cases h

theorem files_not_reserved {payloads : List PayloadInput}
    (h : appendPayloadPlans nodeID containerID planned payloads = .ok mounts) :
    ∀ mount ∈ mounts, ¬Reserved (cleanText mount.destination) := by
  induction payloads generalizing planned mounts with
  | nil =>
    cases h
    exact fun _ => nofun
  | cons payload rest ih =>
    rw [appendPayloadPlans] at h
    split at h
    · cases h
    · next hfree =>
      dsimp only at h
      split_ifs at h
      · exact ih h
      · obtain ⟨files, hfiles, hmounts⟩ := bind_eq_ok_iff.mp h
        cases hmounts
        exact forall_mem_cons.mpr ⟨reservedContainerPathReason_eq_none.mp hfree, ih hfiles⟩

theorem mem_userBind {bind : String × ℕ}
    (h : appendUserBindPlan nodeID containerID payloads bind = .ok mounts) {destination : String} :
    (∃ mount ∈ mounts, mount.destination = destination) ↔
      ∃ parsed, parseUserBind bind.1 = .ok parsed ∧ ∃ payload ∈ payloads, payload.nodeID = nodeID ∧
        bindDestination parsed payload.destination = some destination := by
  rw [appendUserBindPlan] at h
  split at h
  · cases h
  · next parsed hparsed =>
    dsimp only at h
    split_ifs at h
    cases h
    simp [hparsed, payloadMount, and_assoc]

/-- Accepted user content, with clean destinations as `validatePlan` wants them, stays off the
reserved paths exactly if no file of a directory bind stands where one would land there. -/
theorem mounts_not_reserved_iff (nodeID containerID : String) (payloads : List PayloadInput)
    (planned mounts : List MountPlan) (binds : List String)
    (h : userMounts nodeID containerID payloads planned binds = .ok mounts)
    (hclean : ∀ mount ∈ mounts, cleanText mount.destination = mount.destination) :
    (∀ mount ∈ mounts, ¬Reserved mount.destination) ↔ BindsApart nodeID payloads binds := by
  obtain ⟨bound, hbound, h⟩ := bind_eq_ok_iff.mp h
  obtain ⟨files, hfiles, h⟩ := bind_eq_ok_iff.mp h
  cases h
  rw [mapM_eq_ok_iff] at hbound
  constructor
  · intro hfree raw hraw source target hbind rest hrest payload hpayload hnode hbelow
    obtain ⟨index, hindex⟩ := mem_iff_getElem?.mp hraw
    obtain ⟨some, hsome, hmounts⟩ :=
      exists_left_of_forall₂ hbound.flip (mk_mem_zipIdx_iff_getElem?.mpr hindex)
    obtain ⟨mount, hmount, hdestination⟩ := (mem_userBind hmounts).mpr ⟨_, hbind, payload, hpayload,
      hnode, hbelow ▸ bindDestination_below (source, target) rest⟩
    exact hfree mount (mem_append_left _ (mem_flatten_of_mem hsome hmount)) (hdestination ▸ hrest)
  · intro hapart mount hmount
    rcases mem_append.mp hmount with hbind | hfile
    · obtain ⟨some, hsome, hmem⟩ := mem_flatten.mp hbind
      obtain ⟨bind, hzip, hmounts⟩ := exists_left_of_forall₂ hbound hsome
      obtain ⟨parsed, hparsed, payload, hpayload, hnode, hdestination⟩ :=
        (mem_userBind hmounts).mp ⟨mount, hmem, rfl⟩
      rcases destination_of_bindDestination hdestination with htarget | ⟨rest, hbelow, hrest⟩
      · rw [← hclean mount hmount, htarget]
        exact reservedContainerPathReason_eq_none.mp (target_not_reserved hparsed)
      · rw [hrest]
        have hraw : bind.1 ∈ binds := mem_of_getElem? (mk_mem_zipIdx_iff_getElem?.mp hzip)
        exact fun hreserved =>
          hapart bind.1 hraw _ _ hparsed rest hreserved payload hpayload hnode hbelow
    · rw [← hclean mount hmount]
      exact files_not_reserved hfiles mount hfile

def configPayload (destination : String) : PayloadInput :=
  { id := "cfg", nodeID := "n", kind := .payloadConfigMap, reference := "r", destination }

/-- A file of a directory bind that lands beside the kubelet's. -/
theorem mounts_not_reserved_sample : ∃ mounts,
    userMounts "n" "c" [configPayload "/cfg/motd"] [] ["/cfg:/etc"] = .ok mounts ∧
      mounts.map (·.destination) = ["/etc/motd", "/cfg/motd"] ∧
      (∀ mount ∈ mounts, ¬Reserved mount.destination) ∧
      BindsApart "n" [configPayload "/cfg/motd"] ["/cfg:/etc"] := by
  obtain ⟨mounts, hmounts, hdestinations, hclean, hfree⟩ : ∃ mounts,
      userMounts "n" "c" [configPayload "/cfg/motd"] [] ["/cfg:/etc"] = .ok mounts ∧
      mounts.map (·.destination) = ["/etc/motd", "/cfg/motd"] ∧
      (∀ mount ∈ mounts, cleanText mount.destination = mount.destination) ∧
      ∀ mount ∈ mounts, ¬Reserved mount.destination := by
    decide +kernel
  exact ⟨mounts, hmounts, hdestinations, hfree,
    (mounts_not_reserved_iff "n" "c" _ _ mounts _ hmounts hclean).mp hfree⟩

/-- A file under a directory that is bound ends on a reserved path. -/
theorem directory_bind_reserved : ∃ mounts,
    userMounts "n" "c" [configPayload "/cfg/hosts"] [] ["/cfg:/etc"] = .ok mounts ∧
      ∃ mount ∈ mounts, mount.destination = "/etc/hosts" ∧
        cleanText mount.destination = mount.destination ∧ Reserved mount.destination := by
  decide +kernel

end Clabernetes.DevicePlan
