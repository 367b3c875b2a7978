import Clabernetes.Base.GoMap
import Mathlib.Data.List.Induction

/-!
# Grants per host

`controllers/node/startuphost.go`. One pass over the Pods with a startup gate: how many of each
host, and of each Topology there, were let through and are not started, and which of the waiting
ones are let through next.
-/

namespace Clabernetes.Startup.Hosts

open Base Std List ExtTreeMap GoMap

inductive PodPhase where
  | pending
  | running
  | succeeded
  | failed
  | unknown
  deriving DecidableEq

structure ContainerStatus where
  name : String
  started : Option Bool := none
  deriving DecidableEq

/-- A Pod with the workload label. `defaultContainer`, `startupAdmitted` and `nodeUID` are
annotations, empty if missing. -/
structure Pod where
  namespaceName : String := ""
  name : String := ""
  uid : String
  resourceVersion : ℕ := 0
  creationTimestamp : ℕ := 0
  deleting : Bool := false
  nodeName : String := ""
  initContainers : List String := []
  statuses : List ContainerStatus := []
  phase : PodPhase := .pending
  defaultContainer : String := ""
  startupAdmitted : String := ""
  nodeUID : String := ""
  deriving DecidableEq

def startupGateContainerName : String := "startup-gate"

variable (pod : Pod)

def hasStartupHostGate : Bool := pod.initContainers.contains startupGateContainerName

def startupPrimaryStarted : Bool :=
  match pod.statuses.find? fun status => status.name == pod.defaultContainer with
  | some status => status.started == some true
  | none => false

def started : Bool :=
  startupPrimaryStarted pod || pod.phase == .succeeded || pod.phase == .failed

def granted : Bool := pod.uid != "" && pod.startupAdmitted == pod.uid

def grant : Pod := { pod with startupAdmitted := pod.uid }

structure OwnerReference where
  kind : String
  apiVersion : String
  uid : String

structure Node where
  uid : String
  controller : Option OwnerReference := none

/-- What a pass reads of a Topology; a limit that is not positive is none. -/
structure Topology where
  uid : String
  maxConcurrentPerHost : Option ℕ := none

def schemeGroupVersion : String := "c9s.run/v1alpha1"

def ownerOf (node : Node) : String :=
  match node.controller with
  | some owner =>
    if owner.kind = "Topology" ∧ owner.apiVersion = schemeGroupVersion then owner.uid else ""
  | none => ""

def owners (nodes : List Node) : GoMap String String :=
  nodes.foldl (fun owners node => owners.insert node.uid (ownerOf node)) ∅

def limitOf (topology : Topology) : ℕ := topology.maxConcurrentPerHost.getD 0

def limits (topologies : List Topology) : GoMap String ℕ :=
  topologies.foldl (fun limits topology => limits.insert topology.uid (limitOf topology)) ∅

/-- `c.startupHostAdmissions`. -/
abbrev Reserved := GoMap String Unit

/-- The Pods that take a place on their host, and those that wait for one. The source counts the
former by host and by Topology and host. -/
structure Scan where
  counted : List Pod := []
  pending : List Pod := []

/-- One round of the loop of `:114-148`. Without a scan the pass has ended. -/
def scanPod (owners : GoMap String String) (seen : Reserved × Option Scan) (pod : Pod) :
    Reserved × Option Scan :=
  match seen.2 with
  | none => seen
  | some scan =>
    let reserved := if granted pod then seen.1.erase pod.uid else seen.1
    if pod.nodeName = "" then (reserved, some scan)
    else if granted pod = false ∧ pod.uid ∉ seen.1 ∧ hasStartupHostGate pod = true then
      (reserved,
        some (if pod.deleting then scan else { scan with pending := scan.pending ++ [pod] }))
    else if started pod then (reserved, some scan)
    else
      -- an owner that is not known hides a Pod from the count of its Topology
      (reserved, if pod.nodeUID ∈ owners then some { scan with counted := scan.counted ++ [pod] }
        else none)

def scanPods (owners : GoMap String String) (reserved : Reserved) (pods : List Pod) :
    Reserved × Option Scan :=
  let (reserved, scan) := pods.foldl (scanPod owners) (reserved, some {})
  (if scan.isSome then reserved.filter fun uid _ => pods.any fun pod => pod.uid == uid
    else reserved,
    scan)

def before (a b : Pod) : Prop :=
  a.creationTimestamp < b.creationTimestamp ∨
    a.creationTimestamp = b.creationTimestamp ∧
      a.namespaceName ++ "/" ++ a.name ≤ b.namespaceName ++ "/" ++ b.name

instance : DecidableRel before := fun _ _ => inferInstanceAs (Decidable (_ ∨ _))

def onHost (host : String) (pods : List Pod) : List Pod :=
  pods.filter fun pod => pod.nodeName == host

def ofOwner (owners : GoMap String String) (owner : String) (pods : List Pod) : List Pod :=
  pods.filter fun pod => owners[pod.nodeUID]? == some owner

def hostFull (owners : GoMap String String) (limits : GoMap String ℕ) (global : ℕ)
    (counted : List Pod) (owner : String) (pod : Pod) : Bool :=
  (0 < global && global ≤ (onHost pod.nodeName counted).length) ||
    (0 < limits[owner]?.getD 0 &&
      limits[owner]?.getD 0 ≤ (ofOwner owners owner (onHost pod.nodeName counted)).length)

/-- The Pods that the loop of `:163-197` grants, as long as no request fails. -/
def grantPods (owners : GoMap String String) (limits : GoMap String ℕ) (global : ℕ) :
    List Pod → List Pod → List Pod
  | _, [] => []
  | counted, pod :: pending =>
    match owners[pod.nodeUID]? with
    | none => grantPods owners limits global counted pending
    | some owner =>
      if owner ≠ "" ∧ owner ∉ limits then grantPods owners limits global counted pending
      else if hostFull owners limits global counted owner pod then
        grantPods owners limits global counted pending
      else pod :: grantPods owners limits global (counted ++ [pod]) pending

theorem lookup_foldl_insert {α β γ : Type} [Ord α] [TransOrd α] [LawfulEqOrd α] [DecidableEq α]
    {key : γ → α} {value : γ → β} {entries : List γ} {a : α} {b : β}
    (h : (entries.foldl (fun m x => m.insert (key x) (value x)) (∅ : GoMap α β))[a]? = some b) :
    ∃ x ∈ entries, key x = a ∧ value x = b := by
  induction entries using List.reverseRecOn with
  | nil => simp at h
  | append_singleton entries last ih =>
    rw [foldl_append, foldl_cons, foldl_nil, lookup_insert] at h
    split_ifs at h with heq
    · cases h
      exact ⟨last, by simp, heq, rfl⟩
    · obtain ⟨x, hx, hkey, hvalue⟩ := ih h
      exact ⟨x, mem_append_left _ hx, hkey, hvalue⟩

variable {pod : Pod}

section Scan

variable {owners : GoMap String String} {reserved : Reserved} {pods : List Pod}

def waits (reserved : Reserved) (pod : Pod) : Bool :=
  pod.nodeName != "" && !granted pod && decide (pod.uid ∉ reserved) && hasStartupHostGate pod

def counts (reserved : Reserved) (pod : Pod) : Bool :=
  pod.nodeName != "" && !waits reserved pod && !started pod

variable {scan : Scan}

theorem scanPod_eq : scanPod owners (reserved, some scan) pod =
      (if granted pod then reserved.erase pod.uid else reserved,
        if counts reserved pod = true ∧ pod.nodeUID ∉ owners then none
        else some
          { counted := scan.counted ++ [pod].filter (counts reserved),
            pending := scan.pending ++
              [pod].filter fun pod => waits reserved pod && !pod.deleting }) := by
  by_cases hhost : pod.nodeName = ""
  · simp [scanPod, counts, waits, hhost]
  · by_cases hwaits : waits reserved pod = true
    · have hbranch : granted pod = false ∧ pod.uid ∉ reserved ∧ hasStartupHostGate pod = true := by
        simpa [waits, hhost, and_assoc] using hwaits
      cases hdeleting : pod.deleting <;>
        simp [scanPod, counts, hhost, hwaits, hbranch, hdeleting]
    · have hbranch : ¬(granted pod = false ∧ pod.uid ∉ reserved ∧
          hasStartupHostGate pod = true) := by
        simpa [waits, hhost, and_assoc] using hwaits
      cases hstarted : started pod with
      | true => simp [scanPod, counts, hhost, hwaits, hbranch, hstarted]
      | false =>
        by_cases howner : pod.nodeUID ∈ owners <;>
          simp [scanPod, counts, hhost, hwaits, hbranch, hstarted, howner]

theorem foldl_scanPod_none : pods.foldl (scanPod owners) (reserved, none) = (reserved, none) := by
  induction pods with
  | nil => rfl
  | cons pod pods ih => exact ih

theorem mem_foldl_scanPod {scan : Option Scan} {uid : String} :
    (uid ∈ (pods.foldl (scanPod owners) (reserved, scan)).1 → uid ∈ reserved) ∧
      (uid ∈ reserved → (∀ pod ∈ pods, pod.uid = uid → granted pod = false) →
        uid ∈ (pods.foldl (scanPod owners) (reserved, scan)).1) := by
  induction pods generalizing reserved scan with
  | nil => exact ⟨id, fun h _ => h⟩
  | cons pod pods ih =>
    cases scan with
    | none =>
      rw [foldl_scanPod_none]
      exact ⟨id, fun h _ => h⟩
    | some scan =>
      rw [foldl_cons, scanPod_eq]
      refine ⟨fun h => ?_, fun h hall => ih.2 ?_ fun other hother =>
        hall other (mem_cons_of_mem _ hother)⟩
      · have hmem := ih.1 h
        split_ifs at hmem
        · exact ExtTreeMap.mem_of_mem_erase hmem
        · exact hmem
      · split_ifs with hgranted
        · rw [mem_erase, ne_eq, LawfulEqOrd.compare_eq_iff_eq]
          refine ⟨fun heq => ?_, h⟩
          rw [hall pod mem_cons_self heq] at hgranted
          cases hgranted
        · exact h

theorem foldl_scanPod_some (hnodup : (pods.map Pod.uid).Nodup) {scan' : Scan} {reserved' : Reserved}
    (h : pods.foldl (scanPod owners) (reserved, some scan) = (reserved', some scan')) :
    scan'.counted = scan.counted ++ pods.filter (counts reserved) ∧
      scan'.pending = scan.pending ++ pods.filter (fun pod => waits reserved pod && !pod.deleting) ∧
      ∀ pod ∈ pods, counts reserved pod = true → pod.nodeUID ∈ owners := by
  induction pods generalizing reserved scan with
  | nil =>
    cases h
    simp
  | cons pod pods ih =>
    rw [map_cons, nodup_cons] at hnodup
    rw [foldl_cons, scanPod_eq] at h
    -- the round changes what is reserved of this Pod only
    have hsame : ∀ other ∈ pods,
        waits (if granted pod then reserved.erase pod.uid else reserved) other =
          waits reserved other := by
      intro other hother
      have hne : pod.uid ≠ other.uid := fun heq => hnodup.1 (heq ▸ mem_map_of_mem hother)
      unfold waits
      split_ifs
      · simp [mem_erase, hne]
      · rfl
    have hcounts : ∀ other ∈ pods,
        counts (if granted pod then reserved.erase pod.uid else reserved) other =
          counts reserved other := by
      intro other hother
      simp only [counts, hsame other hother]
    by_cases hunknown : counts reserved pod = true ∧ pod.nodeUID ∉ owners
    · rw [if_pos hunknown, foldl_scanPod_none] at h
      cases h
    · rw [if_neg hunknown] at h
      obtain ⟨hcounted, hpending, hknown⟩ := ih hnodup.2 h
      rw [filter_congr hcounts] at hcounted
      have hwaiting : pods.filter (fun other =>
          waits (if granted pod then reserved.erase pod.uid else reserved) other &&
            !other.deleting) = pods.filter fun other => waits reserved other && !other.deleting :=
        filter_congr fun other hother => by rw [hsame other hother]
      rw [hwaiting] at hpending
      refine ⟨?_, ?_, ?_⟩
      · rw [hcounted, append_assoc, ← filter_append, singleton_append]
      · rw [hpending, append_assoc, ← filter_append, singleton_append]
      · intro other hother hcount
        rcases mem_cons.mp hother with rfl | hother
        · exact not_not.mp fun h => hunknown ⟨hcount, h⟩
        · exact hknown other hother (by rwa [hcounts other hother])

theorem scanPods_some (hnodup : (pods.map Pod.uid).Nodup) {reserved' : Reserved}
    (h : scanPods owners reserved pods = (reserved', some scan)) :
    scan.counted = pods.filter (counts reserved) ∧
      scan.pending = pods.filter (fun pod => waits reserved pod && !pod.deleting) ∧
      ∀ pod ∈ pods, counts reserved pod = true → pod.nodeUID ∈ owners := by
  simp only [scanPods, Prod.mk.injEq] at h
  have hfold := foldl_scanPod_some hnodup (Prod.ext rfl h.2)
  simpa using hfold

theorem mem_scanPods {uid : String} : (uid ∈ (scanPods owners reserved pods).1 → uid ∈ reserved) ∧
      (uid ∈ reserved → (∃ pod ∈ pods, pod.uid = uid) →
        (∀ pod ∈ pods, pod.uid = uid → granted pod = false) →
        uid ∈ (scanPods owners reserved pods).1) := by
  obtain ⟨hfold, hkept⟩ := @mem_foldl_scanPod owners reserved pods (some {}) uid
  simp only [scanPods]
  split_ifs
  · rw [mem_filter_keys, any_eq_true]
    refine ⟨fun h => hfold h.1, fun huid hseen hgranted => ⟨hkept huid hgranted, ?_⟩⟩
    simpa using hseen
  · exact ⟨hfold, fun huid _ hgranted => hkept huid hgranted⟩

end Scan

section Grants

variable {owners : GoMap String String} {limits : GoMap String ℕ} {global : ℕ}

theorem mem_grantPods {counted pending : List Pod}
    (h : pod ∈ grantPods owners limits global counted pending) :
    pod ∈ pending ∧ pod.nodeUID ∈ owners := by
  induction pending generalizing counted with
  | nil => cases h
  | cons first pending ih =>
    rw [grantPods] at h
    split at h
    · exact ⟨mem_cons_of_mem _ (ih h).1, (ih h).2⟩
    · next owner howner =>
      split_ifs at h
      · exact ⟨mem_cons_of_mem _ (ih h).1, (ih h).2⟩
      · exact ⟨mem_cons_of_mem _ (ih h).1, (ih h).2⟩
      · rcases mem_cons.mp h with rfl | h
        · exact ⟨mem_cons_self, mem_of_lookup howner⟩
        · exact ⟨mem_cons_of_mem _ (ih h).1, (ih h).2⟩

theorem hostFull_of_grantPods {counted pending done : List Pod}
    (h : done ++ [pod] <+: grantPods owners limits global counted pending) :
    ∃ owner, owners[pod.nodeUID]? = some owner ∧ (owner = "" ∨ owner ∈ limits) ∧
      hostFull owners limits global (counted ++ done) owner pod = false := by
  induction pending generalizing counted done with
  | nil => simp [grantPods] at h
  | cons first pending ih =>
    rw [grantPods] at h
    split at h
    · exact ih h
    · next owner howner =>
      split_ifs at h with hunknown hfull
      · exact ih h
      · exact ih h
      · cases done with
        | nil =>
          obtain ⟨rfl, -⟩ := cons_prefix_cons.mp h
          refine ⟨owner, howner, ?_, by simpa using hfull⟩
          by_cases hempty : owner = ""
          · exact .inl hempty
          · exact .inr (not_not.mp fun hmem => hunknown ⟨hempty, hmem⟩)
        | cons granted done =>
          obtain ⟨rfl, hrest⟩ := cons_prefix_cons.mp h
          obtain ⟨owner, howner, hlimit, hroom⟩ := ih hrest
          exact ⟨owner, howner, hlimit, by simpa using hroom⟩

end Grants

end Clabernetes.Startup.Hosts
