import Clabernetes.Management.Uniqueness

/-!
# The peer directory

`compileNamespaceManagementIdentities` of `controllers/node/directmanagement.go:174-281` derives the
management addresses of a whole namespace once more, leaving out what cannot be derived instead of
failing. Where the compilation of a group succeeds, both give its members the same addresses.
-/

namespace Clabernetes.Management

open Base DevicePlan Links Std List Option

structure PeerIdentity where
  name : String
  ipv4 : String := ""
  ipv6 : String := ""
  aliases : List String := []
  pod : String := ""
  deriving DecidableEq

def bareDirectManagementAddress (cidr : String) : String :=
  if cidr = "" then "" else (cutSlash cidr).1

section

variable (lib : Library) (orders : Orders) (nodes : NodeSet)

def identityAliases (name : String) (node : ManagedNode) : List String :=
  node.aliases ++ (node.componentSlots.filterMap fun slot =>
    (slot.filter (· ≠ "")).map fun slot => name ++ "-" ++ lib.toLower slot)

/-- A Node's address in a family without its prefix length, empty when its declaration is not
one; `:249-265`. -/
def identityAddress {ipv4 : Bool} (pool : DirectManagementPool ipv4)
    (allocations : GoMap String String) (name : String) (node : ManagedNode) : String :=
  match normalizeDirectManagementAddress lib (declared ipv4 node) pool with
  | .error _ => ""
  | .ok normalized =>
    bareDirectManagementAddress
      (if normalized = "" then allocations[name]?.getD "" else normalized)

def identityOf (ipv4Pool : DirectManagementPool true) (ipv6Pool : DirectManagementPool false)
    (ipv4Allocations ipv6Allocations podAddressesByNodeUID : GoMap String String)
    (entry : NamedNode) : Option PeerIdentity :=
  if networkModeContainerPrefix.toList.isPrefixOf entry.2.networkMode.toList then none
  else
    let identity : PeerIdentity :=
      { name := entry.1
        aliases := identityAliases lib entry.1 entry.2
        pod := podAddressesByNodeUID[entry.2.uid]?.getD ""
        ipv4 := identityAddress lib ipv4Pool ipv4Allocations entry.1 entry.2
        ipv6 := identityAddress lib ipv6Pool ipv6Allocations entry.1 entry.2 }
    if identity.ipv4 = "" ∧ identity.ipv6 = "" then none else some identity

def compileNamespaceManagementIdentities (mgmt : Option ManagementPolicy)
    (podAddressesByNodeUID : GoMap String String) : List PeerIdentity :=
  if mgmt.any (·.disabled) then []
  else
    match applyDefaultManagementPolicy lib (mgmt.getD {}) with
    | .error _ => []
    | .ok settings =>
      match newDirectManagementPool lib settings.ipv4Subnet settings.ipv4Range true with
      | .error _ => []
      | .ok ipv4Pool =>
        match newDirectManagementPool lib settings.ipv6Subnet settings.ipv6Range false with
        | .error _ => []
        | .ok ipv6Pool =>
          let ipv4Allocations :=
            (allocateDirectManagementAddresses lib orders nodes ipv4Pool
              settings.ipv4Gw).toOption.getD ∅
          let ipv6Allocations :=
            (allocateDirectManagementAddresses lib orders nodes ipv6Pool
              settings.ipv6Gw).toOption.getD ∅
          sortBy PeerIdentity.name ((nodes.visit orders .identities).filterMap
            (identityOf lib ipv4Pool ipv6Pool ipv4Allocations ipv6Allocations
              podAddressesByNodeUID))

end

variable {lib : Library} {orders orders' : Orders} {nodes : NodeSet} {ipv4 : Bool}
  {family : FamilyPool ipv4} {pools : NamespacePools} {name text : String} {node : ManagedNode}

@[simp] theorem bareDirectManagementAddress_empty : bareDirectManagementAddress "" = "" := rfl

@[simp] theorem bareDirectManagementAddress_prefixString (lib : Library) (given : Prefix) :
    bareDirectManagementAddress (lib.prefixString given) = lib.addrString given.addr := by
  rw [bareDirectManagementAddress, if_neg (lib.prefixString_ne_empty given),
    lib.cutSlash_prefixString]

theorem identityAddress_of_memberAddress {field : String}
    (h : memberAddress lib family field name node = .ok text) :
    identityAddress lib family.pool family.allocations name node =
      bareDirectManagementAddress text := by
  obtain ⟨normalized, hnormalize, rfl⟩ := memberAddress_eq_ok h
  simp only [identityAddress, hnormalize]

theorem managed_of_identityOf {ipv4Pool : DirectManagementPool true}
    {ipv6Pool : DirectManagementPool false}
    {ipv4Allocations ipv6Allocations pods : GoMap String String} {entry : NamedNode}
    {identity : PeerIdentity} (hentry : nodes.byName[entry.1]? = some entry.2)
    (h : identityOf lib ipv4Pool ipv6Pool ipv4Allocations ipv6Allocations pods entry =
      some identity) : identity.name = entry.1 ∧ nodes.managed entry.1 = some entry.2 := by
  unfold identityOf at h
  split at h
  · cases h
  · next hmode =>
    dsimp only at h
    split at h
    · cases h
    · cases h
      refine ⟨rfl, ?_⟩
      rw [NodeSet.managed, hentry, filter_some, if_pos]
      rwa [Bool.not_eq_true', ← Bool.not_eq_true]

theorem identities_eq {mgmt : Option ManagementPolicy} {settings : ManagementPolicy}
    (hdisabled : mgmt.any (·.disabled) = false) (hfrom : FromPolicy lib mgmt pools settings)
    (h4 : Supplied lib nodes pools.ipv4) (h6 : Supplied lib nodes pools.ipv6) (orders : Orders)
    (pods : GoMap String String) : compileNamespaceManagementIdentities lib orders nodes mgmt pods =
      sortBy PeerIdentity.name ((nodes.visit orders .identities).filterMap
        (identityOf lib pools.ipv4.pool pools.ipv6.pool pools.ipv4.allocations
          pools.ipv6.allocations pods)) := by
  obtain ⟨orders4, hallocate4⟩ := h4.allocated
  obtain ⟨orders6, hallocate6⟩ := h6.allocated
  rw [allocate_eq orders4 orders h4.unambiguous, hfrom.ipv4_gateway] at hallocate4
  rw [allocate_eq orders6 orders h6.unambiguous, hfrom.ipv6_gateway] at hallocate6
  unfold compileNamespaceManagementIdentities
  rw [hdisabled, if_neg Bool.false_ne_true]
  simp only [hfrom.settings_eq, hfrom.ipv4_pool, hfrom.ipv6_pool, hallocate4, hallocate6,
    Except.toOption, getD_some]

theorem nodup_identity_names {find : NamedNode → Option PeerIdentity} {entries : List NamedNode}
    (hentries : (entries.map Prod.fst).Nodup)
    (hname : ∀ entry ∈ entries, ∀ identity, find entry = some identity →
      identity.name = entry.1) : ((entries.filterMap find).map PeerIdentity.name).Nodup := by
  rw [List.Nodup, pairwise_map, pairwise_filterMap]
  rw [List.Nodup, pairwise_map] at hentries
  apply hentries.imp_of_mem
  intro entry entry' hentry hentry' hne identity hidentity identity' hidentity' heq
  apply hne
  rw [← hname entry hentry identity hidentity, heq, hname entry' hentry' identity' hidentity']

theorem identityOf_of_realizes {value : ManagementInput} (h : Realizes lib nodes pools name value)
    (hne : bareDirectManagementAddress value.ipv4 ≠ "") (pods : GoMap String String) :
    ∃ node identity, nodes.managed name = some node ∧ value.nodeID = node.uid ∧
      identityOf lib pools.ipv4.pool pools.ipv6.pool pools.ipv4.allocations
        pools.ipv6.allocations pods (name, node) = some identity ∧
      identity.ipv4 = bareDirectManagementAddress value.ipv4 ∧
      identity.ipv6 = bareDirectManagementAddress value.ipv6 := by
  obtain ⟨node, hmanaged, huid, h4, h6⟩ := h
  have hmode := (filter_eq_some_iff.mp hmanaged).2
  rw [Bool.not_eq_true'] at hmode
  let identity : PeerIdentity :=
    { name, aliases := identityAliases lib name node, pod := pods[node.uid]?.getD ""
      ipv4 := bareDirectManagementAddress value.ipv4
      ipv6 := bareDirectManagementAddress value.ipv6 }
  refine ⟨node, identity, hmanaged, huid, ?_, rfl, rfl⟩
  unfold identityOf
  rw [if_neg (by rw [hmode]; exact Bool.false_ne_true)]
  simp only [identityAddress_of_memberAddress h4, identityAddress_of_memberAddress h6]
  exact if_neg fun hempty => hne hempty.1

def WithoutLength (lib : Library) (text address : String) : Prop :=
  text = "" ∧ address = "" ∨
    ∃ given, lib.parsePrefix text = some given ∧ address = lib.addrString given.addr

theorem withoutLength_of_given (h : Supplied lib nodes family)
    (hnode : nodes.byName[name]? = some node) (hgiven : MemberGiven lib family name node text) :
    WithoutLength lib text (bareDirectManagementAddress text) := by
  rcases parsePrefix_of_given h hnode hgiven with rfl | ⟨given, rfl⟩
  · exact .inl ⟨rfl, bareDirectManagementAddress_empty⟩
  · exact .inr ⟨given, by simp, by simp⟩

/-- Where the management of a group compiles, every member outside container mode has one identity
in the directory, with the addresses compiled for it. -/
theorem peer_identities_agree (lib : Library) (orders orders' : Orders) (nodes : NodeSet)
    (mgmt : Option ManagementPolicy) (inboundPorts : List Port) (group : List String)
    (result : List ManagementInput) (pods : GoMap String String)
    (h : compileDirectManagement lib orders nodes mgmt inboundPorts group = .ok result) :
    (mgmt.any (·.disabled) = true →
      result = [] ∧ compileNamespaceManagementIdentities lib orders' nodes mgmt pods = []) ∧
    (mgmt.any (·.disabled) = false →
      List.Forall₂ (fun name value => ∃ node identity, nodes.managed name = some node ∧
        value.nodeID = node.uid ∧
        (compileNamespaceManagementIdentities lib orders' nodes mgmt pods).filter
          (fun identity => identity.name = name) = [identity] ∧
        WithoutLength lib value.ipv4 identity.ipv4 ∧ WithoutLength lib value.ipv6 identity.ipv6)
        (nodes.managedMembers group) result) ∧
    ∀ identity ∈ compileNamespaceManagementIdentities lib orders' nodes mgmt pods,
      (nodes.managed identity.name).isSome = true := by
  rcases compile_eq_ok h with ⟨hdisabled, hnil⟩ |
    ⟨hdisabled, pools, settings, -, hfrom, h4, h6, hforall⟩
  · have hnone : compileNamespaceManagementIdentities lib orders' nodes mgmt pods = [] := by
      rw [compileNamespaceManagementIdentities, if_pos hdisabled]
    rw [hnone, hdisabled]
    exact ⟨fun _ => ⟨hnil, rfl⟩, nofun, nofun⟩
  · rw [identities_eq hdisabled hfrom h4 h6, hdisabled]
    have hname : ∀ entry ∈ nodes.visit orders' .identities, ∀ identity,
        identityOf lib pools.ipv4.pool pools.ipv6.pool pools.ipv4.allocations
          pools.ipv6.allocations pods entry = some identity →
        identity.name = entry.1 ∧ nodes.managed entry.1 = some entry.2 := by
      intro entry hentry identity hidentity
      exact managed_of_identityOf (mem_visit.mp hentry) hidentity
    have hnodup := nodup_identity_names (nodup_names_visit nodes orders' .identities)
      fun entry hentry identity hidentity => (hname entry hentry identity hidentity).1
    refine ⟨nofun, fun _ => hforall.imp ?_, ?_⟩
    · intro name value hvalue
      obtain ⟨node, hmanaged, -, hgiven4, hgiven6⟩ := hvalue.given
      have hnode := byName_of_managed hmanaged
      have hwithout4 := withoutLength_of_given h4 hnode hgiven4
      have hwithout6 := withoutLength_of_given h6 hnode hgiven6
      -- the IPv4 subnet is always there, so that the identity is not left out
      obtain ⟨ranges, -, -, hpool, -⟩ := newDirectManagementPool_eq_ok hfrom.ipv4_pool
        (ipv4Subnet_ne_empty hfrom.settings_eq)
      obtain ⟨given, htext, -⟩ := h4.given_of_enabled hpool hnode hgiven4
      have hne : bareDirectManagementAddress value.ipv4 ≠ "" := by
        rw [htext, bareDirectManagementAddress_prefixString]
        exact lib.addrString_addr_ne_empty given
      obtain ⟨node', identity, hmanaged', huid, hidentity, hipv4, hipv6⟩ :=
        identityOf_of_realizes hvalue hne pods
      rw [← hipv4] at hwithout4
      rw [← hipv6] at hwithout6
      have hentry : (name, node') ∈ nodes.visit orders' .identities :=
        mem_visit.mpr (byName_of_managed hmanaged')
      refine ⟨node', identity, hmanaged', huid, ?_, hwithout4, hwithout6⟩
      have hsame : identity.name = name := (hname _ hentry identity hidentity).1
      rw [← hsame]
      apply filter_key_eq_singleton
      · rwa [((perm_sortBy PeerIdentity.name _).map PeerIdentity.name).nodup_iff]
      · rw [mem_sortBy]
        exact mem_filterMap.mpr ⟨_, hentry, hidentity⟩
    · intro identity hmem
      rw [mem_sortBy] at hmem
      obtain ⟨entry, hentry, hidentity⟩ := mem_filterMap.mp hmem
      obtain ⟨heq, hmanaged⟩ := hname entry hentry identity hidentity
      rw [heq, hmanaged, isSome_some]

theorem fourNodes_identities_agree : ∃ result,
    compileDirectManagement plainLibrary (fun _ _ => 0) fourNodes (some twoSubnets) []
        ["c", "b", "d"] = .ok result ∧ result.length = 2 ∧
      List.Forall₂ (fun name value => ∃ node identity, fourNodes.managed name = some node ∧
        value.nodeID = node.uid ∧
        (compileNamespaceManagementIdentities plainLibrary (fun _ _ => 1) fourNodes
          (some twoSubnets) ∅).filter (fun identity => identity.name = name) = [identity] ∧
        WithoutLength plainLibrary value.ipv4 identity.ipv4 ∧
        WithoutLength plainLibrary value.ipv6 identity.ipv6)
        (fourNodes.managedMembers ["c", "b", "d"]) result := by
  obtain ⟨result, hresult, hlength⟩ : ∃ result,
      compileDirectManagement plainLibrary (fun _ _ => 0) fourNodes (some twoSubnets) []
        ["c", "b", "d"] = .ok result ∧ result.length = 2 := by
    decide +kernel
  exact ⟨result, hresult, hlength,
    (peer_identities_agree plainLibrary (fun _ _ => 0) (fun _ _ => 1) fourNodes (some twoSubnets) []
      ["c", "b", "d"] result ∅ hresult).2.1 rfl⟩

end Clabernetes.Management
