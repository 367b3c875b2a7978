import Clabernetes.Links.Endpoints
import Clabernetes.Management.Allocation

/-!
# Compiling the management of a group

`compileDirectManagement` of `controllers/node/direct.go:1392-1532`: a workload group is compiled on
its own, from an allocation over the whole namespace.
-/

namespace Clabernetes.Management

open Base DevicePlan Links Std List Option Except

def managementMeshTunnelSpan : Nat := 2 ^ 24 - 1

def hexByte (byte : Nat) : String :=
  String.ofList [Nat.digitChar (byte / 16), Nat.digitChar (byte % 16)]

structure FamilyPool (ipv4 : Bool) where
  pool : DirectManagementPool ipv4
  gateway : String
  allocations : GoMap String String

structure NamespacePools where
  ipv4 : FamilyPool true
  ipv6 : FamilyPool false

/-- The members that get a management identity of their own: the Nodes that do not share the
network of another container. -/
def NodeSet.managed (nodes : NodeSet) (name : String) : Option ManagedNode :=
  nodes.byName[name]?.filter fun node =>
    !networkModeContainerPrefix.toList.isPrefixOf node.networkMode.toList

section

variable (lib : Library) (orders : Orders) (nodes : NodeSet)

def managementMeshIdentity (namespaceName : String) : ManagementMesh :=
  let sum := lib.sha256 ("c9s-management-mesh/" ++ namespaceName)
  let byte (i : Nat) : String := hexByte ((sum >>> (248 - 8 * i)).toNat % 256)
  { tunnelID := 1 + (sum >>> 224).toNat % managementMeshTunnelSpan
    gatewayMAC := "02:c9:" ++ byte 4 ++ ":" ++ byte 5 ++ ":" ++ byte 6 ++ ":" ++ byte 7 }

def namespacePools (mgmt : Option ManagementPolicy) : Except Error NamespacePools :=
  match applyDefaultManagementPolicy lib (mgmt.getD {}) with
  | .error err => .error err
  | .ok settings =>
    match newDirectManagementPool lib settings.ipv4Subnet settings.ipv4Range true with
    | .error err => .error (directManagementError "ipv4-subnet" err)
    | .ok ipv4Pool =>
      match newDirectManagementPool lib settings.ipv6Subnet settings.ipv6Range false with
      | .error err => .error (directManagementError "ipv6-subnet" err)
      | .ok ipv6Pool =>
        match allocateDirectManagementAddresses lib orders nodes ipv4Pool settings.ipv4Gw with
        | .error err => .error (directManagementError "ipv4-range" err)
        | .ok ipv4Allocations =>
          match allocateDirectManagementAddresses lib orders nodes ipv6Pool settings.ipv6Gw with
          | .error err => .error (directManagementError "ipv6-range" err)
          | .ok ipv6Allocations =>
            .ok
              { ipv4 := ⟨ipv4Pool, settings.ipv4Gw, ipv4Allocations⟩
                ipv6 := ⟨ipv6Pool, settings.ipv6Gw, ipv6Allocations⟩ }

def memberAddress {ipv4 : Bool} (family : FamilyPool ipv4) (field name : String)
    (node : ManagedNode) : Except Error String :=
  match normalizeDirectManagementAddress lib (declared ipv4 node) family.pool with
  | .error err => .error (directNodeManagementError name node field err)
  | .ok normalized =>
    let address := if normalized = "" then family.allocations[name]?.getD "" else normalized
    match validateDirectManagementHostAddress lib address family.pool family.gateway with
    | .error err => .error (directNodeManagementError name node field err)
    | .ok _ => .ok address

def claimAddress (name : String) (addresses : GoMap String String) (address : String) :
    Except Error (GoMap String String) :=
  if address = "" then .ok addresses
  else
    let key := directManagementAddressIdentity lib address
    if addresses[key]?.getD "" ≠ "" then
      .error (directManagementError "addresses"
        ("Nodes " ++ quoted (addresses[key]?.getD "") ++ " and " ++ quoted name ++
          " use the same management address"))
    else .ok (addresses.insert key name)

def nonemptyIntent (value : ManagementInput) : Bool :=
  value.ipv4 != "" || value.ipv4Gateway != "" || value.ipv6 != "" || value.ipv6Gateway != "" ||
    !value.dns.servers.isEmpty || !value.dns.search.isEmpty || !value.dns.options.isEmpty

def compileMember (pools : NamespacePools) (inboundPorts : List Port)
    (state : List ManagementInput × GoMap String String) (name : String) :
    Except Error (List ManagementInput × GoMap String String) :=
  match nodes.managed name with
  | none => .ok state
  | some node =>
    match memberAddress lib pools.ipv4 "mgmtIPv4" name node with
    | .error err => .error err
    | .ok ipv4 =>
      match memberAddress lib pools.ipv6 "mgmtIPv6" name node with
      | .error err => .error err
      | .ok ipv6 =>
        match validateDirectManagementGateway lib pools.ipv4.gateway ipv4 true with
        | .error err => .error (directManagementError "ipv4-gw" err)
        | .ok _ =>
          match validateDirectManagementGateway lib pools.ipv6.gateway ipv6 false with
          | .error err => .error (directManagementError "ipv6-gw" err)
          | .ok _ =>
            match performAll (claimAddress lib name) state.2 [ipv4, ipv6] with
            | .error err => .error err
            | .ok addresses =>
              let value : ManagementInput :=
                { nodeID := node.uid, ipv4, ipv6, inboundPorts
                  mesh := some (managementMeshIdentity lib node.namespaceName)
                  ipv4Gateway := pools.ipv4.gateway, ipv6Gateway := pools.ipv6.gateway
                  dns := node.dns.getD {} }
              .ok (if nonemptyIntent value then state.1 ++ [value] else state.1, addresses)

def disabledConflict : List String → Except Error (List ManagementInput)
  | [] => .ok []
  | name :: rest =>
    match nodes.byName[name]? with
    | none => disabledConflict rest
    | some node =>
      if node.mgmtIPv4 ≠ "" ∨ node.mgmtIPv6 ≠ "" then
        .error (directNodeManagementError name node "management"
          "explicit management addresses conflict with disabled management")
      else disabledConflict rest

def compileDirectManagement (mgmt : Option ManagementPolicy) (inboundPorts : List Port)
    (groupMembers : List String) : Except Error (List ManagementInput) :=
  if mgmt.any (·.disabled) then disabledConflict nodes groupMembers
  else
    match validateUniqueExplicitManagementAddresses lib orders nodes with
    | .error err => .error (directManagementError "addresses" err)
    | .ok _ =>
      match namespacePools lib orders nodes mgmt with
      | .error err => .error err
      | .ok pools =>
        match performAll (compileMember lib nodes pools inboundPorts) ([], ∅) groupMembers with
        | .error err => .error err
        | .ok state => .ok state.1

end

variable {lib : Library} {orders orders' : Orders} {nodes : NodeSet} {ipv4 : Bool}
  {name text : String} {node : ManagedNode} {inboundPorts : List Port}
  {state' state : List ManagementInput × GoMap String String} {pool : DirectManagementPool ipv4}
  {mgmt : Option ManagementPolicy} {group : List String} {family : FamilyPool ipv4}

/-- A given prefix fits the pool: where a subnet is configured, it has the subnet's length and
its address lies in the subnet. -/
def Fits (pool : DirectManagementPool ipv4) (given : Prefix) : Prop :=
  given.addr.is4 = ipv4 ∧ ∀ ranges, pool = some ranges →
    given.bits = ranges.network.bits ∧ ranges.network.contains given.addr = true

theorem normalize_eq_ok {raw : String}
    (h : normalizeDirectManagementAddress lib raw pool = .ok text) (hraw : raw ≠ "") :
    ∃ given, text = lib.prefixString given ∧
      parseLooseManagementAddress lib raw ipv4 = .ok given.addr ∧ Fits pool given := by
  unfold normalizeDirectManagementAddress at h
  unfold parseLooseManagementAddress
  rw [if_neg hraw] at h
  cases hparse : lib.parsePrefix raw with
  | some declared =>
    simp only [hparse] at h ⊢
    split at h
    · cases h
    · next hfamily =>
      rw [not_not] at hfamily
      split at h
      · cases h
      · next hpool =>
        cases h
        refine ⟨declared, rfl, if_neg (not_not.mpr hfamily), hfamily, fun ranges hranges => ?_⟩
        subst hranges
        simpa using hpool
  | none =>
    simp only [hparse] at h ⊢
    cases haddr : lib.parseAddr raw with
    | none =>
      simp only [haddr] at h
      cases h
    | some address =>
      simp only [haddr] at h ⊢
      split at h
      · cases h
      · next hfamily =>
        rw [not_not] at hfamily
        cases pool with
        | none => cases h
        | some ranges =>
          dsimp only at h
          split at h
          · cases h
          · next hcontains =>
            rw [Bool.not_eq_true, Bool.not_eq_false'] at hcontains
            obtain ⟨given, htext, rfl, hbits⟩ := prefixFromString_of_contains lib hcontains
            cases h
            refine ⟨given, htext, if_neg (not_not.mpr hfamily), hfamily, fun ranges' hranges => ?_⟩
            cases hranges
            exact ⟨hbits, hcontains⟩

theorem normalize_empty (pool : DirectManagementPool ipv4) :
    normalizeDirectManagementAddress lib "" pool = .ok "" := if_pos rfl

inductive MemberGiven (lib : Library) (family : FamilyPool ipv4) (name : String)
    (node : ManagedNode) : String → Prop where
  | explicit (given : Prefix) (hexplicit : explicitAddress lib ipv4 node = some given.addr)
      (hfits : Fits family.pool given) :
      MemberGiven lib family name node (lib.prefixString given)
  | allocated (hdeclared : declared ipv4 node = "") :
      MemberGiven lib family name node (family.allocations[name]?.getD "")

theorem memberGiven_of_normalized {normalized : String}
    (h : normalizeDirectManagementAddress lib (declared ipv4 node) family.pool = .ok normalized) :
    MemberGiven lib family name node
      (if normalized = "" then family.allocations[name]?.getD "" else normalized) := by
  by_cases hdeclared : declared ipv4 node = ""
  · rw [hdeclared, normalize_empty, ok.injEq] at h
    rw [if_pos h.symm]
    exact .allocated hdeclared
  · obtain ⟨given, rfl, hparse, hfits⟩ := normalize_eq_ok h hdeclared
    rw [if_neg (lib.prefixString_ne_empty given)]
    refine .explicit given ?_ hfits
    rw [explicitAddress, if_neg hdeclared, hparse]
    rfl

theorem memberAddress_eq_ok {field : String}
    (h : memberAddress lib family field name node = .ok text) : ∃ normalized,
      normalizeDirectManagementAddress lib (declared ipv4 node) family.pool = .ok normalized ∧
      (if normalized = "" then family.allocations[name]?.getD "" else normalized) = text := by
  unfold memberAddress at h
  cases hnormalize : normalizeDirectManagementAddress lib (declared ipv4 node) family.pool with
  | error => simp only [hnormalize] at h; cases h
  | ok normalized =>
    simp only [hnormalize] at h
    split at h
    · cases h
    · exact ⟨normalized, rfl, ok.inj h⟩

theorem memberGiven_of_memberAddress {field : String}
    (h : memberAddress lib family field name node = .ok text) :
    MemberGiven lib family name node text := by
  obtain ⟨normalized, hnormalize, rfl⟩ := memberAddress_eq_ok h
  exact memberGiven_of_normalized hnormalize

/-- The allocations of a family are those of a successful allocation among unambiguous Nodes. -/
structure Supplied (lib : Library) (nodes : NodeSet) (family : FamilyPool ipv4) : Prop where
  unambiguous : Unambiguous lib nodes ipv4
  allocated : ∃ orders, allocateDirectManagementAddresses lib orders nodes family.pool
    family.gateway = .ok family.allocations

/-- The settings of a policy and the pools that come from them. -/
structure FromPolicy (lib : Library) (mgmt : Option ManagementPolicy) (pools : NamespacePools)
    (settings : ManagementPolicy) : Prop where
  settings_eq : applyDefaultManagementPolicy lib (mgmt.getD {}) = .ok settings
  ipv4_pool : newDirectManagementPool lib settings.ipv4Subnet settings.ipv4Range true =
    .ok pools.ipv4.pool
  ipv6_pool : newDirectManagementPool lib settings.ipv6Subnet settings.ipv6Range false =
    .ok pools.ipv6.pool
  ipv4_gateway : pools.ipv4.gateway = settings.ipv4Gw
  ipv6_gateway : pools.ipv6.gateway = settings.ipv6Gw

variable {pools : NamespacePools}

theorem namespacePools_eq_ok (h : namespacePools lib orders nodes mgmt = .ok pools) :
    ∃ settings, FromPolicy lib mgmt pools settings ∧
      allocateDirectManagementAddresses lib orders nodes pools.ipv4.pool pools.ipv4.gateway =
        .ok pools.ipv4.allocations ∧
      allocateDirectManagementAddresses lib orders nodes pools.ipv6.pool pools.ipv6.gateway =
        .ok pools.ipv6.allocations := by
  unfold namespacePools at h
  split at h
  · cases h
  · next settings hsettings =>
    split at h
    · cases h
    · next pool4 h4 =>
      split at h
      · cases h
      · next pool6 h6 =>
        split at h
        · cases h
        · next allocations4 ha4 =>
          split at h
          · cases h
          · next allocations6 ha6 =>
            simp only [ok.injEq] at h
            subst h
            exact ⟨settings, ⟨hsettings, h4, h6, rfl, rfl⟩, ha4, ha6⟩

theorem newDirectManagementPool_eq_ok {subnet addressRange : String}
    (h : newDirectManagementPool lib subnet addressRange ipv4 = .ok pool) (hsubnet : subnet ≠ "") :
    ∃ ranges network allocation, pool = some ranges ∧ lib.parsePrefix subnet = some network ∧
      lib.parsePrefix (if addressRange = "" then subnet else addressRange) = some allocation ∧
      ranges.network = network.masked ∧ ranges.allocation = allocation.masked := by
  unfold newDirectManagementPool at h
  rw [if_neg hsubnet] at h
  split at h
  · cases h
  · next network hparse =>
    split at h
    · split at h
      · next hrange =>
        cases h
        exact ⟨_, network, network, rfl, hparse, by rw [if_pos hrange, hparse], rfl, rfl⟩
      · next hrange =>
        rw [if_neg hrange]
        split at h
        · cases h
        · next allocation hparse' =>
          split at h
          · cases h
          · split at h
            · cases h
              exact ⟨_, network, allocation, rfl, hparse, hparse', rfl, rfl⟩
            · cases h
    · cases h

theorem ipv4Subnet_ne_empty {settings settings' : ManagementPolicy}
    (h : applyDefaultManagementPolicy lib settings = .ok settings') :
    settings'.ipv4Subnet ≠ "" := by
  unfold applyDefaultManagementPolicy at h
  dsimp only at h
  have hsubnet : (if settings.ipv4Subnet = "" then defaultManagementIPv4Subnet
      else settings.ipv4Subnet) ≠ "" := by
    split
    · decide
    · assumption
  split at h
  · cases h
  · split at h
    · cases h
      exact hsubnet
    · split at h
      · cases h
      · cases h
        exact hsubnet

section Family

variable {family : FamilyPool ipv4} {ranges : ManagementRanges ipv4} {node' : ManagedNode}

theorem allocation_eq_some {given : Prefix}
    (h : family.allocations[name]?.getD "" = lib.prefixString given) :
    family.allocations[name]? = some (lib.prefixString given) := by
  cases hname : family.allocations[name]? with
  | none =>
    rw [hname] at h
    exact absurd h.symm (lib.prefixString_ne_empty given)
  | some text =>
    rw [hname] at h
    exact congrArg some h

section

variable (h : Supplied lib nodes family)

include h

theorem Supplied.exists_ranges
    (htext : family.allocations[name]? = some text) : ∃ ranges, family.pool = some ranges := by
  obtain ⟨orders, hallocated⟩ := h.allocated
  cases hpool : family.pool with
  | none =>
    rw [hpool] at hallocated
    have hempty : (∅ : GoMap String String) = family.allocations := ok.inj hallocated
    rw [← hempty] at htext
    simp at htext
  | some ranges => exact ⟨ranges, rfl⟩

theorem Supplied.allocation (hpool : family.pool = some ranges)
    (hnode : nodes.byName[name]? = some node) (hdeclared : declared ipv4 node = "") :
    ∃ gateway given, GatewayAddress lib family.gateway gateway ∧
      family.allocations[name]? = some (lib.prefixString given) ∧
      Allocated ranges gateway given ∧
      ∀ (other : String) (node' : ManagedNode), nodes.byName[other]? = some node' →
        explicitAddress lib ipv4 node' ≠ some given.addr := by
  obtain ⟨orders, hallocated⟩ := h.allocated
  rw [hpool] at hallocated
  obtain ⟨gateway, hgateway, hgiven, -⟩ := allocate_spec h.unambiguous hallocated
  obtain ⟨given, hresult⟩ := hgiven name node hnode hdeclared
  exact ⟨gateway, given, hgateway, hresult⟩

theorem Supplied.given_spec {given : Prefix} (hnode : nodes.byName[name]? = some node)
    (hdeclared : declared ipv4 node = "")
    (hgiven : family.allocations[name]? = some (lib.prefixString given)) :
    (∃ ranges, family.pool = some ranges ∧ ranges.allocation.contains given.addr = true) ∧
      ∀ (other : String) (node' : ManagedNode), nodes.byName[other]? = some node' →
        explicitAddress lib ipv4 node' ≠ some given.addr := by
  obtain ⟨ranges, hpool⟩ := h.exists_ranges hgiven
  obtain ⟨gateway, given', -, hresult, hallocated, hexplicit⟩ := h.allocation hpool hnode hdeclared
  rw [hgiven, some.injEq] at hresult
  rw [lib.prefixString_injective hresult]
  exact ⟨⟨ranges, hpool, hallocated.inRange⟩, hexplicit⟩

end

/-- The two families give addresses alike, or from ranges that are apart. -/
def FamiliesApart (family family' : FamilyPool ipv4) : Prop :=
  (family.pool = family'.pool ∧ family.gateway = family'.gateway) ∨
    ∀ ranges ranges', family.pool = some ranges → family'.pool = some ranges' →
      ranges.allocation.apart ranges'.allocation = true

theorem supplied_of_allocation (h : family.allocations = ∅ ∨ Supplied lib nodes family)
    (hallocated : family.allocations[name]? = some text) : Supplied lib nodes family := by
  refine h.resolve_left fun hempty => ?_
  rw [hempty] at hallocated
  simp at hallocated

theorem addr_ne_of_apart {family' : FamilyPool ipv4} (hunambiguous : Unambiguous lib nodes ipv4)
    (hfamily : family.allocations = ∅ ∨ Supplied lib nodes family)
    (hfamily' : family'.allocations = ∅ ∨ Supplied lib nodes family')
    (hapart : declared ipv4 node = "" → declared ipv4 node' = "" → FamiliesApart family family')
    {name' text' : String} (hnode : nodes.byName[name]? = some node)
    (hnode' : nodes.byName[name']? = some node') (hne : name ≠ name')
    (hgiven : MemberGiven lib family name node text)
    (hgiven' : MemberGiven lib family' name' node' text') {given given' : Prefix}
    (htext : text = lib.prefixString given) (htext' : text' = lib.prefixString given') :
    given.addr ≠ given'.addr := by
  intro haddr
  cases hgiven with
  | explicit p hexplicit =>
    obtain rfl := lib.prefixString_injective htext
    cases hgiven' with
    | explicit q hexplicit' =>
      obtain rfl := lib.prefixString_injective htext'
      rw [haddr] at hexplicit
      exact hne (hunambiguous name name' node node' _ hnode hnode' hexplicit hexplicit')
    | allocated hdeclared' =>
      have hallocated' := allocation_eq_some htext'
      rw [haddr] at hexplicit
      have hsupplied' := supplied_of_allocation hfamily' hallocated'
      exact (hsupplied'.given_spec hnode' hdeclared' hallocated').2 name node hnode hexplicit
  | allocated hdeclared =>
    have hallocated := allocation_eq_some htext
    have hsupplied := supplied_of_allocation hfamily hallocated
    cases hgiven' with
    | explicit q hexplicit' =>
      obtain rfl := lib.prefixString_injective htext'
      rw [← haddr] at hexplicit'
      exact (hsupplied.given_spec hnode hdeclared hallocated).2 name' node' hnode' hexplicit'
    | allocated hdeclared' =>
      have hallocated' := allocation_eq_some htext'
      have hsupplied' := supplied_of_allocation hfamily' hallocated'
      rcases hapart hdeclared hdeclared' with ⟨hpool, hgateway⟩ | hranges
      · obtain ⟨orders, h⟩ := hsupplied.allocated
        have hsame : family'.allocations = family.allocations := by
          obtain ⟨orders', h'⟩ := hsupplied'.allocated
          rw [← hpool, ← hgateway, allocate_eq orders' orders hunambiguous, h] at h'
          exact (ok.inj h').symm
        rw [hsame] at hallocated'
        obtain ⟨ranges, hranges⟩ := hsupplied.exists_ranges hallocated
        rw [hranges] at h
        obtain ⟨-, -, -, hinjective⟩ := allocate_spec hunambiguous h
        exact hne (hinjective name name' given given' hallocated hallocated' haddr)
      · obtain ⟨⟨ranges, hpool, hin⟩, -⟩ := hsupplied.given_spec hnode hdeclared hallocated
        obtain ⟨⟨ranges', hpool', hin'⟩, -⟩ :=
          hsupplied'.given_spec hnode' hdeclared' hallocated'
        have hout := Prefix.not_contains_of_apart (hranges ranges ranges' hpool hpool') hin
        rw [haddr, hin'] at hout
        cases hout

theorem Supplied.is4_of_given (h : Supplied lib nodes family)
    (hnode : nodes.byName[name]? = some node) (hgiven : MemberGiven lib family name node text)
    {given : Prefix} (htext : text = lib.prefixString given) : given.addr.is4 = ipv4 := by
  cases hgiven with
  | explicit p hexplicit hfits =>
    rw [← lib.prefixString_injective htext]
    exact hfits.1
  | allocated hdeclared =>
    obtain ⟨⟨ranges, -, hin⟩, -⟩ := h.given_spec hnode hdeclared (allocation_eq_some htext)
    rw [← ranges.network_is4]
    exact (Prefix.is4_of_contains (ranges.inside _ hin)).1

theorem Supplied.given_of_enabled (h : Supplied lib nodes family)
    (hpool : family.pool = some ranges) (hnode : nodes.byName[name]? = some node)
    (hgiven : MemberGiven lib family name node text) :
    ∃ given, text = lib.prefixString given ∧ given.bits = ranges.network.bits ∧
      ranges.network.contains given.addr = true := by
  cases hgiven with
  | explicit given hexplicit hfits => exact ⟨given, rfl, hfits.2 ranges hpool⟩
  | allocated hdeclared =>
    obtain ⟨gateway, given, -, hresult, hallocated, -⟩ := h.allocation hpool hnode hdeclared
    rw [hresult, getD_some]
    exact ⟨given, rfl, hallocated.bits, ranges.inside _ hallocated.inRange⟩

end Family

def Realizes (lib : Library) (nodes : NodeSet) (pools : NamespacePools) (name : String)
    (value : ManagementInput) : Prop :=
  ∃ node, nodes.managed name = some node ∧ value.nodeID = node.uid ∧
    memberAddress lib pools.ipv4 "mgmtIPv4" name node = .ok value.ipv4 ∧
    memberAddress lib pools.ipv6 "mgmtIPv6" name node = .ok value.ipv6

theorem Realizes.given {value : ManagementInput} (h : Realizes lib nodes pools name value) :
    ∃ node, nodes.managed name = some node ∧ value.nodeID = node.uid ∧
      MemberGiven lib pools.ipv4 name node value.ipv4 ∧
      MemberGiven lib pools.ipv6 name node value.ipv6 := by
  obtain ⟨node, hmanaged, huid, h4, h6⟩ := h
  exact ⟨node, hmanaged, huid, memberGiven_of_memberAddress h4, memberGiven_of_memberAddress h6⟩

theorem compileMember_eq_ok (h : compileMember lib nodes pools inboundPorts state name = .ok state')
    : (nodes.managed name = none ∧ state' = state) ∨
      ∃ value, Realizes lib nodes pools name value ∧
        (value.ipv4 ≠ "" → state'.1 = state.1 ++ [value]) := by
  unfold compileMember at h
  cases hmanaged : nodes.managed name with
  | none =>
    rw [hmanaged] at h
    cases h
    exact .inl ⟨rfl, rfl⟩
  | some node =>
    simp only [hmanaged] at h
    split at h
    · cases h
    · next ipv4 h4 =>
      split at h
      · cases h
      · next ipv6 h6 =>
        split at h
        · cases h
        · split at h
          · cases h
          · split at h
            · cases h
            · cases h
              refine .inr ⟨_, ⟨node, hmanaged, rfl, h4, h6⟩, fun hipv4 => if_pos ?_⟩
              have hne : (ipv4 != "") = true := bne_iff_ne.mpr hipv4
              simp [nonemptyIntent, hne]

def NodeSet.managedMembers (nodes : NodeSet) (group : List String) : List String :=
  group.filter fun name => (nodes.managed name).isSome

theorem compileMembers_forall₂
    (hne : ∀ name value, Realizes lib nodes pools name value → value.ipv4 ≠ "")
    (h : performAll (compileMember lib nodes pools inboundPorts) state group = .ok state') :
    ∃ values, state'.1 = state.1 ++ values ∧
      List.Forall₂ (Realizes lib nodes pools) (nodes.managedMembers group) values := by
  induction group generalizing state with
  | nil =>
    cases h
    exact ⟨[], (append_nil _).symm, .nil⟩
  | cons name rest ih =>
    obtain ⟨next, hnext, h⟩ := performAll_cons_eq_ok.mp h
    obtain ⟨values, hvalues, hrest⟩ := ih h
    rcases compileMember_eq_ok hnext with ⟨hmanaged, rfl⟩ | ⟨value, hvalue, hadded⟩
    · refine ⟨values, hvalues, ?_⟩
      rwa [NodeSet.managedMembers, filter_cons_of_neg (by simp [hmanaged])]
    · refine ⟨value :: values, ?_, ?_⟩
      · rw [hvalues, hadded (hne name value hvalue), append_assoc, singleton_append]
      · have hmanaged : (nodes.managed name).isSome = true := by
          obtain ⟨node, hnode, -⟩ := hvalue
          rw [hnode, isSome_some]
        rw [NodeSet.managedMembers, filter_cons, if_pos hmanaged]
        exact .cons hvalue hrest

theorem byName_of_managed (h : nodes.managed name = some node) : nodes.byName[name]? = some node :=
  eq_some_of_filter_eq_some h

/-- What a successful compilation of a group has used, and what it gives. -/
theorem compile_eq_ok {result : List ManagementInput}
    (h : compileDirectManagement lib orders nodes mgmt inboundPorts group = .ok result) :
    (mgmt.any (·.disabled) = true ∧ result = []) ∨
      mgmt.any (·.disabled) = false ∧ ∃ pools settings,
        namespacePools lib orders nodes mgmt = .ok pools ∧ FromPolicy lib mgmt pools settings ∧
        Supplied lib nodes pools.ipv4 ∧ Supplied lib nodes pools.ipv6 ∧
        List.Forall₂ (Realizes lib nodes pools) (nodes.managedMembers group) result := by
  unfold compileDirectManagement at h
  split at h
  · next hdisabled =>
    refine .inl ⟨hdisabled, ?_⟩
    induction group with
    | nil =>
      cases h
      rfl
    | cons name rest ih =>
      rw [disabledConflict] at h
      split at h
      · exact ih h
      · split at h
        · cases h
        · exact ih h
  · next hdisabled =>
    cases hunique : validateUniqueExplicitManagementAddresses lib orders nodes with
    | error => simp only [hunique] at h; cases h
    | ok =>
      simp only [hunique] at h
      split at h
      · cases h
      · next pools hpools =>
        split at h
        · cases h
        · next state hall =>
          simp only [ok.injEq] at h
          subst h
          have hunambiguous := unambiguous_of_validateUnique hunique
          obtain ⟨settings, hfrom, h4, h6⟩ := namespacePools_eq_ok hpools
          have hsupplied4 : Supplied lib nodes pools.ipv4 := ⟨hunambiguous true, orders, h4⟩
          have hsupplied6 : Supplied lib nodes pools.ipv6 := ⟨hunambiguous false, orders, h6⟩
          have hne : ∀ name value, Realizes lib nodes pools name value → value.ipv4 ≠ "" := by
            intro name value hvalue
            obtain ⟨node, hnode, -, hgiven, -⟩ := hvalue.given
            obtain ⟨ranges, -, -, hpool, -⟩ := newDirectManagementPool_eq_ok hfrom.ipv4_pool
              (ipv4Subnet_ne_empty hfrom.settings_eq)
            obtain ⟨given, hgiven, -⟩ :=
              hsupplied4.given_of_enabled hpool (byName_of_managed hnode) hgiven
            rw [hgiven]
            exact lib.prefixString_ne_empty given
          obtain ⟨values, hvalues, hforall⟩ := compileMembers_forall₂ hne hall
          rw [nil_append] at hvalues
          rw [hvalues]
          exact .inr ⟨eq_false_of_ne_true hdisabled, pools, settings, hpools, hfrom, hsupplied4,
            hsupplied6, hforall⟩

theorem compile_eq (orders orders' : Orders) (mgmt : Option ManagementPolicy)
    (inboundPorts : List Port) (group : List String) :
    compileDirectManagement lib orders nodes mgmt inboundPorts group =
      compileDirectManagement lib orders' nodes mgmt inboundPorts group := by
  unfold compileDirectManagement
  rw [validateUnique_eq orders orders']
  cases hunique : validateUniqueExplicitManagementAddresses lib orders' nodes with
  | error => rfl
  | ok =>
    have hunambiguous := unambiguous_of_validateUnique hunique
    unfold namespacePools
    simp only [allocate_eq orders orders' (hunambiguous true),
      allocate_eq orders orders' (hunambiguous false)]

end Clabernetes.Management
