import Clabernetes.Management.Identities
import Mathlib.Data.List.Dedup

/-!
# The directory of a namespace with several policies

`controllers/node/peerdirectorycontroller.go:121-180`: every management policy in use is compiled
for all Nodes of the namespace, and of what it gives only the peers that use the policy are
published. The compilations do not see each other's allocations.
-/

namespace Clabernetes.Management

open Base DevicePlan Links Std List Option

deriving instance DecidableEq for ManagementPolicy

/-- The Nodes of a namespace, the profile that each refers to (the empty name for none), and the
management policies of the profiles. -/
structure ProfiledNodes where
  nodes : NodeSet
  profileRef : String → String
  profiles : GoMap String (Option ManagementPolicy)

namespace ProfiledNodes

variable (ns : ProfiledNodes)

def policyOf (name : String) : Option (Option ManagementPolicy) :=
  if ns.profileRef name = "" then some none else ns.profiles[ns.profileRef name]?

/-- The policies in use, each once. Policies are told apart by their JSON, which omits what is not
set. -/
def policies : List (Option ManagementPolicy) := (ns.nodes.byName.keys.filterMap ns.policyOf).dedup

/-- The policies are visited in the order of `rank`, and
every compilation visits the Nodes in orders of its own. -/
def reconcileNamespacePeerDirectory (lib : Library)
    (orders : Option ManagementPolicy → Orders) (rank : Option ManagementPolicy → ℕ)
    (podAddressesByNodeUID : GoMap String String) : List PeerIdentity :=
  (ns.policies.insertionSort fun a b => rank a ≤ rank b).flatMap fun policy =>
    (compileNamespaceManagementIdentities lib (orders policy) ns.nodes policy
      podAddressesByNodeUID).filter fun peer => ns.policyOf peer.name = some policy

end ProfiledNodes

variable (settings : ManagementPolicy)

def ManagementPolicy.subnet (ipv4 : Bool) : String :=
  if ipv4 then settings.ipv4Subnet else settings.ipv6Subnet

def ManagementPolicy.range (ipv4 : Bool) : String :=
  if ipv4 then settings.ipv4Range else settings.ipv6Range

def ManagementPolicy.gateway (ipv4 : Bool) : String :=
  if ipv4 then settings.ipv4Gw else settings.ipv6Gw

/-- A policy that publishes peers has these settings after its defaults. -/
def Publishes (lib : Library) (mgmt : Option ManagementPolicy) (settings : ManagementPolicy) :
    Prop :=
  mgmt.any (·.disabled) = false ∧
    applyDefaultManagementPolicy lib (mgmt.getD {}) = .ok settings

def PeerIdentity.address (peer : PeerIdentity) (ipv4 : Bool) : String :=
  if ipv4 then peer.ipv4 else peer.ipv6

/-- A family of a policy, with what the directory has of its allocation: nothing if it failed. -/
def directoryFamily (lib : Library) (orders : Orders) (nodes : NodeSet)
    (settings : ManagementPolicy) {ipv4 : Bool} (pool : DirectManagementPool ipv4) :
    FamilyPool ipv4 where
  pool := pool
  gateway := settings.gateway ipv4
  allocations := (allocateDirectManagementAddresses lib orders nodes pool
    (settings.gateway ipv4)).toOption.getD ∅

variable {lib : Library} {orders orders' : Orders} {nodes : NodeSet} {ipv4 : Bool}
  {family : FamilyPool ipv4} {node : ManagedNode} {name : String}
  {mgmt mgmt' : Option ManagementPolicy} {pods : GoMap String String} {peer : PeerIdentity}
  {given : Prefix}

theorem exists_family_of_mem
    (h : peer ∈ compileNamespaceManagementIdentities lib orders nodes mgmt pods) :
    ∃ settings node, Publishes lib mgmt settings ∧ nodes.byName[peer.name]? = some node ∧
      ∀ ipv4, ∃ pool : DirectManagementPool ipv4,
        newDirectManagementPool lib (settings.subnet ipv4) (settings.range ipv4) ipv4 = .ok pool ∧
        peer.address ipv4 = identityAddress lib pool
          (directoryFamily lib orders nodes settings pool).allocations peer.name node := by
  unfold compileNamespaceManagementIdentities at h
  split at h
  · cases h
  · next hdisabled =>
    rw [Bool.not_eq_true] at hdisabled
    split at h
    · cases h
    · next settings hsettings =>
      split at h
      · cases h
      · next pool4 h4 =>
        split at h
        · cases h
        · next pool6 h6 =>
          simp only [mem_sortBy] at h
          obtain ⟨entry, hentry, hidentity⟩ := mem_filterMap.mp h
          have hnode := mem_visit.mp hentry
          unfold identityOf at hidentity
          split at hidentity
          · cases hidentity
          · dsimp only at hidentity
            split at hidentity
            · cases hidentity
            · cases hidentity
              refine ⟨settings, entry.2, ⟨hdisabled, hsettings⟩, hnode, fun ipv4 => ?_⟩
              cases ipv4 with
              | true => exact ⟨pool4, h4, rfl⟩
              | false => exact ⟨pool6, h6, rfl⟩

theorem directoryFamily_cases (hunambiguous : Unambiguous lib nodes ipv4)
    (settings : ManagementPolicy) (pool : DirectManagementPool ipv4) :
    (directoryFamily lib orders nodes settings pool).allocations = ∅ ∨
      Supplied lib nodes (directoryFamily lib orders nodes settings pool) := by
  cases hallocate : allocateDirectManagementAddresses lib orders nodes pool
      (settings.gateway ipv4) with
  | error err => exact .inl (by simp [directoryFamily, hallocate, Except.toOption])
  | ok allocations =>
    refine .inr ⟨hunambiguous, orders, ?_⟩
    simp [directoryFamily, hallocate, Except.toOption]

theorem given_of_identityAddress (hfamily : family.allocations = ∅ ∨ Supplied lib nodes family)
    (hnode : nodes.byName[name]? = some node)
    (hne : identityAddress lib family.pool family.allocations name node ≠ "") :
    ∃ given, identityAddress lib family.pool family.allocations name node =
        lib.addrString given.addr ∧
      MemberGiven lib family name node (lib.prefixString given) := by
  unfold identityAddress at hne ⊢
  cases hnormalize : normalizeDirectManagementAddress lib (declared ipv4 node) family.pool with
  | error err => simp [hnormalize] at hne
  | ok normalized =>
    simp only [hnormalize] at hne ⊢
    have hmember : MemberGiven lib family name node _ := memberGiven_of_normalized hnormalize
    generalize (if normalized = "" then _ else normalized) = text at hmember hne ⊢
    cases hmember with
    | explicit given hexplicit hfits => exact ⟨given, by simp, .explicit given hexplicit hfits⟩
    | allocated hdeclared =>
      cases hallocated : family.allocations[name]? with
      | none => simp [hallocated] at hne
      | some text =>
        have hsupplied := supplied_of_allocation hfamily hallocated
        obtain ⟨ranges, hpool⟩ := hsupplied.exists_ranges hallocated
        obtain ⟨-, given, -, hgiven, -⟩ := hsupplied.allocation hpool hnode hdeclared
        obtain rfl := some.inj (hallocated.symm.trans hgiven)
        have hmember : MemberGiven lib family name node _ := .allocated hdeclared
        rw [hallocated, getD_some] at hmember
        exact ⟨given, by simp, hmember⟩

/-- Two policies give two Nodes no address in common: in each family in which both Nodes declare
none, the policies give addresses alike, or from ranges that are apart. -/
def PoliciesApart (lib : Library) (mgmt mgmt' : Option ManagementPolicy)
    (node node' : ManagedNode) : Prop :=
  ∀ settings settings', Publishes lib mgmt settings → Publishes lib mgmt' settings' →
    ∀ (ipv4 : Bool) (pool pool' : DirectManagementPool ipv4),
      declared ipv4 node = "" → declared ipv4 node' = "" →
      newDirectManagementPool lib (settings.subnet ipv4) (settings.range ipv4) ipv4 = .ok pool →
      newDirectManagementPool lib (settings'.subnet ipv4) (settings'.range ipv4) ipv4 = .ok pool' →
      (pool = pool' ∧ settings.gateway ipv4 = settings'.gateway ipv4) ∨
        ∀ ranges ranges', pool = some ranges → pool' = some ranges' →
          ranges.allocation.apart ranges'.allocation = true

theorem policiesApart_of_defaults (h : applyDefaultManagementPolicy lib (mgmt.getD {}) =
      applyDefaultManagementPolicy lib (mgmt'.getD {})) (node node' : ManagedNode) :
    PoliciesApart lib mgmt mgmt' node node' := by
  intro settings settings' hsettings hsettings' ipv4 pool pool' _ _ hpool hpool'
  obtain rfl := Except.ok.inj (hsettings.2.symm.trans (h.trans hsettings'.2))
  exact .inl ⟨Except.ok.inj (hpool.symm.trans hpool'), rfl⟩

def AddressesApart (peer peer' : PeerIdentity) : Prop :=
  ∀ ipv4, peer.address ipv4 ≠ "" → peer.address ipv4 ≠ peer'.address ipv4

theorem addressesApart_of_mem (hunambiguous : ∀ ipv4, Unambiguous lib nodes ipv4)
    {peer' : PeerIdentity} (hapart : ∀ node node', nodes.byName[peer.name]? = some node →
      nodes.byName[peer'.name]? = some node' → PoliciesApart lib mgmt mgmt' node node')
    (hpeer : peer ∈ compileNamespaceManagementIdentities lib orders nodes mgmt pods)
    (hpeer' : peer' ∈ compileNamespaceManagementIdentities lib orders' nodes mgmt' pods)
    (hne : peer.name ≠ peer'.name) : AddressesApart peer peer' := by
  obtain ⟨settings, node, hsettings, hnode, hfamily⟩ := exists_family_of_mem hpeer
  obtain ⟨settings', node', hsettings', hnode', hfamily'⟩ := exists_family_of_mem hpeer'
  intro ipv4 hsome hsame
  obtain ⟨pool, hpool, haddress⟩ := hfamily ipv4
  obtain ⟨pool', hpool', haddress'⟩ := hfamily' ipv4
  have hcases := @directoryFamily_cases lib orders nodes ipv4 (hunambiguous ipv4) settings pool
  have hcases' := @directoryFamily_cases lib orders' nodes ipv4 (hunambiguous ipv4) settings' pool'
  obtain ⟨given, hgiven, hmember⟩ := given_of_identityAddress hcases hnode (haddress ▸ hsome)
  obtain ⟨given', hgiven', hmember'⟩ :=
    given_of_identityAddress hcases' hnode' (haddress' ▸ hsame ▸ hsome)
  refine addr_ne_of_apart (hunambiguous ipv4) hcases hcases'
    (fun hdeclared hdeclared' => hapart node node' hnode hnode' settings settings' hsettings
      hsettings' ipv4 pool pool' hdeclared hdeclared' hpool hpool')
    hnode hnode' hne hmember hmember' rfl rfl ?_
  have htext : lib.addrString given.addr = lib.addrString given'.addr :=
    hgiven.symm.trans (haddress.symm.trans (hsame.trans (haddress'.trans hgiven')))
  have hparse := congrArg lib.parseAddr htext
  rwa [lib.parseAddr_addrString _ given.isValid_addr given.zoneless_addr,
    lib.parseAddr_addrString _ given'.isValid_addr given'.zoneless_addr,
    some.injEq] at hparse

theorem nodup_names_of_compile (lib : Library) (orders : Orders) (nodes : NodeSet)
    (mgmt : Option ManagementPolicy) (pods : GoMap String String) :
    ((compileNamespaceManagementIdentities lib orders nodes mgmt pods).map
      PeerIdentity.name).Nodup := by
  have hnodup : ∀ find : NamedNode → Option PeerIdentity,
      (∀ entry identity, find entry = some identity → identity.name = entry.1) →
      ((sortBy PeerIdentity.name
        ((nodes.visit orders .identities).filterMap find)).map PeerIdentity.name).Nodup := by
    intro find hname
    rw [((perm_sortBy PeerIdentity.name _).map PeerIdentity.name).nodup_iff]
    exact nodup_identity_names (nodup_names_visit nodes orders .identities)
      fun entry _ identity hidentity => hname entry identity hidentity
  unfold compileNamespaceManagementIdentities
  split
  · exact nodup_nil
  · split
    · exact nodup_nil
    · split
      · exact nodup_nil
      · split
        · exact nodup_nil
        · apply hnodup
          intro entry identity hidentity
          unfold identityOf at hidentity
          split at hidentity
          · cases hidentity
          · dsimp only at hidentity
            split at hidentity
            · cases hidentity
            · cases hidentity
              rfl

/-- Two Nodes of a subnet with a policy each. The digests are those that SHA-256 gives for their
UIDs. -/
def twoPolicies (policy policy' : ManagementPolicy) : ProfiledNodes where
  nodes := .ofEntries [("r1", { uid := "u11" }), ("r2", { uid := "u18" })] (by decide)
  profileRef := id
  profiles := .ofList [("r1", some policy), ("r2", some policy')]

@[inherit_doc twoPolicies]
def digestLibrary : Library where
  toAddrText := letterText
  sha256 text :=
    if text = "u11\x000" then
      0x9998f63310982fdde202275dab3d209dcf05ada226ebbd9177fb39dad140f08b
    else if text = "u18\x000" then
      0x33b6578a6b8804d20125b1e92502faec283c901d67bc5364f2605ce858e36aba
    else 0
  toLower := id

def wholeSubnet : ManagementPolicy where
  ipv4Subnet := letterText.prefixString (.v4 0x0a000000 24 slash24)

theorem unambiguous_twoPolicies (policy policy' : ManagementPolicy) (ipv4 : Bool) :
    Unambiguous digestLibrary (twoPolicies policy policy').nodes ipv4 := by
  intro name name' node node' address hnode _ hexplicit _
  have hall : ∀ entry ∈ (twoPolicies {} {}).nodes.byName.toList,
      entry.2.mgmtIPv4 = "" ∧ entry.2.mgmtIPv6 = "" := by decide +kernel
  have hnone : declared ipv4 node = "" := by
    obtain ⟨h4, h6⟩ := hall (name, node) (ExtTreeMap.mem_toList_iff_getElem?_eq_some.mpr hnode)
    cases ipv4
    · exact h6
    · exact h4
  rw [explicitAddress, if_pos hnone] at hexplicit
  cases hexplicit

end Clabernetes.Management
