import Clabernetes.Management.Compile

/-!
# Management addresses across groups

Groups that share no member never get one address twice, although each is compiled on its own: all
compilations start from one allocation, whose probing loop gives every Node an address that nobody
holds. Every address lies in its subnet, and an allocated one is nobody's declared address.
-/

namespace Clabernetes.Management

open Base DevicePlan Links Std List Option Prefix Prod

variable {lib : Library} {orders orders' : Orders} {nodes : NodeSet} {ipv4 : Bool}
  {value : ManagementInput} {name : String} {pools : NamespacePools} {node : ManagedNode}
  {family : FamilyPool ipv4} {address : Addr} {text : String}

def givenAddresses (lib : Library) (value : ManagementInput) : List Addr :=
  [value.ipv4, value.ipv6].filterMap fun text => (lib.parsePrefix text).map addr

/-- A text that a family of a policy can give: a prefix of the subnet and, if the Node declares
none, of a usable address of the range that no Node declares. -/
def Suitable (lib : Library) (nodes : NodeSet) (subnet addressRange gateway : String)
    (ipv4 : Bool) (node : ManagedNode) (text : String) : Prop :=
  ∃ network allocation given, lib.parsePrefix subnet = some network ∧
    lib.parsePrefix (if addressRange = "" then subnet else addressRange) = some allocation ∧
    lib.parsePrefix text = some given ∧ given.bits = network.bits ∧
    network.contains given.addr = true ∧
    (declared ipv4 node = "" → allocation.contains given.addr = true ∧
      (∀ address, gateway ≠ "" → lib.parseAddr gateway = some address → given.addr ≠ address) ∧
      given.addr ≠ allocation.masked.addr ∧
      (ipv4 = true → given.addr ≠ lastPrefixAddress allocation.masked) ∧
      ∀ (other : String) (node' : ManagedNode), nodes.byName[other]? = some node' →
        explicitAddress lib ipv4 node' ≠ some given.addr)

theorem suitable_of_given (h : Supplied lib nodes family) {subnet addressRange : String}
    (hsubnet : subnet ≠ "")
    (hpool : newDirectManagementPool lib subnet addressRange ipv4 = .ok family.pool)
    (hnode : nodes.byName[name]? = some node) (hgiven : MemberGiven lib family name node text) :
    Suitable lib nodes subnet addressRange family.gateway ipv4 node text := by
  obtain ⟨ranges, network, allocation, hranges, hnetwork, hallocation, hmasked, hmasked'⟩ :=
    newDirectManagementPool_eq_ok hpool hsubnet
  obtain ⟨given, rfl, hbits, hcontains⟩ := h.given_of_enabled hranges hnode hgiven
  rw [hmasked, bits_masked] at hbits
  rw [hmasked, contains_masked] at hcontains
  refine ⟨network, allocation, given, hnetwork, hallocation, by simp, hbits, hcontains, ?_⟩
  intro hdeclared
  obtain ⟨gateway, given', hgateway, hresult, hallocated, hexplicit⟩ :=
    h.allocation hranges hnode hdeclared
  -- what the Node is given is what was allocated to it
  have hsame : given = given' := by
    generalize htext : lib.prefixString given = text at hgiven
    cases hgiven with
    | explicit p hp =>
      rw [explicitAddress, if_pos hdeclared] at hp
      cases hp
    | allocated =>
      rw [hresult, getD_some] at htext
      exact lib.prefixString_injective htext
  subst hsame
  have husable := hallocated.usable
  have hrange := hallocated.inRange
  rw [hmasked', contains_masked] at hrange
  simp only [usableManagementAddress, hmasked', masked_masked, Bool.and_eq_true,
    bne_iff_ne, Bool.not_eq_true', Bool.and_eq_false_iff, beq_eq_false_iff_ne] at husable
  obtain ⟨⟨⟨-, hfirst⟩, hgateway'⟩, hlast⟩ := husable
  refine ⟨hrange, fun address hne hparse => ?_, hfirst, fun hipv4 => ?_, hexplicit⟩
  · rw [GatewayAddress, if_neg hne, hparse, some.injEq] at hgateway
    rw [hgateway]
    exact hgateway'
  · rcases hlast with hlast | hlast
    · rw [hipv4] at hlast
      cases hlast
    · exact hlast

theorem mem_givenAddresses : address ∈ givenAddresses lib value ↔
      ∃ text given, (text = value.ipv4 ∨ text = value.ipv6) ∧ lib.parsePrefix text = some given ∧
        given.addr = address := by
  simp [givenAddresses, map_eq_some_iff]

theorem parsePrefix_of_given (h : Supplied lib nodes family)
    (hnode : nodes.byName[name]? = some node) (hgiven : MemberGiven lib family name node text) :
    text = "" ∨ ∃ given, text = lib.prefixString given := by
  cases hgiven with
  | explicit given => exact .inr ⟨given, rfl⟩
  | allocated hdeclared =>
    cases hresult : family.allocations[name]? with
    | none => exact .inl rfl
    | some text =>
      obtain ⟨ranges, hpool⟩ := h.exists_ranges hresult
      obtain ⟨gateway, given, -, hresult', -⟩ := h.allocation hpool hnode hdeclared
      rw [hresult, some.injEq] at hresult'
      exact .inr ⟨given, hresult'⟩

section

variable (h4 : Supplied lib nodes pools.ipv4) (h6 : Supplied lib nodes pools.ipv6)
  (hvalue : Realizes lib nodes pools name value)

include h4 h6 hvalue

theorem realizes_address (hmem : address ∈ givenAddresses lib value) :
    ∃ given, given.addr = address ∧
      (if address.is4 then value.ipv4 else value.ipv6) = lib.prefixString given := by
  obtain ⟨node, hmanaged, -, hgiven4, hgiven6⟩ := hvalue.given
  have hnode := byName_of_managed hmanaged
  obtain ⟨text, given, htext, hparse, rfl⟩ := mem_givenAddresses.mp hmem
  refine ⟨given, rfl, ?_⟩
  have hempty : lib.parsePrefix "" = none := rfl
  rcases htext with rfl | rfl
  · rcases parsePrefix_of_given h4 hnode hgiven4 with hnone | ⟨p, hp⟩
    · rw [hnone, hempty] at hparse
      cases hparse
    · rw [hp, lib.parsePrefix_prefixString, some.injEq] at hparse
      subst hparse
      rw [h4.is4_of_given hnode hgiven4 hp, if_pos rfl, hp]
  · rcases parsePrefix_of_given h6 hnode hgiven6 with hnone | ⟨p, hp⟩
    · rw [hnone, hempty] at hparse
      cases hparse
    · rw [hp, lib.parsePrefix_prefixString, some.injEq] at hparse
      subst hparse
      rw [h6.is4_of_given hnode hgiven6 hp, if_neg Bool.false_ne_true, hp]

theorem realizes_disjoint {name' : String} {value' : ManagementInput}
    (hvalue' : Realizes lib nodes pools name' value') (hne : name ≠ name') :
    (givenAddresses lib value).Disjoint (givenAddresses lib value') := by
  intro address hmem hmem'
  obtain ⟨given, haddr, htext⟩ := realizes_address h4 h6 hvalue hmem
  obtain ⟨given', haddr', htext'⟩ := realizes_address h4 h6 hvalue' hmem'
  obtain ⟨node, hmanaged, -, hgiven4, hgiven6⟩ := hvalue.given
  obtain ⟨node', hmanaged', -, hgiven4', hgiven6'⟩ := hvalue'.given
  have hnode := byName_of_managed hmanaged
  have hnode' := byName_of_managed hmanaged'
  have hsame := haddr.trans haddr'.symm
  cases hfamily : address.is4 with
  | true =>
    rw [hfamily, if_pos rfl] at htext htext'
    exact addr_ne_of_apart h4.unambiguous (.inr h4) (.inr h4) (fun _ _ => .inl ⟨rfl, rfl⟩) hnode
      hnode' hne hgiven4 hgiven4' htext htext' hsame
  | false =>
    rw [hfamily, if_neg Bool.false_ne_true] at htext htext'
    exact addr_ne_of_apart h6.unambiguous (.inr h6) (.inr h6) (fun _ _ => .inl ⟨rfl, rfl⟩) hnode
      hnode' hne hgiven6 hgiven6' htext htext' hsame

theorem nodup_givenAddresses : (givenAddresses lib value).Nodup := by
  obtain ⟨node, hmanaged, -, hgiven4, hgiven6⟩ := hvalue.given
  have hnode := byName_of_managed hmanaged
  have hempty : lib.parsePrefix "" = none := rfl
  unfold givenAddresses
  rcases parsePrefix_of_given h4 hnode hgiven4 with h | ⟨p, hp⟩
  · rcases parsePrefix_of_given h6 hnode hgiven6 with h' | ⟨q, hq⟩
    · simp [h, h', hempty]
    · simp [h, hq, hempty]
  · rcases parsePrefix_of_given h6 hnode hgiven6 with h' | ⟨q, hq⟩
    · simp [hp, h', hempty]
    · -- one is IPv4, the other is not
      have hp4 := h4.is4_of_given hnode hgiven4 hp
      have hq6 := h6.is4_of_given hnode hgiven6 hq
      have hne : p.addr ≠ q.addr := by
        intro heq
        rw [heq, hq6] at hp4
        cases hp4
      simp [hp, hq, hne]

end

theorem compiled_forall₂ {mgmt : Option ManagementPolicy}
    {compiled : List (List String × List ManagementInput)}
    (hcompiled : ∀ c ∈ compiled, ∃ orders inboundPorts,
      compileDirectManagement lib orders nodes mgmt inboundPorts c.1 = .ok c.2) :
    compiled.flatMap snd = [] ∨
      ∃ pools, Supplied lib nodes pools.ipv4 ∧ Supplied lib nodes pools.ipv6 ∧
        List.Forall₂ (Realizes lib nodes pools)
          (nodes.managedMembers (compiled.flatMap fst)) (compiled.flatMap snd) := by
  let fixed : Orders := fun _ _ => 0
  cases hdisabled : mgmt.any (·.disabled) with
  | true =>
    left
    rw [flatMap_eq_nil_iff]
    intro c hc
    obtain ⟨orders, inboundPorts, h⟩ := hcompiled c hc
    rcases compile_eq_ok h with ⟨-, hnil⟩ | ⟨hfalse, -⟩
    · exact hnil
    · rw [hdisabled] at hfalse
      cases hfalse
  | false =>
    have hfixed : ∀ c ∈ compiled, ∃ pools, namespacePools lib fixed nodes mgmt = .ok pools ∧
        Supplied lib nodes pools.ipv4 ∧ Supplied lib nodes pools.ipv6 ∧
        List.Forall₂ (Realizes lib nodes pools) (nodes.managedMembers c.1) c.2 := by
      intro c hc
      obtain ⟨orders, inboundPorts, h⟩ := hcompiled c hc
      rw [compile_eq orders fixed] at h
      rcases compile_eq_ok h with ⟨htrue, -⟩ | ⟨-, pools, settings, hpools, -, h4, h6, hforall⟩
      · rw [hdisabled] at htrue
        cases htrue
      · exact ⟨pools, hpools, h4, h6, hforall⟩
    cases compiled with
    | nil => exact .inl rfl
    | cons first rest =>
      right
      obtain ⟨pools, hpools, h4, h6, -⟩ := hfixed first mem_cons_self
      have hall : ∀ c ∈ first :: rest,
          List.Forall₂ (Realizes lib nodes pools) (nodes.managedMembers c.1) c.2 := by
        intro c hc
        obtain ⟨pools', hpools', -, -, hforall⟩ := hfixed c hc
        rw [hpools, Except.ok.injEq] at hpools'
        rwa [hpools']
      refine ⟨pools, h4, h6, ?_⟩
      generalize first :: rest = compiled at hall
      induction compiled with
      | nil => exact .nil
      | cons c rest ih =>
        rw [NodeSet.managedMembers, flatMap_cons, flatMap_cons, filter_append]
        exact rel_append (hall c mem_cons_self)
          (ih fun c hc => hall c (mem_cons_of_mem _ hc))

/-- However Nodes are grouped and loops ordered, the compiled addresses are all different and lie in
the subnet, and allocated ones in the range without its ends, the gateway and declared addresses. -/
theorem management_addresses_unique (lib : Library) (nodes : NodeSet)
    (mgmt : Option ManagementPolicy) (compiled : List (List String × List ManagementInput))
    (hgroups : (compiled.flatMap fst).Nodup)
    (hcompiled : ∀ c ∈ compiled, ∃ orders inboundPorts,
      compileDirectManagement lib orders nodes mgmt inboundPorts c.1 = .ok c.2) :
    (compiled.flatMap fun c => c.2.flatMap (givenAddresses lib)).Nodup ∧
    (mgmt.any (·.disabled) = false → ∀ c ∈ compiled, ∃ settings,
      applyDefaultManagementPolicy lib (mgmt.getD {}) = .ok settings ∧
      List.Forall₂ (fun name value => ∃ node, nodes.managed name = some node ∧
        value.nodeID = node.uid ∧
        Suitable lib nodes settings.ipv4Subnet settings.ipv4Range settings.ipv4Gw true node
          value.ipv4 ∧
        (settings.ipv6Subnet ≠ "" →
          Suitable lib nodes settings.ipv6Subnet settings.ipv6Range settings.ipv6Gw false node
            value.ipv6)) (nodes.managedMembers c.1) c.2) ∧
    ∀ orders orders' inboundPorts group,
      compileDirectManagement lib orders nodes mgmt inboundPorts group =
        compileDirectManagement lib orders' nodes mgmt inboundPorts group := by
  refine ⟨?_, fun hdisabled c hc => ?_, fun orders orders' => compile_eq orders orders' mgmt⟩
  · rw [← flatMap_assoc]
    rcases compiled_forall₂ hcompiled with hnil | ⟨pools, h4, h6, hforall⟩
    · rw [hnil]
      exact nodup_nil
    · rw [nodup_flatMap]
      constructor
      · intro value hvalue
        obtain ⟨name, -, hrealizes⟩ := exists_left_of_forall₂ hforall hvalue
        exact nodup_givenAddresses h4 h6 hrealizes
      · apply pairwise_of_forall₂ hforall (hgroups.filter _)
        intro name name' value value' hvalue hvalue' hne
        exact realizes_disjoint h4 h6 hvalue hvalue' hne
  · obtain ⟨orders, inboundPorts, hc⟩ := hcompiled c hc
    rcases compile_eq_ok hc with ⟨hdis, -⟩ | ⟨-, pools, settings, -, hfrom, h4, h6, hforall⟩
    · rw [hdisabled] at hdis
      cases hdis
    · refine ⟨settings, hfrom.settings_eq, hforall.imp ?_⟩
      intro name value hvalue
      obtain ⟨node, hmanaged, huid, hgiven4, hgiven6⟩ := hvalue.given
      have hnode := byName_of_managed hmanaged
      refine ⟨node, hmanaged, huid, ?_, fun hsubnet => ?_⟩
      · rw [← hfrom.ipv4_gateway]
        exact suitable_of_given h4 (ipv4Subnet_ne_empty hfrom.settings_eq) hfrom.ipv4_pool hnode
          hgiven4
      · rw [← hfrom.ipv6_gateway]
        exact suitable_of_given h6 hsubnet hfrom.ipv6_pool hnode hgiven6

def plainLibrary : Library where
  toAddrText := letterText
  sha256 text := BitVec.ofNat 256 (text.toList.foldl (fun n c => 31 * n + c.toNat) 7 * 2 ^ 248)
  toLower := String.toLower

theorem mem_of_getElem?_ofList {entries : List NamedNode}
    (h : (ExtTreeMap.ofList entries : GoMap String ManagedNode)[name]? = some node) :
    name ∈ entries.map fst := by
  by_contra hmem
  rw [ExtTreeMap.getElem?_ofList_of_contains_eq_false] at h
  · cases h
  · simpa using hmem

def NodeSet.ofEntries (entries : List NamedNode)
    (h : ∀ name ∈ entries.map fst, name ≠ "" ∧ '\x00' ∉ name.toList) : NodeSet where
  byName := .ofList entries
  name_ne_empty name _ hnode := (h name (mem_of_getElem?_ofList hnode)).1
  nul_notMem_name name _ hnode := (h name (mem_of_getElem?_ofList hnode)).2

def fourNodes : NodeSet :=
  .ofEntries
    [("a", { uid := "1" }), ("b", { uid := "2", networkMode := "container:a" }),
      ("c", { uid := "3", mgmtIPv4 := letterText.addrString (.v4 0x0a000007) }),
      ("d", { uid := "4" })] (by decide)

def twoSubnets : ManagementPolicy where
  ipv4Subnet := letterText.prefixString (.v4 0x0a000000 24 (by decide))
  ipv6Subnet := letterText.prefixString (.v6 0xfd000000000000000000000000000000 120 (by decide))

theorem fourNodes_addresses_unique : ∃ first second,
    compileDirectManagement plainLibrary (fun _ _ => 0) fourNodes (some twoSubnets) [] ["a", "b"] =
        .ok first ∧
      compileDirectManagement plainLibrary (fun _ _ => 0) fourNodes (some twoSubnets) []
          ["c", "d"] = .ok second ∧
      first.length = 1 ∧ second.length = 2 ∧
      ([(["a", "b"], first), (["c", "d"], second)].flatMap fun c =>
        c.2.flatMap (givenAddresses plainLibrary)).Nodup := by
  obtain ⟨first, hfirst, hlength⟩ : ∃ first,
      compileDirectManagement plainLibrary (fun _ _ => 0) fourNodes (some twoSubnets) []
        ["a", "b"] = .ok first ∧ first.length = 1 := by
    decide +kernel
  obtain ⟨second, hsecond, hlength'⟩ : ∃ second,
      compileDirectManagement plainLibrary (fun _ _ => 0) fourNodes (some twoSubnets) []
        ["c", "d"] = .ok second ∧ second.length = 2 := by
    decide +kernel
  refine ⟨first, second, hfirst, hsecond, hlength, hlength', ?_⟩
  have hgroups : ["a", "b", "c", "d"].Nodup := by decide
  apply (management_addresses_unique plainLibrary fourNodes (some twoSubnets)
    [(["a", "b"], first), (["c", "d"], second)] hgroups _).1
  intro c hc
  rcases mem_pair.mp hc with rfl | rfl
  · exact ⟨fun _ _ => 0, [], hfirst⟩
  · exact ⟨fun _ _ => 0, [], hsecond⟩

end Clabernetes.Management
