import Clabernetes.Management.Uniqueness

/-!
# Host addresses

`controllers/node/directmanagement.go`. The first address of a subnet, the last one of an IPv4
subnet and the gateway are no host addresses. Which addresses a Node may have is checked against
the allocation range.
-/

namespace Clabernetes.Management

open Base Std List Option

section Ends
variable {w bits : Nat}

variable (bit : Bool)

/-- The network address of a text, with ones or zeros behind it. -/
def endOf (ip : BitVec w) (bits : Nat) : BitVec w :=
  fillFrom (networkAddress ip bits) bits fun _ => bit

theorem getMsbD_endOf_of_le (ip : BitVec w) {i : Nat} (hbits : bits ≤ i) (hi : i < w) :
    (endOf bit ip bits).getMsbD i = bit :=
  getMsbD_fillFrom_of_le _ _ hbits hi

theorem getMsbD_endOf_of_lt (ip : BitVec w) {i : Nat} (hbits : bits ≤ w)
    (hi : i < bits) : (endOf bit ip bits).getMsbD i = ip.getMsbD i := by
  rw [endOf, getMsbD_fillFrom_of_lt _ _ hbits hi, getMsbD_networkAddress_of_lt ip hbits hi]

theorem endOf_false (ip : BitVec w) (hbits : bits ≤ w) :
    endOf false ip bits = networkAddress ip bits := by
  apply BitVec.eq_of_getMsbD_eq
  intro i hi
  rw [getMsbD_networkAddress ip hbits]
  by_cases hlt : i < bits
  · simp [getMsbD_endOf_of_lt false ip hbits hlt, hlt]
  · simp [getMsbD_endOf_of_le false ip (Nat.le_of_not_lt hlt) hi, hlt]

theorem endOf_eq {bit : Bool} {ip ip' : BitVec w} {bits' : Nat} (hbits : bits ≤ w)
    (hbits' : bits' ≤ w) (h : sameNetwork bits' (endOf bit ip bits) ip' = true)
    (h' : sameNetwork bits (endOf bit ip' bits') ip = true) :
    endOf bit ip bits = endOf bit ip' bits' := by
  rw [sameNetwork_iff (by assumption)] at h h'
  apply BitVec.eq_of_getMsbD_eq
  intro i hi
  by_cases hlt : i < bits
  · rw [getMsbD_endOf_of_lt bit ip hbits hlt, h' i hlt]
  · by_cases hlt' : i < bits'
    · rw [getMsbD_endOf_of_lt bit ip' hbits' hlt', h i hlt']
    · rw [getMsbD_endOf_of_le bit ip (by omega) hi, getMsbD_endOf_of_le bit ip' (by omega) hi]

def endAddress : Prefix → Addr
  | .v4 ip bits _ => .v4 (endOf bit ip bits)
  | .v6 ip bits _ => .v6 (endOf bit ip bits) ""

theorem endAddress_true (range : Prefix) : endAddress true range = lastPrefixAddress range := by
  have hfold : ∀ {w bits : Nat} (ip : BitVec w), 8 ∣ w → endOf true ip bits =
      foldFrom (networkAddress ip bits) bits fun value bit => value ||| byteMask w bit := by
    intro w bits ip hw
    refine (foldFrom_eq_fillFrom _ fun value i hi => ?_).symm
    rw [byteMask_eq hw hi]
    rfl
  cases range with
  | v4 ip => exact congrArg Addr.v4 (hfold ip (by decide))
  | v6 ip => exact congrArg (Addr.v6 · "") (hfold ip (by decide))

theorem endAddress_false (range : Prefix) : endAddress false range = range.masked.addr := by
  cases range with
  | v4 ip bits hbits => exact congrArg Addr.v4 (endOf_false ip hbits)
  | v6 ip bits hbits => exact congrArg (Addr.v6 · "") (endOf_false ip hbits)

theorem contains_endAddress (range : Prefix) : range.contains (endAddress bit range) = true := by
  cases range with
  | v4 ip bits hbits =>
    exact (sameNetwork_iff hbits _ _).mpr fun i hi => getMsbD_endOf_of_lt bit ip hbits hi
  | v6 ip bits hbits =>
    simpa [endAddress, Prefix.contains] using
      (sameNetwork_iff hbits _ _).mpr fun i hi => getMsbD_endOf_of_lt bit ip hbits hi

theorem ManagementRanges.endAddress_eq {ipv4 : Bool} (ranges : ManagementRanges ipv4) {bit : Bool}
    (h : ranges.allocation.contains (endAddress bit ranges.network) = true) :
    endAddress bit ranges.network = endAddress bit ranges.allocation := by
  have h' := ranges.inside _ (contains_endAddress bit ranges.allocation)
  generalize ranges.network = network at *
  generalize ranges.allocation = allocation at *
  cases network <;> cases allocation <;> simp_all [endAddress, Prefix.contains]
  all_goals exact endOf_eq (by assumption) (by assumption) h h'

end Ends

variable {lib : Library} {orders : Orders} {nodes : NodeSet} {ipv4 : Bool}
  {name field : String} {node : ManagedNode} {mgmt : Option ManagementPolicy}
  {family : FamilyPool ipv4} {ranges : ManagementRanges ipv4} {given : Prefix}

def IsEnd (ipv4 : Bool) (range : Prefix) (address : Addr) : Prop :=
  address = range.masked.addr ∨ ipv4 = true ∧ address = lastPrefixAddress range

def gatewayAddress (lib : Library) (gateway : String) : Addr :=
  if gateway = "" then .zero else (lib.parseAddr gateway).getD .zero

section
variable (lib : Library) (family : FamilyPool ipv4) (node : ManagedNode)
  (ranges : ManagementRanges ipv4)

def HostAddress (address : Addr) : Prop :=
  ¬IsEnd ipv4 ranges.network address ∧ address ≠ gatewayAddress lib family.gateway

/-- A declared prefix has the length of the subnet; an address alone has none. -/
def LengthFits : Prop :=
  ∀ given, lib.parsePrefix (declared ipv4 node) = some given → given.bits = ranges.network.bits

/-- A Node gets host addresses only, and the one in the subnet that it declares, with or without a
prefix length. -/
structure GivesHosts (field name : String) : Prop where
  host : ∀ given, memberAddress lib family field name node = .ok (lib.prefixString given) →
    HostAddress lib family ranges given.addr
  accepted : ∀ address, explicitAddress lib ipv4 node = some address →
    ranges.network.contains address = true → HostAddress lib family ranges address →
    ∃ given, given.addr = address ∧
      memberAddress lib family field name node = .ok (lib.prefixString given)

/-- A declared address in the subnet other than the gateway is no end of the subnet exactly if its
length fits and it is no end of the range. -/
def EndsAgree : Prop :=
  ∀ address, explicitAddress lib ipv4 node = some address →
    ranges.network.contains address = true → address ≠ gatewayAddress lib family.gateway →
    (¬IsEnd ipv4 ranges.network address ↔
      LengthFits lib node ranges ∧ ¬IsEnd ipv4 ranges.allocation address)

end

theorem usableManagementAddress_iff {gateway : Addr} :
    usableManagementAddress ranges given.addr gateway = true ↔
      ¬IsEnd ipv4 ranges.allocation given.addr ∧ given.addr ≠ gateway := by
  cases ipv4 <;> simp [usableManagementAddress, IsEnd]
  tauto

theorem validateHost_eq_ok (hpool : family.pool = some ranges) :
    validateDirectManagementHostAddress lib (lib.prefixString given) family.pool family.gateway =
      .ok () ↔ ¬IsEnd ipv4 ranges.allocation given.addr ∧
        given.addr ≠ gatewayAddress lib family.gateway := by
  rw [← usableManagementAddress_iff]
  simp [validateDirectManagementHostAddress, hpool, lib.prefixString_ne_empty, gatewayAddress]

theorem memberAddress_of_normalized (field name : String) (hpool : family.pool = some ranges)
    (h : normalizeDirectManagementAddress lib (declared ipv4 node) family.pool =
      .ok (lib.prefixString given)) :
    memberAddress lib family field name node = .ok (lib.prefixString given) ↔
      ¬IsEnd ipv4 ranges.allocation given.addr ∧
        given.addr ≠ gatewayAddress lib family.gateway := by
  rw [← validateHost_eq_ok hpool]
  unfold memberAddress
  rw [h]
  simp only [lib.prefixString_ne_empty, ↓reduceIte]
  cases validateDirectManagementHostAddress lib (lib.prefixString given) family.pool
    family.gateway <;> simp

theorem normalizes_iff {address : Addr} (hpool : family.pool = some ranges)
    (h : explicitAddress lib ipv4 node = some address)
    (hcontains : ranges.network.contains address = true) :
    (∃ text, normalizeDirectManagementAddress lib (declared ipv4 node) family.pool = .ok text) ↔
      LengthFits lib node ranges := by
  rw [explicitAddress] at h
  split_ifs at h with hne
  unfold parseLooseManagementAddress at h
  unfold normalizeDirectManagementAddress LengthFits
  rw [if_neg hne, hpool]
  cases hparse : lib.parsePrefix (declared ipv4 node) with
  | some given =>
    simp only [hparse] at h ⊢
    split_ifs at h with hfamily
    · cases h
    · cases h
      by_cases hbits : given.bits = ranges.network.bits <;> simp [if_neg hfamily, hcontains, hbits]
  | none =>
    cases haddr : lib.parseAddr (declared ipv4 node) with
    | none => simp [hparse, haddr, Except.toOption] at h
    | some found =>
      simp only [hparse, haddr] at h ⊢
      split_ifs at h with hfamily
      · cases h
      · cases h
        simp [if_neg hfamily, hcontains]

/-- What a Node is given is what it declares, in the length of the subnet, or is allocated. -/
theorem normalized_or_allocated (hpool : family.pool = some ranges)
    (h : memberAddress lib family field name node = .ok (lib.prefixString given)) :
    (explicitAddress lib ipv4 node = some given.addr ∧
      ranges.network.contains given.addr = true ∧ LengthFits lib node ranges ∧
      ¬IsEnd ipv4 ranges.allocation given.addr ∧
        given.addr ≠ gatewayAddress lib family.gateway) ∨
      declared ipv4 node = "" ∧ family.allocations[name]?.getD "" = lib.prefixString given := by
  obtain ⟨normalized, hnormalize, hgiven⟩ := memberAddress_eq_ok h
  by_cases hdeclared : declared ipv4 node = ""
  · rw [hdeclared, normalize_empty, Except.ok.injEq] at hnormalize
    rw [if_pos hnormalize.symm] at hgiven
    exact .inr ⟨hdeclared, hgiven⟩
  · obtain ⟨given', rfl, hparse, hfits⟩ := normalize_eq_ok hnormalize hdeclared
    rw [if_neg (lib.prefixString_ne_empty _)] at hgiven
    cases lib.prefixString_injective hgiven
    have hexplicit : explicitAddress lib ipv4 node = some given.addr := by
      rw [explicitAddress, if_neg hdeclared, hparse]
      rfl
    have hcontains := (hfits.2 ranges hpool).2
    exact .inl ⟨hexplicit, hcontains, (normalizes_iff hpool hexplicit hcontains).mp ⟨_, hnormalize⟩,
      (memberAddress_of_normalized _ _ hpool hnormalize).mp h⟩

theorem Allocated.host {gateway : Addr} (h : Allocated ranges gateway given)
    (hgateway : GatewayAddress lib family.gateway gateway) :
    HostAddress lib family ranges given.addr := by
  have hgateway : gatewayAddress lib family.gateway = gateway := by
    unfold GatewayAddress at hgateway
    unfold gatewayAddress
    split at hgateway <;> simp_all
  obtain ⟨hend, hne⟩ := usableManagementAddress_iff.mp h.usable
  refine ⟨fun hnetwork => hend ?_, hgateway ▸ hne⟩
  have hrange := h.inRange
  unfold IsEnd at hnetwork ⊢
  rw [← endAddress_false, ← endAddress_true] at hnetwork ⊢
  rcases hnetwork with heq | ⟨hipv4, heq⟩
  · rw [heq] at hrange ⊢
    exact .inl (ranges.endAddress_eq hrange)
  · rw [heq] at hrange ⊢
    exact .inr ⟨hipv4, ranges.endAddress_eq hrange⟩

theorem givesHosts_iff (hsupplied : Supplied lib nodes family) (hpool : family.pool = some ranges)
    (hnode : nodes.byName[name]? = some node) :
    GivesHosts lib family node ranges field name ↔ EndsAgree lib family node ranges := by
  -- In the subnet, a declared address of a fitting length is refused only as an end or gateway.
  have hfitting : ∀ {address}, explicitAddress lib ipv4 node = some address →
      ranges.network.contains address = true → LengthFits lib node ranges → ∃ given,
        given.addr = address ∧ (memberAddress lib family field name node =
          .ok (lib.prefixString given) ↔ ¬IsEnd ipv4 ranges.allocation address ∧
            address ≠ gatewayAddress lib family.gateway) := by
    intro address hexplicit hcontains hlength
    obtain ⟨text, htext⟩ := (normalizes_iff hpool hexplicit hcontains).mpr hlength
    rw [explicitAddress] at hexplicit
    split_ifs at hexplicit with hdeclared
    obtain ⟨given, rfl, hparse, -⟩ := normalize_eq_ok htext hdeclared
    rw [hparse] at hexplicit
    cases hexplicit
    exact ⟨given, rfl, memberAddress_of_normalized _ _ hpool htext⟩
  constructor
  · intro h address hexplicit hcontains hgateway
    constructor
    · intro hnot
      obtain ⟨given, rfl, hok⟩ := h.accepted address hexplicit hcontains ⟨hnot, hgateway⟩
      rcases normalized_or_allocated hpool hok with ⟨-, -, hlength, hend, -⟩ | ⟨hempty, -⟩
      · exact ⟨hlength, hend⟩
      · rw [explicitAddress, if_pos hempty] at hexplicit
        cases hexplicit
    · rintro ⟨hlength, hend⟩
      obtain ⟨given, rfl, hmember⟩ := hfitting hexplicit hcontains hlength
      exact (h.host given (hmember.mpr ⟨hend, hgateway⟩)).1
  · intro h
    refine ⟨fun given hgiven => ?_, fun address hexplicit hcontains hhost => ?_⟩
    · rcases normalized_or_allocated hpool hgiven with
        ⟨hexplicit, hcontains, hlength, hend, hgateway⟩ | ⟨hdeclared, hallocated⟩
      · exact ⟨(h given.addr hexplicit hcontains hgateway).mpr ⟨hlength, hend⟩, hgateway⟩
      · obtain ⟨gateway, given', hgateway, htext, hallocation, -⟩ :=
          hsupplied.allocation hpool hnode hdeclared
        rw [htext, getD_some] at hallocated
        rw [← lib.prefixString_injective hallocated]
        exact hallocation.host hgateway
    · obtain ⟨hlength, hend⟩ := (h address hexplicit hcontains hhost.2).mp hhost.1
      obtain ⟨given, hgiven, hmember⟩ := hfitting hexplicit hcontains hlength
      exact ⟨given, hgiven, hmember.mpr ⟨hend, hhost.2⟩⟩

/-- Every Node of a namespace gets host addresses only, and the one that it declares, exactly when
that one, unless it is an end of the subnet, has the subnet's length and is no end of the range, and
conversely; these are the addresses of every group that compiles. -/
theorem host_addresses_iff {pools : NamespacePools}
    (hunique : validateUniqueExplicitManagementAddresses lib orders nodes = .ok ())
    (hpools : namespacePools lib orders nodes mgmt = .ok pools)
    (hnode : nodes.byName[name]? = some node) :
    (∀ ranges, pools.ipv4.pool = some ranges →
      (GivesHosts lib pools.ipv4 node ranges "mgmtIPv4" name ↔
        EndsAgree lib pools.ipv4 node ranges)) ∧
    (∀ ranges, pools.ipv6.pool = some ranges →
      (GivesHosts lib pools.ipv6 node ranges "mgmtIPv6" name ↔
        EndsAgree lib pools.ipv6 node ranges)) ∧
    ∀ inboundPorts group result,
      compileDirectManagement lib orders nodes mgmt inboundPorts group = .ok result →
      mgmt.any (·.disabled) = false →
      List.Forall₂ (Realizes lib nodes pools) (nodes.managedMembers group) result := by
  have hunambiguous := unambiguous_of_validateUnique hunique
  obtain ⟨settings, -, h4, h6⟩ := namespacePools_eq_ok hpools
  refine ⟨fun ranges hpool => givesHosts_iff ⟨hunambiguous true, orders, h4⟩ hpool hnode,
    fun ranges hpool => givesHosts_iff ⟨hunambiguous false, orders, h6⟩ hpool hnode, ?_⟩
  intro inboundPorts group result hcompile hdisabled
  rcases compile_eq_ok hcompile with ⟨htrue, -⟩ | ⟨-, pools', -, hpools', -, -, -, hresult⟩
  · rw [hdisabled] at htrue
    cases htrue
  · rw [hpools, Except.ok.injEq] at hpools'
    rwa [hpools']

/-- Of the subnet `10.0.0.0/24` with the range `10.0.0.128/25`. -/
def upperHalf : ManagementPolicy where
  ipv4Subnet := letterText.prefixString (.v4 0x0a000000 24 slash24)
  ipv4Range := letterText.prefixString (.v4 0x0a000080 25 slash25)

def declaring (ip : BitVec 32) : NodeSet :=
  .ofEntries [("a", { uid := "1", mgmtIPv4 := letterText.addrString (.v4 ip) })] (by simp)

theorem upperHalf_hosts : ∃ pools ranges node,
    namespacePools plainLibrary (fun _ _ => 0) (declaring 0x0a0000c8) (some upperHalf) =
        .ok pools ∧
      pools.ipv4.pool = some ranges ∧ (declaring 0x0a0000c8).byName["a"]? = some node ∧
      GivesHosts plainLibrary pools.ipv4 node ranges "mgmtIPv4" "a" := by
  obtain ⟨pools, hpools, ranges, hpool, hnot, hnot'⟩ : ∃ pools,
      namespacePools plainLibrary (fun _ _ => 0) (declaring 0x0a0000c8) (some upperHalf) =
          .ok pools ∧
        ∃ ranges, pools.ipv4.pool = some ranges ∧
          (∀ bit, endAddress bit ranges.allocation ≠ .v4 0x0a0000c8) ∧
          ∀ bit, endAddress bit ranges.network ≠ .v4 0x0a0000c8 := by
    decide +kernel
  obtain ⟨node, hnode, hexplicit, hparse⟩ :
      ∃ node, (declaring 0x0a0000c8).byName["a"]? = some node ∧
        explicitAddress plainLibrary true node = some (.v4 0x0a0000c8) ∧
        plainLibrary.parsePrefix (declared true node) = none := by
    decide +kernel
  refine ⟨pools, ranges, node, hpools, hpool, hnode, ?_⟩
  apply ((host_addresses_iff (by decide +kernel) hpools hnode).1 ranges hpool).mpr
  intro address haddress _ _
  rw [hexplicit] at haddress
  cases haddress
  have hlength : LengthFits plainLibrary node ranges := by
    intro given hgiven
    rw [hparse] at hgiven
    cases hgiven
  simp only [IsEnd, ← endAddress_false, ← endAddress_true, true_and]
  simp only [(hnot _).symm, (hnot' _).symm, hlength, or_false, not_false_eq_true, and_true]

/-- The network address of the subnet is accepted, the first address of the range is not. -/
theorem network_address_accepted :
    ((compileDirectManagement plainLibrary (fun _ _ => 0) (declaring 0x0a000000) (some upperHalf) []
      ["a"]).toOption.map fun result => result.map (·.ipv4)) =
        some [letterText.prefixString (.v4 0x0a000000 24 (by decide))] ∧
    compileDirectManagement plainLibrary (fun _ _ => 0) (declaring 0x0a000080) (some upperHalf) []
      ["a"] = .error (directNodeManagementError "a"
        { uid := "1", mgmtIPv4 := letterText.addrString (.v4 0x0a000080) } "mgmtIPv4"
        "management address is a reserved subnet address") := by
  decide +kernel

end Clabernetes.Management
