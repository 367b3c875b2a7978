import Mathlib.Data.List.Pairwise
import Clabernetes.Base.Claims
import Clabernetes.Base.Sorting
import Clabernetes.Management.Policy

/-!
# Allocating management addresses

`controllers/node/directmanagement.go:61-164,296-346`: the check that no two Nodes declare one
address, and the allocation of addresses to the Nodes that declare none. Every loop over the Node
map visits it in an order of its own, which is a parameter.
-/

namespace Clabernetes.Management

open Base DevicePlan Links Std List Option GoMap Prod

inductive RangeLoop where
  | names
  | reserved (ipv4 : Bool)
  | pending (ipv4 : Bool)
  | identities

abbrev Orders := RangeLoop → String → Nat

abbrev NamedNode := String × ManagedNode

def declared (ipv4 : Bool) (node : ManagedNode) : String :=
  if ipv4 then node.mgmtIPv4 else node.mgmtIPv6

def declaredTwiceMessage (lib : Library) (address : Addr) (existing name : String) : String :=
  "management address " ++ quoted (lib.addrString address) ++ " is declared by both " ++
    quoted existing ++ " and " ++ quoted name

section

variable (lib : Library) (orders : Orders) (nodes : NodeSet)

def NodeSet.visit (loop : RangeLoop) : List NamedNode := nodes.byName.iterate (orders loop)

def validateUniqueStep (ipv4 : Bool) (owners : GoMap Addr String) (entry : NamedNode) :
    Except String (GoMap Addr String) :=
  if declared ipv4 entry.2 = "" then .ok owners
  else
    match parseLooseManagementAddress lib (declared ipv4 entry.2) ipv4 with
    | .error _ => .ok owners
    | .ok address =>
      if claimant owners address ≠ "" then
        .error (declaredTwiceMessage lib address (claimant owners address) entry.1)
      else .ok (owners.insert address entry.1)

def validateUniqueExplicitManagementAddresses : Except String Unit :=
  let named := sortBy fst (nodes.visit orders .names)
  match performAll (validateUniqueStep lib true) ∅ named with
  | .error err => .error err
  | .ok _ =>
    match performAll (validateUniqueStep lib false) ∅ named with
    | .error err => .error err
    | .ok _ => .ok ()

variable {ipv4 : Bool} (ranges : ManagementRanges ipv4)

def reserveStep (reserved : GoMap Addr String) (entry : NamedNode) :
    Except String (GoMap Addr String) :=
  if declared ipv4 entry.2 = "" then .ok reserved
  else
    match parseLooseManagementAddress lib (declared ipv4 entry.2) ipv4 with
    | .error _ => .ok reserved
    | .ok candidate =>
      if !ranges.allocation.contains candidate then .ok reserved
      else if claimant reserved candidate ≠ "" ∧ claimant reserved candidate ≠ entry.1 then
        .error (declaredTwiceMessage lib candidate (claimant reserved candidate) entry.1)
      else .ok (reserved.insert candidate entry.1)

def reserveGateway (gateway : String) (reserved : GoMap Addr String) :
    Except String (Addr × GoMap Addr String) :=
  if gateway = "" then .ok (.zero, reserved)
  else
    match lib.parseAddr gateway with
    | none => .error "management gateway is invalid or outside its subnet"
    | some address =>
      if address.is4 ≠ ipv4 ∨ ranges.network.contains address = false then
        .error "management gateway is invalid or outside its subnet"
      else if claimant reserved address ≠ "" then
        .error ("management gateway address is already declared by Node " ++
          quoted (claimant reserved address))
      else .ok (address, reserved.insert address "gateway")

def probe (candidate : Nat → Option Addr) : Nat → Nat → Option Addr
  | 0, _ => none
  | left + 1, attempt =>
    match candidate attempt with
    | some address => some address
    | none => probe candidate left (attempt + 1)

def attemptAddress (gateway : Addr) (reserved : GoMap Addr String) (seed : String)
    (attempt : Nat) : Option Addr :=
  let candidate := hashedPrefixAddress lib ranges.allocation seed attempt
  if !usableManagementAddress ranges candidate gateway || claimant reserved candidate != "" then
    none
  else some candidate

def allocateStep (gateway : Addr) (maxAttempts : Nat)
    (state : GoMap Addr String × GoMap String String) (entry : NamedNode) :
    Except String (GoMap Addr String × GoMap String String) :=
  let seed := if entry.2.uid = "" then entry.1 else entry.2.uid
  match probe (attemptAddress lib ranges gateway state.1 seed) maxAttempts 0 with
  | none => .error "management address range has no free usable address"
  | some allocated =>
    .ok (state.1.insert allocated entry.1,
      state.2.insert entry.1 (prefixFromString lib allocated ranges.network.bits))

def allocationIdentity (entry : NamedNode) : String := entry.2.uid ++ "\x00" ++ entry.1

def NodeSet.pending (ipv4 : Bool) : List NamedNode :=
  sortBy allocationIdentity
    ((nodes.visit orders (.pending ipv4)).filter fun entry => declared ipv4 entry.2 = "")

def allocateDirectManagementAddresses (pool : DirectManagementPool ipv4) (gateway : String) :
    Except String (GoMap String String) :=
  match pool with
  | none => .ok ∅
  | some ranges =>
    match performAll (reserveStep lib ranges) ∅ (nodes.visit orders (.reserved ipv4)) with
    | .error err => .error err
    | .ok reserved =>
      match reserveGateway lib ranges gateway reserved with
      | .error err => .error err
      | .ok (gatewayAddress, reserved) =>
        let maxAttempts := max 4096 (nodes.byName.size * 1024)
        match performAll (allocateStep lib ranges gatewayAddress maxAttempts) (reserved, ∅)
          (nodes.pending orders ipv4) with
        | .error err => .error err
        | .ok state => .ok state.2

end

variable {lib : Library} {orders orders' : Orders} {nodes : NodeSet} {ipv4 : Bool}
  {state state' : GoMap Addr String × GoMap String String} {reserved : GoMap Addr String}
  {maxAttempts : Nat} {gateway address : Addr}

variable {entry : NamedNode} {ranges : ManagementRanges ipv4}

theorem mem_visit {loop : RangeLoop} :
    entry ∈ nodes.visit orders loop ↔ nodes.byName[entry.1]? = some entry.2 :=
  GoMap.mem_iterate (orders loop) nodes.byName entry.1 entry.2

theorem nodup_names_visit (nodes : NodeSet) (orders : Orders) (loop : RangeLoop) :
    ((nodes.visit orders loop).map fst).Nodup :=
  nodup_keys_iterate _ _

theorem name_ne_empty_of_mem_visit {loop : RangeLoop} :
    ∀ entry ∈ nodes.visit orders loop, entry.1 ≠ "" := fun _ hmem =>
  nodes.name_ne_empty _ _ (mem_visit.mp hmem)

theorem visit_perm (loop loop' : RangeLoop) :
    (nodes.visit orders loop).Perm (nodes.visit orders' loop') := by
  apply (perm_ext_iff_of_nodup _ _).mpr
  · intro entry
    rw [mem_visit, mem_visit]
  · exact (nodup_names_visit nodes orders loop).of_map _
  · exact (nodup_names_visit nodes orders' loop').of_map _

theorem name_eq_of_allocationIdentity {a b : NamedNode} (ha : '\x00' ∉ a.1.toList)
    (hb : '\x00' ∉ b.1.toList) (h : allocationIdentity a = allocationIdentity b) : a.1 = b.1 := by
  have hlist := congrArg (fun s => s.toList.reverse.takeWhile (· != '\x00')) h
  have hname : ∀ e : NamedNode, '\x00' ∉ e.1.toList →
      (allocationIdentity e).toList.reverse.takeWhile (· != '\x00') = e.1.toList.reverse := by
    intro e he
    have hreverse : (allocationIdentity e).toList.reverse =
        e.1.toList.reverse ++ '\x00' :: e.2.uid.toList.reverse := by
      simp [allocationIdentity]
    rw [hreverse, takeWhile_append_of_pos]
    · simp
    · intro c hc
      rw [bne_iff_ne]
      rintro rfl
      exact he (mem_reverse.mp hc)
  rw [hname a ha, hname b hb, reverse_inj] at hlist
  exact String.toList_inj.mp hlist

theorem pending_eq (nodes : NodeSet) (orders orders' : Orders) (ipv4 : Bool) :
    nodes.pending orders ipv4 = nodes.pending orders' ipv4 := by
  apply sortBy_eq_of_perm ((visit_perm _ _).filter _)
  apply List.Nodup.map_on
  · intro a ha b hb heq
    have hmem := mem_visit.mp (mem_of_mem_filter ha)
    have hmem' := mem_visit.mp (mem_of_mem_filter hb)
    have hname := name_eq_of_allocationIdentity (nodes.nul_notMem_name _ _ hmem)
      (nodes.nul_notMem_name _ _ hmem') heq
    rw [hname, hmem'] at hmem
    exact Prod.ext hname (some.inj hmem).symm
  · exact ((nodup_names_visit nodes orders _).of_map _).filter _

theorem mem_pending : entry ∈ nodes.pending orders ipv4 ↔
      nodes.byName[entry.1]? = some entry.2 ∧ declared ipv4 entry.2 = "" := by
  simp [NodeSet.pending, mem_visit]

def explicitAddress (lib : Library) (ipv4 : Bool) (node : ManagedNode) : Option Addr :=
  if declared ipv4 node = "" then none
  else (parseLooseManagementAddress lib (declared ipv4 node) ipv4).toOption

theorem validateUniqueStep_eq (owners : GoMap Addr String) (entry : NamedNode) :
    validateUniqueStep lib ipv4 owners entry =
      match explicitAddress lib ipv4 entry.2 with
      | none => .ok owners
      | some address =>
        if claimant owners address ≠ "" then
          .error (declaredTwiceMessage lib address (claimant owners address) entry.1)
        else .ok (owners.insert address entry.1) := by
  unfold validateUniqueStep explicitAddress
  split
  · rfl
  · cases parseLooseManagementAddress lib (declared ipv4 entry.2) ipv4 <;> rfl

theorem claiming_validateUniqueStep (lib : Library) (ipv4 : Bool) :
    Claiming fst (fun entry : NamedNode => explicitAddress lib ipv4 entry.2)
      (validateUniqueStep lib ipv4) where
  skip owners entry hkey := by rw [validateUniqueStep_eq, hkey]
  free owners entry address hkey hfree := by simp [validateUniqueStep_eq, hkey, hfree]
  taken owners entry address hkey howned _ := by simp [validateUniqueStep_eq, hkey, howned]

def reservedAddress (lib : Library) (ranges : ManagementRanges ipv4) (node : ManagedNode) :
    Option Addr :=
  (explicitAddress lib ipv4 node).filter ranges.allocation.contains

theorem reserveStep_eq (ranges : ManagementRanges ipv4) (reserved : GoMap Addr String)
    (entry : NamedNode) : reserveStep lib ranges reserved entry =
      match reservedAddress lib ranges entry.2 with
      | none => .ok reserved
      | some candidate =>
        if claimant reserved candidate ≠ "" ∧ claimant reserved candidate ≠ entry.1 then
          .error (declaredTwiceMessage lib candidate (claimant reserved candidate) entry.1)
        else .ok (reserved.insert candidate entry.1) := by
  unfold reserveStep reservedAddress explicitAddress
  split
  · rfl
  · cases parseLooseManagementAddress lib (declared ipv4 entry.2) ipv4 with
    | error => rfl
    | ok candidate => cases hin : ranges.allocation.contains candidate <;>
        simp [Except.toOption, filter_some, hin]

theorem claiming_reserveStep (lib : Library) (ranges : ManagementRanges ipv4) :
    Claiming fst (fun entry : NamedNode => reservedAddress lib ranges entry.2)
      (reserveStep lib ranges) where
  skip reserved entry hkey := by rw [reserveStep_eq, hkey]
  free reserved entry candidate hkey hfree := by simp [reserveStep_eq, hkey, hfree]
  taken reserved entry candidate hkey howned hother := by
    simp [reserveStep_eq, hkey, howned, hother]

/-- No two Nodes of the namespace declare one address of the family. -/
def Unambiguous (lib : Library) (nodes : NodeSet) (ipv4 : Bool) : Prop :=
  ∀ (name name' : String) (node node' : ManagedNode) (address : Addr),
    nodes.byName[name]? = some node → nodes.byName[name']? = some node' →
    explicitAddress lib ipv4 node = some address → explicitAddress lib ipv4 node' = some address →
    name = name'

theorem unambiguous_iff (orders : Orders) (loop : RangeLoop) : Unambiguous lib nodes ipv4 ↔
      DisjointClaims (fun entry : NamedNode => explicitAddress lib ipv4 entry.2)
        (nodes.visit orders loop) := by
  constructor
  · intro h
    apply (pairwise_map.mp (nodup_names_visit nodes orders loop)).imp_of_mem
    intro a b ha hb hne address haddress haddress'
    exact hne (h a.1 b.1 a.2 b.2 address (mem_visit.mp ha) (mem_visit.mp hb) haddress haddress')
  · intro h name name' node node' address hnode hnode' haddress haddress'
    by_contra hne
    have hsymm : Std.Symm fun a b : NamedNode => ∀ k, explicitAddress lib ipv4 a.2 = some k →
        explicitAddress lib ipv4 b.2 ≠ some k := ⟨fun a b hab k hb ha => hab k ha hb⟩
    have hmem : (name, node) ∈ nodes.visit orders loop := mem_visit.mpr hnode
    have hmem' : (name', node') ∈ nodes.visit orders loop := mem_visit.mpr hnode'
    have hentries : (name, node) ≠ (name', node') := fun heq => hne (congrArg fst heq)
    exact h.forall hmem hmem' hentries address haddress haddress'

theorem validateUnique_eq (orders orders' : Orders) :
    validateUniqueExplicitManagementAddresses lib orders nodes =
      validateUniqueExplicitManagementAddresses lib orders' nodes := by
  have hnamed : sortBy fst (nodes.visit orders .names) =
      sortBy fst (nodes.visit orders' .names) :=
    sortBy_eq_of_perm (visit_perm _ _) (nodup_names_visit nodes orders _)
  rw [validateUniqueExplicitManagementAddresses, hnamed]
  rfl

theorem unambiguous_of_validateUnique
    (h : validateUniqueExplicitManagementAddresses lib orders nodes = .ok ()) (ipv4 : Bool) :
    Unambiguous lib nodes ipv4 := by
  have hperm : (sortBy fst (nodes.visit orders .names)).Perm (nodes.visit orders .names) :=
    perm_sortBy _ _
  have hfamily : ∀ (ipv4 : Bool) (owners : GoMap Addr String),
      performAll (validateUniqueStep lib ipv4) ∅ (sortBy fst (nodes.visit orders .names)) =
        .ok owners → Unambiguous lib nodes ipv4 := by
    intro ipv4 owners howners
    have hnodup := (hperm.map fst).nodup_iff.mpr (nodup_names_visit nodes orders .names)
    have hempty := fun entry hmem => name_ne_empty_of_mem_visit entry (hperm.mem_iff.mp hmem)
    apply (unambiguous_iff orders .names).mpr
    apply (disjointClaims_perm hperm).mp
    exact (((claiming_validateUniqueStep lib ipv4).whole hnodup hempty).1 owners howners).1
  unfold validateUniqueExplicitManagementAddresses at h
  dsimp only at h
  split at h
  · cases h
  · next owners4 h4 =>
    cases h6 : performAll (validateUniqueStep lib false) ∅
        (sortBy fst (nodes.visit orders .names)) with
    | error =>
      simp only [h6] at h
      cases h
    | ok owners6 =>
      cases ipv4 with
      | true => exact hfamily true owners4 h4
      | false => exact hfamily false owners6 h6

theorem reserve_ok (h : Unambiguous lib nodes ipv4) (ranges : ManagementRanges ipv4) :
    ∃ reserved, (∀ orders, performAll (reserveStep lib ranges) ∅
        (nodes.visit orders (.reserved ipv4)) = .ok reserved) ∧
      ∀ (address : Addr) (owner : String), reserved[address]? = some owner ↔
        ∃ node, nodes.byName[owner]? = some node ∧
          reservedAddress lib ranges node = some address := by
  have hwhole := fun orders : Orders => (claiming_reserveStep lib ranges).whole
    (nodup_names_visit nodes orders (.reserved ipv4))
    name_ne_empty_of_mem_visit
  have hdisjoint : ∀ orders : Orders,
      DisjointClaims (fun entry : NamedNode => reservedAddress lib ranges entry.2)
        (nodes.visit orders (.reserved ipv4)) := by
    intro orders
    apply ((unambiguous_iff orders (.reserved ipv4)).mp h).imp
    intro a b hab address ha hb
    exact hab address (eq_some_of_filter_eq_some ha) (eq_some_of_filter_eq_some hb)
  obtain ⟨reserved, hreserved⟩ := (hwhole fun _ _ => 0).2 (hdisjoint _)
  have hholds := ((hwhole fun _ _ => 0).1 reserved hreserved).2
  refine ⟨reserved, fun orders => ?_, fun address owner => ?_⟩
  · obtain ⟨reserved', hreserved'⟩ := (hwhole orders).2 (hdisjoint orders)
    rw [hreserved', table_ext_of_holds ((hwhole orders).1 reserved' hreserved').2 hholds
      (visit_perm _ _)]
  · rw [hholds address owner]
    constructor
    · rintro ⟨entry, hmem, hkey, rfl⟩
      exact ⟨entry.2, mem_visit.mp hmem, hkey⟩
    · rintro ⟨node, hnode, hkey⟩
      exact ⟨(owner, node), mem_visit.mpr hnode, hkey, rfl⟩

theorem allocate_eq (orders orders' : Orders) (h : Unambiguous lib nodes ipv4)
    (pool : DirectManagementPool ipv4) (gateway : String) :
    allocateDirectManagementAddresses lib orders nodes pool gateway =
      allocateDirectManagementAddresses lib orders' nodes pool gateway := by
  cases pool with
  | none => rfl
  | some ranges =>
    obtain ⟨reserved, hreserved, -⟩ := reserve_ok h ranges
    simp only [allocateDirectManagementAddresses, hreserved, pending_eq nodes orders orders']

theorem probe_eq_some {candidate : Nat → Option Addr} {left attempt : Nat}
    (h : probe candidate left attempt = some address) :
    ∃ attempt', candidate attempt' = some address := by
  induction left generalizing attempt with
  | zero => cases h
  | succ left ih =>
    rw [probe] at h
    cases hcandidate : candidate attempt with
    | none =>
      rw [hcandidate] at h
      exact ih h
    | some found =>
      rw [hcandidate] at h
      exact ⟨attempt, hcandidate.trans h⟩

theorem contains_hashedPrefixAddress (lib : Library) (range : Prefix) (seed : String)
    (attempt : Nat) : range.contains (hashedPrefixAddress lib range seed attempt) = true := by
  cases range with
  | v4 ip bits hbits =>
    apply (sameNetwork_iff hbits _ _).mpr
    intro i hi
    rw [foldFrom_copyHashBit (by decide) (by decide), getMsbD_fillFrom_of_lt _ _ hbits hi,
      getMsbD_networkAddress_of_lt ip hbits hi]
  | v6 ip bits hbits =>
    show (("" : String) == "" && sameNetwork bits _ ip) = true
    rw [beq_self_eq_true, Bool.true_and, sameNetwork_iff hbits]
    intro i hi
    rw [foldFrom_copyHashBit (by decide) (by decide), getMsbD_fillFrom_of_lt _ _ hbits hi,
      getMsbD_networkAddress_of_lt ip hbits hi]

structure Allocated (ranges : ManagementRanges ipv4) (gateway : Addr) (given : Prefix) : Prop where
  bits : given.bits = ranges.network.bits
  inRange : ranges.allocation.contains given.addr = true
  usable : usableManagementAddress ranges given.addr gateway = true

/-- The allocation so far: earlier reservations stand, and every address given out is reserved
for its Node and was free before. -/
structure Allocating (lib : Library) (ranges : ManagementRanges ipv4) (gateway : Addr)
    (before : GoMap Addr String) (state : GoMap Addr String × GoMap String String) : Prop where
  kept : ∀ address, claimant state.1 address = "" → claimant before address = ""
  given : ∀ (name text : String), state.2[name]? = some text → name ≠ "" ∧
    ∃ given, text = lib.prefixString given ∧ Allocated ranges gateway given ∧
      claimant before given.addr = "" ∧ state.1[given.addr]? = some name

theorem prefixFromString_of_contains (lib : Library) (h : ranges.network.contains address = true) :
    ∃ given, prefixFromString lib address ranges.network.bits = lib.prefixString given ∧
      given.addr = address ∧ given.bits = ranges.network.bits := by
  obtain ⟨hfamily, hzone, hvalid⟩ := Prefix.is4_of_contains h
  have hlength : ranges.network.bits ≤ address.bitLen := by
    have hle := ranges.network.bits_le_bitLen
    cases hnetwork : ranges.network <;> cases address <;>
      simp_all [Prefix.addr, Addr.is4, Addr.bitLen, Prefix.bits, Addr.isValid]
  obtain ⟨given, hgiven, haddr, hbits⟩ := Prefix.exists_of_eq_some hvalid hzone hlength
  exact ⟨given, by rw [prefixFromString, hgiven], haddr, hbits⟩

theorem attemptAddress_eq_some {seed : String} {attempt : Nat}
    (h : attemptAddress lib ranges gateway reserved seed attempt = some address) :
    ranges.allocation.contains address = true ∧
      usableManagementAddress ranges address gateway = true ∧ claimant reserved address = "" := by
  unfold attemptAddress at h
  dsimp only at h
  split at h
  · cases h
  · next hfound =>
    cases h
    rw [Bool.not_eq_true, Bool.or_eq_false_iff, Bool.not_eq_false', bne_eq_false_iff_eq] at hfound
    exact ⟨contains_hashedPrefixAddress lib ranges.allocation seed attempt, hfound⟩

theorem allocateStep_eq_ok
    (h : allocateStep lib ranges gateway maxAttempts state entry = .ok state') :
    ∃ given, Allocated ranges gateway given ∧ claimant state.1 given.addr = "" ∧
      state' = (state.1.insert given.addr entry.1,
        state.2.insert entry.1 (lib.prefixString given)) := by
  unfold allocateStep at h
  dsimp only at h
  generalize (if entry.2.uid = "" then entry.1 else entry.2.uid) = seed at h
  split at h
  · cases h
  · next allocated hprobe =>
    obtain ⟨attempt, hattempt⟩ := probe_eq_some hprobe
    obtain ⟨hrange, husable, hfree⟩ := attemptAddress_eq_some hattempt
    obtain ⟨given, htext, rfl, hbits⟩ :=
      prefixFromString_of_contains lib (ranges.inside allocated hrange)
    simp only [htext, Except.ok.injEq] at h
    exact ⟨given, ⟨hbits, hrange, husable⟩, hfree, h.symm⟩

theorem claimant_insert (table : GoMap Addr String) (address address' : Addr) (owner : String) :
    claimant (table.insert address owner) address' =
      if address = address' then owner else claimant table address' := by
  rw [claimant, lookup_insert]
  split <;> rfl

theorem allocating_step {before : GoMap Addr String} (hname : entry.1 ≠ "")
    (h : Allocating lib ranges gateway before state)
    (hstep : allocateStep lib ranges gateway maxAttempts state entry = .ok state') :
    Allocating lib ranges gateway before state' := by
  obtain ⟨given, hallocated, hfree, rfl⟩ := allocateStep_eq_ok hstep
  constructor
  · intro address haddress
    rw [claimant_insert] at haddress
    split at haddress
    · exact absurd haddress hname
    · exact h.kept address haddress
  · intro name text hresult
    simp only [lookup_insert] at hresult ⊢
    split at hresult
    · next heq =>
      subst heq
      cases hresult
      exact ⟨hname, given, rfl, hallocated, h.kept _ hfree, if_pos rfl⟩
    · obtain ⟨hname', earlier, htext, hearlier, hbefore, howner⟩ := h.given name text hresult
      refine ⟨hname', earlier, htext, hearlier, hbefore, ?_⟩
      -- an address given out before has an owner, so it is not the one allocated now
      rw [if_neg, howner]
      intro heq
      rw [claimant, heq, howner, getD_some] at hfree
      exact hname' hfree

theorem allocated_of_mem {entries : List NamedNode}
    (h : performAll (allocateStep lib ranges gateway maxAttempts) state entries = .ok state')
    (hmem : entry ∈ entries) : ∃ text, state'.2[entry.1]? = some text := by
  obtain ⟨first, rest, rfl⟩ := append_of_mem hmem
  obtain ⟨middle, -, h⟩ := performAll_append_eq_ok.mp h
  obtain ⟨next, hstep, h⟩ := performAll_cons_eq_ok.mp h
  refine performAll_invariant (P := fun state => ∃ text, state.2[entry.1]? = some text) ?_ ?_ h
  · obtain ⟨given, -, -, rfl⟩ := allocateStep_eq_ok hstep
    exact ⟨lib.prefixString given, by simp⟩
  · intro state other state' _ htext hstep
    obtain ⟨given, -, -, rfl⟩ := allocateStep_eq_ok hstep
    simp only [lookup_insert]
    split
    · exact ⟨_, rfl⟩
    · exact htext

theorem allocating_performAll {entries : List NamedNode} (hnames : ∀ entry ∈ entries, entry.1 ≠ "")
    (h : performAll (allocateStep lib ranges gateway maxAttempts) (reserved, ∅) entries =
      .ok state) : Allocating lib ranges gateway reserved state := by
  refine performAll_invariant (P := Allocating lib ranges gateway reserved) ?_ ?_ h
  · exact ⟨fun _ h => h, fun name text htext => by simp at htext⟩
  · intro state entry state' hmem hstate hstep
    exact allocating_step (hnames entry hmem) hstate hstep

def GatewayAddress (lib : Library) (gateway : String) (address : Addr) : Prop :=
  if gateway = "" then address = .zero else lib.parseAddr gateway = some address

theorem reserveGateway_eq_ok {gateway : String} {reserved' : GoMap Addr String}
    (h : reserveGateway lib ranges gateway reserved = .ok (address, reserved')) :
    GatewayAddress lib gateway address ∧
      ∀ a, claimant reserved' a = "" → claimant reserved a = "" := by
  unfold reserveGateway at h
  unfold GatewayAddress
  split at h
  · next hempty =>
    cases h
    exact ⟨by rw [if_pos hempty], fun _ ha => ha⟩
  · next hne =>
    split at h
    · cases h
    · next parsed hparse =>
      split at h
      · cases h
      · split at h
        · cases h
        · cases h
          refine ⟨by rwa [if_neg hne], fun a ha => ?_⟩
          rw [claimant_insert] at ha
          split at ha
          · exact absurd ha (by decide)
          · exact ha

theorem allocate_spec {gateway : String} {result : GoMap String String}
    (hunambiguous : Unambiguous lib nodes ipv4)
    (h : allocateDirectManagementAddresses lib orders nodes (some ranges) gateway = .ok result) :
    ∃ gatewayAddress, GatewayAddress lib gateway gatewayAddress ∧
      (∀ (name : String) (node : ManagedNode), nodes.byName[name]? = some node →
        declared ipv4 node = "" →
        ∃ given, result[name]? = some (lib.prefixString given) ∧
          Allocated ranges gatewayAddress given ∧
          ∀ (other : String) (node' : ManagedNode), nodes.byName[other]? = some node' →
            explicitAddress lib ipv4 node' ≠ some given.addr) ∧
      ∀ (name name' : String) (given given' : Prefix),
        result[name]? = some (lib.prefixString given) →
        result[name']? = some (lib.prefixString given') → given.addr = given'.addr →
        name = name' := by
  obtain ⟨reserved, hreserved, hholds⟩ := reserve_ok hunambiguous ranges
  simp only [allocateDirectManagementAddresses, hreserved] at h
  cases hgateway : reserveGateway lib ranges gateway reserved with
  | error =>
    simp only [hgateway] at h
    cases h
  | ok reserve =>
    obtain ⟨gatewayAddress, reserved'⟩ := reserve
    obtain ⟨haddress, hkept⟩ := reserveGateway_eq_ok hgateway
    simp only [hgateway] at h
    split at h
    · cases h
    · next state hall =>
      simp only [Except.ok.injEq] at h
      subst h
      have hallocating := allocating_performAll (fun entry hmem =>
        nodes.name_ne_empty _ _ (mem_pending.mp hmem).1) hall
      refine ⟨gatewayAddress, haddress, fun name node hnode hdeclared => ?_, ?_⟩
      · have hmem : (name, node) ∈ nodes.pending orders ipv4 := mem_pending.mpr ⟨hnode, hdeclared⟩
        obtain ⟨text, htext⟩ := allocated_of_mem hall hmem
        obtain ⟨-, given, rfl, hallocated, hfree, -⟩ := hallocating.given name text htext
        refine ⟨given, htext, hallocated, fun other node' hnode' hexplicit => ?_⟩
        -- a declared address of the range is reserved before the allocation starts
        have howner : reserved[given.addr]? = some other := by
          apply (hholds given.addr other).mpr
          refine ⟨node', hnode', ?_⟩
          rw [reservedAddress, hexplicit, filter_some, if_pos hallocated.inRange]
        have hempty := hkept given.addr hfree
        rw [claimant, howner, getD_some] at hempty
        exact nodes.name_ne_empty other node' hnode' hempty
      · intro name name' given given' hname hname' heq
        obtain ⟨-, p, hp, -, -, howner⟩ := hallocating.given name _ hname
        obtain ⟨-, p', hp', -, -, howner'⟩ := hallocating.given name' _ hname'
        rw [lib.prefixString_injective hp] at heq
        rw [lib.prefixString_injective hp'] at heq
        rw [heq, howner'] at howner
        exact (some.inj howner).symm

end Clabernetes.Management
