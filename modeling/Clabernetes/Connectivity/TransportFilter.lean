import Mathlib.Data.List.Nodup

/-!
# Accepts for the sidecar's transports

`internal/directruntime/transportfilter.go:43-82` and `transportfilter_linux.go:48-196`: the accept
rules that the sidecar asserts in the packet filter of a device. A pass finds its rules by their
comments alone.
-/

namespace Clabernetes.Connectivity.TransportFilter

open List

inductive Protocol where
  | udp
  | tcp
  deriving DecidableEq

structure TransportAccept where
  protocol : Protocol
  port : UInt16
  deriving DecidableEq

def transportFilterCommentPrefix : String := "c9s-transport-"

def sidecarTableNamePrefix : String := "c9s-"

def TransportAccept.comment (a : TransportAccept) : String :=
  transportFilterCommentPrefix ++ (if a.protocol = .tcp then "tcp-" else "") ++ a.port.toNat.repr

structure Packet where
  destination : Option TransportAccept
  content : List UInt8

inductive Verdict where
  | accept
  | drop
  deriving DecidableEq

/-- What a rule decides on a packet, with the chains it jumps to; `none` passes the packet on. -/
structure Rule where
  comment : Option String
  verdict : Packet → Option Verdict

inductive Hook where
  | input
  | output
  | other
  deriving DecidableEq

/-- A chain of the families that are swept; a base chain has a hook. -/
structure Chain where
  table : Option String
  isFilter : Bool
  hook : Option Hook
  rules : List Rule

def isForeignTransportFilterChain (chain : Chain) : Bool :=
  chain.isFilter && (chain.hook = some .input || chain.hook = some .output) &&
    chain.table.any fun name => !sidecarTableNamePrefix.toList.isPrefixOf name.toList

/-- `transportAcceptExpressions` with its comment. -/
def TransportAccept.rule (a : TransportAccept) : Rule :=
  ⟨some a.comment, fun packet => if packet.destination = some a then some .accept else none⟩

def comments (rules : List Rule) : List String := rules.filterMap Rule.comment

variable (accepts : List TransportAccept)

/-- Every rule is inserted at the head. Only comments with the prefix are remembered,
which those of all accepts have. -/
def ensureChainTransportAccepts (rules : List Rule) : List Rule :=
  accepts.foldl (fun updated accept =>
    if accept.comment ∈ comments rules then updated else accept.rule :: updated) rules

def ensureTransportFilterAccepts (chains : List Chain) : List Chain :=
  chains.map fun chain => if isForeignTransportFilterChain chain then
    { chain with rules := ensureChainTransportAccepts accepts chain.rules } else chain

/-- The ports that `reconcileTransportFilter` derives from a management mesh, remote interfaces and
a Pod address. -/
def transportAccepts (mesh remote podAddress : Bool) : List TransportAccept :=
  (if mesh then [⟨.udp, 14789⟩] else []) ++ (if remote then [⟨.udp, 14790⟩] else []) ++
    if podAddress then [⟨.tcp, 14791⟩] else []

/-- The device edits its filter, in whatever way, or the sidecar makes a pass. -/
inductive Event where
  | edit (change : List Chain → List Chain)
  | pass

def step (chains : List Chain) : Event → List Chain
  | .edit change => change chains
  | .pass => ensureTransportFilterAccepts accepts chains

/-- One rule has the comment, the accept is there, and no rule before it drops its packets. -/
@[mk_iff]
structure InPlace (rules : List Rule) (a : TransportAccept) : Prop where
  once : (comments rules).count a.comment = 1
  present : a.rule ∈ rules
  accepted : ∀ packet : Packet, packet.destination = some a →
    rules.findSome? (·.verdict packet) = some .accept

variable {accepts added : List TransportAccept} {a : TransportAccept} {rules : List Rule}

theorem ensureChain_eq : ensureChainTransportAccepts accepts rules =
    (accepts.filter fun a => a.comment ∉ comments rules).reverse.map (·.rule) ++ rules := by
  unfold ensureChainTransportAccepts
  generalize comments rules = present
  induction accepts generalizing rules with
  | nil => rfl
  | cons a rest ih =>
    rw [foldl_cons]
    by_cases h : a.comment ∈ present
    · rw [if_pos h, ih, filter_cons_of_neg (by simpa using h)]
    · rw [if_neg h, ih, filter_cons_of_pos (by simpa using h)]
      simp

theorem comments_append : comments (added.map (·.rule) ++ rules) =
    added.map (·.comment) ++ comments rules := by
  simp [comments, filterMap_append, filterMap_map, TransportAccept.rule]

theorem findSome_accepts {packet : Packet} (h : packet.destination = some a) :
    (added.map (·.rule)).findSome? (·.verdict packet) =
      if a ∈ added then some .accept else none := by
  induction added with
  | nil => rfl
  | cons first rest ih =>
    rw [map_cons, findSome?_cons, ih]
    by_cases hfirst : a = first <;> simp [TransportAccept.rule, h, hfirst]

theorem inPlace_ensureChain_iff (hdistinct : (accepts.map (·.comment)).Nodup) (ha : a ∈ accepts) :
    InPlace (ensureChainTransportAccepts accepts rules) a ↔
      a.comment ∉ comments rules ∨ InPlace rules a := by
  rw [ensureChain_eq]
  generalize hadded : (accepts.filter fun a => a.comment ∉ comments rules).reverse = added
  have hmem : ∀ b, b ∈ added ↔ b ∈ accepts ∧ b.comment ∉ comments rules := by simp [← hadded]
  by_cases habsent : a.comment ∉ comments rules
  · have hin : a ∈ added := (hmem a).mpr ⟨ha, habsent⟩
    have hnodup : (added.map (·.comment)).Nodup := by
      rw [← hadded, map_reverse, nodup_reverse]
      exact hdistinct.sublist (filter_sublist.map _)
    refine iff_of_true ⟨?_, mem_append_left _ (mem_map_of_mem hin), fun packet h => ?_⟩
      (.inl habsent)
    · rw [comments_append, count_append, count_eq_zero_of_not_mem habsent,
        count_eq_one_of_mem hnodup (mem_map_of_mem hin)]
    · rw [findSome?_append, findSome_accepts h, if_pos hin]
      rfl
  · -- what is inserted has other comments and leaves the packets of the accept alone
    have hother : ∀ b ∈ added, b.comment ≠ a.comment :=
      fun b hb hsame => habsent (hsame ▸ ((hmem b).mp hb).2)
    have hcount : (added.map (·.comment)).count a.comment = 0 :=
      count_eq_zero_of_not_mem (by simpa using hother)
    have hrule : a.rule ∉ added.map (·.rule) := by
      intro h
      obtain ⟨b, hb, hsame⟩ := mem_map.mp h
      exact hother b hb (Option.some.inj (congrArg Rule.comment hsame))
    rw [or_iff_right habsent, inPlace_iff, inPlace_iff, comments_append, count_append, hcount,
      Nat.zero_add, mem_append, or_iff_right hrule]
    refine and_congr_right' (and_congr_right' (forall₂_congr fun packet h => ?_))
    rw [findSome?_append, findSome_accepts h, if_neg fun h => hother a h rfl, Option.none_or]

/-- A pass in any run keeps the rules of a foreign chain, in their order, and leaves every accept in
place exactly if each was in place before, or no rule had its comment. -/
theorem accepts_in_place_iff (mesh remote podAddress : Bool) (start : List Chain)
    (events : List Event) :
    let accepts := transportAccepts mesh remote podAddress
    let chains := events.foldl (step accepts) start
    (∀ chain ∈ chains, isForeignTransportFilterChain chain = true →
      let passed := ensureChainTransportAccepts accepts chain.rules
      chain.rules <:+ passed ∧ ∀ a ∈ accepts, InPlace passed a) ↔
    ∀ chain ∈ chains, isForeignTransportFilterChain chain = true →
      ∀ a ∈ accepts, a.comment ∉ comments chain.rules ∨ InPlace chain.rules a := by
  intro accepts chains
  have hdistinct : (accepts.map (·.comment)).Nodup := by
    revert mesh remote podAddress
    decide +kernel
  refine forall₂_congr fun chain _ => forall_congr' fun _ => ?_
  refine (and_iff_right ⟨_, ensureChain_eq.symm⟩).trans ?_
  exact forall₂_congr fun a ha => inPlace_ensureChain_iff hdistinct ha

/-- A drop that the device inserts before the accept stays there. -/
theorem displaced_accept_stays :
    ([Event.pass, .edit fun chains => chains.map fun chain =>
        { chain with rules := ⟨none, fun _ => some .drop⟩ :: chain.rules }, .pass].foldl
      (step (transportAccepts false true false)) [⟨some "filter", true, some .input, []⟩]).map
      (fun chain => chain.rules.findSome? (·.verdict ⟨some ⟨.udp, 14790⟩, []⟩)) =
      [some .drop] := by
  decide +kernel

end Clabernetes.Connectivity.TransportFilter
