import Mathlib.Data.Multiset.MapFold
import Mathlib.Data.Set.Function

/-!
# Wired graphs and renaming

Named nodes, wires between nodes and an outside that every graph has, and what is attached to a node
by its name. A renaming acts on all of it at once.
-/

namespace Clabernetes.Base

inductive Target (ν : Type) where
  | outside
  | node (name : ν)
  deriving DecidableEq

structure WireEnd (ν : Type) where
  target : Target ν
  interface : String
  deriving DecidableEq

structure Wire (ν : Type) where
  endA : WireEnd ν
  endB : WireEnd ν
  mtu : Int
  deriving DecidableEq

/-- A graph on nodes named by `ν`. A node has a body, may share the place of another node, is under
policies and has records of where it comes from. -/
@[ext] structure Graph (ν δ π ω : Type) where
  nodes : Set (ν × δ)
  wires : Multiset (Wire ν)
  primaries : Set (ν × ν)
  policies : Set (ν × π)
  records : Set (ν × ω)

variable {ν μ δ π ω : Type} (f : ν → μ)

def Target.map : Target ν → Target μ
  | .outside => .outside
  | .node name => .node (f name)

def WireEnd.map (e : WireEnd ν) : WireEnd μ := { e with target := e.target.map f }

def Wire.map (w : Wire ν) : Wire μ :=
  { w with endA := w.endA.map f, endB := w.endB.map f }

def Graph.map (g : Graph ν δ π ω) : Graph μ δ π ω where
  nodes := Prod.map f id '' g.nodes
  wires := g.wires.map (Wire.map f)
  primaries := Prod.map f f '' g.primaries
  policies := Prod.map f id '' g.policies
  records := Prod.map f id '' g.records

def WireEnd.In (names : Set ν) (e : WireEnd ν) : Prop :=
  ∀ name, e.target = .node name → name ∈ names

structure Graph.Closed (g : Graph ν δ π ω) : Prop where
  wires : ∀ w ∈ g.wires, w.endA.In (Prod.fst '' g.nodes) ∧ w.endB.In (Prod.fst '' g.nodes)
  primaries : ∀ p ∈ g.primaries, p.1 ∈ Prod.fst '' g.nodes ∧ p.2 ∈ Prod.fst '' g.nodes
  policies : ∀ p ∈ g.policies, p.1 ∈ Prod.fst '' g.nodes
  records : ∀ p ∈ g.records, p.1 ∈ Prod.fst '' g.nodes

theorem eq_image_iff (names : Set ν) {f : ν → μ} {s : Set (ν × δ)} {t : Set (μ × δ)}
    (hs : ∀ e ∈ s, e.1 ∈ names) (ht : ∀ e ∈ t, ∃ name ∈ names, f name = e.1)
    (hf : Set.InjOn f names) :
    t = Prod.map f id '' s ↔ ∀ name ∈ names, ∀ x, (f name, x) ∈ t ↔ (name, x) ∈ s := by
  constructor
  · rintro rfl name hname x
    constructor
    · rintro ⟨⟨other, y⟩, hy, heq⟩
      obtain ⟨hother, rfl⟩ := Prod.mk.inj heq
      rwa [← hf (hs _ hy) hname hother]
    · exact fun hx => ⟨_, hx, rfl⟩
  · intro h
    ext ⟨newName, x⟩
    constructor
    · intro hx
      obtain ⟨name, hname, rfl⟩ := ht _ hx
      exact ⟨_, (h name hname x).mp hx, rfl⟩
    · rintro ⟨⟨name, y⟩, hy, heq⟩
      rw [← heq]
      exact (h name (hs _ hy) y).mpr hy

end Clabernetes.Base
