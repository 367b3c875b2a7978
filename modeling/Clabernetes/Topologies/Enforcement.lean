import Clabernetes.Topologies.Emitted

/-!
# Enforcement of one kind of children

What `reconcileEmitted` does to the objects of one kind: its writes, that the API server accepts
them where no rendered name is taken, and what they leave. Where an object conforms to its rendering
once it has been created or updated, the children are settled after a pass, and a pass over settled
children writes nothing.
-/

namespace Clabernetes.Topologies

open Base Std List ExtTreeMap GoMap

variable {Spec Status Doc : Type} {name : String}

def Covers (m expected : GoMap String String) : Prop :=
  ∀ key value : String, expected[key]? = some value → m[key]? = some value

theorem Covers.refl (m : GoMap String String) : Covers m m := fun _ _ h => h

theorem contains_iff {existing expected : GoMap String String} :
    existingMapStringStringContainsAllExpectedKeyValues existing expected = true ↔
      Covers existing expected := by
  have hall : (expected.toList.all fun wanted => existing.anyEntry fun key value =>
      wanted.1 == key && wanted.2 == value) = true ↔ Covers existing expected := by
    simp [anyEntry_iff, mem_toList_iff_getElem?_eq_some, Covers]
  rw [existingMapStringStringContainsAllExpectedKeyValues]
  split
  case isTrue h =>
    -- nothing exists and something is expected
    rw [Bool.and_eq_true, Bool.not_eq_true', ExtTreeMap.isEmpty_iff] at h
    obtain ⟨rfl, hsome⟩ := h
    simp only [Bool.false_eq_true, false_iff]
    intro hcovers
    rw [← Bool.not_eq_true, ExtTreeMap.isEmpty_iff] at hsome
    apply hsome
    apply ExtTreeMap.ext_getElem?
    intro key
    cases hkey : expected[key]? with
    | none => simp
    | some value => simpa using hcovers key value hkey
  case isFalse => exact hall

theorem emittedObjectConforms_iff [DecidableEq Spec] {existing rendered : Child Spec Status} :
    emittedObjectConforms existing rendered = true ↔
      existing.spec = rendered.spec ∧
        (∀ reference ∈ rendered.ownerReferences, reference ∈ existing.ownerReferences) ∧
        Covers existing.labels rendered.labels ∧
        Covers existing.annotations rendered.annotations := by
  simp only [emittedObjectConforms, ownerReferencesConform, Bool.and_eq_true, beq_iff_eq,
    contains_iff, all_eq_true, any_eq_true, exists_eq_right, and_assoc]

theorem emittedNodeConforms_iff [DecidableEq Doc]
    {existing rendered : Child (NodeSpec Doc) Status} :
    emittedNodeConforms existing rendered = true ↔
      existing.spec.definition = rendered.spec.definition ∧
        (∀ reference ∈ rendered.ownerReferences, reference ∈ existing.ownerReferences) ∧
        Covers existing.labels rendered.labels ∧
        Covers existing.annotations rendered.annotations := by
  rw [emittedNodeConforms, emittedObjectConforms_iff]
  have hspec : existing.spec = { rendered.spec with runState := existing.spec.runState } ↔
      existing.spec.definition = rendered.spec.definition := by
    constructor
    · intro h
      rw [h]
    · intro h
      show existing.spec = ⟨rendered.spec.definition, existing.spec.runState⟩
      rw [← h]
  rw [hspec]

theorem generatedForTopology_of_mem {topology : Topology} {child : Child Spec Status}
    (h : controllerReference topology ∈ child.ownerReferences) :
    generatedForTopology topology child = true := by
  have howned : ownedBy child topology = true := by
    rw [ownedBy, any_eq_true]
    exact ⟨_, h, by simp [controllerReference]⟩
  rw [generatedForTopology, if_pos howned]

theorem lookup_generated (topology : Topology) (listed : GoMap String (Child Spec Status))
    (name : String) :
    (generated topology listed)[name]? = listed[name]?.filter (generatedForTopology topology) := by
  rw [generated, getElem?_filter']

theorem lookup_generated_eq_some {topology : Topology} {listed : GoMap String (Child Spec Status)}
    {child : Child Spec Status} : (generated topology listed)[name]? = some child ↔
      listed[name]? = some child ∧ generatedForTopology topology child = true := by
  rw [lookup_generated, Option.filter_eq_some_iff]

section Kind

variable [Inhabited Status] {rank : String → ℕ}
  {conforms : Child Spec Status → Child Spec Status → Bool}
  {carryOver : Child Spec Status → Child Spec Status → Child Spec Status}
  {topology : Topology} {rendered : List (Rendered Spec)}
  {existing live live' : GoMap String (Child Spec Status)}
  {write : Write String (Child Spec Status)} {object : Rendered Spec}

def writesFor (conforms : Child Spec Status → Child Spec Status → Bool)
    (carryOver : Child Spec Status → Child Spec Status → Child Spec Status)
    (topology : Topology) (existing : GoMap String (Child Spec Status))
    (object : Rendered Spec) : List (Write String (Child Spec Status)) :=
  match existing[object.name]? with
  | none => [.create object.name (object.child topology)]
  | some current =>
    if conforms current (object.child topology) then []
    else [.update object.name (carryOver current (object.child topology))]

def surplus (rendered : List (Rendered Spec)) (existing : GoMap String (Child Spec Status)) :
    GoMap String (Child Spec Status) :=
  existing.filter fun name _ => !(rendered.map Rendered.name).contains name

omit [Inhabited Status] in
theorem mem_surplus :
    name ∈ surplus rendered existing ↔ name ∈ existing ∧ name ∉ rendered.map Rendered.name := by
  rw [surplus, mem_filter_keys]
  simp

omit [Inhabited Status] in
theorem lookup_surplus (name : String) : (surplus rendered existing)[name]? =
      if name ∈ rendered.map Rendered.name then none else existing[name]? := by
  rw [surplus, getElem?_filter']
  split
  · next h =>
    rw [List.contains_iff_mem.mpr h]
    cases existing[name]? <;> rfl
  · next h =>
    rw [contains_eq_mem, decide_eq_false h]
    cases existing[name]? <;> rfl

theorem enforce_cons (object : Rendered Spec) (rest : List (Rendered Spec)) :
    enforce conforms carryOver topology (object :: rest) existing =
      (writesFor conforms carryOver topology existing object ++
          (enforce conforms carryOver topology rest (existing.erase object.name)).1,
        (enforce conforms carryOver topology rest (existing.erase object.name)).2) := by
  rw [enforce, writesFor]
  cases h : existing[object.name]? with
  | none =>
    have hsame : existing.erase object.name = existing := by
      apply ExtTreeMap.ext_getElem?
      intro name
      rw [lookup_erase]
      split
      case isTrue heq => rw [← heq, h]
      case isFalse => rfl
    simp [hsame]
  | some current => by_cases hc : conforms current (object.child topology) = true <;> simp [hc]

/-- Rendered objects with distinct names are enforced independently. -/
theorem enforce_eq (hnames : (rendered.map Rendered.name).Nodup) :
    enforce conforms carryOver topology rendered existing =
      (rendered.flatMap (writesFor conforms carryOver topology existing),
        surplus rendered existing) := by
  induction rendered generalizing existing with
  | nil =>
    have hall : surplus ([] : List (Rendered Spec)) existing = existing := by
      apply ExtTreeMap.ext_getElem?
      intro name
      simp [lookup_surplus]
    rw [enforce, hall]
    rfl
  | cons object rest ih =>
    rw [map_cons, nodup_cons] at hnames
    have hwrites : rest.flatMap
        (writesFor conforms carryOver topology (existing.erase object.name)) =
          rest.flatMap (writesFor conforms carryOver topology existing) := by
      apply flatMap_congr
      intro other hother
      have hne : object.name ≠ other.name := fun heq => hnames.1 (heq ▸ mem_map_of_mem hother)
      rw [writesFor, writesFor, lookup_erase, if_neg hne]
    have hleft : surplus rest (existing.erase object.name) = surplus (object :: rest) existing := by
      apply ExtTreeMap.ext_getElem?
      intro name
      rw [lookup_surplus, lookup_surplus, lookup_erase]
      by_cases heq : object.name = name
      · simp [heq]
      · simp [heq, Ne.symm heq]
    rw [enforce_cons, ih hnames.2, hwrites, hleft, flatMap_cons]

theorem reconcileEmitted_eq (hnames : (rendered.map Rendered.name).Nodup) :
    reconcileEmitted rank conforms carryOver topology rendered existing =
      rendered.flatMap (writesFor conforms carryOver topology existing) ++
        ((surplus rendered existing).iterate rank).map fun extra => .delete extra.1 := by
  rw [reconcileEmitted, enforce_eq hnames]

theorem mem_writesFor : write ∈ writesFor conforms carryOver topology existing object ↔
      (existing[object.name]? = none ∧ write = .create object.name (object.child topology)) ∨
        ∃ current, existing[object.name]? = some current ∧
          conforms current (object.child topology) = false ∧
          write = .update object.name (carryOver current (object.child topology)) := by
  rw [writesFor]
  cases existing[object.name]? with
  | none => simp
  | some current => by_cases hc : conforms current (object.child topology) = true <;> simp [hc]

theorem mem_reconcileEmitted (hnames : (rendered.map Rendered.name).Nodup) :
    write ∈ reconcileEmitted rank conforms carryOver topology rendered existing ↔
      (∃ object ∈ rendered, existing[object.name]? = none ∧
          write = .create object.name (object.child topology)) ∨
        (∃ object ∈ rendered, ∃ current, existing[object.name]? = some current ∧
          conforms current (object.child topology) = false ∧
          write = .update object.name (carryOver current (object.child topology))) ∨
        ∃ name, name ∈ existing ∧ name ∉ rendered.map Rendered.name ∧ write = .delete name := by
  have hextra : (∃ extra ∈ (surplus rendered existing).iterate rank,
      Write.delete extra.1 = write) ↔
        ∃ name, name ∈ existing ∧ name ∉ rendered.map Rendered.name ∧ write = .delete name := by
    constructor
    · rintro ⟨⟨name, child⟩, hmem, rfl⟩
      rw [GoMap.mem_iterate] at hmem
      have hin : name ∈ surplus rendered existing := by
        rw [← isSome_getElem?_iff_mem, hmem]
        rfl
      rw [mem_surplus] at hin
      exact ⟨name, hin.1, hin.2, rfl⟩
    · rintro ⟨name, hin, hnot, rfl⟩
      have hleft : name ∈ surplus rendered existing := mem_surplus.mpr ⟨hin, hnot⟩
      rw [← isSome_getElem?_iff_mem, Option.isSome_iff_exists] at hleft
      obtain ⟨child, hchild⟩ := hleft
      exact ⟨(name, child), (GoMap.mem_iterate rank _ name child).mpr hchild, rfl⟩
  rw [reconcileEmitted_eq hnames, mem_append, mem_flatMap, List.mem_map, hextra, ← or_assoc]
  apply or_congr_left
  simp only [mem_writesFor, and_or_left, exists_or]

theorem keys_writesFor :
    ((writesFor conforms carryOver topology existing object).map Write.key).Sublist
      [object.name] := by
  rw [writesFor]
  split
  · exact List.Sublist.refl _
  · split
    · exact nil_sublist _
    · exact List.Sublist.refl _

theorem keys_flatMap_writesFor :
    ((rendered.flatMap (writesFor conforms carryOver topology existing)).map Write.key).Sublist
      (rendered.map Rendered.name) := by
  induction rendered with
  | nil => exact List.Sublist.refl _
  | cons object rest ih =>
    rw [flatMap_cons, map_append, map_cons]
    exact keys_writesFor.append ih

theorem nodup_keys_reconcileEmitted (hnames : (rendered.map Rendered.name).Nodup) :
    ((reconcileEmitted rank conforms carryOver topology rendered existing).map
      Write.key).Nodup := by
  rw [reconcileEmitted_eq hnames, map_append, List.map_map, nodup_append]
  refine ⟨keys_flatMap_writesFor.nodup hnames, nodup_keys_iterate rank _, ?_⟩
  intro name hname other hother heq
  subst heq
  obtain ⟨⟨key, child⟩, hextra, rfl⟩ := List.mem_map.mp hother
  rw [GoMap.mem_iterate, lookup_surplus] at hextra
  have hrendered : key ∈ rendered.map Rendered.name := keys_flatMap_writesFor.subset hname
  rw [if_pos hrendered] at hextra
  cases hextra

theorem reconcileEmitted_eq_nil (hnames : (rendered.map Rendered.name).Nodup)
    (hconform : ∀ object ∈ rendered, ∃ current, existing[object.name]? = some current ∧
      conforms current (object.child topology) = true)
    (honly : ∀ name ∈ existing, name ∈ rendered.map Rendered.name) :
    reconcileEmitted rank conforms carryOver topology rendered existing = [] := by
  rw [eq_nil_iff_forall_not_mem]
  intro write hwrite
  rcases (mem_reconcileEmitted hnames).mp hwrite with
    ⟨object, hobject, hnone, -⟩ | ⟨object, hobject, current, hcurrent, hdrifted, -⟩ |
      ⟨name, hin, hnot, -⟩
  · obtain ⟨current, hcurrent, -⟩ := hconform object hobject
    rw [hnone] at hcurrent
    cases hcurrent
  · obtain ⟨current', hcurrent', hc⟩ := hconform object hobject
    rw [hcurrent] at hcurrent'
    cases hcurrent'
    rw [hdrifted] at hc
    cases hc
  · exact hnot (honly name hin)

def outcome (conforms : Child Spec Status → Child Spec Status → Bool)
    (carryOver : Child Spec Status → Child Spec Status → Child Spec Status)
    (topology : Topology) (existing : GoMap String (Child Spec Status))
    (object : Rendered Spec) : Child Spec Status :=
  match existing[object.name]? with
  | none => object.child topology
  | some current =>
    if conforms current (object.child topology) then current
    else carryOver current (object.child topology)

/-- No rendered name belongs to an object that was not generated for the Topology. -/
def Free (topology : Topology) (rendered : List (Rendered Spec))
    (live : GoMap String (Child Spec Status)) : Prop :=
  ∀ object ∈ rendered, ∀ child, live[object.name]? = some child →
    generatedForTopology topology child = true

omit [Inhabited Status] in
theorem Free.lookup_generated (hfree : Free topology rendered live) (h : object ∈ rendered) :
    (generated topology live)[object.name]? = live[object.name]? := by
  cases hlive : live[object.name]? with
  | none => rw [Topologies.lookup_generated, hlive, Option.filter_none]
  | some child => exact lookup_generated_eq_some.mpr ⟨hlive, hfree object h child hlive⟩

omit [Inhabited Status] in
theorem mem_generated : name ∈ generated topology live ↔
      ∃ child, live[name]? = some child ∧ generatedForTopology topology child = true := by
  rw [← isSome_getElem?_iff_mem, Option.isSome_iff_exists]
  simp only [lookup_generated_eq_some]

section

variable (hnames : (rendered.map Rendered.name).Nodup)

include hnames

theorem fits_reconcileEmitted (hfree : Free topology rendered live)
    (h : write ∈ reconcileEmitted rank conforms carryOver topology rendered
      (generated topology live)) : write.Fits live := by
  rcases (mem_reconcileEmitted hnames).mp h with
    ⟨object, hobject, hnone, rfl⟩ | ⟨object, hobject, current, hcurrent, -, rfl⟩ |
      ⟨name, -, -, rfl⟩
  · rw [hfree.lookup_generated hobject] at hnone
    show object.name ∉ live
    rw [← isSome_getElem?_iff_mem, hnone]
    simp
  · rw [hfree.lookup_generated hobject] at hcurrent
    show object.name ∈ live
    rw [← isSome_getElem?_iff_mem, hcurrent]
    rfl
  · trivial

theorem exists_run_reconcileEmitted (hfree : Free topology rendered live) :
    ∃ live', run Write.apply live (reconcileEmitted rank conforms carryOver topology rendered
      (generated topology live)) = some live' :=
  Write.exists_run (nodup_keys_reconcileEmitted hnames)
    fun _ h => fits_reconcileEmitted hnames hfree h

theorem mem_writesFor_of_key
    (h : write ∈ reconcileEmitted rank conforms carryOver topology rendered existing)
    (hobject : object ∈ rendered) (hkey : write.key = object.name) :
    write ∈ writesFor conforms carryOver topology existing object := by
  rcases (mem_reconcileEmitted hnames).mp h with
    ⟨other, hother, hnone, rfl⟩ | ⟨other, hother, current, hcurrent, hdrifted, rfl⟩ |
      ⟨name, -, hnot, rfl⟩
  · obtain rfl := inj_on_of_nodup_map hnames hother hobject hkey
    exact mem_writesFor.mpr (.inl ⟨hnone, rfl⟩)
  · obtain rfl := inj_on_of_nodup_map hnames hother hobject hkey
    exact mem_writesFor.mpr (.inr ⟨current, hcurrent, hdrifted, rfl⟩)
  · have hname : name = object.name := hkey
    rw [hname] at hnot
    exact absurd (mem_map_of_mem hobject) hnot

theorem lookup_rendered (hfree : Free topology rendered live)
    (hrun : run Write.apply live (reconcileEmitted rank conforms carryOver topology rendered
      (generated topology live)) = some live') (hobject : object ∈ rendered) : live'[object.name]? =
      some (outcome conforms carryOver topology (generated topology live) object) := by
  rcases Write.lookup_run hrun object.name with ⟨hnot, hsame⟩ | ⟨write, hwrite, hkey, hvalue⟩
  · -- nothing was written, so the object was there and conformed
    rw [hsame, ← hfree.lookup_generated hobject, outcome]
    cases hcurrent : (generated topology live)[object.name]? with
    | none =>
      exact absurd (mem_map_of_mem
        ((mem_reconcileEmitted hnames).mpr (.inl ⟨object, hobject, hcurrent, rfl⟩))) hnot
    | some current =>
      by_cases hc : conforms current (object.child topology) = true
      · simp [hc]
      · rw [Bool.not_eq_true] at hc
        exact absurd (mem_map_of_mem ((mem_reconcileEmitted hnames).mpr
          (.inr (.inl ⟨object, hobject, current, hcurrent, hc, rfl⟩)))) hnot
  · rw [hvalue, outcome]
    rcases mem_writesFor.mp (mem_writesFor_of_key hnames hwrite hobject hkey) with
      ⟨hnone, rfl⟩ | ⟨current, hcurrent, hdrifted, rfl⟩
    · simp [hnone, Write.value]
    · simp [hcurrent, hdrifted, Write.value]

theorem lookup_unrendered
    (hrun : run Write.apply live (reconcileEmitted rank conforms carryOver topology rendered
      (generated topology live)) = some live') (hname : name ∉ rendered.map Rendered.name)
    (child : Child Spec Status) : live'[name]? = some child ↔
      live[name]? = some child ∧ generatedForTopology topology child = false := by
  rcases Write.lookup_run hrun name with ⟨hnot, hsame⟩ | ⟨write, hwrite, rfl, hvalue⟩
  · rw [hsame, iff_self_and]
    intro hchild
    rw [← Bool.not_eq_true]
    intro hgenerated
    exact hnot (mem_map_of_mem ((mem_reconcileEmitted hnames).mpr
      (.inr (.inr ⟨name, mem_generated.mpr ⟨child, hchild, hgenerated⟩, hname, rfl⟩))))
  · rcases (mem_reconcileEmitted hnames).mp hwrite with
      ⟨object, hobject, -, rfl⟩ | ⟨object, hobject, current, -, -, rfl⟩ | ⟨name, hin, -, rfl⟩
    · exact absurd (mem_map_of_mem hobject) hname
    · exact absurd (mem_map_of_mem hobject) hname
    · obtain ⟨current, hcurrent, hgenerated⟩ := mem_generated.mp hin
      rw [hvalue]
      simp only [Write.value, Write.key, hcurrent, reduceCtorEq, Option.some.injEq, false_iff,
        not_and, Bool.not_eq_false]
      rintro rfl
      exact hgenerated

end

def LeavesForeign (topology : Topology) (live live' : GoMap String (Child Spec Status)) : Prop :=
  ∀ (name : String) (child : Child Spec Status), live[name]? = some child →
    generatedForTopology topology child = false → live'[name]? = some child

omit [Inhabited Status] in
theorem LeavesForeign.refl (topology : Topology) (live : GoMap String (Child Spec Status)) :
    LeavesForeign topology live live := fun _ _ h _ => h

omit [Inhabited Status] in
theorem LeavesForeign.trans {live'' : GoMap String (Child Spec Status)}
    (h : LeavesForeign topology live live') (h' : LeavesForeign topology live' live'') :
    LeavesForeign topology live live'' :=
  fun name child hchild hforeign => h' name child (h name child hchild hforeign) hforeign

theorem leavesForeign_of_run (hnames : (rendered.map Rendered.name).Nodup)
    (hfree : Free topology rendered live) {writes : List (Write String (Child Spec Status))}
    (hwrites : writes ⊆ reconcileEmitted rank conforms carryOver topology rendered
      (generated topology live)) (hrun : run Write.apply live writes = some live') :
    LeavesForeign topology live live' := by
  intro name child hchild hforeign
  have hnone : (generated topology live)[name]? = none := by
    rw [lookup_generated, hchild]
    simp [Option.filter, hforeign]
  rcases Write.lookup_run hrun name with ⟨-, hsame⟩ | ⟨write, hwrite, rfl, -⟩
  · rw [hsame, hchild]
  · rcases (mem_reconcileEmitted hnames).mp (hwrites hwrite) with
      ⟨object, hobject, -, rfl⟩ | ⟨object, -, current, hcurrent, -, rfl⟩ | ⟨name, hin, -, rfl⟩
    · rw [hfree object hobject child hchild] at hforeign
      cases hforeign
    · have hsome : (generated topology live)[object.name]? = none := hnone
      rw [hcurrent] at hsome
      cases hsome
    · have hout : (generated topology live)[name]? = none := hnone
      rw [← isSome_getElem?_iff_mem, hout] at hin
      cases hin

/-- The children generated for the Topology are the rendered objects, and conform. -/
structure Settled (conforms : Child Spec Status → Child Spec Status → Bool) (topology : Topology)
    (rendered : List (Rendered Spec)) (live : GoMap String (Child Spec Status)) : Prop where
  present : ∀ object ∈ rendered, ∃ child, live[object.name]? = some child ∧
    generatedForTopology topology child = true ∧
    conforms child (object.child topology) = true
  only : ∀ name child, live[name]? = some child → generatedForTopology topology child = true →
    name ∈ rendered.map Rendered.name

variable (hnames : (rendered.map Rendered.name).Nodup)

include hnames

theorem settled_of_run (hfree : Free topology rendered live)
    (hrun : run Write.apply live (reconcileEmitted rank conforms carryOver topology rendered
      (generated topology live)) = some live')
    (howner : ∀ child (object : Rendered Spec), conforms child (object.child topology) = true →
      controllerReference topology ∈ child.ownerReferences) (hself : ∀ object : Rendered Spec,
      conforms (object.child topology) (object.child topology) = true)
    (hcarry : ∀ object ∈ rendered, ∀ current, live[object.name]? = some current →
      conforms (carryOver current (object.child topology)) (object.child topology) = true) :
    Settled conforms topology rendered live' := by
  have hconforms : ∀ object ∈ rendered, conforms
      (outcome conforms carryOver topology (generated topology live) object)
      (object.child topology) = true := by
    intro object hobject
    rw [outcome]
    cases hcurrent : (generated topology live)[object.name]? with
    | none => exact hself object
    | some current =>
      rw [hfree.lookup_generated hobject] at hcurrent
      by_cases hc : conforms current (object.child topology) = true
      · simp [hc]
      · simp [hc, hcarry object hobject current hcurrent]
  constructor
  · intro object hobject
    have hchild := hconforms object hobject
    exact ⟨_, lookup_rendered hnames hfree hrun hobject,
      generatedForTopology_of_mem (howner _ object hchild), hchild⟩
  · intro name child hchild hgenerated
    by_contra hname
    have hforeign := ((lookup_unrendered hnames hrun hname child).mp hchild).2
    rw [hgenerated] at hforeign
    cases hforeign

theorem Settled.reconcileEmitted_eq_nil (h : Settled conforms topology rendered live) :
    reconcileEmitted rank conforms carryOver topology rendered (generated topology live) = [] := by
  apply Topologies.reconcileEmitted_eq_nil hnames
  · intro object hobject
    obtain ⟨child, hchild, hgenerated, hconforms⟩ := h.present object hobject
    exact ⟨child, lookup_generated_eq_some.mpr ⟨hchild, hgenerated⟩, hconforms⟩
  · intro name hname
    obtain ⟨child, hchild, hgenerated⟩ := mem_generated.mp hname
    exact h.only name child hchild hgenerated

theorem settled_of_run_emitted [DecidableEq Spec] (hfree : Free topology rendered live)
    (hcarry : ∀ current object : Child Spec Status,
      emittedObjectConforms (carryOver current object) object = true)
    (hrun : run Write.apply live (reconcileEmitted rank emittedObjectConforms carryOver topology
      rendered (generated topology live)) = some live') :
    Settled emittedObjectConforms topology rendered live' := by
  apply settled_of_run hnames hfree hrun
  · intro child object h
    exact (emittedObjectConforms_iff.mp h).2.1 _ (mem_singleton_self _)
  · intro object
    exact emittedObjectConforms_iff.mpr ⟨rfl, fun _ h => h, Covers.refl _, Covers.refl _⟩
  · intro object _ current _
    exact hcarry current (object.child topology)

end Kind

end Clabernetes.Topologies
