import Clabernetes.Topologies.Enforcement

/-!
# Convergence of the emitted children

One pass leaves the rendered objects as the children generated for the Topology, and the pass after
it writes nothing. What was not generated for the Topology stays as it is under every number of
passes, whole or cut short, and so does what the compiler does not own of a Node.
-/

namespace Clabernetes.Topologies

open Base Std List GoMap

variable {Spec Status Doc : Type} {name : String}

theorem lookup_carryRequest (existing annotations : GoMap String String) (k key : String) :
    (carryRequest existing annotations k)[key]? =
      if k = key then existing[key]?.or annotations[key]? else annotations[key]? := by
  rw [carryRequest]
  split
  case h_1 hnone =>
    split
    case isTrue heq => rw [← heq, hnone, Option.none_or]
    case isFalse => rfl
  case h_2 value hvalue =>
    rw [lookup_insert]
    split
    case isTrue heq => rw [← heq, hvalue, Option.some_or]
    case isFalse => rfl

theorem lookup_foldl_carryRequest (existing : GoMap String String) (keys : List String)
    (annotations : GoMap String String) (key : String) :
    (keys.foldl (carryRequest existing) annotations)[key]? =
      if key ∈ keys then existing[key]?.or annotations[key]? else annotations[key]? := by
  induction keys generalizing annotations with
  | nil => simp
  | cons k keys ih =>
    rw [foldl_cons, ih, lookup_carryRequest]
    by_cases hk : k = key
    · subst hk
      cases existing[k]? <;> simp
    · simp [hk, Ne.symm hk]

theorem lookup_clearStartup (node : Rendered (NodeSpec Doc)) (key : String) :
    node.clearStartup.annotations[key]? =
      if key = annotationStartupHold ∨ key = annotationStartupAdmitted then none
      else node.annotations[key]? := by
  rw [Rendered.clearStartup, lookup_erase, lookup_erase]
  by_cases hhold : key = annotationStartupHold
  · subst hhold
    simp
  · by_cases hadmitted : key = annotationStartupAdmitted
    · subst hadmitted
      simp
    · simp [hhold, hadmitted, Ne.symm hhold, Ne.symm hadmitted]

theorem lookup_insert_unless_empty (m : GoMap String String) (key value k : String) :
    (if value = "" then m else m.insert key value)[k]? =
      if key = k ∧ value ≠ "" then some value else m[k]? := by
  by_cases hvalue : value = ""
  · simp [hvalue]
  · simp [hvalue, lookup_insert]

section Marks

variable {topology : Topology} {batchSize : ℤ}
  {existing : GoMap String (Child (NodeSpec Doc) Status)} {node : Rendered (NodeSpec Doc)}
  {current : Child (NodeSpec Doc) Status} {key : String}

theorem lookup_marker (hcurrent : existing[node.name]? = some current)
    (hkey : key = annotationStartupHold ∨ key = annotationStartupAdmitted) :
    (node.markStartup topology batchSize existing).annotations[key]? =
      if readKey current.annotations key = "" then none
      else some (readKey current.annotations key) := by
  have hapart : annotationStartupHold ≠ annotationStartupAdmitted := by decide
  have hcleared := lookup_clearStartup node key
  rw [if_pos hkey] at hcleared
  simp only [Rendered.markStartup, hcurrent, lookup_insert_unless_empty]
  rcases hkey with rfl | rfl
  · by_cases hempty : readKey current.annotations annotationStartupHold = "" <;>
      simp [hempty, hcleared, hapart.symm]
  · by_cases hempty : readKey current.annotations annotationStartupAdmitted = "" <;>
      simp [hempty, hcleared, hapart]

theorem lookup_markStartup_of_ne
    (hkey : ¬(key = annotationStartupHold ∨ key = annotationStartupAdmitted)) :
    (node.markStartup topology batchSize existing).annotations[key]? = node.annotations[key]? := by
  have hcleared := lookup_clearStartup node key
  rw [if_neg hkey] at hcleared
  rw [not_or] at hkey
  rw [Rendered.markStartup]
  cases existing[node.name]? with
  | some current =>
    simp only [lookup_insert_unless_empty]
    simp [Ne.symm hkey.1, Ne.symm hkey.2, hcleared]
  | none =>
    simp only
    split
    · rw [lookup_insert, if_neg (Ne.symm hkey.1), hcleared]
    · exact hcleared

theorem covers_markStartup : Covers (node.markStartup topology batchSize existing).annotations
      node.clearStartup.annotations := by
  intro key value h
  rw [lookup_clearStartup] at h
  split at h
  case isTrue => cases h
  case isFalse hkey => rw [lookup_markStartup_of_ne hkey, h]

theorem covers_markers (hcurrent : existing[node.name]? = some current)
    (h : Covers current.annotations node.clearStartup.annotations) :
    Covers current.annotations (node.markStartup topology batchSize existing).annotations := by
  intro key value hvalue
  by_cases hkey : key = annotationStartupHold ∨ key = annotationStartupAdmitted
  · rw [lookup_marker hcurrent hkey] at hvalue
    split at hvalue
    case isTrue => cases hvalue
    case isFalse hne =>
      cases hvalue
      rw [readKey] at hne ⊢
      cases hread : current.annotations[key]? with
      | none => simp [hread] at hne
      | some value => rfl
  · rw [lookup_markStartup_of_ne hkey] at hvalue
    apply h
    rw [lookup_clearStartup, if_neg hkey, hvalue]

end Marks

/-- The second object has what users and controllers have put on the first. A startup marker that
is empty is read as none. -/
structure Kept (node node' : Child (NodeSpec Doc) Status) : Prop where
  runState : node'.spec.runState = node.spec.runState
  status : node'.status = node.status
  hold : readKey node'.annotations annotationStartupHold =
    readKey node.annotations annotationStartupHold
  admitted : readKey node'.annotations annotationStartupAdmitted =
    readKey node.annotations annotationStartupAdmitted
  requests : ∀ key ∈ operationalNodeAnnotations, ∀ value : String,
    node.annotations[key]? = some value → node'.annotations[key]? = some value

theorem Kept.refl (node : Child (NodeSpec Doc) Status) : Kept node node :=
  ⟨rfl, rfl, rfl, rfl, fun _ _ _ h => h⟩

theorem Kept.trans {first second third : Child (NodeSpec Doc) Status} (h : Kept first second)
    (h' : Kept second third) : Kept first third where
  runState := h'.runState.trans h.runState
  status := h'.status.trans h.status
  hold := h'.hold.trans h.hold
  admitted := h'.admitted.trans h.admitted
  requests key hkey value hvalue := h'.requests key hkey value (h.requests key hkey value hvalue)

section Nodes

variable [Inhabited Status] {topology : Topology} {batchSize : ℤ}
  {existing : GoMap String (Child (NodeSpec Doc) Status)} {node : Rendered (NodeSpec Doc)}
  {current : Child (NodeSpec Doc) Status}

theorem readKey_carryOver {key : String} (hcurrent : existing[node.name]? = some current)
    (hkey : key = annotationStartupHold ∨ key = annotationStartupAdmitted) :
    readKey (carryOverNode current
      ((node.markStartup topology batchSize existing).child topology)).annotations key =
        readKey current.annotations key := by
  have hnot : key ∉ operationalNodeAnnotations := by rcases hkey with rfl | rfl <;> decide
  simp only [readKey, carryOverNode, lookup_foldl_carryRequest, if_neg hnot, Rendered.child,
    lookup_marker hcurrent hkey]
  by_cases hempty : current.annotations[key]?.getD "" = "" <;> simp [hempty]

theorem kept_carryOverNode (hcurrent : existing[node.name]? = some current) :
    Kept current (carryOverNode current
      ((node.markStartup topology batchSize existing).child topology)) where
  runState := rfl
  status := rfl
  hold := readKey_carryOver hcurrent (.inl rfl)
  admitted := readKey_carryOver hcurrent (.inr rfl)
  requests key hkey value hvalue := by
    simp [carryOverNode, lookup_foldl_carryRequest, if_pos hkey, hvalue]

theorem conforms_carryOverNode [DecidableEq Doc] {object : Rendered (NodeSpec Doc)}
    (hagree : ∀ key ∈ operationalNodeAnnotations, ∀ value requested : String,
      object.annotations[key]? = some value → current.annotations[key]? = some requested →
        requested = value) : emittedNodeConforms (carryOverNode current (object.child topology))
      (object.child topology) = true := by
  rw [emittedNodeConforms_iff]
  refine ⟨rfl, fun _ h => h, Covers.refl _, ?_⟩
  intro key value hvalue
  simp only [carryOverNode, lookup_foldl_carryRequest]
  split
  case isTrue hkey =>
    cases hrequested : current.annotations[key]? with
    | none => rw [Option.none_or, hvalue]
    | some requested => rw [hagree key hkey value requested hvalue hrequested, Option.some_or]
  case isFalse => exact hvalue

end Nodes

variable (rendered : List (Rendered (NodeSpec Doc)))

/-- Where a Node is rendered with an operational request and already has one under that key, the
two are the same. -/
def RequestsAgree (live : GoMap String (Child (NodeSpec Doc) Status)) : Prop :=
  ∀ node ∈ rendered, ∀ current, live[node.name]? = some current →
    ∀ key ∈ operationalNodeAnnotations, ∀ value requested : String,
      node.annotations[key]? = some value → current.annotations[key]? = some requested →
        requested = value

section Kinds

variable {topology : Topology} {batchSize : ℤ} {rendered : List (Rendered (NodeSpec Doc))}
  {live : GoMap String (Child (NodeSpec Doc) Doc)}
  {existing : GoMap String (Child (NodeSpec Doc) Status)}
  {live' : GoMap String (Child (NodeSpec Doc) Doc)}

theorem names_markStartup :
    (rendered.map (Rendered.markStartup topology batchSize existing)).map Rendered.name =
      rendered.map Rendered.name := by
  rw [map_map]
  rfl

theorem Free.markStartup {live : GoMap String (Child (NodeSpec Doc) Status)}
    (h : Free topology rendered live) :
    Free topology (rendered.map (Rendered.markStartup topology batchSize existing)) live := by
  intro object hobject child hchild
  obtain ⟨node, hnode, rfl⟩ := mem_map.mp hobject
  exact h node hnode child hchild

variable [DecidableEq Doc] [Inhabited Doc] {rank : String → ℕ}

/-- What is settled stays so where only the annotations are rendered otherwise. -/
theorem Settled.of_annotations {f g : Rendered (NodeSpec Doc) → Rendered (NodeSpec Doc)}
    (h : Settled emittedNodeConforms topology (rendered.map f) live)
    (hg : ∀ node, g node = { f node with annotations := (g node).annotations })
    (hcovers : ∀ node child, (generated topology live)[(f node).name]? = some child →
      Covers child.annotations (f node).annotations →
        Covers child.annotations (g node).annotations) :
    Settled emittedNodeConforms topology (rendered.map g) live := by
  constructor
  · intro object hobject
    obtain ⟨node, hnode, rfl⟩ := mem_map.mp hobject
    obtain ⟨child, hchild, hgenerated, hconforms⟩ := h.present _ (mem_map_of_mem hnode)
    rw [emittedNodeConforms_iff] at hconforms
    obtain ⟨hdefinition, howner, hlabels, hannotations⟩ := hconforms
    rw [hg node]
    exact ⟨child, hchild, hgenerated, emittedNodeConforms_iff.mpr ⟨hdefinition, howner, hlabels,
      hcovers node child (lookup_generated_eq_some.mpr ⟨hchild, hgenerated⟩) hannotations⟩⟩
  · intro name child hchild hgenerated
    obtain ⟨node, hnode, rfl⟩ := mem_map.mp (map_map ▸ h.only name child hchild hgenerated)
    rw [map_map]
    exact mem_map.mpr ⟨node, hnode, (congrArg Rendered.name (hg node) :)⟩

variable (hnames : (rendered.map Rendered.name).Nodup)

include hnames

theorem settled_reconcileNodes
    (hfree : Free topology rendered live) (hagree : RequestsAgree rendered live)
    (hrun : run Write.apply live (reconcileNodes rank topology batchSize rendered live) =
      some live') :
    Settled emittedNodeConforms topology (rendered.map Rendered.clearStartup) live' := by
  have hmarked := settled_of_run (by rwa [names_markStartup]) hfree.markStartup hrun
    (fun child object h => (emittedNodeConforms_iff.mp h).2.1 _ (mem_singleton_self _))
    (fun object => emittedNodeConforms_iff.mpr ⟨rfl, fun _ h => h, Covers.refl _, Covers.refl _⟩)
    (by
      intro object hobject current hcurrent
      obtain ⟨node, hnode, rfl⟩ := mem_map.mp hobject
      apply conforms_carryOverNode
      intro key hkey value requested hvalue
      have hne : ¬(key = annotationStartupHold ∨ key = annotationStartupAdmitted) := by
        rintro (rfl | rfl)
        · exact absurd hkey (by decide)
        · exact absurd hkey (by decide)
      rw [lookup_markStartup_of_ne hne] at hvalue
      exact hagree node hnode current hcurrent key hkey value requested hvalue)
  exact hmarked.of_annotations (fun _ => rfl) fun node child _ h key value hvalue =>
    h key value (covers_markStartup key value hvalue)

theorem reconcileNodes_eq_nil
    (h : Settled emittedNodeConforms topology (rendered.map Rendered.clearStartup) live) :
    reconcileNodes rank topology batchSize rendered live = [] := by
  apply Settled.reconcileEmitted_eq_nil (by rwa [names_markStartup])
  exact h.of_annotations (fun _ => rfl) fun node child hchild => covers_markers hchild

/-- Some or all of the writes of a pass keep what the compiler does not own of a Node that is
rendered. -/
theorem kept_of_run {writes : List (Write String (Child (NodeSpec Doc) Doc))}
    (hfree : Free topology rendered live)
    (hwrites : writes ⊆ reconcileNodes rank topology batchSize rendered live)
    (hrun : run Write.apply live writes = some live') {current : Child (NodeSpec Doc) Doc}
    (hname : name ∈ rendered.map Rendered.name) (hcurrent : live[name]? = some current) :
    ∃ node', live'[name]? = some node' ∧ Kept current node' := by
  obtain ⟨node, hnode, rfl⟩ := mem_map.mp hname
  have hexisting : (generated topology live)[node.name]? = some current := by
    rw [hfree.lookup_generated hnode, hcurrent]
  rcases Write.lookup_run hrun node.name with ⟨-, hsame⟩ | ⟨write, hwrite, hkey, hvalue⟩
  · exact ⟨current, by rw [hsame, hcurrent], Kept.refl current⟩
  · have hfor := mem_writesFor_of_key (by rwa [names_markStartup]) (hwrites hwrite)
      (mem_map_of_mem hnode) hkey
    rcases mem_writesFor.mp hfor with ⟨hnone, -⟩ | ⟨found, hfound, -, rfl⟩
    · have hnone : (generated topology live)[node.name]? = none := hnone
      rw [hexisting] at hnone
      cases hnone
    · have hfound : (generated topology live)[node.name]? = some found := hfound
      rw [hexisting] at hfound
      cases hfound
      exact ⟨_, hvalue, kept_carryOverNode hexisting⟩

/-- A request that differs from the rendered one is carried over, so the Node does not have what is
rendered. -/
theorem requestsAgree_of_covers (hfree : Free topology rendered live)
    (hrun : run Write.apply live (reconcileNodes rank topology batchSize rendered live) =
      some live')
    (hcovers : ∀ node ∈ rendered, ∀ child, live'[node.name]? = some child →
      Covers child.annotations node.clearStartup.annotations) : RequestsAgree rendered live := by
  intro node hnode current hcurrent key hkey value requested hvalue hrequested
  obtain ⟨child, hchild, hkept⟩ :=
    kept_of_run hnames hfree (Subset.refl _) hrun (mem_map_of_mem hnode) hcurrent
  have hne : ¬(key = annotationStartupHold ∨ key = annotationStartupAdmitted) := by
    rintro (rfl | rfl) <;> exact absurd hkey (by decide)
  have hread := hcovers node hnode child hchild key value
    (by rw [lookup_clearStartup, if_neg hne, hvalue])
  rw [hkept.requests key hkey requested hrequested] at hread
  exact Option.some.inj hread

theorem covers_of_reconcileNodes_eq_nil
    (h : reconcileNodes rank topology batchSize rendered live = []) :
    ∀ node ∈ rendered, ∀ child, live[node.name]? = some child →
      Covers child.annotations node.clearStartup.annotations := by
  intro node hnode child hchild
  have hwritten {write} (hwrite : write ∈ writesFor emittedNodeConforms carryOverNode topology
      (generated topology live)
      (node.markStartup topology batchSize (generated topology live))) : False := by
    have hmem : write ∈ reconcileNodes rank topology batchSize rendered live :=
      (mem_reconcileEmitted (by rwa [names_markStartup])).mpr <| by
        rcases mem_writesFor.mp hwrite with hcreate | hupdate
        · exact .inl ⟨_, mem_map_of_mem hnode, hcreate⟩
        · exact .inr (.inl ⟨_, mem_map_of_mem hnode, hupdate⟩)
    rw [h] at hmem
    cases hmem
  cases hexisting : (generated topology live)[node.name]? with
  | none => exact (hwritten (mem_writesFor.mpr (.inl ⟨hexisting, rfl⟩))).elim
  | some current =>
    have hsame := (lookup_generated_eq_some.mp hexisting).1
    rw [hchild] at hsame
    cases hsame
    cases hconforms : emittedNodeConforms child
        ((node.markStartup topology batchSize (generated topology live)).child topology) with
    | false =>
      exact (hwritten (mem_writesFor.mpr (.inr ⟨child, hexisting, hconforms, rfl⟩))).elim
    | true =>
      intro key value hvalue
      exact (emittedNodeConforms_iff.mp hconforms).2.2.2 key value
        (covers_markStartup key value hvalue)

end Kinds

theorem childConflicts_eq_nil_iff {taken : ChildKind × String → Bool}
    {seen children : List (ChildKind × String)} : childConflicts taken seen children = [] ↔
      children.Nodup ∧ (∀ child ∈ children, child ∉ seen ∧ taken child = false) := by
  induction children generalizing seen with
  | nil => simp [childConflicts]
  | cons child rest ih =>
    rw [childConflicts]
    by_cases hseen : child ∈ seen
    · simp [hseen]
    · by_cases htaken : taken child = true
      · simp [hseen, htaken]
      · rw [if_neg hseen, if_neg htaken, ih, nodup_cons]
        rw [Bool.not_eq_true] at htaken
        constructor
        · rintro ⟨hnodup, hrest⟩
          refine ⟨⟨fun hin => (hrest child hin).1 mem_cons_self, hnodup⟩, ?_⟩
          intro other hother
          rcases mem_cons.mp hother with rfl | hother
          · exact ⟨hseen, htaken⟩
          · exact ⟨fun hin => (hrest other hother).1 (mem_cons_of_mem child hin),
              (hrest other hother).2⟩
        · rintro ⟨⟨hnot, hnodup⟩, hall⟩
          refine ⟨hnodup, fun other hother => ⟨?_, (hall other (mem_cons_of_mem _ hother)).2⟩⟩
          rw [mem_cons, not_or]
          exact ⟨fun heq => hnot (heq ▸ hother), (hall other (mem_cons_of_mem _ hother)).1⟩

theorem findChildResourceConflicts_eq_nil_iff {topology : Topology}
    {rendered : RenderedChildren Doc} {ns : Namespace Doc} :
    findChildResourceConflicts topology rendered ns = [] ↔
      rendered.all.Nodup ∧ ∀ child ∈ rendered.all, ns.takes topology child = false := by
  have hempty : findChildResourceConflicts topology rendered ns = [] ↔
      childConflicts (ns.takes topology) [] rendered.all = [] := by
    rw [findChildResourceConflicts]
    constructor
    · intro h
      rw [eq_nil_iff_forall_not_mem] at h ⊢
      intro child hchild
      apply h (child.1.text ++ "/" ++ child.2)
      rw [mem_insertionSort, mem_dedup]
      exact mem_map_of_mem hchild
    · intro h
      rw [h]
      rfl
  rw [hempty, childConflicts_eq_nil_iff]
  simp

/-- The rendered names are distinct within each kind and none of them is taken. -/
structure Unconflicted (topology : Topology) (rendered : RenderedChildren Doc)
    (ns : Namespace Doc) : Prop where
  profileNames : (rendered.nodeProfiles.map Rendered.name).Nodup
  linkNames : (rendered.links.map Rendered.name).Nodup
  nodeNames : (rendered.nodes.map Rendered.name).Nodup
  profiles : Free topology rendered.nodeProfiles ns.nodeProfiles
  links : Free topology rendered.links ns.links
  nodes : Free topology rendered.nodes ns.nodes

theorem nodup_kind_iff (kind : ChildKind) (rendered : List (Rendered Spec)) :
    (rendered.map fun object => (kind, object.name)).Nodup ↔
      (rendered.map Rendered.name).Nodup := by
  have hpairs : (rendered.map fun object => (kind, object.name)) =
      (rendered.map Rendered.name).map (Prod.mk kind) := by
    rw [map_map]
    rfl
  rw [hpairs, nodup_map_iff (Prod.mk_right_injective kind)]

theorem free_iff {topology : Topology} {rendered : List (Rendered Spec)}
    {live : GoMap String (Child Spec Status)} :
    (∀ object ∈ rendered, live[object.name]?.any (!generatedForTopology topology ·) = false) ↔
      Free topology rendered live := by
  apply forall₂_congr
  intro object hobject
  cases live[object.name]? <;> simp

theorem unconflicted_iff {topology : Topology} {rendered : RenderedChildren Doc}
    {ns : Namespace Doc} :
    findChildResourceConflicts topology rendered ns = [] ↔ Unconflicted topology rendered ns := by
  rw [findChildResourceConflicts_eq_nil_iff, RenderedChildren.all, nodup_append,
    nodup_append, nodup_kind_iff, nodup_kind_iff, nodup_kind_iff]
  simp only [mem_append, mem_map, or_imp, forall_and, forall_exists_index, and_imp,
    forall_apply_eq_imp_iff₂, Namespace.takes, free_iff]
  constructor
  · rintro ⟨⟨⟨hprofiles, hlinks, -⟩, hnodes, -⟩, ⟨hfreeProfiles, hfreeLinks⟩, hfreeNodes⟩
    exact ⟨hprofiles, hlinks, hnodes, hfreeProfiles, hfreeLinks, hfreeNodes⟩
  · intro h
    refine ⟨⟨⟨h.profileNames, h.linkNames, ?_⟩, h.nodeNames, ?_⟩, ⟨h.profiles, h.links⟩, h.nodes⟩
    · simp
    · simp

def ChildWrite.nodeProfile? : ChildWrite Doc → Option (Write String (Child Doc Unit))
  | nodeProfile write => some write
  | link _ | node _ => none

def ChildWrite.link? : ChildWrite Doc → Option (Write String (Child Doc Doc))
  | link write => some write
  | nodeProfile _ | node _ => none

def ChildWrite.node? : ChildWrite Doc → Option (Write String (Child (NodeSpec Doc) Doc))
  | node write => some write
  | nodeProfile _ | link _ => none

theorem run_apply_iff {ns ns' : Namespace Doc} {writes : List (ChildWrite Doc)} :
    run Namespace.apply ns writes = some ns' ↔
      run Write.apply ns.nodeProfiles (writes.filterMap ChildWrite.nodeProfile?) =
          some ns'.nodeProfiles ∧
        run Write.apply ns.links (writes.filterMap ChildWrite.link?) = some ns'.links ∧
        run Write.apply ns.nodes (writes.filterMap ChildWrite.node?) = some ns'.nodes := by
  induction writes generalizing ns with
  | nil =>
    cases ns
    cases ns'
    simp
  | cons write writes ih =>
    rw [run_cons]
    cases write with (simp only [Namespace.apply, Option.bind_map, filterMap_cons,
      ChildWrite.nodeProfile?, ChildWrite.link?, ChildWrite.node?, run_cons])
    | nodeProfile write => cases write.apply ns.nodeProfiles <;> simp [ih]
    | link write => cases write.apply ns.links <;> simp [ih]
    | node write => cases write.apply ns.nodes <;> simp [ih]

section Passes

variable [DecidableEq Doc] [Inhabited Doc] {rank : String → ℕ} {topology : Topology}
  {batchSize : ℤ} {rendered : RenderedChildren Doc} {ns ns' : Namespace Doc}
  {writes : List (ChildWrite Doc)} {node : Child (NodeSpec Doc) Doc}

theorem reconcile_eq_emitted : reconcile rank topology batchSize rendered ns = .emitted writes ↔
      0 ≤ batchSize ∧ Unconflicted topology rendered ns ∧
        (reconcileNodeProfiles rank topology rendered.nodeProfiles ns.nodeProfiles).map
            .nodeProfile ++
          (reconcileLinks rank topology rendered.links ns.links).map .link ++
          (reconcileNodes rank topology batchSize rendered.nodes ns.nodes).map .node = writes := by
  rw [← unconflicted_iff, reconcile]
  by_cases hbatch : batchSize < 0
  · simp [hbatch]
  · rw [if_neg hbatch]
    cases findChildResourceConflicts topology rendered ns with
    | nil => simp [Int.not_lt.mp hbatch]
    | cons conflict conflicts => simp

section

variable (h : reconcile rank topology batchSize rendered ns = .emitted writes)

include h

theorem filterMap_emitted : writes.filterMap ChildWrite.nodeProfile? =
        reconcileNodeProfiles rank topology rendered.nodeProfiles ns.nodeProfiles ∧
      writes.filterMap ChildWrite.link? = reconcileLinks rank topology rendered.links ns.links ∧
      writes.filterMap ChildWrite.node? =
        reconcileNodes rank topology batchSize rendered.nodes ns.nodes := by
  obtain ⟨-, -, rfl⟩ := reconcile_eq_emitted.mp h
  simp [filterMap_append, filterMap_map, Function.comp_def, ChildWrite.nodeProfile?,
    ChildWrite.link?, ChildWrite.node?]

theorem exists_run_emitted : ∃ ns', run Namespace.apply ns writes = some ns' := by
  obtain ⟨-, hfree, -⟩ := reconcile_eq_emitted.mp h
  obtain ⟨hprofiles, hlinks, hnodes⟩ := filterMap_emitted h
  have hrunProfiles : ∃ live, run Write.apply ns.nodeProfiles
      (reconcileNodeProfiles rank topology rendered.nodeProfiles ns.nodeProfiles) = some live :=
    exists_run_reconcileEmitted hfree.profileNames hfree.profiles
  have hrunLinks : ∃ live, run Write.apply ns.links
      (reconcileLinks rank topology rendered.links ns.links) = some live :=
    exists_run_reconcileEmitted hfree.linkNames hfree.links
  have hrunNodes : ∃ live, run Write.apply ns.nodes
      (reconcileNodes rank topology batchSize rendered.nodes ns.nodes) = some live :=
    exists_run_reconcileEmitted (by rw [names_markStartup]; exact hfree.nodeNames)
      hfree.nodes.markStartup
  obtain ⟨profiles, hrunProfiles⟩ := hrunProfiles
  obtain ⟨links, hrunLinks⟩ := hrunLinks
  obtain ⟨nodes, hrunNodes⟩ := hrunNodes
  refine ⟨⟨profiles, links, nodes⟩, run_apply_iff.mpr ⟨?_, ?_, ?_⟩⟩
  · rw [hprofiles, hrunProfiles]
  · rw [hlinks, hrunLinks]
  · rw [hnodes, hrunNodes]

end

/-- The children generated for the Topology are the rendered ones, each as it is rendered. -/
structure SettledChildren (topology : Topology) (rendered : RenderedChildren Doc)
    (ns : Namespace Doc) : Prop where
  nodeProfiles : Settled emittedObjectConforms topology rendered.nodeProfiles ns.nodeProfiles
  links : Settled emittedObjectConforms topology rendered.links ns.links
  nodes : Settled emittedNodeConforms topology (rendered.nodes.map Rendered.clearStartup) ns.nodes

theorem settledChildren_of_run (h : reconcile rank topology batchSize rendered ns = .emitted writes)
    (hagree : RequestsAgree rendered.nodes ns.nodes)
    (hrun : run Namespace.apply ns writes = some ns') : SettledChildren topology rendered ns' := by
  obtain ⟨-, hfree, -⟩ := reconcile_eq_emitted.mp h
  obtain ⟨hprofiles, hlinks, hnodes⟩ := filterMap_emitted h
  obtain ⟨hrunProfiles, hrunLinks, hrunNodes⟩ := run_apply_iff.mp hrun
  rw [hprofiles] at hrunProfiles
  rw [hlinks] at hrunLinks
  rw [hnodes] at hrunNodes
  constructor
  · apply settled_of_run_emitted hfree.profileNames hfree.profiles _ hrunProfiles
    intro current object
    exact emittedObjectConforms_iff.mpr ⟨rfl, fun _ h => h, Covers.refl _, Covers.refl _⟩
  · apply settled_of_run_emitted hfree.linkNames hfree.links _ hrunLinks
    intro current object
    exact emittedObjectConforms_iff.mpr ⟨rfl, fun _ h => h, Covers.refl _, Covers.refl _⟩
  · exact settled_reconcileNodes hfree.nodeNames hfree.nodes hagree hrunNodes

omit [DecidableEq Doc] [Inhabited Doc] in
theorem free_of_settled [Inhabited Status] {conforms : Child Spec Status → Child Spec Status → Bool}
    {objects : List (Rendered Spec)} {live : GoMap String (Child Spec Status)}
    (h : Settled conforms topology objects live) : Free topology objects live := by
  intro object hobject child hchild
  obtain ⟨found, hfound, hgenerated, -⟩ := h.present object hobject
  rw [hchild] at hfound
  cases hfound
  exact hgenerated

theorem SettledChildren.reconcile_eq (h : SettledChildren topology rendered ns')
    (hbatch : 0 ≤ batchSize) (hnames : Unconflicted topology rendered ns) :
    reconcile rank topology batchSize rendered ns' = .emitted [] := by
  apply reconcile_eq_emitted.mpr
  have hprofiles : reconcileNodeProfiles rank topology rendered.nodeProfiles
      ns'.nodeProfiles = [] :=
    h.nodeProfiles.reconcileEmitted_eq_nil hnames.profileNames
  have hlinks : reconcileLinks rank topology rendered.links ns'.links = [] :=
    h.links.reconcileEmitted_eq_nil hnames.linkNames
  have hnodes : reconcileNodes rank topology batchSize rendered.nodes ns'.nodes = [] :=
    reconcileNodes_eq_nil hnames.nodeNames h.nodes
  refine ⟨hbatch, ⟨hnames.profileNames, hnames.linkNames, hnames.nodeNames,
    free_of_settled h.nodeProfiles, free_of_settled h.links, ?_⟩, by
      rw [hprofiles, hlinks, hnodes]; rfl⟩
  intro node hnode child hchild
  exact free_of_settled h.nodes node.clearStartup (mem_map_of_mem hnode) child hchild

/-- A pass with fresh renderings. It gets to some of its writes: where a request fails, or the
controller stops, the rest is not sent. -/
structure Pass (Doc : Type) where
  rank : String → ℕ
  batchSize : ℤ
  rendered : RenderedChildren Doc
  sent : ℕ

def Pass.step (topology : Topology) (ns : Namespace Doc) (pass : Pass Doc) :
    Option (Namespace Doc) :=
  run Namespace.apply ns
    ((reconcile pass.rank topology pass.batchSize pass.rendered ns).writes.take pass.sent)

/-- What was not generated for the Topology is as it was. -/
structure Untouched (topology : Topology) (ns ns' : Namespace Doc) : Prop where
  nodeProfiles : LeavesForeign topology ns.nodeProfiles ns'.nodeProfiles
  links : LeavesForeign topology ns.links ns'.links
  nodes : LeavesForeign topology ns.nodes ns'.nodes

omit [DecidableEq Doc] [Inhabited Doc] in
theorem Untouched.refl (topology : Topology) (ns : Namespace Doc) : Untouched topology ns ns :=
  ⟨.refl topology _, .refl topology _, .refl topology _⟩

omit [DecidableEq Doc] [Inhabited Doc] in
theorem Untouched.trans {ns'' : Namespace Doc} (h : Untouched topology ns ns')
    (h' : Untouched topology ns' ns'') : Untouched topology ns ns'' :=
  ⟨h.nodeProfiles.trans h'.nodeProfiles, h.links.trans h'.links, h.nodes.trans h'.nodes⟩

theorem Pass.step_cases (pass : Pass Doc) : pass.step topology ns = some ns ∨
      ∃ writes, reconcile pass.rank topology pass.batchSize pass.rendered ns = .emitted writes ∧
        pass.step topology ns = run Namespace.apply ns (writes.take pass.sent) := by
  rw [Pass.step]
  cases reconcile pass.rank topology pass.batchSize pass.rendered ns with
  | invalidBatchSize | conflicts message => simp [Reconciled.writes]
  | emitted writes => exact .inr ⟨writes, rfl, rfl⟩

theorem Pass.exists_step (ns : Namespace Doc) (pass : Pass Doc) :
    ∃ ns', pass.step topology ns = some ns' := by
  rcases pass.step_cases with hsame | ⟨writes, h, hstep⟩
  · exact ⟨ns, hsame⟩
  · obtain ⟨ns', hrun⟩ := exists_run_emitted h
    rw [← take_append_drop pass.sent writes] at hrun
    obtain ⟨ns₁, hns₁, -⟩ := exists_run_of_append hrun
    exact ⟨ns₁, by rw [hstep, hns₁]⟩

variable {pass : Pass Doc}

theorem Pass.step_untouched (hstep : pass.step topology ns = some ns') :
    Untouched topology ns ns' := by
  rcases pass.step_cases with hsame | ⟨writes, h, hrun⟩
  · rw [hsame] at hstep
    cases hstep
    exact .refl topology ns
  · rw [hrun, run_apply_iff] at hstep
    obtain ⟨-, hfree, -⟩ := reconcile_eq_emitted.mp h
    obtain ⟨hprofiles, hlinks, hnodes⟩ := filterMap_emitted h
    obtain ⟨hrunProfiles, hrunLinks, hrunNodes⟩ := hstep
    have hsent := take_sublist pass.sent writes
    constructor
    · exact leavesForeign_of_run hfree.profileNames hfree.profiles
        (hprofiles ▸ (hsent.filterMap _).subset) hrunProfiles
    · exact leavesForeign_of_run hfree.linkNames hfree.links
        (hlinks ▸ (hsent.filterMap _).subset) hrunLinks
    · exact leavesForeign_of_run (by rw [names_markStartup]; exact hfree.nodeNames)
        hfree.nodes.markStartup (hnodes ▸ (hsent.filterMap _).subset) hrunNodes

theorem Pass.step_kept (hstep : pass.step topology ns = some ns')
    (hname : name ∈ pass.rendered.nodes.map Rendered.name) (hnode : ns.nodes[name]? = some node) :
    ∃ node', ns'.nodes[name]? = some node' ∧ Kept node node' := by
  rcases pass.step_cases with hsame | ⟨writes, h, hrun⟩
  · rw [hsame] at hstep
    cases hstep
    exact ⟨node, hnode, Kept.refl node⟩
  · rw [hrun, run_apply_iff] at hstep
    obtain ⟨-, hfree, -⟩ := reconcile_eq_emitted.mp h
    obtain ⟨-, -, hnodes⟩ := filterMap_emitted h
    exact kept_of_run hfree.nodeNames hfree.nodes
      (hnodes ▸ ((take_sublist pass.sent writes).filterMap _).subset) hstep.2.2 hname hnode

variable {passes : List (Pass Doc)}

theorem untouched_of_run (hrun : run (Pass.step topology) ns passes = some ns') :
    Untouched topology ns ns' := by
  refine run_invariant_of_step (.refl topology ns) ?_ passes ns' hrun
  intro ns₁ pass ns₂ h₁ hstep
  exact h₁.trans (Pass.step_untouched hstep)

theorem kept_of_passes (hrun : run (Pass.step topology) ns passes = some ns')
    (hname : ∀ pass ∈ passes, name ∈ pass.rendered.nodes.map Rendered.name)
    (hnode : ns.nodes[name]? = some node) :
    ∃ node', ns'.nodes[name]? = some node' ∧ Kept node node' := by
  induction passes using List.reverseRecOn generalizing ns' with
  | nil =>
    cases hrun
    exact ⟨node, hnode, Kept.refl node⟩
  | append_singleton passes pass ih =>
    obtain ⟨ns₁, hns₁, hstep⟩ := run_append_singleton_eq_some.mp hrun
    obtain ⟨node₁, hnode₁, hkept₁⟩ :=
      ih hns₁ fun pass hpass => hname pass (mem_append_left _ hpass)
    obtain ⟨node₂, hnode₂, hkept₂⟩ :=
      Pass.step_kept hstep (hname pass (mem_append_right _ mem_cons_self)) hnode₁
    exact ⟨node₂, hnode₂, hkept₁.trans hkept₂⟩

/-- A pass that emits settles the children, and leaves the next pass nothing to write, exactly if
the requests agree; no pass, whole or cut short, touches what the compiler does not own. -/
theorem emitted_children (h : reconcile rank topology batchSize rendered ns = .emitted writes) :
    (∃ ns', run Namespace.apply ns writes = some ns' ∧
      (SettledChildren topology rendered ns' ↔ RequestsAgree rendered.nodes ns.nodes) ∧
      ∀ rank', reconcile rank' topology batchSize rendered ns' = .emitted [] ↔
        RequestsAgree rendered.nodes ns.nodes) ∧
    ∀ passes : List (Pass Doc), ∃ ns', run (Pass.step topology) ns passes = some ns' ∧
      Untouched topology ns ns' ∧
      ∀ name node, ns.nodes[name]? = some node →
        (∀ pass ∈ passes, name ∈ pass.rendered.nodes.map Rendered.name) →
        ∃ node', ns'.nodes[name]? = some node' ∧ Kept node node' := by
  constructor
  · obtain ⟨ns', hrun⟩ := exists_run_emitted h
    obtain ⟨hbatch, hfree, -⟩ := reconcile_eq_emitted.mp h
    have hrunNodes := (run_apply_iff.mp hrun).2.2
    rw [(filterMap_emitted h).2.2] at hrunNodes
    refine ⟨ns', hrun, ⟨fun hsettled => ?_, fun hagree => settledChildren_of_run h hagree hrun⟩,
      fun rank' => ⟨fun hnone => ?_, fun hagree =>
        (settledChildren_of_run h hagree hrun).reconcile_eq hbatch hfree⟩⟩
    · refine requestsAgree_of_covers hfree.nodeNames hfree.nodes hrunNodes ?_
      intro node hnode child hchild
      obtain ⟨found, hfound, -, hconforms⟩ := hsettled.nodes.present _ (mem_map_of_mem hnode)
      rw [show ns'.nodes[node.clearStartup.name]? = some child from hchild] at hfound
      cases hfound
      exact (emittedNodeConforms_iff.mp hconforms).2.2.2
    · have hnodes := (filterMap_emitted hnone).2.2
      exact requestsAgree_of_covers hfree.nodeNames hfree.nodes hrunNodes
        (covers_of_reconcileNodes_eq_nil hfree.nodeNames hnodes.symm)
  · intro passes
    have hruns : ∃ ns', run (Pass.step topology) ns passes = some ns' :=
      run_total Pass.exists_step passes
    obtain ⟨ns', hrun⟩ := hruns
    exact ⟨ns', hrun, untouched_of_run hrun, fun name node hnode hname =>
      kept_of_passes hrun hname hnode⟩

end Passes

def Reconciled.emits : Reconciled Doc → Bool
  | emitted _ => true
  | invalidBatchSize | conflicts _ => false

theorem Reconciled.eq_emitted {reconciled : Reconciled Doc} (h : reconciled.emits = true) :
    reconciled = .emitted reconciled.writes := by
  cases reconciled <;> first | rfl | cases h

def lab : Topology := { namespaceName := "lab", name := "clos", uid := "5d1c" }

def labNode (name : String) (annotations : GoMap String String) : Rendered (NodeSpec String) where
  name := name
  labels := (∅ : GoMap String String).insert labelApp "clabernetes" |>.insert
    labelTopologyOwner "clos"
  annotations := annotations
  spec := { definition := "nokia_srlinux" }

def labRendered (annotations : GoMap String String) : RenderedChildren String where
  nodeProfiles := []
  links := [{ name := "leaf-e1-1-spine-e1-1", labels := ∅, annotations := annotations, spec := "" }]
  nodes := [labNode "leaf" annotations, labNode "spine" annotations]

/-- The leaf has drifted, is stopped, and has a restart request and a hold; of two more Nodes one is
no longer rendered and one belongs to someone else. -/
def labNodes : GoMap String (Child (NodeSpec String) String) :=
  let leaf : Child (NodeSpec String) String := (labNode "leaf" ∅).child lab
  let drifted : Child (NodeSpec String) String :=
    { leaf with
      annotations := (∅ : GoMap String String).insert restartRequestedAnnotation "second" |>.insert
        annotationStartupHold "5d1c"
      spec := { definition := "arista_ceos", runState := .stopped }
      status := "ready" }
  let foreign : Child (NodeSpec String) String := { leaf with labels := ∅, ownerReferences := [] }
  (∅ : GoMap String (Child (NodeSpec String) String)).insert "leaf" drifted |>.insert
    "border" leaf |>.insert "client" foreign

def labNamespace : Namespace String := { nodeProfiles := ∅, links := ∅, nodes := labNodes }

theorem lab_requestsAgree : RequestsAgree (labRendered ∅).nodes labNamespace.nodes := by
  intro node hnode current _ key _ value requested hvalue
  have hempty : node.annotations = ∅ := by
    rcases mem_cons.mp hnode with rfl | hnode
    · rfl
    · rw [mem_singleton.mp hnode]
      rfl
  rw [hempty] at hvalue
  simp at hvalue

theorem lab_children :
    (∃ ns', run Namespace.apply labNamespace
        (reconcile (fun _ => 0) lab 2 (labRendered ∅) labNamespace).writes = some ns' ∧
      SettledChildren lab (labRendered ∅) ns' ∧
      ∀ rank, reconcile rank lab 2 (labRendered ∅) ns' = .emitted []) ∧
    ∀ passes : List (Pass String), ∃ ns', run (Pass.step lab) labNamespace passes = some ns' ∧
      Untouched lab labNamespace ns' ∧
      ∀ name node, labNamespace.nodes[name]? = some node →
        (∀ pass ∈ passes, name ∈ pass.rendered.nodes.map Rendered.name) →
        ∃ node', ns'.nodes[name]? = some node' ∧ Kept node node' := by
  have hemits : (reconcile (fun _ => 0) lab 2 (labRendered ∅) labNamespace).emits = true := by
    decide +kernel
  obtain ⟨⟨ns', hrun, hsettled, hnone⟩, hpasses⟩ :=
    emitted_children (Reconciled.eq_emitted hemits)
  exact ⟨⟨ns', hrun, hsettled.mpr lab_requestsAgree, fun rank =>
    (hnone rank).mpr lab_requestsAgree⟩, hpasses⟩

def stampedRequest : GoMap String String :=
  (∅ : GoMap String String).insert restartRequestedAnnotation "first"

/-- The leaf's own request is carried over and never conforms to the stamped one, so the second pass
updates the leaf again. -/
theorem stampedRequest_rewritten :
    ∃ writes ns', reconcile (fun _ => 0) lab 0 (labRendered stampedRequest) labNamespace =
        .emitted writes ∧ run Namespace.apply labNamespace writes = some ns' ∧
      reconcile (fun _ => 0) lab 0 (labRendered stampedRequest) ns' ≠ .emitted [] := by
  have hemits : (reconcile (fun _ => 0) lab 0 (labRendered stampedRequest)
      labNamespace).emits = true := by
    decide +kernel
  obtain ⟨ns', hns', hagain⟩ : ∃ ns', run Namespace.apply labNamespace
      (reconcile (fun _ => 0) lab 0 (labRendered stampedRequest) labNamespace).writes = some ns' ∧
        (reconcile (fun _ => 0) lab 0 (labRendered stampedRequest) ns').writes.isEmpty =
          false := by
    decide +kernel
  refine ⟨_, ns', Reconciled.eq_emitted hemits, hns', fun hnone => ?_⟩
  rw [hnone] at hagain
  cases hagain

end Clabernetes.Topologies
