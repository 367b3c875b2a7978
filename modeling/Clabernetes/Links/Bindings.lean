import Clabernetes.Links.Passes

/-!
# Bindings and deletions

`controllers/link/reconcile.go:60-87` and `:289-413`: what the binding that a Link has on record
decides. A complete binding that names the endpoints of the spec holds the Link to its Nodes, and
the Link goes with them; any other binding is replaced by the current Nodes as a whole, or by none.
-/

namespace Clabernetes.Links

open Base List Option

/-- An endpoint on record that tells which Node it is. -/
def LinkResolvedEndpointStatus.Complete (endpoint : LinkResolvedEndpointStatus) : Prop :=
  endpoint.nodeName ≠ linkHostNodeName → endpoint.uid ≠ ""

def LinkResolvedEndpointsStatus.Complete (binding : LinkResolvedEndpointsStatus) : Prop :=
  binding.endpointA.Complete ∧ binding.endpointB.Complete

def LinkResolvedEndpointsStatus.Names (binding : LinkResolvedEndpointsStatus) (spec : LinkSpec) :
    Prop :=
  binding.endpointA.nodeName = spec.endpointA.nodeName ∧
    binding.endpointB.nodeName = spec.endpointB.nodeName

/-- The Link has a complete binding on record, and it names the endpoints of its spec. -/
structure Bound (link : Link) (binding : LinkResolvedEndpointsStatus) : Prop where
  recorded : link.status.resolvedEndpoints = some binding
  names : binding.Names link.spec
  complete : binding.Complete

/-- The Node that the endpoint is bound to is gone: no Node has its name, or another one has. -/
def Lost (nodes : Nodes) (endpoint : LinkResolvedEndpointStatus) : Prop :=
  endpoint.nodeName ≠ linkHostNodeName ∧
    ∀ node, nodes[endpoint.nodeName]? = some node → node.uid ≠ endpoint.uid

def LosesEndpoint (nodes : Nodes) (link : Link) : Prop :=
  ∃ binding, Bound link binding ∧ (Lost nodes binding.endpointA ∨ Lost nodes binding.endpointB)

/-- The endpoint on record is the Node that now has the name, or the host. -/
def IdentityOf (nodes : Nodes) (nodeName : String) (endpoint : LinkResolvedEndpointStatus) : Prop :=
  endpoint.nodeName = nodeName ∧
    if nodeName = linkHostNodeName then endpoint.uid = ""
    else ∃ node, nodes[nodeName]? = some node ∧ node.uid = endpoint.uid ∧ node.uid ≠ ""

def Resolves (nodes : Nodes) (spec : LinkSpec) (binding : LinkResolvedEndpointsStatus) : Prop :=
  IdentityOf nodes spec.endpointA.nodeName binding.endpointA ∧
    IdentityOf nodes spec.endpointB.nodeName binding.endpointB

theorem resolvedEndpointIsComplete_iff (endpoint : LinkResolvedEndpointStatus) :
    resolvedEndpointIsComplete endpoint = true ↔ endpoint.Complete := by
  rw [resolvedEndpointIsComplete, Bool.or_eq_true, beq_iff_eq, bne_iff_ne,
    LinkResolvedEndpointStatus.Complete, Classical.or_iff_not_imp_left]

theorem endpointBindingMatchesSpec_iff (link : Link) (binding : LinkResolvedEndpointsStatus) :
    endpointBindingMatchesSpec link binding = true ↔
      binding.Names link.spec ∧ binding.Complete := by
  simp only [endpointBindingMatchesSpec, Bool.and_eq_true, beq_iff_eq,
    resolvedEndpointIsComplete_iff, LinkResolvedEndpointsStatus.Names,
    LinkResolvedEndpointsStatus.Complete]
  tauto

theorem resolvedEndpointLifecycleReason_ne_iff {side : String} (hside : side ≠ "")
    (endpoint : LinkResolvedEndpointStatus) (nodes : Nodes) :
    resolvedEndpointLifecycleReason side endpoint nodes ≠ "" ↔ Lost nodes endpoint := by
  unfold resolvedEndpointLifecycleReason Lost
  by_cases hhost : endpoint.nodeName = linkHostNodeName
  · simp [hhost]
  · rw [if_neg hhost]
    cases hnode : nodes[endpoint.nodeName]? with
    | none => simp [hhost, hside]
    | some node =>
      by_cases huid : node.uid = endpoint.uid
      · simp [huid]
      · simp [huid, hhost, hside]

theorem resolveEndpoint_eq_some_iff (nodeName : String) (nodes : Nodes)
    (endpoint : LinkResolvedEndpointStatus) :
    resolveEndpoint nodeName nodes = some endpoint ↔ IdentityOf nodes nodeName endpoint := by
  obtain ⟨name, uid⟩ := endpoint
  unfold resolveEndpoint IdentityOf
  by_cases hhost : nodeName = linkHostNodeName
  · simp [hhost, eq_comm]
  · rw [if_neg hhost, if_neg hhost]
    cases hnode : nodes[nodeName]? with
    | none => simp
    | some node =>
      by_cases huid : node.uid = ""
      · simp [huid]
      · simp only [huid, if_false, some.injEq, LinkResolvedEndpointStatus.mk.injEq]
        constructor
        · rintro ⟨rfl, rfl⟩
          exact ⟨rfl, node, rfl, rfl, huid⟩
        · rintro ⟨rfl, _, rfl, rfl, -⟩
          exact ⟨rfl, rfl⟩

theorem resolveEndpoints_eq_some_iff (spec : LinkSpec) (nodes : Nodes)
    (binding : LinkResolvedEndpointsStatus) :
    resolveEndpoints spec nodes = some binding ↔ Resolves nodes spec binding := by
  rw [Resolves, ← resolveEndpoint_eq_some_iff, ← resolveEndpoint_eq_some_iff]
  constructor
  · exact resolveEndpoints_eq_some
  · rintro ⟨hA, hB⟩
    simp [resolveEndpoints, hA, hB]

variable {binding : LinkResolvedEndpointsStatus} {w' w : Namespace} {nodes : Nodes} {link : Link}

theorem IdentityOf.complete {nodeName : String} {endpoint : LinkResolvedEndpointStatus}
    (h : IdentityOf nodes nodeName endpoint) : endpoint.Complete := by
  obtain ⟨rfl, h⟩ := h
  intro hhost
  rw [if_neg hhost] at h
  obtain ⟨node, -, huid, hne⟩ := h
  rwa [huid] at hne

/-- The cases of `resolveLinkEndpoints`: the Link has lost an endpoint, keeps its binding, or is
bound anew. -/
inductive Resolution (nodes : Nodes) (link : Link) :
    Option LinkResolvedEndpointsStatus → String → Prop where
  | lost (reason : String) (hreason : reason ≠ "") (hlost : LosesEndpoint nodes link) :
      Resolution nodes link none reason
  | kept (binding : LinkResolvedEndpointsStatus) (hbound : Bound link binding)
      (hA : ¬ Lost nodes binding.endpointA) (hB : ¬ Lost nodes binding.endpointB) :
      Resolution nodes link (some binding) ""
  | rebound (hunbound : ∀ binding, ¬ Bound link binding) :
      Resolution nodes link (resolveEndpoints link.spec nodes) ""

theorem resolution_resolveLinkEndpoints (nodes : Nodes) (link : Link) :
    Resolution nodes link (resolveLinkEndpoints link nodes).1
      (resolveLinkEndpoints link nodes).2 := by
  unfold resolveLinkEndpoints
  cases hobserved : link.status.resolvedEndpoints with
  | none =>
    refine .rebound fun binding hbound => ?_
    cases hobserved.symm.trans hbound.recorded
  | some observed =>
    dsimp only
    by_cases hmatches : endpointBindingMatchesSpec link observed = true
    · obtain ⟨hnames, hcomplete⟩ := (endpointBindingMatchesSpec_iff link observed).mp hmatches
      have hbound : Bound link observed := ⟨hobserved, hnames, hcomplete⟩
      have hlostA := resolvedEndpointLifecycleReason_ne_iff
        (show "endpoint A" ≠ "" by simp) observed.endpointA nodes
      have hlostB := resolvedEndpointLifecycleReason_ne_iff
        (show "endpoint B" ≠ "" by simp) observed.endpointB nodes
      rw [if_pos hmatches]
      by_cases hA : resolvedEndpointLifecycleReason "endpoint A" observed.endpointA nodes = ""
      · by_cases hB : resolvedEndpointLifecycleReason "endpoint B" observed.endpointB nodes = ""
        · rw [if_neg (not_not.mpr hA), if_neg (not_not.mpr hB)]
          exact .kept observed hbound (fun h => hlostA.mpr h hA) (fun h => hlostB.mpr h hB)
        · rw [if_neg (not_not.mpr hA), if_pos hB]
          exact .lost _ hB ⟨observed, hbound, .inr (hlostB.mp hB)⟩
      · rw [if_pos hA]
        exact .lost _ hA ⟨observed, hbound, .inl (hlostA.mp hA)⟩
    · rw [if_neg hmatches]
      refine .rebound fun binding hbound => hmatches ?_
      obtain rfl := some.inj (hobserved.symm.trans hbound.recorded)
      exact (endpointBindingMatchesSpec_iff link observed).mpr ⟨hbound.names, hbound.complete⟩

theorem Bound.unique {binding' : LinkResolvedEndpointsStatus} (h : Bound link binding)
    (h' : Bound link binding') : binding = binding' :=
  some.inj (h.recorded.symm.trans h'.recorded)

theorem lifecycleReason_ne_iff (nodes : Nodes) (link : Link) :
    (resolveLinkEndpoints link nodes).2 ≠ "" ↔ LosesEndpoint nodes link := by
  have h := resolution_resolveLinkEndpoints nodes link
  generalize (resolveLinkEndpoints link nodes).1 = resolved at h
  generalize (resolveLinkEndpoints link nodes).2 = reason at h ⊢
  cases h with
  | lost _ hreason hlost => exact iff_of_true hreason hlost
  | kept binding hbound hA hB =>
    refine iff_of_false (by simp) ?_
    rintro ⟨binding', hbound', hlost⟩
    obtain rfl := hbound.unique hbound'
    exact hlost.elim hA hB
  | rebound hunbound =>
    refine iff_of_false (by simp) ?_
    rintro ⟨binding, hbound, -⟩
    exact hunbound binding hbound

theorem resolveLinkEndpoints_of_unbound (h : ∀ binding, ¬ Bound link binding) :
    resolveLinkEndpoints link nodes = (resolveEndpoints link.spec nodes, "") := by
  have hcases := resolution_resolveLinkEndpoints nodes link
  refine Prod.ext ?_ ?_
  all_goals
    generalize (resolveLinkEndpoints link nodes).1 = resolved at hcases ⊢
    generalize (resolveLinkEndpoints link nodes).2 = reason at hcases ⊢
    cases hcases with
    | lost _ _ hlost => exact absurd hlost.choose_spec.1 (h _)
    | kept binding hbound => exact absurd hbound (h binding)
    | rebound => rfl

theorem resolveLinkEndpoints_complete (h : (resolveLinkEndpoints link nodes).1 = some binding) :
    binding.Names link.spec ∧ binding.Complete := by
  have hcases := resolution_resolveLinkEndpoints nodes link
  rw [h] at hcases
  generalize (resolveLinkEndpoints link nodes).2 = reason at hcases
  generalize hresolved : some binding = resolved at hcases
  cases hcases with
  | lost => cases hresolved
  | kept binding' hbound =>
    cases hresolved
    exact ⟨hbound.names, hbound.complete⟩
  | rebound =>
    obtain ⟨hA, hB⟩ := (resolveEndpoints_eq_some_iff link.spec nodes binding).mp hresolved.symm
    exact ⟨⟨hA.1, hB.1⟩, hA.complete, hB.complete⟩

namespace PassContext

variable {ctx : PassContext} {conflictingLink : String} {r r' : WireReservations} {link : Link}
  {action : LinkAction}

variable (h : ctx.Visit conflictingLink r link action r')

include h

theorem Visit.binding_of_processed (hprocessed : ctx.processed link = true) :
    ∃ status, action.stored link = some (link.withStatus status) ∧
      status.resolvedEndpoints = (resolveLinkEndpoints link ctx.nodes).1 := by
  cases h with
  | skipped hskipped => simp [processed, hskipped] at hprocessed
  | deleted hskipped hreason => simp [processed, hreason] at hprocessed
  | rejected _ why => exact ⟨ctx.rejectedStatus link why, stored_updateLinkStatus _ _, rfl⟩
  | accepted _ _ id => exact ⟨ctx.acceptedStatus link id, stored_updateLinkStatus _ _, rfl⟩

theorem Visit.deletes_iff : (∃ reason, action = .delete reason) ↔
      Links.skipped link = false ∧ LosesEndpoint ctx.nodes link := by
  have hupdate : ∀ status reason, updateLinkStatus link status ≠ .delete reason := by
    intro status reason
    unfold updateLinkStatus
    split <;> simp
  rw [← lifecycleReason_ne_iff]
  cases h with
  | skipped hskipped => simp [hskipped]
  | deleted hskipped hreason => simp [hskipped, hreason]
  | rejected hprocessed why | accepted hprocessed _ id =>
    obtain ⟨-, hreason⟩ := (ctx.processed_iff link).mp hprocessed
    simp [hupdate, hreason]

theorem Visit.bound_of_stored (hskipped : Links.skipped link = false) {link' : Link}
    (hstored : action.stored link = some link')
    (hbinding : link'.status.resolvedEndpoints = some binding) : Bound link' binding := by
  have hprocessed : ctx.processed link = true := by
    rw [processed_iff]
    refine ⟨hskipped, not_not.mp fun hreason => ?_⟩
    obtain ⟨reason, rfl⟩ := h.deletes_iff.mpr ⟨hskipped, (lifecycleReason_ne_iff _ _).mp hreason⟩
    cases hstored
  obtain ⟨status, hstored', hresolved⟩ := h.binding_of_processed hprocessed
  obtain rfl := some.inj (hstored.symm.trans hstored')
  obtain ⟨hnames, hcomplete⟩ := resolveLinkEndpoints_complete (hresolved.symm.trans hbinding)
  exact ⟨hbinding, hnames, hcomplete⟩

theorem Visit.rebound
    (hskipped : Links.skipped link = false) (hunbound : ∀ binding, ¬ Bound link binding) :
    ∃ status, action.stored link = some (link.withStatus status) ∧
      ∀ binding, status.resolvedEndpoints = some binding ↔
        Resolves ctx.nodes link.spec binding := by
  have hresolve :
      resolveLinkEndpoints link ctx.nodes = (resolveEndpoints link.spec ctx.nodes, "") :=
    resolveLinkEndpoints_of_unbound hunbound
  have hprocessed : ctx.processed link = true := by
    rw [processed_iff, hresolve]
    exact ⟨hskipped, rfl⟩
  obtain ⟨status, hstored, hresolved⟩ := h.binding_of_processed hprocessed
  refine ⟨status, hstored, fun binding => ?_⟩
  rw [hresolved, hresolve]
  exact resolveEndpoints_eq_some_iff link.spec ctx.nodes binding

end PassContext

namespace Namespace

theorem links_of_visit {reply : Reply} (h : w.step (.visit reply) = some w') : w'.links = w.links ∨
      ∃ pass link action r, w.pass = some pass ∧ pass.decision link = .ok (action, r) ∧
        link ∈ w.links ∧ w'.links = action.perform link w.links := by
  have hreceive : ∀ {pass : ActivePass} {link : Link} {rest : List Link} {action : LinkAction}
      {r : WireReservations}, w.pass = some pass → pass.decision link = .ok (action, r) →
      w.receive link action (pass.advance link rest action r) reply = some w' →
      w'.links = w.links ∨
        ∃ pass link action r, w.pass = some pass ∧ pass.decision link = .ok (action, r) ∧
          link ∈ w.links ∧ w'.links = action.perform link w.links := by
    intro pass link rest action r hpass hdecision h
    cases reply with
    | succeeded | lost =>
      rw [receive] at h
      split at h
      · next hmem =>
        cases h
        exact .inr ⟨pass, link, action, r, hpass, hdecision, hmem, rfl⟩
      · cases h
    | failed =>
      cases h
      exact .inl rfl
    | notFound => cases action <;> (cases h; exact .inl rfl)
  rw [step] at h
  split at h
  · cases h
  · next pass hpass =>
    split at h
    · cases h
      exact .inl rfl
    · next link rest hrest =>
      split at h
      · cases h
        exact .inl rfl
      · next action r hdecision =>
        cases action with
        | leave =>
          cases h
          exact .inl rfl
        | delete reason | update status => exact hreceive hpass hdecision h

theorem losesEndpoint_of_visit {reply : Reply} (hnames : (w.links.map Link.name).Nodup)
    (hstep : w.step (.visit reply) = some w') (hmem : link ∈ w.links)
    (hgone : ∀ other ∈ w'.links, other.name ≠ link.name) :
    ∃ pass, w.pass = some pass ∧ skipped link = false ∧ LosesEndpoint pass.ctx.nodes link := by
  obtain hsame | ⟨pass, visited, action, r, hpass, hdecision, hvisited, hlinks⟩ :=
    links_of_visit hstep
  · rw [hsame] at hgone
    exact absurd rfl (hgone link hmem)
  · have hvisit := (pass.ctx.reconcileLink_eq_ok_iff _ _ _ _ _).mp hdecision
    rw [hlinks] at hgone
    cases action with
    | leave => exact absurd rfl (hgone link hmem)
    | update status =>
      -- an update keeps every name
      refine absurd ?_ (hgone _ (List.mem_map_of_mem hmem))
      split
      · next hname => exact hname.symm
      · rfl
    | delete reason =>
      have hname : link.name = visited.name := by
        by_contra hne
        exact hgone link (mem_filter.mpr ⟨hmem, by simpa using hne⟩) rfl
      obtain rfl := inj_on_of_nodup_map hnames hmem hvisited hname
      obtain ⟨hskipped, hlost⟩ := hvisit.deletes_iff.mp ⟨reason, rfl⟩
      exact ⟨pass, hpass, hskipped, hlost⟩

end Namespace

def NonePartial (links : List Link) : Prop :=
  ∀ link ∈ links, ∀ binding, link.status.resolvedEndpoints = some binding → binding.Complete

namespace Namespace

theorem nonePartial_step {e : Happening} (h : NonePartial w.links) (hstep : w.step e = some w') :
    NonePartial w'.links := by
  cases transition_of_step hstep with
  | edited links hedits =>
    intro link hmem binding hbinding
    obtain hnone | ⟨before, hbefore, -, hstatus⟩ := hedits.2 link hmem
    · rw [hnone] at hbinding
      cases hbinding
    · exact h before hbefore binding (by rwa [hstatus])
  | idle => exact h
  | dropped => exact h
  | started => exact h
  | left => exact h
  | @performed pass visited rest action r hpass hrest hdecision hvisited =>
    have hvisit := (pass.ctx.reconcileLink_eq_ok_iff _ _ _ _ _).mp hdecision
    cases action with
    | leave => exact h
    | delete => exact fun link hmem => h link (mem_of_mem_filter hmem)
    | update status =>
      intro link hmem binding hbinding
      obtain ⟨before, hbefore, rfl⟩ := List.mem_map.mp hmem
      split at hbinding
      · have hprocessed := hvisit.processed_of_update rfl
        obtain ⟨hskipped, -⟩ := (pass.ctx.processed_iff visited).mp hprocessed
        exact (hvisit.bound_of_stored hskipped rfl hbinding).complete
      · exact h before hbefore binding hbinding

theorem nonePartial_run (h : NonePartial w.links) {events : List Happening}
    (hrun : run step w events = some w') : NonePartial w'.links :=
  run_invariant_of_step (P := fun w => NonePartial w.links) h
    (fun _ _ _ hpartial hstep => nonePartial_step hpartial hstep) events w' hrun

end Namespace

/-- A visit deletes a Link exactly when a complete binding of its endpoints has lost a Node, over
every run of passes, failures and edits, and no binding is ever partial. -/
theorem link_deleted_only_for_lost_endpoint {ctx : PassContext} {conflictingLink : String}
    {r r' : WireReservations} {action : LinkAction}
    (hvisit : ctx.reconcileLink conflictingLink r link = .ok (action, r')) :
    ((∃ reason, action = .delete reason) ↔
        skipped link = false ∧ LosesEndpoint ctx.nodes link) ∧
      (skipped link = false → (∀ binding, ¬ Bound link binding) →
        ∃ status, action.stored link = some (link.withStatus status) ∧
          ∀ binding, status.resolvedEndpoints = some binding ↔
            Resolves ctx.nodes link.spec binding) ∧
      (skipped link = false → ∀ link', action.stored link = some link' →
        ∀ binding, link'.status.resolvedEndpoints = some binding → Bound link' binding) ∧
      ∀ (links : List Link) (events : List Happening) (w : Namespace),
        (links.map Link.name).Nodup → run Namespace.step { links } events = some w →
        (NonePartial links → NonePartial w.links) ∧
          ∀ reply w', w.step (.visit reply) = some w' → ∀ gone ∈ w.links,
            (∀ other ∈ w'.links, other.name ≠ gone.name) →
              ∃ pass, w.pass = some pass ∧ skipped gone = false ∧
                LosesEndpoint pass.ctx.nodes gone := by
  have hcases := (ctx.reconcileLink_eq_ok_iff _ _ _ _ _).mp hvisit
  refine ⟨hcases.deletes_iff, fun hskipped hunbound => hcases.rebound hskipped hunbound, ?_, ?_⟩
  · intro hskipped link' hstored binding hbinding
    exact hcases.bound_of_stored hskipped hstored hbinding
  · intro links events w hnames hrun
    refine ⟨fun hpartial => Namespace.nonePartial_run hpartial hrun, ?_⟩
    intro reply w' hstep gone hmem hgone
    exact Namespace.losesEndpoint_of_visit (Namespace.sound_run hnames hrun).names hstep hmem hgone

def rewired : Link :=
  { wire "a" "n1" "n3" 1 with
    status := { wireID := 1, resolvedEndpoints := some ⟨⟨"n1", "u1"⟩, ⟨"n2", "u2"⟩⟩ } }

/-- The rewired Link is bound to its new Node. -/
theorem rewired_rebound : ∃ action r',
    threeNodes.reconcileLink "" (.ofLinks "lab" [rewired]) rewired = .ok (action, r') ∧
      (¬ ∃ reason, action = .delete reason) ∧
      ∃ status, action.stored rewired = some (rewired.withStatus status) ∧
        status.resolvedEndpoints = some ⟨⟨"n1", "u1"⟩, ⟨"n3", "u3"⟩⟩ := by
  obtain ⟨⟨action, r'⟩, hvisit⟩ : ∃ visit,
      threeNodes.reconcileLink "" (.ofLinks "lab" [rewired]) rewired = .ok visit := by
    decide +kernel
  have hunbound : ∀ binding, ¬ Bound rewired binding := by
    intro binding hbound
    obtain rfl := some.inj hbound.recorded
    exact absurd hbound.names.2 (by decide)
  obtain ⟨hdeletes, hrebound, -⟩ := link_deleted_only_for_lost_endpoint hvisit
  obtain ⟨status, hstored, hbinding⟩ := hrebound rfl hunbound
  refine ⟨action, r', hvisit, ?_, status, hstored, (hbinding _).mpr ?_⟩
  · rw [hdeletes]
    rintro ⟨-, binding, hbound, -⟩
    exact hunbound binding hbound
  · rw [← resolveEndpoints_eq_some_iff]
    decide +kernel

end Clabernetes.Links
