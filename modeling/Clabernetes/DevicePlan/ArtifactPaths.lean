import Clabernetes.Base.Paths
import Clabernetes.DevicePlan.NormalForm

/-!
# Artifact paths

`internal/deviceplan/preparer.go`, `paths.go` and `internal/directruntime/lifecycle.go`. Validation
looks for a path that begins with `../` once it is clean, the preparer and the lifecycle reader for
one that leaves its Node's directory.
-/

namespace Clabernetes.DevicePlan

open Base Path List

section

variable (shortDigest : String → String) (artifactRoot : String)

def artifactNodeDirectory (nodeID : String) : String := "node-" ++ shortDigest nodeID

def nodeRoot (nodeID : String) : Path :=
  (ofText artifactRoot).join (.ofText (artifactNodeDirectory shortDigest nodeID))

def artifactLocation (file : FilePlan) : Path :=
  (nodeRoot shortDigest artifactRoot file.nodeID).join (.ofText file.artifactPath)

def escapes (relative : Option (Parts)) : Bool :=
  relative.all fun parts =>
    text parts = "." || text parts = ".." || isAbs (text parts) ||
      "../".toList.isPrefixOf (text parts).toList

def escapesNode (file : FilePlan) : Bool :=
  escapes ((nodeRoot shortDigest artifactRoot file.nodeID).rel
    (artifactLocation shortDigest artifactRoot file))

def artifactDestination (behavior : String) (file : FilePlan) : Except Error Path :=
  if file.artifactKind.orRegular = .artifactDirectory ∧ file.artifactPath = "." then
    .ok (nodeRoot shortDigest artifactRoot file.nodeID)
  else if escapesNode shortDigest artifactRoot file then
    .error { code := .errorInvalidInput, field := "preparation.destination", behavior
             message := "artifact path escapes its Node root" }
  else .ok (artifactLocation shortDigest artifactRoot file)

def lifecycleSource (file : FilePlan) : Except String Path :=
  if file.artifactKind ≠ .artifactRegular then
    .error "non-regular artifact is not readable lifecycle content"
  else if file.artifactPath = "" ∨ isAbs file.artifactPath then
    .error "file source path is not scoped"
  else if escapesNode shortDigest artifactRoot file then
    .error "file source escapes its Node root"
  else .ok (artifactLocation shortDigest artifactRoot file)

/-- The file lies below its Node's directory, a directory in it, and neither reader says that it
escapes. What the preparer generates it looks up by a clean path (`:317-320`). -/
structure Confined (file : FilePlan) : Prop where
  inside : (nodeRoot shortDigest artifactRoot file.nodeID).parts <+:
    (artifactLocation shortDigest artifactRoot file).parts
  below : file.artifactKind.orRegular ≠ .artifactDirectory →
    artifactLocation shortDigest artifactRoot file ≠ nodeRoot shortDigest artifactRoot file.nodeID
  prepared : (file.prepared = true → cleanText file.artifactPath = file.artifactPath) →
    ∀ behavior, (artifactDestination shortDigest artifactRoot behavior file).isOk = true
  read : file.artifactKind = .artifactRegular →
    (lifecycleSource shortDigest artifactRoot file).isOk = true

end

variable {shortDigest : String → String} {lib : TextLibrary}

theorem slash_notMem_of_mem_ofText {text : String} {part : List Char}
    (h : part ∈ (ofText text).parts) : '/' ∉ part := by
  intro hslash
  simpa using not_separator_of_mem_splitOnP h '/' hslash

theorem nodeRoot_eq (artifactRoot id : String) (hdigest : '/' ∉ (shortDigest id).toList) :
    ∃ part out, part ≠ up ∧ Reduced (ofText artifactRoot).rooted (part :: out) ∧
      nodeRoot shortDigest artifactRoot id =
        ⟨(ofText artifactRoot).rooted, (part :: out).reverse⟩ := by
  have hname : (artifactNodeDirectory shortDigest id).toList =
      'n' :: 'o' :: 'd' :: 'e' :: '-' :: (shortDigest id).toList := by
    simp [artifactNodeDirectory]
  have hslash : '/' ∉ (artifactNodeDirectory shortDigest id).toList := by simp [hname, hdigest]
  have hparts : (ofText (artifactNodeDirectory shortDigest id)).parts =
      [(artifactNodeDirectory shortDigest id).toList] := by
    rw [ofText, List.splitOn, splitOnP_eq_singleton]
    intro c hc
    simpa using fun heq : c = '/' => hslash (heq ▸ hc)
  have hstep : ∀ rooted out,
      cleanStep rooted out (artifactNodeDirectory shortDigest id).toList =
        (artifactNodeDirectory shortDigest id).toList :: out := by
    intro rooted out
    simp [cleanStep, hname, up]
  refine ⟨(artifactNodeDirectory shortDigest id).toList,
    cleaned (ofText artifactRoot).rooted (ofText artifactRoot).parts,
    by simp [hname, up], ?_, ?_⟩
  · rw [← hstep]
    exact Reduced.step (Reduced.foldl trivial fun _ => slash_notMem_of_mem_ofText) hslash
  · rw [nodeRoot, join, hparts, clean, cleaned, foldl_append, ← cleaned, foldl_cons, hstep]
    rfl

theorem path_of_validatePlan {plan : Plan} {file : FilePlan} (h : validatePlan lib plan = .ok ())
    (hfile : file ∈ plan.files) : file.artifactPath ≠ "" ∧ isAbs file.artifactPath = false ∧
      (lib.cleanPath file.artifactPath = "." →
        file.artifactKind.orRegular = .artifactDirectory ∧ file.prepared = true) ∧
      "../".toList.isPrefixOf (lib.cleanPath file.artifactPath).toList = false := by
  obtain ⟨-, -, -, -, -, -, hfiles, -⟩ := validatePlan_eq_ok.mp h
  have hvalid := (validateFilePlan_apart.checkEach_eq_ok.mp hfiles).1 file hfile
  simp only [validateFilePlan, bind_eq_ok, rejectIf_eq_ok, validateArtifact_eq_ok, not_or] at hvalid
  obtain ⟨⟨-, -, -, hempty, habs, hdot, hup, -⟩, hartifact, -⟩ := hvalid
  refine ⟨hempty, by simpa using habs, fun hclean => ?_, Bool.eq_false_iff.mpr hup⟩
  have hkind : file.artifactKind.orRegular = .artifactDirectory := by
    by_contra hkind
    exact hdot ⟨hclean, hkind⟩
  rw [ArtifactComplete, hkind] at hartifact
  exact ⟨hkind, hartifact.1⟩

/-- An accepted file is confined to its Node's directory unless its clean path is `..`. -/
theorem confined_iff (hclean : lib.cleanPath = cleanText)
    (hdigest : ∀ id, '/' ∉ (shortDigest id).toList) {plan : Plan}
    (h : validatePlan lib plan = .ok ()) {file : FilePlan} (hfile : file ∈ plan.files)
    (artifactRoot : String) :
    Confined shortDigest artifactRoot file ↔ cleanText file.artifactPath ≠ ".." := by
  obtain ⟨hempty, habs, hdot, hprefix⟩ := path_of_validatePlan h hfile
  have hrooted : (ofText file.artifactPath).rooted = false := habs
  have htext : cleanText file.artifactPath =
      text (cleaned false (ofText file.artifactPath).parts).reverse := by
    rw [cleanText, hrooted, if_neg (by simp), clean, hrooted]
  have hpath : ∀ part ∈ (ofText file.artifactPath).parts, '/' ∉ part :=
    fun _ => slash_notMem_of_mem_ofText
  have hreduced : Reduced false (cleaned false (ofText file.artifactPath).parts) :=
    Reduced.foldl trivial hpath
  rw [hclean, htext] at hdot hprefix
  have hcases := hreduced.up_of_text hprefix
  obtain ⟨part, out, hpart, hout, hroot⟩ := nodeRoot_eq artifactRoot file.nodeID (hdigest _)
  obtain ⟨r, k, hr, hown, hjoin, hrel⟩ := join_cases hout hpart hpath
    (by rcases hcases with hup | hup
        · rw [count_eq_zero.mpr hup]; exact Nat.zero_le _
        · simp [hup])
  rw [← hroot] at hjoin hrel
  rw [htext]
  rcases hcases with hup | hup
  · obtain rfl : k = 0 := by
      cases k with
      | zero => rfl
      | succ k => simp [hown, replicate_succ] at hup
    rw [replicate_zero, append_nil] at hown
    have hparts : (artifactLocation shortDigest artifactRoot file).parts =
        (nodeRoot shortDigest artifactRoot file.nodeID).parts ++ r.reverse := by
      rw [artifactLocation, hjoin, hroot]
      simp
    have hway : (nodeRoot shortDigest artifactRoot file.nodeID).rel
        (artifactLocation shortDigest artifactRoot file) = some r.reverse := by
      have := way_append (part :: out).reverse [] r.reverse
      rw [artifactLocation, hrel]
      simpa [way] using this
    rw [hown] at hreduced hdot ⊢
    cases hlast : r.reverse with
    | nil =>
      obtain rfl : r = [] := reverse_eq_nil_iff.mp hlast
      obtain ⟨hkind, hprepared⟩ := hdot rfl
      have hregular : file.artifactKind ≠ .artifactRegular := by
        intro h
        simp [h, ArtifactKind.orRegular] at hkind
      refine iff_of_true ⟨⟨_, hparts.symm⟩, fun h => absurd hkind h, fun hclean behavior => ?_,
        fun h => absurd h hregular⟩ (by simp [text])
      -- a directory that is the Node's own was generated, under the path `.`
      have hpath : file.artifactPath = "." := by rw [← hclean hprepared, htext, hown]; rfl
      rw [artifactDestination, if_pos ⟨hkind, hpath⟩]
      rfl
    | cons first rest =>
      have hfirst : first ∈ r := mem_reverse.mp (by simp [hlast])
      obtain ⟨hne, hdot, hslash⟩ := hreduced.mem hfirst
      obtain ⟨htdot, htup, htabs, htprefix⟩ := text_named rest hne hdot hslash
        fun h => hr (h ▸ hfirst)
      have hescapes : escapesNode shortDigest artifactRoot file = false := by
        rw [escapesNode, hway, hlast]
        simp only [escapes, Option.all_some, isAbs, htdot, htup, htabs, htprefix, decide_false,
          Bool.or_self]
      refine iff_of_true ⟨⟨_, hparts.symm⟩, ?_, fun _ behavior => ?_, fun hkind => ?_⟩ htup
      · intro _ h
        rw [h, hlast] at hparts
        simp at hparts
      · simp only [artifactDestination, hescapes, Bool.false_eq_true, ↓reduceIte]
        split_ifs <;> rfl
      · simp [lifecycleSource, hkind, hempty, habs, hescapes, Except.isOk, Except.toBool]
  · rw [hup] at hown
    obtain ⟨rfl, rfl⟩ : r = [] ∧ k = 1 := by
      cases r with
      | nil => exact ⟨rfl, by simpa using (congrArg List.length hown).symm⟩
      | cons first r => simp_all
    refine iff_of_false (fun h => ?_) (by simp [hup, text, up, List.intercalate])
    have hlength := h.inside.length_le
    rw [artifactLocation, hjoin, hroot] at hlength
    simp at hlength

def cleaningTexts : TextLibrary := { plainTexts with cleanPath := cleanText }

def payloadAt (artifactPath : String) : FilePlan where
  id := "f"
  nodeID := "n"
  sourceKind := .fileSourcePayload
  artifactKind := .artifactRegular
  sourceReference := "p"
  artifactPath
  destination := "/etc/config"

def payloadPlan (artifactPath : String) : Plan :=
  { samplePlan with
    containers := samplePlan.containers.map fun item => { item with runtimeID := "c" }
    files := [payloadAt artifactPath] }

theorem dotted_path_confined :
    Confined (fun _ => "0") "/artifacts" (payloadAt "etc/../etc/./config") :=
  (confined_iff (rfl : cleaningTexts.cleanPath = _) (fun _ => by decide)
    (by decide +kernel : validatePlan cleaningTexts (payloadPlan "etc/../etc/./config") = .ok ())
    (mem_singleton_self _) _).mpr (by decide +kernel)

/-- The path `..` is accepted and leads to the directory of all Nodes, where the preparer and the
lifecycle reader reject it. -/
theorem parent_path_escapes :
    validatePlan cleaningTexts (payloadPlan "..") = .ok () ∧
    artifactLocation (fun _ => "0") "/artifacts" (payloadAt "..") =
      (ofText "/artifacts").clean ∧
    artifactDestination (fun _ => "0") "/artifacts" "payload-staging" (payloadAt "..") =
      .error { code := .errorInvalidInput, field := "preparation.destination"
               behavior := "payload-staging", message := "artifact path escapes its Node root" } ∧
    lifecycleSource (fun _ => "0") "/artifacts" (payloadAt "..") =
      .error "file source escapes its Node root" := by
  decide +kernel

end Clabernetes.DevicePlan
