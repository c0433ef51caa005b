import Pilot2Cloud.Foundation.Transitions
import Pilot2Cloud.Payload.CameraController

/-!
# The range of the zoom factor

The commands that step the factor keep it between the limits.  The factor that
telemetry shows and the one that the gimbal controller asks for are not checked
against them.
-/

namespace Pilot2Cloud
namespace Payload

open Foundation

variable {format : SinglePrecision}

/-- A factor is between the limits. -/
def InRange (factor : Single format) : Prop :=
  2 ≤ factor.val ∧ factor.val ≤ 400

theorem inRange_iff {factor : Single format} :
    InRange factor ↔
      zoomFactorMin format ≤ factor ∧ factor ≤ zoomFactorMax format :=
  .rfl

theorem inRange_min : InRange (zoomFactorMin format) :=
  ⟨le_rfl, by norm_num [zoomFactorMin]⟩

theorem inRange_max : InRange (zoomFactorMax format) :=
  ⟨by norm_num [zoomFactorMax], le_rfl⟩

/-- A step does not go in the wrong direction. -/
def ZoomStep.Directed (step : ZoomStep format) : Prop :=
  if step.isZoomIn then step.before ≤ step.after else step.after ≤ step.before

namespace CameraController

variable {camera after : CameraController format} {factor : Single format}

/-- The factor has never left its range, no message had another factor, no step
went in the wrong direction, and no continuous zoom sent more than 20 messages.
-/
structure Bounded (camera : CameraController format) : Prop where
  current : InRange camera.currentZoomFactor
  assigned : ∀ factor ∈ camera.assigned, InRange factor
  sent : ∀ factor ∈ camera.sent, InRange factor
  steps : ∀ step ∈ camera.steps, step.Directed
  continuousSends : ∀ count ∈ camera.continuousSends, count ≤ 20

theorem Bounded.initial : (initial format).Bounded where
  current := inRange_min
  assigned := by
    intro factor member
    rw [List.mem_singleton.mp member]
    exact inRange_min
  sent := by
    intro factor member
    contradiction
  steps := by
    intro step member
    contradiction
  continuousSends := by
    intro count member
    contradiction

theorem forall_mem_concat {α : Type} {property : α → Prop} {values : List α}
    {last : α} (all : ∀ value ∈ values, property value) (here : property last) :
    ∀ value ∈ values ++ [last], property value := by
  intro value member
  obtain isEarlier | isLast := List.mem_append.mp member
  · exact all value isEarlier
  · rw [List.mem_singleton.mp isLast]
    exact here

theorem Bounded.assign (bounded : camera.Bounded) (inRange : InRange factor) :
    (camera.assign factor).Bounded where
  current := inRange
  assigned := forall_mem_concat bounded.assigned inRange
  sent := bounded.sent
  steps := bounded.steps
  continuousSends := bounded.continuousSends

theorem Bounded.sendRequest (bounded : camera.Bounded) :
    camera.sendRequest.Bounded where
  current := bounded.current
  assigned := bounded.assigned
  sent := forall_mem_concat bounded.sent bounded.current
  steps := bounded.steps
  continuousSends := bounded.continuousSends

theorem Bounded.step {isZoomIn : Bool}
    (bounded : camera.Bounded) (inRange : InRange factor)
    (directed : ZoomStep.Directed
      ⟨isZoomIn, camera.currentZoomFactor, factor⟩) :
    (camera.step isZoomIn factor).Bounded where
  current := inRange
  assigned := forall_mem_concat bounded.assigned inRange
  sent := bounded.sent
  steps := forall_mem_concat bounded.steps directed
  continuousSends := bounded.continuousSends

/-! ## Steps -/

/-- The width of a step is not negative. -/
theorem step_nonneg (other : Single format) :
    0 ≤ (max (single format (1 / 10)) other).val := by
  have small : single format (1 / 10) ≤ max (single format (1 / 10)) other :=
    le_max_left _ _
  calc
    0 ≤ (single format (1 / 10)).val := Rounded.ofExact_nonneg (by norm_num)
    _ ≤ (max (single format (1 / 10)) other).val := small

theorem Bounded.stepIn (bounded : camera.Bounded) {width : Single format}
    (nonneg : 0 ≤ width.val) :
    (camera.step true (min (camera.currentZoomFactor.add width)
      (zoomFactorMax format))).Bounded := by
  obtain ⟨aboveMin, belowMax⟩ := inRange_iff.mp bounded.current
  have increases : camera.currentZoomFactor ≤
      min (camera.currentZoomFactor.add width) (zoomFactorMax format) :=
    le_min (Rounded.le_add nonneg) belowMax
  apply bounded.step
  · exact inRange_iff.mpr ⟨aboveMin.trans increases, min_le_right _ _⟩
  · exact increases

theorem Bounded.stepOut (bounded : camera.Bounded) {width : Single format}
    (nonneg : 0 ≤ width.val) :
    (camera.step false (max (camera.currentZoomFactor.sub width)
      (zoomFactorMin format))).Bounded := by
  obtain ⟨aboveMin, belowMax⟩ := inRange_iff.mp bounded.current
  have decreases : max (camera.currentZoomFactor.sub width)
      (zoomFactorMin format) ≤ camera.currentZoomFactor :=
    max_le (Rounded.sub_le nonneg) aboveMin
  apply bounded.step
  · exact inRange_iff.mpr ⟨le_max_right _ _, decreases.trans belowMax⟩
  · exact decreases

theorem Bounded.cameraZoomIn (bounded : camera.Bounded) :
    camera.cameraZoomIn.Bounded := by
  unfold CameraController.cameraZoomIn
  split
  · exact bounded
  · exact (bounded.stepIn (step_nonneg _)).sendRequest

theorem Bounded.cameraZoomOut (bounded : camera.Bounded) :
    camera.cameraZoomOut.Bounded := by
  unfold CameraController.cameraZoomOut
  split
  · exact bounded
  · exact (bounded.stepOut (step_nonneg _)).sendRequest

/-! ## Continuous zoom -/

/-- One pass of the loop, up to the question whether to go on. -/
def pass (camera : CameraController format) (isZoomIn : Bool) :
    CameraController format :=
  let step := max (single format (1 / 10))
    (camera.currentZoomFactor.mul (single format (1 / 10)))
  if isZoomIn then
    (camera.step true (min (camera.currentZoomFactor.add step)
      (zoomFactorMax format))).sendRequest
  else
    (camera.step false (max (camera.currentZoomFactor.sub step)
      (zoomFactorMin format))).sendRequest

theorem Bounded.pass (bounded : camera.Bounded) (isZoomIn : Bool) :
    (camera.pass isZoomIn).Bounded := by
  unfold CameraController.pass
  cases isZoomIn with
  | true => exact (bounded.stepIn (step_nonneg _)).sendRequest
  | false => exact (bounded.stepOut (step_nonneg _)).sendRequest

@[simp] theorem length_sent_pass (isZoomIn : Bool) :
    (camera.pass isZoomIn).sent.length = camera.sent.length + 1 := by
  unfold CameraController.pass
  cases isZoomIn <;> exact List.length_append

theorem assigned_subset_pass (isZoomIn : Bool) :
    camera.assigned ⊆ (camera.pass isZoomIn).assigned := by
  unfold CameraController.pass
  cases isZoomIn <;> exact List.subset_append_left _ _

/-- How the loop ends at a pass, or goes on. -/
theorem continuousLoop_cases
    (isZoomIn : Bool) (moments : Nat → Moment) (fuel iterations : Nat)
    (camera : CameraController format) :
    continuousLoop isZoomIn moments (fuel + 1) iterations camera =
        some camera ∨
      (isZoomIn = true ∧ zoomFactorMax format ≤ camera.currentZoomFactor ∧
        continuousLoop isZoomIn moments (fuel + 1) iterations camera =
          some (camera.step true (zoomFactorMax format))) ∨
      (isZoomIn = false ∧ camera.currentZoomFactor ≤ zoomFactorMin format ∧
        continuousLoop isZoomIn moments (fuel + 1) iterations camera =
          some (camera.step false (zoomFactorMin format))) ∨
      continuousLoop isZoomIn moments (fuel + 1) iterations camera =
        some (camera.pass isZoomIn) ∨
      (iterations + 1 < maxIterations ∧
        continuousLoop isZoomIn moments (fuel + 1) iterations camera =
          continuousLoop isZoomIn moments fuel (iterations + 1)
            (camera.pass isZoomIn)) := by
  rw [continuousLoop]
  by_cases stopped : (moments iterations).stopped = true
  · rw [if_pos stopped]
    exact .inl rfl
  rw [if_neg stopped]
  by_cases atMax : isZoomIn = true ∧
      zoomFactorMax format ≤ camera.currentZoomFactor
  · exact .inr (.inl ⟨atMax.1, atMax.2, if_pos atMax⟩)
  by_cases atMin : isZoomIn = false ∧
      camera.currentZoomFactor ≤ zoomFactorMin format
  · refine .inr (.inr (.inl ⟨atMin.1, atMin.2, ?_⟩))
    exact (if_neg atMax).trans (if_pos atMin)
  refine .inr (.inr (.inr ?_))
  by_cases failed : (moments iterations).success = false
  · exact .inl ((if_neg atMax).trans ((if_neg atMin).trans (if_pos failed)))
  by_cases atLast : maxIterations ≤ iterations + 1
  · exact .inl ((if_neg atMax).trans ((if_neg atMin).trans
      ((if_neg failed).trans (if_pos atLast))))
  · exact .inr ⟨Nat.not_le.mp atLast, (if_neg atMax).trans
      ((if_neg atMin).trans ((if_neg failed).trans (if_neg atLast)))⟩

/-- The loop ends, and it sends no more messages than there are passes left. -/
theorem exists_continuousLoop
    (isZoomIn : Bool) (moments : Nat → Moment) {fuel iterations : Nat}
    (enough : maxIterations ≤ fuel + iterations)
    (left : iterations < maxIterations) (camera : CameraController format) :
    ∃ after, continuousLoop isZoomIn moments fuel iterations camera =
        some after ∧
      after.sent.length + iterations ≤ camera.sent.length + maxIterations ∧
      camera.assigned ⊆ after.assigned ∧
      after.continuousSends = camera.continuousSends ∧
      (camera.Bounded → after.Bounded) := by
  induction fuel generalizing iterations camera with
  | zero => omega
  | succ fuel inductionHypothesis =>
      obtain ends | ⟨rfl, atMax, ends⟩ | ⟨rfl, atMin, ends⟩ | ends |
          ⟨more, goesOn⟩ :=
        continuousLoop_cases isZoomIn moments fuel iterations camera
      · exact ⟨camera, ends, by omega, List.Subset.refl _, rfl, id⟩
      · refine ⟨_, ends, ?_, List.subset_append_left _ _, rfl, ?_⟩
        · exact Nat.add_le_add_left left.le _
        · intro bounded
          have same : camera.currentZoomFactor = zoomFactorMax format :=
            le_antisymm (inRange_iff.mp bounded.current).2 atMax
          exact bounded.step inRange_max same.le
      · refine ⟨_, ends, ?_, List.subset_append_left _ _, rfl, ?_⟩
        · exact Nat.add_le_add_left left.le _
        · intro bounded
          have same : zoomFactorMin format = camera.currentZoomFactor :=
            le_antisymm (inRange_iff.mp bounded.current).1 atMin
          exact bounded.step inRange_min same.le
      · refine ⟨_, ends, ?_, assigned_subset_pass isZoomIn, ?_, ?_⟩
        · rw [length_sent_pass]
          omega
        · cases isZoomIn <;> rfl
        · intro bounded
          exact bounded.pass isZoomIn
      · obtain ⟨after, ends, sends, assigned, continuousSends, kept⟩ :=
          inductionHypothesis (by omega) more (camera.pass isZoomIn)
        refine ⟨after, goesOn.trans ends, ?_, ?_, ?_, ?_⟩
        · rw [length_sent_pass] at sends
          omega
        · exact List.Subset.trans (assigned_subset_pass isZoomIn) assigned
        · rw [continuousSends]
          cases isZoomIn <;> rfl
        · intro bounded
          exact kept (bounded.pass isZoomIn)

theorem exists_continuousZoom
    (isZoomIn : Bool) (moments : Nat → Moment) {fuel : Nat}
    (enough : maxIterations ≤ fuel) (camera : CameraController format) :
    ∃ after, camera.continuousZoom fuel isZoomIn moments = some after ∧
      camera.assigned ⊆ after.assigned ∧
      (camera.Bounded → after.Bounded) := by
  obtain ⟨after, ends, sends, assigned, continuousSends, kept⟩ :=
    @exists_continuousLoop format isZoomIn moments fuel 0 enough (by decide)
      camera
  have performed : camera.continuousZoom fuel isZoomIn moments =
      some { after with continuousSends := after.continuousSends ++
        [after.sent.length - camera.sent.length] } := by
    rw [continuousZoom, ends]
    rfl
  refine ⟨_, performed, assigned, ?_⟩
  intro bounded
  have inner := kept bounded
  refine ⟨inner.current, inner.assigned, inner.sent, inner.steps, ?_⟩
  apply forall_mem_concat inner.continuousSends
  have limit : after.sent.length ≤ camera.sent.length + 20 := sends
  omega

/-! ## Requests -/

/-- The factor that a request brings into the controller is between the limits.
-/
def Request.InRange : Request format → Prop
  | .cameraControl none _ _ => True
  | .cameraControl (some _) shown _ => Payload.InRange shown
  | .specifyZoom zoomFactor => Payload.InRange zoomFactor

/-- Every request ends.  It leaves the factor bounded when it brings one
between the limits, and otherwise has assigned one that is not. -/
theorem exists_perform
    {fuel : Nat} (enough : maxIterations ≤ fuel)
    (camera : CameraController format) (request : Request format) :
    ∃ after, camera.perform fuel request = some after ∧
      (camera.Bounded → (request.InRange ↔ after.Bounded)) := by
  -- what a command does after it has taken over the factor that is shown
  have rest : ∀ {shown : Single format} {after : CameraController format},
      (camera.assign shown).assigned ⊆ after.assigned →
      ((camera.assign shown).Bounded → after.Bounded) →
      camera.Bounded → (Payload.InRange shown ↔ after.Bounded) := by
    intro shown after assigned kept bounded
    constructor
    · intro inRange
      exact kept (bounded.assign inRange)
    · intro boundedAfter
      apply boundedAfter.assigned shown
      apply assigned
      exact List.mem_append_right _ (List.mem_singleton_self shown)
  cases request with
  | specifyZoom zoomFactor =>
      refine ⟨_, rfl, rest (List.Subset.refl _) ?_⟩
      exact Bounded.sendRequest
  | cameraControl direction shown moments =>
      rw [perform]
      cases direction with
      | none => exact ⟨camera, rfl, fun bounded => iff_of_true trivial bounded⟩
      | some direction =>
          unfold handleCameraControl
          simp only
          split
          · exact ⟨_, rfl, rest (List.Subset.refl _) id⟩
          split
          · refine ⟨_, rfl, rest ?_ Bounded.cameraZoomOut⟩
            unfold cameraZoomOut
            split
            · exact List.Subset.refl _
            · exact List.subset_append_left _ _
          · refine ⟨_, rfl, rest ?_ Bounded.cameraZoomIn⟩
            unfold cameraZoomIn
            split
            · exact List.Subset.refl _
            · exact List.subset_append_left _ _
          · refine ⟨_, rfl, rest (List.subset_append_left _ _) ?_⟩
            intro bounded
            exact (bounded.assign inRange_min).sendRequest
          · refine ⟨_, rfl, rest (List.subset_append_left _ _) ?_⟩
            intro bounded
            exact (bounded.assign inRange_max).sendRequest
          · obtain ⟨after, ends, assigned, kept⟩ :=
              exists_continuousZoom true moments enough (camera.assign shown)
            exact ⟨after, ends, rest assigned kept⟩
          · obtain ⟨after, ends, assigned, kept⟩ :=
              exists_continuousZoom false moments enough (camera.assign shown)
            exact ⟨after, ends, rest assigned kept⟩
          · exact ⟨_, rfl, rest (List.Subset.refl _) id⟩
          · exact ⟨_, rfl, rest (List.Subset.refl _) id⟩

/-- One request after another, with fuel for every continuous zoom. -/
def Step (fuel : Nat) (camera : CameraController format)
    (request : Request format) (after : CameraController format) : Prop :=
  camera.perform fuel request = some after

theorem exists_run
    {fuel : Nat} (enough : maxIterations ≤ fuel)
    (camera : CameraController format) (requests : List (Request format)) :
    ∃ after, Run (Step fuel) camera requests after := by
  induction requests generalizing camera with
  | nil => exact ⟨camera, .nil camera⟩
  | cons request requests inductionHypothesis =>
      obtain ⟨middle, performed, -⟩ := exists_perform enough camera request
      obtain ⟨after, run⟩ := inductionHypothesis middle
      exact ⟨after, .cons performed run⟩

/-- With fuel for twenty passes all requests end.  The factor is bounded after
each of them exactly when every request brings a factor between the limits. -/
theorem bounded_iff_inRange
    (format : SinglePrecision) {fuel : Nat} (enough : maxIterations ≤ fuel)
    (requests : List (Request format)) :
    (∃ after, Run (Step fuel) (initial format) requests after) ∧
      ((∀ request ∈ requests, request.InRange) ↔
        ∀ camera, Reached (Step fuel) (initial format) requests camera →
          camera.Bounded) := by
  have functional : ∀ (camera : CameraController format) request next other,
      Step fuel camera request next → Step fuel camera request other →
      next = other := by
    intro camera request next other first second
    exact Option.some_inj.mp (first.symm.trans second)
  obtain ⟨after, run⟩ := exists_run enough (initial format) requests
  refine ⟨⟨after, run⟩, ?_⟩
  rw [← Along.iff_forall_mem run functional]
  apply Along.iff_reached (fun _ => True) functional _ _ trivial .initial run
  · intro _ _ _ _ _
    trivial
  · intro camera request next _ bounded performed
    obtain ⟨after, ends, inRange_iff⟩ := exists_perform enough camera request
    obtain rfl := Option.some_inj.mp (performed.symm.trans ends)
    exact inRange_iff bounded

/-- Numbers that are not rounded. -/
def exactPrecision : SinglePrecision :=
  { Rounding.exact ℚ with
    two := rfl
    fourHundred := rfl }

/-- The factor is bounded when a continuous zoom starts between the limits. -/
theorem bounded_iff_inRange_continuous :
    (∃ after, Run (Step 20) (initial exactPrecision)
        [.cameraControl (some 4) (single exactPrecision 10)
          fun _ => ⟨false, true⟩] after) ∧
      ((∀ request ∈ [Request.cameraControl (some 4) (single exactPrecision 10)
          fun _ => ⟨false, true⟩], request.InRange) ↔
        ∀ camera, Reached (Step 20) (initial exactPrecision)
            [.cameraControl (some 4) (single exactPrecision 10)
              fun _ => ⟨false, true⟩] camera →
          camera.Bounded) :=
  bounded_iff_inRange exactPrecision le_rfl _

/-- A factor of zero is sent when the gimbal controller asks for it. -/
theorem specifyZoom_not_bounded :
    ∃ camera, Run (Step 20) (initial exactPrecision)
        [.specifyZoom (single exactPrecision 0)] camera ∧
      ¬∀ factor ∈ camera.sent, InRange factor := by
  refine ⟨_, .cons rfl (.nil _), ?_⟩
  intro inRange
  have atLeastTwo : (2 : ℚ) ≤ 0 :=
    (inRange (single exactPrecision 0) (List.mem_singleton_self _)).1
  norm_num at atLeastTwo

end CameraController
end Payload
end Pilot2Cloud
