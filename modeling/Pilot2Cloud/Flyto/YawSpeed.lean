import Pilot2Cloud.Foundation.PiecewiseLinear

/-!
# The yaw speed for a zoom

The speed at which an aircraft turns falls with the zoom of its camera.  It was
measured for the whole zooms from one to ten, and is interpolated between them.
Here the numbers are exact.
-/

namespace Pilot2Cloud
namespace Flyto
namespace Exact

open Foundation

/-- The first entry of `kZoomYawSpeedTable`. -/
def front : Knot ℚ := ⟨1, 725 / 10⟩

/-- The entries of `kZoomYawSpeedTable` after the first. -/
def entries : List (Knot ℚ) :=
  [⟨2, 367 / 10⟩, ⟨3, 284 / 10⟩, ⟨4, 228 / 10⟩, ⟨5, 192 / 10⟩,
    ⟨6, 165 / 10⟩, ⟨7, 145 / 10⟩, ⟨8, 129 / 10⟩, ⟨9, 119 / 10⟩,
    ⟨10, 109 / 10⟩]

/-- The last entry of `kZoomYawSpeedTable`. -/
def back : Knot ℚ := ⟨10, 109 / 10⟩

/-- The loop over the entries after the first. -/
def yawSpeedLoop (zoom : ℚ) (previous : Knot ℚ) : List (Knot ℚ) → ℚ
  | [] => back.value
  | point :: table =>
      if zoom ≤ point.place then
        let span := point.place - previous.place
        let t := (zoom - previous.place) / span
        previous.value + t * (point.value - previous.value)
      else yawSpeedLoop zoom point table

/-- The yaw speed at a zoom factor in exact arithmetic. -/
def yawSpeedForZoom (zoom : ℚ) : ℚ :=
  if zoom ≤ front.place then front.value
  else if back.place ≤ zoom then back.value
  else yawSpeedLoop zoom front entries

/-- Along the table the zoom grows and the speed falls. -/
theorem falls_table : List.IsChain Knot.Falls (front :: entries) := by
  unfold front entries
  simp only [List.isChain_cons_cons, List.isChain_singleton, and_true]
  refine ⟨?_, ?_, ?_, ?_, ?_, ?_, ?_, ?_, ?_⟩ <;> constructor <;> norm_num

/-- In front of the last entry the loop finds the function of the knots. -/
theorem yawSpeedLoop_eq {zoom : ℚ} {previous : Knot ℚ}
    {table : List (Knot ℚ)} (ends : table.getLast? = some back)
    (inFront : zoom < back.place) :
    yawSpeedLoop zoom previous table =
      interpolateFrom previous table zoom := by
  induction table generalizing previous with
  | nil => contradiction
  | cons point table inductionHypothesis =>
      rw [yawSpeedLoop, interpolateFrom]
      split
      case isTrue _ => rfl
      case isFalse beyond =>
        apply inductionHypothesis
        cases table with
        | nil =>
            rw [List.getLast?_singleton, Option.some_inj] at ends
            rw [ends] at beyond
            exact absurd inFront.le beyond
        | cons next table =>
            rwa [List.getLast?_cons_cons] at ends

/-- The yaw speed is interpolated in the table. -/
theorem yawSpeedForZoom_eq :
    yawSpeedForZoom = interpolateClamped front entries := by
  funext zoom
  unfold yawSpeedForZoom interpolateClamped
  split
  case isTrue _ => rfl
  case isFalse _ =>
    split
    case isTrue behind =>
      exact (interpolateFrom_last falls_table behind).symm
    case isFalse inFront =>
      exact yawSpeedLoop_eq rfl (not_le.mp inFront)

/-- The speed is between the lowest and the highest measured one, falls as the
zoom grows, is on the line between neighbouring entries and at the ends of the
table, and is continuous. -/
theorem yawSpeedForZoom_interpolates :
    (∀ zoom, 109 / 10 ≤ yawSpeedForZoom zoom ∧
      yawSpeedForZoom zoom ≤ 725 / 10) ∧
    Antitone yawSpeedForZoom ∧
    (∀ before left right after,
      front :: entries = before ++ left :: right :: after →
        ∀ zoom, left.place ≤ zoom → zoom ≤ right.place →
          yawSpeedForZoom zoom = left.line right zoom) ∧
    (∀ zoom ≤ front.place, yawSpeedForZoom zoom = front.value) ∧
    (∀ zoom ≥ back.place, yawSpeedForZoom zoom = back.value) ∧
    Continuous yawSpeedForZoom := by
  rw [yawSpeedForZoom_eq]
  refine ⟨?_, interpolateClamped_antitone falls_table, ?_, ?_, ?_,
    continuous_interpolateClamped falls_table⟩
  · intro zoom
    exact ⟨last_le_interpolateClamped falls_table zoom,
      interpolateClamped_le falls_table zoom⟩
  · intro before left right after neighbours zoom behind inFront
    have isKnot : left ∈ front :: entries := by
      rw [neighbours]
      exact List.mem_append_right _ List.mem_cons_self
    have first := first_le_of_mem falls_table isKnot
    rw [interpolateClamped_of_behind falls_table (first.trans behind)]
    exact interpolateFrom_between falls_table neighbours behind inFront
  · intro zoom inFront
    exact if_pos inFront
  · intro zoom behind
    have first : front.place ≤ zoom :=
      (first_le_of_mem falls_table (List.getLast_mem
        (List.cons_ne_nil front entries))).trans behind
    rw [interpolateClamped_of_behind falls_table first]
    exact interpolateFrom_last falls_table behind

end Exact
end Flyto
end Pilot2Cloud
