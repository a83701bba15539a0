import Linkage.Body.Segment

namespace Linkage.Body.Segment

open Space

variable {α : Type} [Scalar α] {origin center : Pose α} {axis : Vec3 α} {motion : Motion} {mass : α}
  {inertia : Mat3 α} {segment : Segment α}

-- A segment is what it is made of, with the direction of its axis and the screw of that.
theorem make?_eq_some_iff :
    make? origin axis motion mass center inertia = some segment ↔
      axis.strictDirection? = some segment.axis ∧
      screwAtCenter? motion segment.axis center = some segment.body.screw ∧
      segment.origin = origin ∧ segment.body.motion = motion ∧ segment.body.mass = mass ∧
      segment.body.center = center ∧ segment.body.inertia = inertia := by
  unfold make?
  constructor
  · intro h
    cases hdirection : axis.strictDirection? with
    | none => simp [hdirection] at h
    | some direction =>
        simp only [hdirection, Option.map_eq_some_iff] at h
        obtain ⟨screw, hscrew, rfl⟩ := h
        exact ⟨rfl, hscrew, rfl, rfl, rfl, rfl, rfl⟩
  · rintro ⟨hdirection, hscrew, rfl, rfl, rfl, rfl, rfl⟩
    simp only [hdirection, hscrew, Option.map_some]

end Linkage.Body.Segment
