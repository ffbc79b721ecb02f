import MeshDiffusion.Equation.LevelSystem
import MeshDiffusion.Mesh.Obstacle

/-!
The velocity on the surface of a rotating obstacle.

`rotatingVelocity` is tangent to a surface that spins about the third axis; `fillWallVelocity`
writes it into the boxes that the surface passes through and clears the others.
-/

namespace MeshDiffusion

variable {K : Type} [Scalar K] [Trig K]

/-- The velocity of a surface with a given normal that spins at a given speed. -/
def rotatingVelocity (normal : Triple K) (speed : K) : Triple K :=
  let theta := Trig.atan2 (-normal.y) (-normal.x)
  ⟨speed * Trig.sin theta, -speed * Trig.cos theta, 0.0⟩

/-- Writes the velocity of the surface into the valid cells of every box that an obstacle cuts; a
box that it covers or leaves regular becomes zero, ghosts included. -/
def fillWallVelocity (vel : MeshField K) (obstacle : Obstacle K) (speed : K) : MeshField K :=
  let kinds := vel.layout.boxes.map obstacle.boxKind
  vel.update fun i p n old =>
    if velocityComponents ≤ n then old
    else match kinds.getD i .regular with
      | .covered | .regular => 0.0
      | .cut =>
        if p ∈ vel.layout.box i then
          let v := rotatingVelocity (obstacle.normal p) speed
          match n with
          | 0 => v.x
          | 1 => v.y
          | _ => v.z
        else old

end MeshDiffusion
