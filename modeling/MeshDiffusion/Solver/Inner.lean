import MeshDiffusion.Field.Arithmetic
import MeshDiffusion.Field.Reduction
import MeshDiffusion.Notice
import MeshDiffusion.Solver.Basic

/-!
Inner solvers.

Both solve `A x = b` on one level from `x = 0` for an operator `A` with homogeneous boundary, of
which the inverse of the diagonal is known. `A` takes a field, whose ghosts it fills, and the field
to write its image into, and gives both.

* `Inner.relax` makes weighted Jacobi sweeps until the residual is at most the target;
* `Inner.bicgstab` is the stabilised biconjugate gradient method, preconditioned from the right by
  the diagonal. `Krylov.halfStep` and `Krylov.fullStep` are the two halves of an iteration; each
  names the inner product that is not finite or vanishes, since with a residual above the target a
  vanishing product cannot mean convergence.
-/

namespace MeshDiffusion

namespace Inner

variable {K : Type} [Scalar K]

/-- An operator on one level: it fills the ghosts of its argument and writes the image. -/
abbrev Action (K : Type) := MeshField K → MeshField K → MeshField K × MeshField K

/-- What an inner solve works with. -/
structure Problem (K : Type) where
  level : Nat
  action : Action K
  diagonalInverse : MeshField K
  rhs : MeshField K
  target : K
  verbose : Bool
  maxIterations : Nat

/-- A right-hand side less an image. -/
@[specialize] def residual (b ax : MeshField K) : MeshField K :=
  ((ax.zeros ax.ncomp 0).copy b 0 0 ax.ncomp 0).axpy (-(1.0)) ax 0

/-- Multiplies every component by the inverse of the diagonal. -/
@[specialize] def byDiagonal (f diagonalInverse : MeshField K) : MeshField K :=
  (List.range f.ncomp).foldl (fun f n => f.mulFrom diagonalInverse 0 n 1 0) f

/-- A notice, if the inner solver is to tell its progress. -/
def Problem.tell (pb : Problem K) (n : Notice K) : List (Notice K) :=
  if pb.verbose then [n] else []

/-! ### Weighted Jacobi -/

/-- The weight of a sweep. -/
def sweepWeight : K := 2.0 / 3.0

/-- Sweeps from iteration `it` on, at most `fuel` of them. -/
@[specialize] def sweeps (pb : Problem K) :
    (fuel it : Nat) → (x ax : MeshField K) → Noted K (MeshField K)
  | 0, _, x, _ => .quiet x
  | fuel + 1, it, x, ax =>
    let (x, ax) := pb.action x ax
    let r := residual pb.rhs ax
    let norm := r.normAll
    let heard := pb.tell (.sweep pb.level it norm)
    if norm ≤ pb.target then ⟨heard, x⟩
    else
      let x := x.axpy sweepWeight (byDiagonal r pb.diagonalInverse) 0
      (sweeps pb fuel (it + 1) x ax).after heard

/-- Weighted Jacobi sweeps from a zero field. -/
@[specialize] def relax (pb : Problem K) (x : MeshField K) : Noted K (MeshField K) :=
  sweeps pb pb.maxIterations 0 x (pb.rhs.zeros pb.rhs.ncomp 0)

/-! ### Biconjugate gradients -/

/-- The fields and scalars that one iteration hands to the next. `r` is kept equal to the residual
of `x`; `y` and `z` are the preconditioned directions, `v` and `t` their images. -/
structure Krylov (K : Type) where
  x : MeshField K
  r : MeshField K
  p : MeshField K
  v : MeshField K
  t : MeshField K
  y : MeshField K
  z : MeshField K
  rho : K
  alpha : K
  omega : K

namespace Krylov

/-- The start from a zero field. -/
def start (pb : Problem K) (x : MeshField K) : Krylov K :=
  let zero := pb.rhs.zeros pb.rhs.ncomp 0
  let padded := x.zeros x.ncomp 1
  { x := x, r := pb.rhs, p := zero, v := zero, t := zero, y := padded, z := padded
    rho := 1.0, alpha := 1.0, omega := 1.0 }

/-- The first half of iteration `it`: a step along the search direction. -/
@[specialize] def halfStep (pb : Problem K) (it : Nat) (s : Krylov K) :
    Except Breakdown (Krylov K) :=
  let rho := pb.rhs.dot s.r
  if !Scalar.isFinite rho then .error (.notFinite .rho it)
  else if rho == 0.0 then .error (.vanished .rho it)
  else
    let beta := rho / s.rho * (s.alpha / s.omega)
    let p := ((s.p.axpy (-s.omega) s.v 0).scale beta 0).axpy 1.0 s.r 0
    let y := byDiagonal (s.y.copy p 0 0 s.x.ncomp 0) pb.diagonalInverse
    let (y, v) := pb.action y s.v
    let rv := pb.rhs.dot v
    if !Scalar.isFinite rv then .error (.notFinite .shadowV it)
    else if rv == 0.0 then .error (.vanished .shadowV it)
    else
      let alpha := rho / rv
      .ok { s with
        x := s.x.axpy alpha y 0
        r := s.r.axpy (-alpha) v 0
        p := p, v := v, y := y, rho := rho, alpha := alpha }

/-- The second half of iteration `it`: a step along the residual of the first half. -/
@[specialize] def fullStep (pb : Problem K) (it : Nat) (s : Krylov K) :
    Except Breakdown (Krylov K) :=
  let z := byDiagonal (s.z.copy s.r 0 0 s.x.ncomp 0) pb.diagonalInverse
  let (z, t) := pb.action z s.t
  let ts := t.dot s.r
  let tt := t.dot t
  if !Scalar.isFinite ts || !Scalar.isFinite tt then .error (.notFinite .tS it)
  else if tt == 0.0 then .error (.vanished .tT it)
  else
    let omega := ts / tt
    .ok { s with
      x := s.x.axpy omega z 0
      r := s.r.axpy (-omega) t 0
      z := z, t := t, omega := omega }

/-- Iterations from number `it` on, at most `fuel` of them. -/
@[specialize] def iterate (pb : Problem K) :
    (fuel it : Nat) → Krylov K → Noted K (Except Breakdown (MeshField K))
  | 0, _, s => .quiet (.ok s.x)
  | fuel + 1, it, s =>
    match halfStep pb it s with
    | .error e => .quiet (.error e)
    | .ok h =>
      let norm := h.r.normAll
      let heard := pb.tell (.halfStep pb.level it norm)
      if norm ≤ pb.target then ⟨heard, .ok h.x⟩
      else match fullStep pb it h with
        | .error e => ⟨heard, .error e⟩
        | .ok s =>
          let norm := s.r.normAll
          let heard := heard ++ pb.tell (.fullStep pb.level it norm)
          if norm ≤ pb.target ∨ (s.omega == 0.0) = true then ⟨heard, .ok s.x⟩
          else (iterate pb fuel (it + 1) s).after heard

end Krylov

/-- Stabilised biconjugate gradients from a zero field. -/
@[specialize] def bicgstab (pb : Problem K) (x : MeshField K) :
    Noted K (Except Breakdown (MeshField K)) :=
  Krylov.iterate pb pb.maxIterations 0 (.start pb x)

end Inner

end MeshDiffusion
