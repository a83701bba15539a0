import Linkage.Space.Mat3

namespace Linkage.Space

-- A six by six matrix acting on pairs of an angular and a linear vector, given by its four
-- three by three blocks, the upper ones first.
structure Mat6 (α : Type) where
  angularAngular : Mat3 α
  angularLinear : Mat3 α
  linearAngular : Mat3 α
  linearLinear : Mat3 α
deriving DecidableEq, Repr

namespace Mat6

variable {α : Type} [Scalar α]

def one : Mat6 α :=
  ⟨.diagonal 1, .zero, .zero, .diagonal 1⟩

def transpose (m : Mat6 α) : Mat6 α :=
  ⟨m.angularAngular.transpose, m.linearAngular.transpose,
    m.angularLinear.transpose, m.linearLinear.transpose⟩

def mul (a b : Mat6 α) : Mat6 α :=
  ⟨.accumulate (a.angularAngular.mul b.angularAngular) a.angularLinear b.linearAngular,
    .accumulate (a.angularAngular.mul b.angularLinear) a.angularLinear b.linearLinear,
    .accumulate (a.linearAngular.mul b.angularAngular) a.linearLinear b.linearAngular,
    .accumulate (a.linearAngular.mul b.angularLinear) a.linearLinear b.linearLinear⟩

def joinRow (left right : Vec3 α) : List α :=
  [left.x, left.y, left.z, right.x, right.y, right.z]

def rows (m : Mat6 α) : List (List α) :=
  [joinRow m.angularAngular.first m.angularLinear.first,
    joinRow m.angularAngular.second m.angularLinear.second,
    joinRow m.angularAngular.third m.angularLinear.third,
    joinRow m.linearAngular.first m.linearLinear.first,
    joinRow m.linearAngular.second m.linearLinear.second,
    joinRow m.linearAngular.third m.linearLinear.third]

end Mat6

end Linkage.Space
