import MotionImagery.Geometry.Edge

/-!
The boundary of the union of two areas. A point is in an area when a line downwards from it meets
the area's edges an odd number of times. All edges are divided where they meet; a piece bounds the
union when exactly one of its sides is in it.
-/
namespace MotionImagery

/-- An edge with the union on one side; `insideBelow` when on its lower side. -/
structure BoundaryEdge where
  edge : Edge
  insideBelow : Bool
  deriving Inhabited

namespace BoundaryEdge

/-- Whether the area with these edges lies directly below `e`, and directly above it. -/
def sides (area : List Edge) (e : Edge) : Bool × Bool :=
  let below := area.countP fun f => f.reachesPast e.left.place && f.isBelow e
  let along := area.countP fun f => f == e
  (below % 2 = 1, (below + along) % 2 = 1)

/-- The boundary of the union, from left to right. -/
def ofUnion (first second : List Edge) : List BoundaryEdge :=
  let all := first ++ second
  let first := first.flatMap (Edge.pieces all)
  let second := second.flatMap (Edge.pieces all)
  ((first ++ second).mergeSort Edge.notAfter).eraseReps.filterMap fun e =>
    let (below₁, above₁) := sides first e
    let (below₂, above₂) := sides second e
    let below := below₁ || below₂
    if below = (above₁ || above₂) then none else some ⟨e, below⟩

end BoundaryEdge

end MotionImagery
