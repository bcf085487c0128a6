import SqlSyntax.Canonical.Statement
import SqlSyntax.Tree.Node

/-!
# Canonical form of nodes

Each node has the canonical form that it has within its statement.
-/

namespace SqlSyntax.Node

def pieces : Node → List Piece
  | .statement s => s.pieces
  | .query q => q.pieces
  | .select s => s.pieces
  | .selectItem i => i.pieces
  | .relation r => r.pieces
  | .join j => j.pieces
  | .expr e => e.pieces
  | .column c => c.pieces

/-- The canonical text of a node. -/
def canonical (n : Node) : String := render n.pieces

end SqlSyntax.Node
