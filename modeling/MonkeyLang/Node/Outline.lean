import MonkeyLang.Node.Canonical

/-!
The outline of a tree: a line for each node with its label and canonical text, set in by four blanks
for each level, and a closing line after the children of a node that has any.
-/

namespace MonkeyLang.Node

def margin (level : Nat) : String := String.ofList (List.replicate (4 * level) ' ')

/-- Puts the outlines of a node's children, if it has any, between its opening and closing line. -/
def enclose (level : Nat) (opening : String) : List String → String
  | [] => opening ++ ")"
  | inner => opening ++ ", nodes=[\n" ++ ",\n".intercalate inner ++ "\n" ++ margin level ++ "])"

def outline (level : Nat) (node : Node) : String :=
  enclose level (margin level ++ node.label ++ "('" ++ node.text ++ "'")
    (node.children.attach.map fun ⟨child, _⟩ => outline (level + 1) child)
termination_by node.height
decreasing_by exact height_lt_of_mem_children ‹_›

def writeOutline (level : Nat) (node : Node) : Except Fault String :=
  if node.height ≤ heightLimit then .ok (node.outline level) else .error .tooDeep

end MonkeyLang.Node
