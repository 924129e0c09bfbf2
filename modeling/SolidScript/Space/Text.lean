import SolidScript.Number.Shortest
import SolidScript.Space.Vec3

/-!
# Vectors as text
-/

namespace SolidScript.Space

/-- The coordinates in parentheses, each as the shortest decimal that reads back. -/
def Vec3.text (v : Vec3 Float) : String :=
  "(" ++ ", ".intercalate (v.toList.map Number.Layout.plain.text) ++ ")"

end SolidScript.Space
