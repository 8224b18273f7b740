/-!
# Order of texts

Texts are ordered by the code points of their characters, and a text comes before its extensions.
-/

namespace LookmlProject.Text

/-- Whether one sequence of characters is not after another. -/
def charsLe : List Char → List Char → Bool
  | [], _ => true
  | _ :: _, [] => false
  | a :: as, b :: bs => if a = b then charsLe as bs else a.toNat < b.toNat

/-- Whether one text is not after another. -/
def le (a b : String) : Bool := charsLe a.toList b.toList

/-- Texts in order. -/
def sorted (texts : List String) : List String := texts.mergeSort le

end LookmlProject.Text
