import Rustnzb.Core.NzbParser

/-!
# Names that stay below a directory

The checks of `path.rs` on a name that is about to become a path. A path below a root is the list of
its components.
-/

namespace Rustnzb.Core

def hasDrive (name : List Char) : Bool :=
  match name with
  | first :: ':' :: _ => first.utf8Size = 1
  | _ => false

def safeJoin (name : List Char) : Option (List (List Char)) :=
  let normalized := name.map fun char => if char = '\\' then '/' else char
  if normalized = [] ∨ normalized.head? = some '/' ∨ hasDrive normalized ∨
      normalized.any isControl then none
  else
    let components := (normalized.splitOn '/').filter fun component =>
      component ≠ [] && component ≠ ['.']
    if ['.', '.'] ∈ components then none else some components

def safeComponent (value : List Char) : Bool :=
  value ≠ [] && value ≠ ['.'] && value ≠ ['.', '.'] && '/' ∉ value && '\\' ∉ value &&
    !value.any isControl && !value.any isBidiOrInvisibleControl

end Rustnzb.Core
