import InlineComponents.Text.Basic

/-!
# Bare import specifiers

A specifier that is neither a path nor virtual names a package, and may go on with a path within
the package. The name of a package is one piece of the specifier, or two if the first starts with
`@`.
-/

namespace InlineComponents

/-- What a bare specifier refers to: a package, and whether a path within it follows. -/
structure PackageReference where
  package : Text
  hasSubpath : Bool
  deriving DecidableEq, Repr

namespace PackageReference

/-- Whether a specifier is bare: not empty, not a path and not virtual. -/
def isBare : Text → Bool
  | [] => false
  | c :: _ => c ≠ '.' && c ≠ '\x00' && c ≠ '/'

/-- The reference made by the pieces of a specifier. -/
def ofPieces : List Text → PackageReference
  | [] => ⟨[], false⟩
  | scope@('@' :: _) :: name :: rest => ⟨scope ++ '/' :: name, !rest.isEmpty⟩
  | name :: rest => ⟨name, !rest.isEmpty⟩

/-- The reference made by a specifier. -/
def ofSpecifier (specifier : Text) : PackageReference :=
  ofPieces (Text.splitAll '/' specifier)

end PackageReference

end InlineComponents
