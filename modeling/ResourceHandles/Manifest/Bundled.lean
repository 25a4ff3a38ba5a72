import ResourceHandles.Manifest.BundledFlags
import ResourceHandles.Manifest.BundledOperations
import ResourceHandles.Manifest.Extraction

/-!
# The bundled sources

A scan without paths reads these two sources, in this order.
-/

namespace ResourceHandles

/-- A source text under the name it is shown by. -/
structure NamedSource where
  name : String
  text : String
  deriving Repr, DecidableEq

def bundledSources : List NamedSource :=
  [⟨"unio/src/core/open_flags.rs", flagSource⟩, ⟨"unio/src/facade.rs", operationSource⟩]

def bundledDirectives (marker : String) : List String :=
  extractAll (bundledSources.map NamedSource.text) marker

end ResourceHandles
