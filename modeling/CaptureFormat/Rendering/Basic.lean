import CaptureFormat.Fault
import CaptureFormat.Rendering.Standard
import CaptureFormat.VerbMask

namespace CaptureFormat

/-!
# Renderings

A rendering says which verbs it takes and turns an argument into text for a
directive.  It also words the descriptions and the fault markers that stand in
the text where a directive cannot be carried out.
-/

/-- How arguments of type `V` become text. -/
structure Rendering (V : Type) where
  /-- The verbs that a template may use. -/
  verbs : VerbMask := .standard
  /-- An argument for a directive. -/
  render : Directive → V → String
  /-- A short description of an argument, for a marker. -/
  describe : V → String
  /-- The marker of a faulty directive. -/
  markFault : Directive → Fault → String := fun directive fault => fault.marker directive.verb

namespace Rendering

/-- The standard rendering of values. -/
def standard : Rendering Value where
  render := Standard.render
  describe := Standard.describe

/-- The same rendering with another set of verbs. -/
def withVerbs (rendering : Rendering V) (verbs : VerbMask) : Rendering V :=
  { rendering with verbs }

/-- The same rendering with markers that put a fault into words. -/
def withWordedFaults (rendering : Rendering V) : Rendering V :=
  { rendering with markFault := fun _ fault => "<" ++ fault.description ++ ">" }

end Rendering

end CaptureFormat
