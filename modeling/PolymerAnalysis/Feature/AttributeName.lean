import PolymerAnalysis.Text.Case

namespace PolymerAnalysis

/-- The attribute of a property: every capital becomes a hyphen and its small letter. A name without small
letters has none. -/
def attributeName? (name : Text) : Option Text :=
  if name.isEmpty || Text.upper name = name then none
  else some (Text.lower (name.flatMap fun c ↦ if c.isUpper then [.ofChar '-', c] else [c]))

end PolymerAnalysis
