import PolymerAnalysis.Documentation.Basic
import PolymerAnalysis.Feature.Id
import PolymerAnalysis.Value.Basic
import PolymerAnalysis.Warning

namespace PolymerAnalysis

structure Reference where
  name : Text
  range : Option SourceRange
deriving DecidableEq

structure Listener where
  event : Text
  handler : Text
deriving DecidableEq

structure Attribute where
  name : Text
  description : Option Text
  type : Option Text
  changeEvent : Option Text
  range : Option SourceRange
  inheritedFrom : Option Text
deriving DecidableEq

structure Event where
  name : Text
  description : Option Text
  range : Option SourceRange
  inheritedFrom : Option Text
deriving DecidableEq

/-- A property as its declaration describes it; `default` is the value of a default, if there is one. -/
structure Property where
  name : Text
  type : Option Text := none
  description : Option Text := none
  docs : Option Documentation := none
  default : Option Value := none
  notify : Bool := false
  readOnly : Bool := false
  reflectToAttribute : Bool := false
  observer : Option Text := none
  computed : Option Text := none
  privacy : Text := "public"
  published : Bool := true
  range : Option SourceRange := none
  warnings : List Warning := []

structure ResolvedProperty extends Property where
  inheritedFrom : Option Text

structure ResolvedObserver where
  value : Value
  writer : FeatureId
  place : Nat

end PolymerAnalysis
