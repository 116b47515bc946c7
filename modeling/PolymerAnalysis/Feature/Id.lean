namespace PolymerAnalysis

abbrev DocId := Nat

structure FeatureId where
  owner : DocId
  index : Nat
deriving DecidableEq

end PolymerAnalysis
