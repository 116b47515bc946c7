import PolymerAnalysis.Session.Basic

namespace PolymerAnalysis

namespace Session

/-- Takes addresses from a list until it is empty, and puts the importers of each at its front, once for every
address. -/
def dependentsFrom (importers : List (Text × List Text)) : List Text → List Text
  | [] => []
  | url :: pending =>
    match _h : importers.lookup url with
    | some urls => url :: dependentsFrom (Keyed.erase url importers) (urls ++ pending)
    | none => url :: dependentsFrom importers pending
termination_by pending => (importers.length, pending.length)
decreasing_by
  · exact Prod.Lex.left _ _ (Keyed.length_erase_lt _h)
  · exact Prod.Lex.right _ (by simp)

def dependents (s : Session) (urls : List Text) : List Text :=
  Text.sort (dependentsFrom s.importers urls).eraseDups

/-- Forgets changed files and everything that depends on them; gives the addresses of what was forgotten. -/
def filesChanged (s : Session) (urls : List Text) : List Text × Session :=
  let dropped := s.dependents urls
  (dropped,
    { s with
      cache := s.cache.filter fun e ↦ !Text.isAmong e.1 dropped
      importers := (s.importers.filter fun e ↦ !Text.isAmong e.1 dropped).map fun e ↦
        (e.1, e.2.filter fun url ↦ !Text.isAmong url dropped) })

end Session

end PolymerAnalysis
