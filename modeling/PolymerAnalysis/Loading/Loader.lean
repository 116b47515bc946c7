import PolymerAnalysis.Failure

namespace PolymerAnalysis

/-- Where the texts of documents come from, with the addresses of the files. -/
structure Loader where
  urls : List Text
  canLoad : Text → Except Failure Bool
  load : Text → Except Failure Text

abbrev Files := List (Text × Text)

def Files.loader (files : Files) : Loader where
  urls := files.map (·.1)
  canLoad url := .ok (files.any (·.1 = url))
  load url := match files.lookup url with
    | some text => .ok text
    | none => .error (.load url .unknown)

end PolymerAnalysis
