import PolymerAnalysis.Text.Utf8

namespace PolymerAnalysis

inductive LoadFault where
  | noLanguage
  | unknown
  | outside
  | noEntry
  | isDirectory
  | notDirectory
  | nameTooLong
  | encoding (e : Text.Utf8.DecodeError)
deriving DecidableEq

def LoadFault.reason : LoadFault → Text
  | .noLanguage => "no parser for this file type"
  | .unknown => "no such file"
  | .outside => "outside of the package root"
  | .noEntry => "No such file or directory"
  | .isDirectory => "Is a directory"
  | .notDirectory => "Not a directory"
  | .nameTooLong => "File name too long"
  | .encoding e =>
    "not valid UTF-8 (" ++ e.fault.reason ++ " at byte " ++ Text.Numeral.ofNat e.position ++ ")"

end PolymerAnalysis
