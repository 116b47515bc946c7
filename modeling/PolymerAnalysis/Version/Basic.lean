import PolymerAnalysis.Text.Numeral

namespace PolymerAnalysis

/-- A version number with its qualifiers: an epoch, the release, a pre-release such as `rc1`, a post-release,
a development release and the local parts. -/
structure Version where
  epoch : Nat
  release : List Nat
  pre : Option (Text × Nat)
  post : Option Nat
  dev : Option Nat
  locals : List Text
deriving DecidableEq

namespace Version

def major (v : Version) : Nat := v.release.headD 0

def minor (v : Version) : Nat := (v.release.drop 1).headD 0

def isPlain (v : Version) : Bool :=
  v.epoch = 0 && v.pre.isNone && v.post.isNone && v.dev.isNone && v.locals.isEmpty

def releaseText (v : Version) : Text := Text.join "." (v.release.map Text.Numeral.ofNat)

/-- Whether two versions are in the order of their majors and minors. -/
def le (v w : Version) : Bool := v.major < w.major || (v.major = w.major && v.minor ≤ w.minor)

end Version

end PolymerAnalysis
