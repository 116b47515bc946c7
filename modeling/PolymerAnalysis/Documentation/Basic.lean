import PolymerAnalysis.Text.Basic

namespace PolymerAnalysis

structure Tag where
  title : Text
  type : Option Text
  name : Option Text
  description : Option Text
deriving DecidableEq

structure Documentation where
  description : Text
  tags : List Tag
deriving DecidableEq

namespace Documentation

def tagged (docs : Option Documentation) (title : Text) : List Tag :=
  match docs with
  | some a => a.tags.filter (·.title = title)
  | none => []

def first? (docs : Option Documentation) (title : Text) : Option Tag := (tagged docs title).head?

def has (docs : Option Documentation) (title : Text) : Bool := !(tagged docs title).isEmpty

def summary? (docs : Option Documentation) : Option Text :=
  (docs.map (·.description)).filter fun t ↦ !t.isEmpty

def qualify (name : Text) (docs : Option Documentation) : Text :=
  match (first? docs "memberof").bind (·.name) with
  | some owner =>
    if owner.isEmpty || Text.startsWith name (owner ++ ".") then name else owner ++ "." ++ name
  | none => name

end Documentation

/-- Who may use a declaration: a tag decides, or else the underscores around its name. -/
def privacyOf (name : Text) (docs : Option Documentation) : Text :=
  match (["public", "protected", "private"] : List Text).find? (Documentation.has docs) with
  | some privacy => privacy
  | none =>
    if Text.startsWith name "__" then "private"
    else if Text.startsWith name "_" || Text.endsWith name "_" then "protected"
    else "public"

end PolymerAnalysis
