import PolymerAnalysis.Text.Numeral

namespace PolymerAnalysis.Host

def isOctet (t : Text) : Bool :=
  !t.isEmpty && t.length ≤ 3 && t.all (·.isDigit) &&
    (t.length = 1 || t.head? ≠ some (.ofChar '0')) && (Text.Numeral.value? 10 t).any (· ≤ 255)

def isIPv4 (t : Text) : Bool :=
  let parts := t.splitOn '.'
  parts.length = 4 && parts.all isOctet

def isGroup (t : Text) : Bool := t.length ≤ 4 && (Text.Numeral.value? 16 t).isSome

/-- Whether groups parted by colons make an address: eight of them, or fewer where one empty group
between others stands for the missing ones. A further empty group is one end of a double colon. -/
def isGroups (parts : List Text) : Bool :=
  let inner := (parts.drop 1).dropLast
  if inner.any (·.isEmpty) then
    let i := 1 + (inner.takeWhile (!·.isEmpty)).length
    let high := parts.take i
    let low := parts.drop (i + 1)
    let high := if high.head? = some [] then high.drop 1 else high
    let low := if low.getLast? = some [] then low.dropLast else low
    let openHigh := parts.head? = some [] && !high.isEmpty
    let openLow := parts.getLast? = some [] && !low.isEmpty
    (inner.filter (·.isEmpty)).length = 1 && !openHigh && !openLow &&
      high.length + low.length < 8 && (high ++ low).all isGroup
  else parts.length = 8 && parts.all isGroup

/-- A zone after a percent sign is not empty and has no further percent sign. -/
def isIPv6 (t : Text) : Bool :=
  let (address, zone) := Text.cut t '%'
  let zoneOk := match zone with
    | none => true
    | some z => !z.isEmpty && !z.any (fun c : CodePoint ↦ c = '%')
  let parts := address.splitOn ':'
  let last := parts.getLastD []
  let mapped := last.any (fun c : CodePoint ↦ c = '.')
  let groups : List Text := if mapped then parts.dropLast ++ [Text.ofString "0", Text.ofString "0"] else parts
  zoneOk && 3 ≤ parts.length && (!mapped || isIPv4 last) && groups.length ≤ 9 && isGroups groups

end PolymerAnalysis.Host
