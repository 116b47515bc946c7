import PolymerAnalysis.Binary64.Basic

namespace PolymerAnalysis.Binary64

def neg : Binary64 → Binary64
  | .finite s m p => .finite (!s) m p
  | .infinite s => .infinite (!s)
  | .nan => .nan

def add : Binary64 → Binary64 → Binary64
  | .nan, _ => .nan
  | _, .nan => .nan
  | .infinite s, .infinite t => if s = t then .infinite s else .nan
  | .infinite s, _ => .infinite s
  | _, .infinite t => .infinite t
  | .finite s m p, .finite t n q =>
    let a : Int := if s then -((m <<< p : Nat) : Int) else (m <<< p : Nat)
    let b : Int := if t then -((n <<< q : Nat) : Int) else (n <<< q : Nat)
    let sum := a + b
    if sum = 0 then .finite (s && t) 0 0 else ofUnits (sum < 0) sum.natAbs 1

def sub (x y : Binary64) : Binary64 := add x y.neg

def mul : Binary64 → Binary64 → Binary64
  | .nan, _ => .nan
  | _, .nan => .nan
  | .infinite s, .infinite t => .infinite (s != t)
  | .infinite s, .finite t n _ => if n = 0 then .nan else .infinite (s != t)
  | .finite s m _, .infinite t => if m = 0 then .nan else .infinite (s != t)
  | .finite s m p, .finite t n q => ofUnits (s != t) (m <<< p * n <<< q) scale

def div : Binary64 → Binary64 → Binary64
  | .nan, _ => .nan
  | _, .nan => .nan
  | .infinite _, .infinite _ => .nan
  | .infinite s, .finite t _ _ => .infinite (s != t)
  | .finite s _ _, .infinite t => .finite (s != t) 0 0
  | .finite s m p, .finite t n q =>
    if n = 0 then (if m = 0 then .nan else .infinite (s != t))
    else ofUnits (s != t) (m <<< p * scale) (n <<< q)

end PolymerAnalysis.Binary64
