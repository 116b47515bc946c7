namespace PolymerAnalysis

inductive LogLevel where
  | warning
  | info
  | debug
deriving DecidableEq

structure Logging where
  level : LogLevel := .warning
  handlers : Nat := 0
deriving DecidableEq

def Logging.configure (l : Logging) (verbosity : Int) : Logging where
  level := if verbosity ≤ 0 then .warning else if verbosity = 1 then .info else .debug
  handlers := l.handlers + 1

end PolymerAnalysis
