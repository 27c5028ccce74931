/-!
# Time of day

Log lines carry the time as `HH:MM:SS`.
-/

namespace Stepflow

structure TimeOfDay where
  hour : Fin 24
  minute : Fin 60
  second : Fin 60
deriving DecidableEq, Repr

namespace TimeOfDay

def midnight : TimeOfDay := ⟨0, 0, 0⟩

def twoDigits (n : Nat) : List Char := [Nat.digitChar (n / 10), Nat.digitChar (n % 10)]

def stamp (t : TimeOfDay) : String :=
  .ofList (twoDigits t.hour ++ ':' :: twoDigits t.minute ++ ':' :: twoDigits t.second)

/-- Two digits, a colon, two digits, a colon, two digits. -/
def isStamp (text : String) : Bool :=
  match text.toList with
  | [a, b, ':', c, d, ':', e, f] => [a, b, c, d, e, f].all Char.isDigit
  | _ => false

end TimeOfDay

end Stepflow
