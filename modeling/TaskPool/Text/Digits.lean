/-!
# Decimal digits

* `isDigit`      `0` to `9`
* `digitValue`   what a digit says
* `ofDigits`     the number that digits say together
-/

namespace TaskPool

def isDigit (c : Char) : Bool := decide ('0' ≤ c) && decide (c ≤ '9')

def digitValue (c : Char) : Nat := c.toNat - '0'.toNat

def ofDigits (ds : List Char) : Nat := ds.foldl (fun n d => n * 10 + digitValue d) 0

end TaskPool
