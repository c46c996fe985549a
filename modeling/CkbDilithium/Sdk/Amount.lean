import CkbDilithium.Sdk.Preflight
import CkbDilithium.Lib.Decimal

/-!
# Amounts of the command line

`parseCkbAmount`, `parseOptionalCkbAmount` and `formatCkb` of `sdk/src/cli.ts`: amounts in CKB as they are typed
and shown, and in shannons, of which there are `10 ^ 8` in one CKB.
-/

namespace CkbDilithium.Sdk

open Js

/-! ### Texts -/

/-- `s.split(separator)` for a single code unit. -/
def split (s : JsString) (separator : UInt16) : List JsString := s.splitOn separator

/-- `s.padStart(targetLength, c)` for a single code unit. -/
def padStart (s : JsString) (targetLength : Nat) (c : UInt16) : JsString :=
  List.replicate (targetLength - s.length) c ++ s

/-- `s.padEnd(targetLength, c)` for a single code unit. -/
def padEnd (s : JsString) (targetLength : Nat) (c : UInt16) : JsString :=
  s ++ List.replicate (targetLength - s.length) c

/-- `s.replace(/0+$/, "")`. -/
def stripTrailingZeros (s : JsString) : JsString := s.rdropWhile (· == unit '0')

/-! ### Reading and showing amounts -/

/-- Only the first two pieces between points are looked at. -/
def parseCkbAmount (value : JsString) : Js Int :=
  let pieces := split value (unit '.')
  let whole := pieces.getD 0 []
  let fractional := pieces.getD 1 []
  -- `/^\d+$/` and `/^\d*$/`
  if ¬ (whole ≠ [] ∧ whole.all isDigit) ∨ ¬ fractional.all isDigit then
    raise (lit "Invalid CKB amount: " ++ value)
  else do
    let wholePart := (← bigIntOfString whole) * shannonsPerCkb
    let fractionalDigits := (padEnd fractional 8 (unit '0')).take 8
    pure (wholePart + (← bigIntOfString (if fractionalDigits = [] then lit "0" else fractionalDigits)))

def parseOptionalCkbAmount : Option JsString → Js (Option Int)
  | none => pure none
  | some value => do pure (some (← parseCkbAmount value))

def formatCkb (value : Int) : JsString :=
  let whole := value.tdiv shannonsPerCkb
  let fractional := stripTrailingZeros (padStart (bigIntToString (value.tmod shannonsPerCkb)) 8 (unit '0'))
  if fractional ≠ [] then bigIntToString whole ++ lit "." ++ fractional else bigIntToString whole

end CkbDilithium.Sdk
