import Dibibase.Util.Buffer
import Dibibase.Util.Numbers

/-!
# Bodies of query results

How a result string is taken apart into the values of a record.
-/

namespace Dibibase

namespace QueryResult

/-- The loop of `split`, which takes at least one character off the string in every round. The
position is stored in an `int`: minus one stands for a missing token, and with any other negative
position `substr` throws. -/
def splitLoop (token : UInt8) : Nat → List UInt8 → Except Exception (List (List UInt8))
  | 0, _ => return []
  | rounds + 1, str =>
    if str = [] then return []
    else
      let index : Int := match str.findIdx? (fun c => c = token) with
        | some position => toInt position
        | none => -1
      if index = -1 then return [str]
      else if index < 0 then throw .outOfRange
      else do
        let rest := str.drop (index.toNat + 1)
        let result ← splitLoop token rounds rest
        return str.take index.toNat :: (if rest = [] then [] :: result else result)

/-- `split`, whose callers split at one character. -/
def split (str : List UInt8) (token : UInt8) : Except Exception (List (List UInt8)) :=
  splitLoop token str.length str

/-- The text of a value, the number of its type and its length. -/
structure Attributes where
  text : List UInt8
  id : Int
  length : Int
  deriving DecidableEq, Repr

/-- One piece of the result string in the loop of `select_result`. An attribute that is not there
is read beyond the end of a vector. -/
def attributes (val : List UInt8) : Except Exception Attributes := do
  match ← split val 44 with
  | text :: id :: length :: _ => do
    let length ← stoi length
    let id ← stoi id
    return ⟨text, id, length⟩
  | _ => throw .undefinedBehaviour

/-- The pieces of the result string; empty pieces are dropped. -/
def recordValues (recordStr : List UInt8) : Except Exception (List Attributes) := do
  let values ← split recordStr 124
  (values.filter (fun val => 0 < val.length)).mapM attributes

end QueryResult

end Dibibase
