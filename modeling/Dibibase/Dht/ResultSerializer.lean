import Dibibase.Catalog.Schema

/-!
# Results as text

A node sends the record that a statement has found as one string: for every value its text,
the number of its type and the length of its type, with commas between them and a bar behind.
-/

namespace Dibibase

namespace ResultSerializer

/-- A text, the number of a type and the length of a type. -/
def entryText (text : List UInt8) (type : DataType) : List UInt8 :=
  text ++ [44] ++ toDecimal type.id.toByte.toNat ++ [44] ++ toDecimal type.length.toNat

/-- What one value adds to the string, without the bar. -/
def entry (value : Data) : Except Exception (List UInt8) :=
  return entryText (← value.print) value.type

def serialize : Option Record → Except Exception (List UInt8)
  | some record => do
    let entries ← record.values.mapM entry
    return entries.flatMap (fun e => e ++ [124])
  | none => return []

end ResultSerializer

end Dibibase
