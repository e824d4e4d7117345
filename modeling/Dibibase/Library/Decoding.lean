import Dibibase.Library.Bytes

/-!
# Decoding byte strings

A decoder takes a value off the front of a byte string. `Decodes` is the rule by which decoders are
verified: whatever follows, the decoder takes exactly these bytes and returns the value.
-/

namespace Dibibase.Library

abbrev Decoder := StateT (List UInt8) Option

namespace Decoder

variable {α β : Type}

def fail : Decoder α := fun _ => none

def take (n : Nat) : Decoder (List UInt8) := fun bs =>
  if n ≤ bs.length then some (bs.take n, bs.drop n) else none

def byte : Decoder UInt8
  | [] => none
  | b :: bs => some (b, bs)

/-- A big-endian number of `n` bytes. -/
def beNat (n : Nat) : Decoder Nat := return beValue (← take n)

def replicate : Nat → Decoder α → Decoder (List α)
  | 0, _ => return []
  | n + 1, d => do
    let a ← d
    let as ← replicate n d
    return a :: as

end Decoder

def Decodes {α : Type} (d : Decoder α) (bs : List UInt8) (a : α) : Prop :=
  ∀ rest, d (bs ++ rest) = some (a, rest)

namespace Decodes

variable {α β : Type}

lemma pure (a : α) : Decodes (Pure.pure a) [] a := fun _ => rfl

lemma bind {d : Decoder α} {f : α → Decoder β} {as bs : List UInt8} {a : α} {c : β}
    (hd : Decodes d as a) (hf : Decodes (f a) bs c) : Decodes (d >>= f) (as ++ bs) c := by
  intro rest
  change (d (as ++ bs ++ rest)).bind (fun r => f r.1 r.2) = some (c, rest)
  rw [List.append_assoc, hd, Option.bind_some]
  exact hf rest

lemma map {d : Decoder α} {f : α → β} {as : List UInt8} {a : α} (hd : Decodes d as a) :
    Decodes (do return f (← d)) as (f a) := by
  have h := hd.bind (f := fun x => Pure.pure (f x)) (pure (f a))
  rwa [List.append_nil] at h

lemma take {n : Nat} {bs : List UInt8} (h : bs.length = n) : Decodes (Decoder.take n) bs bs := by
  intro rest
  rw [Decoder.take, if_pos (by rw [List.length_append]; omega), List.take_left' h, List.drop_left' h]

lemma byte (b : UInt8) : Decodes Decoder.byte [b] b := fun _ => rfl

lemma beNat {w n : Nat} (h : n < 256 ^ w) : Decodes (Decoder.beNat w) (beBytes w n) n := by
  have hmap := (take (length_beBytes w n)).map (f := beValue)
  rwa [beValue_beBytes, Nat.mod_eq_of_lt h] at hmap

/-- A decoder repeated for a list of values. -/
lemma replicate {d : Decoder β} {enc : α → List UInt8} {value : α → β} (as : List α)
    (h : ∀ a ∈ as, Decodes d (enc a) (value a)) :
    Decodes (Decoder.replicate as.length d) (as.flatMap enc) (as.map value) := by
  induction as with
  | nil => exact pure []
  | cons a as ih =>
    have hrest := (ih (fun b hb => h b (by simp [hb]))).map (f := fun rest => value a :: rest)
    exact (h a (by simp)).bind hrest

end Decodes

end Dibibase.Library
