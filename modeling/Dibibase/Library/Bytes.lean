import Mathlib.Data.UInt
import Mathlib.Tactic.Ring
import Mathlib.Tactic.NormNum

/-!
# Byte strings

`leBytes w n` is the image that `memcpy` takes of a `w`-byte unsigned integer on a
little-endian machine, and `leValue` is the integer such an image holds. `stringLe` is the
order of `std::string`: bytes compare as unsigned numbers, and a proper prefix comes first.
-/

namespace Dibibase.Library

/-- A natural number is cut to a byte as it is as an integer. -/
lemma ofInt_natCast (n : Nat) : UInt8.ofInt n = UInt8.ofNat n := by
  apply UInt8.toNat_inj.mp
  have hmod : ((n : Int) % 256).toNat = n % 256 := by omega
  simp [UInt8.ofInt, hmod]

def leBytes : Nat → Nat → List UInt8
  | 0, _ => []
  | w + 1, n => UInt8.ofNat n :: leBytes w (n / 256)

def leValue : List UInt8 → Nat
  | [] => 0
  | b :: bs => b.toNat + 256 * leValue bs

@[simp] lemma length_leBytes (w n : Nat) : (leBytes w n).length = w := by
  induction w generalizing n with
  | zero => rfl
  | succ w ih => simp [leBytes, ih]

lemma leValue_leBytes (w n : Nat) : leValue (leBytes w n) = n % 256 ^ w := by
  induction w generalizing n with
  | zero => simp [leBytes, leValue, Nat.mod_one]
  | succ w ih =>
    rw [leBytes, leValue, ih, pow_succ', Nat.mod_mul]
    simp

lemma leValue_lt (bs : List UInt8) : leValue bs < 256 ^ bs.length := by
  induction bs with
  | nil => simp [leValue]
  | cons b bs ih =>
    have hb : b.toNat < 256 := b.toNat_lt
    rw [leValue, List.length_cons, pow_succ']
    omega

lemma leBytes_leValue (bs : List UInt8) : leBytes bs.length (leValue bs) = bs := by
  induction bs with
  | nil => rfl
  | cons b bs ih =>
    have hb : b.toNat < 256 := b.toNat_lt
    have hdiv : (b.toNat + 256 * leValue bs) / 256 = leValue bs := by omega
    have hhead : UInt8.ofNat (b.toNat + 256 * leValue bs) = b := by
      apply UInt8.toNat.inj
      simp only [UInt8.toNat_ofNat']
      omega
    rw [List.length_cons, leBytes, leValue, hdiv, ih, hhead]

/-- A word of as many bytes. -/
lemma leBytes_ofNat {w n : Nat} (hw : w = 8 * n) {bs : List UInt8} (h : bs.length = n) :
    leBytes n (BitVec.ofNat w (leValue bs)).toNat = bs := by
  subst h hw
  have hlt := leValue_lt bs
  have hpow : (256 : Nat) ^ bs.length = 2 ^ (8 * bs.length) := by
    rw [pow_mul]
    norm_num
  rw [BitVec.toNat_ofNat, Nat.mod_eq_of_lt (by omega), leBytes_leValue]

lemma leBytes_add (v w n : Nat) : leBytes (v + w) n = leBytes v n ++ leBytes w (n / 256 ^ v) := by
  induction v generalizing n with
  | zero => simp [leBytes]
  | succ v ih =>
    rw [Nat.add_right_comm, leBytes, leBytes, ih, pow_succ', Nat.div_div_eq_div_mul]
    rfl

lemma leValue_replicate_zero (n : Nat) : leValue (List.replicate n 0) = 0 := by
  induction n with
  | zero => rfl
  | succ n ih => simp [List.replicate_succ, leValue, ih]

lemma leValue_append (as bs : List UInt8) :
    leValue (as ++ bs) = leValue as + 256 ^ as.length * leValue bs := by
  induction as with
  | nil => simp [leValue]
  | cons a as ih =>
    rw [List.cons_append, leValue, leValue, ih, List.length_cons, pow_succ']
    ring

/-- The image of a `w`-byte integer on a big-endian machine. -/
def beBytes (w n : Nat) : List UInt8 := (leBytes w n).reverse

/-- The integer that such an image holds. -/
def beValue (bs : List UInt8) : Nat := leValue bs.reverse

@[simp] lemma length_beBytes (w n : Nat) : (beBytes w n).length = w := by simp [beBytes]

lemma beValue_beBytes (w n : Nat) : beValue (beBytes w n) = n % 256 ^ w := by
  rw [beValue, beBytes, List.reverse_reverse, leValue_leBytes]

lemma beBytes_beValue (bs : List UInt8) : beBytes bs.length (beValue bs) = bs := by
  have hreverse := leBytes_leValue bs.reverse
  rw [List.length_reverse] at hreverse
  rw [beBytes, beValue, hreverse, List.reverse_reverse]

def stringLe : List UInt8 → List UInt8 → Bool
  | [], _ => true
  | _ :: _, [] => false
  | a :: as, b :: bs => decide (a.toNat < b.toNat) || (decide (a.toNat = b.toNat) && stringLe as bs)

lemma stringLe_total (as bs : List UInt8) : stringLe as bs = true ∨ stringLe bs as = true := by
  induction as generalizing bs with
  | nil => exact .inl rfl
  | cons a as ih =>
    cases bs with
    | nil => exact .inr rfl
    | cons b bs =>
      simp only [stringLe, Bool.or_eq_true, Bool.and_eq_true, decide_eq_true_eq]
      rcases Nat.lt_trichotomy a.toNat b.toNat with hab | hab | hab
      · exact .inl (.inl hab)
      · exact (ih bs).imp (fun h => .inr ⟨hab, h⟩) (fun h => .inr ⟨hab.symm, h⟩)
      · exact .inr (.inl hab)

lemma stringLe_antisymm (as bs : List UInt8) (h : stringLe as bs = true)
    (h' : stringLe bs as = true) : as = bs := by
  induction as generalizing bs with
  | nil =>
    cases bs with
    | nil => rfl
    | cons b bs => simp [stringLe] at h'
  | cons a as ih =>
    cases bs with
    | nil => simp [stringLe] at h
    | cons b bs =>
      simp only [stringLe, Bool.or_eq_true, Bool.and_eq_true, decide_eq_true_eq] at h h'
      have hab : a.toNat = b.toNat := by omega
      rw [hab] at h h'
      rw [UInt8.toNat.inj hab, ih bs (by simpa using h) (by simpa using h')]

lemma stringLe_trans (as bs cs : List UInt8) (h : stringLe as bs = true)
    (h' : stringLe bs cs = true) : stringLe as cs = true := by
  induction as generalizing bs cs with
  | nil => rfl
  | cons a as ih =>
    cases bs with
    | nil => simp [stringLe] at h
    | cons b bs =>
      cases cs with
      | nil => simp [stringLe] at h'
      | cons c cs =>
        simp only [stringLe, Bool.or_eq_true, Bool.and_eq_true, decide_eq_true_eq] at h h' ⊢
        rcases h with h | ⟨hab, h⟩
        · left
          omega
        · rcases h' with h' | ⟨hbc, h'⟩
          · left
            omega
          · exact .inr ⟨by omega, ih bs cs h h'⟩

/-! ### Pieces of one length

A file that is a sequence of pieces of one length serves a read of any piece. -/

lemma length_flatMap_of_uniform {α β : Type} {f : α → List β} {n : Nat} (xs : List α)
    (hf : ∀ x ∈ xs, (f x).length = n) : (xs.flatMap f).length = xs.length * n := by
  rw [List.length_flatMap, List.map_congr_left hf]
  simp

lemma length_flatMap_le {α β : Type} {f : α → List β} {n : Nat} (xs : List α)
    (h : ∀ x ∈ xs, (f x).length ≤ n) : (xs.flatMap f).length ≤ xs.length * n := by
  induction xs with
  | nil => simp
  | cons x xs ih =>
    have hx := h x (by simp)
    have hxs := ih (fun y hy => h y (by simp [hy]))
    rw [List.flatMap_cons, List.length_append, List.length_cons, Nat.succ_mul]
    omega

lemma take_drop_flatMap {α β : Type} {f : α → List β} {n : Nat} (xs : List α)
    (hf : ∀ x ∈ xs, (f x).length = n) {i : Nat} {a : α} (hi : xs[i]? = some a) (tail : List β) :
    ((xs.flatMap f ++ tail).drop (i * n)).take n = f a := by
  induction xs generalizing i with
  | nil => simp at hi
  | cons x xs ih =>
    have hx : (f x).length = n := hf x (by simp)
    cases i with
    | zero =>
      obtain rfl : x = a := by simpa using hi
      simp [← hx]
    | succ i =>
      have hdrop : (i + 1) * n = (f x).length + i * n := by
        rw [hx, Nat.add_mul]
        omega
      rw [hdrop, List.flatMap_cons, List.append_assoc, List.drop_length_add_append]
      exact ih (fun y hy => hf y (by simp [hy])) (by simpa using hi)

end Dibibase.Library
