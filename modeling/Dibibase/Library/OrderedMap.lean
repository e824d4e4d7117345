import Mathlib.Data.List.Basic
import Mathlib.Data.Set.Function
import Dibibase.Library.Execution

/-!
# Ordered maps with a fallible comparator

A C++ `std::map` is kept as the list of its entries in iteration order. The comparator
may throw, so every operation that compares keys may throw too; an empty map compares
nothing and never throws. `OrdersOn cmp S` says that the comparator is a strict total
order on the keys of `S`, and there the operations are the ones of a finite function.
-/

namespace Dibibase.Library

namespace OrderedMap

variable {α β ε : Type}

/-- `std::map::find`. -/
def find (cmp : α → α → Except ε Bool) (k : α) : List (α × β) → Except ε (Option β)
  | [] => .ok none
  | (a, b) :: m => do
    if ← cmp a k then find cmp k m
    else if ← cmp k a then return none
    else return some b

/-- `std::map::insert`: an entry that is already there is kept. -/
def insert (cmp : α → α → Except ε Bool) (k : α) (v : β) :
    List (α × β) → Except ε (List (α × β))
  | [] => .ok [(k, v)]
  | (a, b) :: m => do
    if ← cmp a k then return (a, b) :: (← insert cmp k v m)
    else if ← cmp k a then return (k, v) :: (a, b) :: m
    else return (a, b) :: m

/-- `map[k] = v`: an entry that is already there gets the new value. -/
def assign (cmp : α → α → Except ε Bool) (k : α) (v : β) :
    List (α × β) → Except ε (List (α × β))
  | [] => .ok [(k, v)]
  | (a, b) :: m => do
    if ← cmp a k then return (a, b) :: (← assign cmp k v m)
    else if ← cmp k a then return (k, v) :: (a, b) :: m
    else return (a, v) :: m

end OrderedMap

/-- The comparator never throws on keys of `S` and orders them strictly and totally. -/
structure OrdersOn {α ε : Type} (cmp : α → α → Except ε Bool) (S : Set α) : Prop where
  total : ∀ a ∈ S, ∀ b ∈ S, cmp a b = .ok true ∨ cmp a b = .ok false
  irrefl : ∀ a ∈ S, cmp a a = .ok false
  trans : ∀ a ∈ S, ∀ b ∈ S, ∀ c ∈ S, cmp a b = .ok true → cmp b c = .ok true → cmp a c = .ok true
  connected : ∀ a ∈ S, ∀ b ∈ S, cmp a b = .ok false → cmp b a = .ok false → a = b

namespace OrdersOn

variable {α ε : Type} {cmp : α → α → Except ε Bool} {S : Set α} (h : OrdersOn cmp S)
include h

lemma asymm {a b : α} (ha : a ∈ S) (hb : b ∈ S) (hab : cmp a b = .ok true) :
    cmp b a = .ok false := by
  rcases h.total b hb a ha with hba | hba
  · have haa := h.trans a ha b hb a ha hab hba
    simp [h.irrefl a ha] at haa
  · exact hba

lemma ne {a b : α} (ha : a ∈ S) (hab : cmp a b = .ok true) : a ≠ b := by
  rintro rfl
  simp [h.irrefl a ha] at hab

lemma of_ne {a b : α} (ha : a ∈ S) (hb : b ∈ S) (hab : cmp a b = .ok false) (hne : a ≠ b) :
    cmp b a = .ok true := by
  rcases h.total b hb a ha with hba | hba
  · exact hba
  · exact absurd (h.connected a ha b hb hab hba) hne

end OrdersOn

/-- Keys compared by the negation of a total order on an injective measure of them, so
that the greatest comes first. -/
lemma OrdersOn.ofLe {α γ ε : Type} {cmp : α → α → Except ε Bool} {S : Set α} (key : α → γ)
    (le : γ → γ → Bool) (htotal : ∀ x y, le x y = true ∨ le y x = true)
    (hantisymm : ∀ x y, le x y = true → le y x = true → x = y)
    (htrans : ∀ x y z, le x y = true → le y z = true → le x z = true)
    (hinj : Set.InjOn key S) (hcmp : ∀ a ∈ S, ∀ b ∈ S, cmp a b = .ok (!le (key a) (key b))) :
    OrdersOn cmp S where
  total a ha b hb := by
    rw [hcmp a ha b hb]
    cases le (key a) (key b) <;> simp
  irrefl a ha := by
    have hrefl : le (key a) (key a) = true := by simpa using htotal (key a) (key a)
    simp [hcmp a ha a ha, hrefl]
  trans a ha b hb c hc hab hbc := by
    simp only [hcmp a ha b hb, hcmp b hb c hc, hcmp a ha c hc, Except.ok.injEq,
      Bool.not_eq_true'] at *
    by_contra hac
    have hba : le (key b) (key a) = true := by simpa [hab] using htotal (key a) (key b)
    have hbc' := htrans _ _ _ hba (by simpa using hac)
    simp [hbc] at hbc'
  connected a ha b hb hab hba := by
    simp only [hcmp a ha b hb, hcmp b hb a ha, Except.ok.injEq, Bool.not_eq_false'] at hab hba
    exact hinj ha hb (hantisymm _ _ hab hba)

namespace OrderedMap

variable {α β ε : Type}

/-- The entries stand in the order of the comparator, so no key occurs twice. -/
def Sorted (cmp : α → α → Except ε Bool) (m : List (α × β)) : Prop :=
  m.Pairwise (fun p q => cmp p.1 q.1 = .ok true)

/-- All keys of the map lie in `S`. -/
def KeysIn (S : Set α) (m : List (α × β)) : Prop := ∀ p ∈ m, p.1 ∈ S

variable {cmp : α → α → Except ε Bool} {S : Set α}

lemma KeysIn.tail {p : α × β} {m : List (α × β)} (hm : KeysIn S (p :: m)) : KeysIn S m :=
  fun q hq => hm q (List.mem_cons_of_mem p hq)

variable [DecidableEq α]

lemma lookup_eq_none_of_before (h : OrdersOn cmp S) {k : α} (m : List (α × β)) (hk : k ∈ S)
    (hb : ∀ p ∈ m, cmp k p.1 = .ok true) : m.lookup k = none := by
  rw [List.lookup_eq_none_iff]
  intro p hp
  exact bne_iff_ne.mpr (h.ne hk (hb p hp))

/-- Lookup by comparisons is lookup by equality. -/
theorem find_eq_lookup (h : OrdersOn cmp S) {k : α} (hk : k ∈ S) (m : List (α × β))
    (hm : KeysIn S m) (hs : Sorted cmp m) : find cmp k m = .ok (m.lookup k) := by
  induction m with
  | nil => rfl
  | cons p m ih =>
    obtain ⟨a, b⟩ := p
    have ha : a ∈ S := hm (a, b) (by simp)
    obtain ⟨hbefore, hs⟩ := List.pairwise_cons.mp hs
    rw [find]
    rcases h.total a ha k hk with hak | hak
    · have hne : (k == a) = false := by simpa using (h.ne ha hak).symm
      simp [hak, Bind.bind, Except.bind, ih hm.tail hs, List.lookup_cons, hne]
    · rcases h.total k hk a ha with hka | hka
      · have hne : (k == a) = false := by simpa using h.ne hk hka
        have hnone : m.lookup k = none := lookup_eq_none_of_before h m hk (fun p hp =>
          h.trans k hk a ha p.1 (hm.tail p hp) hka (hbefore p hp))
        simp [hak, hka, Bind.bind, Except.bind, Pure.pure, Except.pure, List.lookup_cons, hne, hnone]
      · obtain rfl := h.connected a ha k hk hak hka
        simp [hak, Bind.bind, Except.bind, Pure.pure, Except.pure]

/-- Inserting a key that the map already has changes nothing. -/
theorem insert_of_lookup_eq_some (h : OrdersOn cmp S) {k : α} (hk : k ∈ S) (v w : β)
    (m : List (α × β)) (hm : KeysIn S m) (hs : Sorted cmp m) (hl : m.lookup k = some w) :
    insert cmp k v m = .ok m := by
  induction m with
  | nil => simp at hl
  | cons p m ih =>
    obtain ⟨a, b⟩ := p
    have ha : a ∈ S := hm (a, b) (by simp)
    obtain ⟨hbefore, hs⟩ := List.pairwise_cons.mp hs
    rw [insert]
    rcases h.total a ha k hk with hak | hak
    · have hne : (k == a) = false := by simpa using (h.ne ha hak).symm
      rw [List.lookup_cons, hne] at hl
      simp [hak, Bind.bind, Except.bind, Pure.pure, Except.pure, ih hm.tail hs hl]
    · rcases h.total k hk a ha with hka | hka
      · have hnone := lookup_eq_none_of_before h ((a, b) :: m) hk (by
          intro p hp
          rcases List.mem_cons.mp hp with rfl | hp
          · exact hka
          · exact h.trans k hk a ha p.1 (hm.tail p hp) hka (hbefore p hp))
        rw [hnone] at hl
        contradiction
      · simp [hak, hka, Bind.bind, Except.bind, Pure.pure, Except.pure]

/-- Inserting a new key puts its entry at its place and keeps the order. -/
theorem insert_of_lookup_eq_none (h : OrdersOn cmp S) {k : α} (hk : k ∈ S) (v : β)
    (m : List (α × β)) (hm : KeysIn S m) (hs : Sorted cmp m) (hl : m.lookup k = none) :
    ∃ l r, m = l ++ r ∧ insert cmp k v m = .ok (l ++ (k, v) :: r) ∧
      Sorted cmp (l ++ (k, v) :: r) := by
  induction m with
  | nil => exact ⟨[], [], rfl, rfl, by simp [Sorted]⟩
  | cons p m ih =>
    obtain ⟨a, b⟩ := p
    have ha : a ∈ S := hm (a, b) (by simp)
    obtain ⟨hbefore, hs'⟩ := List.pairwise_cons.mp hs
    have hne : k ≠ a := by
      rintro rfl
      simp at hl
    rw [insert]
    rcases h.total a ha k hk with hak | hak
    · have hbeq : (k == a) = false := by simpa using hne
      rw [List.lookup_cons, hbeq] at hl
      obtain ⟨l, r, rfl, hins, hsorted⟩ := ih hm.tail hs' hl
      refine ⟨(a, b) :: l, r, rfl, ?_, List.pairwise_cons.mpr ⟨?_, hsorted⟩⟩
      · simp [hak, Bind.bind, Except.bind, Pure.pure, Except.pure, hins]
      · intro p hp
        change p ∈ l ++ (k, v) :: r at hp
        simp only [List.mem_append, List.mem_cons] at hp
        rcases hp with hp | rfl | hp
        · exact hbefore p (by simp [hp])
        · exact hak
        · exact hbefore p (by simp [hp])
    · have hka := h.of_ne ha hk hak hne.symm
      refine ⟨[], (a, b) :: m, rfl, ?_, List.pairwise_cons.mpr ⟨?_, hs⟩⟩
      · simp [hak, hka, Bind.bind, Except.bind, Pure.pure, Except.pure]
      · intro p hp
        rcases List.mem_cons.mp hp with rfl | hp
        · exact hka
        · exact h.trans k hk a ha p.1 (hm.tail p hp) hka (hbefore p hp)

omit [DecidableEq α] in
/-- Whatever the comparator does, an operation that returns has placed the key after an entry, before
it or on it. -/
lemma place_eq_ok {γ : Type} {a k : α} {after before on : Except ε γ} {c : γ}
    (h : (do if ← cmp a k then after else if ← cmp k a then before else on) = .ok c) :
    (cmp a k = .ok true ∧ after = .ok c) ∨
      (cmp a k = .ok false ∧ cmp k a = .ok true ∧ before = .ok c) ∨
        cmp a k = .ok false ∧ cmp k a = .ok false ∧ on = .ok c := by
  obtain ⟨afterEntry, hak, h⟩ := except_bind_eq_ok h
  cases afterEntry with
  | true => exact .inl ⟨hak, h⟩
  | false =>
    obtain ⟨beforeEntry, hka, h⟩ := except_bind_eq_ok h
    cases beforeEntry with
    | true => exact .inr (.inl ⟨hak, hka, h⟩)
    | false => exact .inr (.inr ⟨hak, hka, h⟩)

omit [DecidableEq α] in
/-- Whatever the comparator does, an insertion adds the entry somewhere or changes nothing. -/
lemma insert_cases {k : α} {v : β} {m m' : List (α × β)} (h : insert cmp k v m = .ok m') :
    m' = m ∨ ∃ l r, m = l ++ r ∧ m' = l ++ (k, v) :: r := by
  induction m generalizing m' with
  | nil =>
    cases h
    exact .inr ⟨[], [], rfl, rfl⟩
  | cons p m ih =>
    obtain ⟨a, b⟩ := p
    rcases place_eq_ok h with ⟨-, hrest⟩ | ⟨-, -, hbefore⟩ | ⟨-, -, hon⟩
    · obtain ⟨rest, hinsert, hcons⟩ := except_bind_eq_ok hrest
      cases hcons
      rcases ih hinsert with rfl | ⟨l, r, rfl, rfl⟩
      · exact .inl rfl
      · exact .inr ⟨(a, b) :: l, r, rfl, rfl⟩
    · cases hbefore
      exact .inr ⟨[], (a, b) :: m, rfl, rfl⟩
    · cases hon
      exact .inl rfl

omit [DecidableEq α] in
/-- Whatever the comparator does, an entry that is found lies neither before nor after the key. -/
lemma find_eq_some_bounds {k : α} {v : β} {m : List (α × β)} (h : find cmp k m = .ok (some v)) :
    ∃ a, (a, v) ∈ m ∧ cmp a k = .ok false ∧ cmp k a = .ok false := by
  induction m with
  | nil => cases h
  | cons p m ih =>
    obtain ⟨a, b⟩ := p
    rcases place_eq_ok h with ⟨-, hrest⟩ | ⟨-, -, hbefore⟩ | ⟨hak, hka, hon⟩
    · obtain ⟨a', hmem, hbounds⟩ := ih hrest
      exact ⟨a', List.mem_cons_of_mem _ hmem, hbounds⟩
    · cases hbefore
    · cases hon
      exact ⟨a, List.mem_cons_self, hak, hka⟩

omit [DecidableEq α] in
/-- Assigning a key that comes after all others appends its entry. -/
theorem assign_of_after {k : α} (v : β) (m : List (α × β))
    (hb : ∀ p ∈ m, cmp p.1 k = .ok true) : assign cmp k v m = .ok (m ++ [(k, v)]) := by
  induction m with
  | nil => rfl
  | cons p m ih =>
    obtain ⟨a, b⟩ := p
    have hak : cmp a k = .ok true := hb (a, b) (by simp)
    have htail := ih (fun p hp => hb p (by simp [hp]))
    simp [assign, hak, Bind.bind, Except.bind, Pure.pure, Except.pure, htail]

omit [DecidableEq α] in
/-- Assigning keeps the order and adds the key if it is new. -/
theorem assign_keys (h : OrdersOn cmp S) {k : α} (hk : k ∈ S) (v : β) (m : List (α × β))
    (hm : KeysIn S m) (hs : Sorted cmp m) :
    ∃ m', assign cmp k v m = .ok m' ∧ Sorted cmp m' ∧
      ∀ a, a ∈ m'.map Prod.fst ↔ a = k ∨ a ∈ m.map Prod.fst := by
  induction m with
  | nil =>
    refine ⟨[(k, v)], rfl, by simp [Sorted], ?_⟩
    simp
  | cons p m ih =>
    obtain ⟨a, b⟩ := p
    have ha : a ∈ S := hm (a, b) (by simp)
    obtain ⟨hbefore, hs'⟩ := List.pairwise_cons.mp hs
    rw [assign]
    rcases h.total a ha k hk with hak | hak
    · obtain ⟨m', hassign, hsorted, hkeys⟩ := ih hm.tail hs'
      refine ⟨(a, b) :: m', ?_, List.pairwise_cons.mpr ⟨?_, hsorted⟩, ?_⟩
      · simp [hak, hassign, Bind.bind, Except.bind, Pure.pure, Except.pure]
      · intro q hq
        rcases (hkeys q.1).mp (List.mem_map_of_mem hq) with hq | hq
        · rw [hq]
          exact hak
        · obtain ⟨r, hr, hrq⟩ := List.mem_map.mp hq
          rw [← hrq]
          exact hbefore r hr
      · intro c
        rw [List.map_cons, List.map_cons, List.mem_cons, List.mem_cons, hkeys]
        exact or_left_comm
    · rcases h.total k hk a ha with hka | hka
      · refine ⟨(k, v) :: (a, b) :: m, ?_, List.pairwise_cons.mpr ⟨?_, hs⟩, ?_⟩
        · simp [hak, hka, Bind.bind, Except.bind, Pure.pure, Except.pure]
        · intro q hq
          rcases List.mem_cons.mp hq with rfl | hq
          · exact hka
          · exact h.trans k hk a ha q.1 (hm.tail q hq) hka (hbefore q hq)
        · intro c
          simp
      · obtain rfl := h.connected a ha k hk hak hka
        refine ⟨(a, v) :: m, ?_, List.pairwise_cons.mpr ⟨hbefore, hs'⟩, ?_⟩
        · simp [hak, Bind.bind, Except.bind, Pure.pure, Except.pure]
        · intro c
          simp

omit [DecidableEq α] in
/-- Whatever the comparator does, an assignment adds the entry somewhere or replaces a value. -/
lemma assign_cases {k : α} {v : β} {m m' : List (α × β)} (h : assign cmp k v m = .ok m') :
    (∃ l r, m = l ++ r ∧ m' = l ++ (k, v) :: r) ∨
      ∃ l a b r, m = l ++ (a, b) :: r ∧ m' = l ++ (a, v) :: r := by
  induction m generalizing m' with
  | nil =>
    cases h
    exact .inl ⟨[], [], rfl, rfl⟩
  | cons p m ih =>
    obtain ⟨a, b⟩ := p
    rcases place_eq_ok h with ⟨-, hrest⟩ | ⟨-, -, hbefore⟩ | ⟨-, -, hon⟩
    · obtain ⟨rest, hassign, hcons⟩ := except_bind_eq_ok hrest
      cases hcons
      rcases ih hassign with ⟨l, r, rfl, rfl⟩ | ⟨l, a', b', r, rfl, rfl⟩
      · exact .inl ⟨(a, b) :: l, r, rfl, rfl⟩
      · exact .inr ⟨(a, b) :: l, a', b', r, rfl, rfl⟩
    · cases hbefore
      exact .inl ⟨[], (a, b) :: m, rfl, rfl⟩
    · cases hon
      exact .inr ⟨[], a, b, m, rfl, rfl⟩

omit [DecidableEq α] in
/-- Whatever the comparator does, an assignment adds no key but its own, and at most once. -/
lemma assign_bounds {k : α} {v : β} {m m' : List (α × β)} (h : assign cmp k v m = .ok m') :
    m'.length ≤ m.length + 1 ∧ ∀ p ∈ m', p.1 = k ∨ p.1 ∈ m.map Prod.fst := by
  rcases assign_cases h with ⟨l, r, rfl, rfl⟩ | ⟨l, a, b, r, rfl, rfl⟩
  · refine ⟨by simp [Nat.add_assoc], ?_⟩
    intro p hp
    rcases List.mem_append.mp hp with hp | hp
    · exact .inr (List.mem_map_of_mem (List.mem_append_left _ hp))
    · rcases List.mem_cons.mp hp with rfl | hp
      · exact .inl rfl
      · exact .inr (List.mem_map_of_mem (List.mem_append_right _ hp))
  · refine ⟨by simp, ?_⟩
    have hkeys : (l ++ (a, v) :: r).map Prod.fst = (l ++ (a, b) :: r).map Prod.fst := by simp
    intro p hp
    rw [← hkeys]
    exact .inr (List.mem_map_of_mem hp)

omit [DecidableEq α] in
lemma KeysIn.of_keys {k : α} (hk : k ∈ S) {m m' : List (α × β)} (hm : KeysIn S m)
    (hkeys : ∀ a, a ∈ m'.map Prod.fst ↔ a = k ∨ a ∈ m.map Prod.fst) : KeysIn S m' := by
  intro p hp
  rcases (hkeys p.1).mp (List.mem_map_of_mem hp) with heq | hmem
  · rw [heq]
    exact hk
  · obtain ⟨q, hq, hqp⟩ := List.mem_map.mp hmem
    rw [← hqp]
    exact hm q hq

omit [DecidableEq α] in
/-- A sorted map has no key twice. -/
lemma nodup_keys (h : OrdersOn cmp S) {m : List (α × β)} (hm : KeysIn S m) (hs : Sorted cmp m) :
    (m.map Prod.fst).Nodup := by
  apply List.pairwise_map.mpr
  apply List.Pairwise.imp_of_mem _ hs
  intro p q hp _ hpq
  exact h.ne (hm p hp) hpq

omit [DecidableEq α] in
variable (cmp) in
/-- Inserting a key that comes after all others appends its entry. -/
theorem insert_of_after {k : α} (v : β) (m : List (α × β))
    (hb : ∀ p ∈ m, cmp p.1 k = .ok true) : insert cmp k v m = .ok (m ++ [(k, v)]) := by
  induction m with
  | nil => rfl
  | cons p m ih =>
    obtain ⟨a, b⟩ := p
    have hak : cmp a k = .ok true := hb (a, b) (by simp)
    have htail := ih (fun p hp => hb p (by simp [hp]))
    simp [insert, hak, Bind.bind, Except.bind, Pure.pure, Except.pure, htail]

/-- In a sorted map an entry is what lookup finds under its key. -/
lemma lookup_of_mem (h : OrdersOn cmp S) {k : α} {v : β} (m : List (α × β)) (hm : KeysIn S m)
    (hs : Sorted cmp m) (hmem : (k, v) ∈ m) : m.lookup k = some v := by
  induction m with
  | nil => simp at hmem
  | cons p m ih =>
    obtain ⟨a, b⟩ := p
    obtain ⟨hbefore, hs⟩ := List.pairwise_cons.mp hs
    rcases List.mem_cons.mp hmem with heq | hmem
    · obtain ⟨rfl, rfl⟩ := Prod.mk.inj heq
      simp
    · have hne : (k == a) = false := by
        simpa using (h.ne (hm (a, b) (by simp)) (hbefore (k, v) hmem)).symm
      rw [List.lookup_cons, hne]
      exact ih hm.tail hs hmem

lemma lookup_eq_none_of_notMem {k : α} {m : List (α × β)} (hk : k ∉ m.map Prod.fst) :
    m.lookup k = none := by
  rw [List.lookup_eq_none_iff]
  intro p hp
  exact bne_iff_ne.mpr (fun heq => hk (heq ▸ List.mem_map_of_mem hp))

/-- A key of the map is found. -/
lemma find_of_mem (h : OrdersOn cmp S) {k : α} {v : β} {m : List (α × β)} (hm : KeysIn S m)
    (hs : Sorted cmp m) (hmem : (k, v) ∈ m) : find cmp k m = .ok (some v) := by
  rw [find_eq_lookup h (hm _ hmem) m hm hs, lookup_of_mem h m hm hs hmem]

/-- No other key is. -/
lemma find_of_notMem (h : OrdersOn cmp S) {k : α} {m : List (α × β)} (hk : k ∈ S)
    (hm : KeysIn S m) (hs : Sorted cmp m) (hnot : k ∉ m.map Prod.fst) :
    find cmp k m = .ok none := by
  rw [find_eq_lookup h hk m hm hs, lookup_eq_none_of_notMem hnot]

end OrderedMap

namespace OrderedMap
variable {α β ε : Type} {cmp : α → α → Except ε Bool} {S : Set α}

/-! ### Finding after a change

These hold of any list of entries, in order or not. -/

section Changes

variable (h : OrdersOn cmp S) {k j : α} (hk : k ∈ S)
include h hk

lemma find_total (m : List (α × β)) (hm : KeysIn S m) : ∃ o, find cmp k m = .ok o := by
  induction m with
  | nil => exact ⟨none, rfl⟩
  | cons p m ih =>
    obtain ⟨a, b⟩ := p
    have ha : a ∈ S := hm _ List.mem_cons_self
    rw [find]
    rcases h.total a ha k hk with hak | hak
    · obtain ⟨o, ho⟩ := ih hm.tail
      exact ⟨o, by simp [hak, ho, Bind.bind, Except.bind]⟩
    · rcases h.total k hk a ha with hka | hka
      · exact ⟨none, by simp [hak, hka, Bind.bind, Except.bind, Pure.pure, Except.pure]⟩
      · exact ⟨some b, by simp [hak, hka, Bind.bind, Except.bind, Pure.pure, Except.pure]⟩

/-- After an insertion the key has its old value, or the new one if it had none. -/
lemma find_insert (v : β) (m : List (α × β)) (hm : KeysIn S m) :
    ∃ m' o, insert cmp k v m = .ok m' ∧ find cmp k m = .ok o ∧
      find cmp k m' = .ok (some (o.getD v)) := by
  have hkk := h.irrefl k hk
  induction m with
  | nil => exact ⟨_, none, rfl, rfl, by simp [find, hkk, Bind.bind, Except.bind, Pure.pure, Except.pure]⟩
  | cons p m ih =>
    obtain ⟨a, b⟩ := p
    have ha : a ∈ S := hm _ List.mem_cons_self
    rw [insert, find]
    rcases h.total a ha k hk with hak | hak
    · obtain ⟨m', o, hins, ho, hfind⟩ := ih hm.tail
      refine ⟨(a, b) :: m', o, ?_, ?_, ?_⟩
      · simp [hak, hins, Bind.bind, Except.bind, Pure.pure, Except.pure]
      · simp [hak, ho, Bind.bind, Except.bind]
      · simp [find, hak, hfind, Bind.bind, Except.bind]
    · rcases h.total k hk a ha with hka | hka
      · refine ⟨(k, v) :: (a, b) :: m, none, ?_, ?_, ?_⟩ <;>
          simp [find, hak, hka, hkk, Bind.bind, Except.bind, Pure.pure, Except.pure]
      · refine ⟨(a, b) :: m, some b, ?_, ?_, ?_⟩ <;>
          simp [find, hak, hka, Bind.bind, Except.bind, Pure.pure, Except.pure]

/-- An insertion leaves the other keys alone. -/
lemma find_insert_of_ne (hj : j ∈ S) (hne : j ≠ k) (v : β) (m m' : List (α × β))
    (hm : KeysIn S m) (hins : insert cmp k v m = .ok m') : find cmp j m' = find cmp j m := by
  induction m generalizing m' with
  | nil =>
    cases hins
    rcases h.total k hk j hj with hkj | hkj
    · simp [find, hkj, Bind.bind, Except.bind]
    · have hjk := h.of_ne hk hj hkj hne.symm
      simp [find, hkj, hjk, Bind.bind, Except.bind, Pure.pure, Except.pure]
  | cons p m ih =>
    obtain ⟨a, b⟩ := p
    have ha : a ∈ S := hm _ List.mem_cons_self
    rw [insert] at hins
    rcases h.total a ha k hk with hak | hak
    · obtain ⟨rest, -, hrest, -⟩ := find_insert h hk v m hm.tail
      simp only [hak, hrest, Bind.bind, Except.bind, if_true, Pure.pure, Except.pure,
        Except.ok.injEq] at hins
      subst hins
      rw [find, find, ih rest hm.tail hrest]
    · rcases h.total k hk a ha with hka | hka
      · simp only [hak, hka, Bind.bind, Except.bind, Bool.false_eq_true, if_false, if_true,
          Pure.pure, Except.pure, Except.ok.injEq] at hins
        subst hins
        rcases h.total k hk j hj with hkj | hkj
        · conv_lhs => rw [find]
          simp [hkj, Bind.bind, Except.bind]
        · have hjk := h.of_ne hk hj hkj hne.symm
          have hja := h.trans j hj k hk a ha hjk hka
          have haj := h.asymm hj ha hja
          simp [find, hkj, hjk, hja, haj, Bind.bind, Except.bind, Pure.pure, Except.pure]
      · simp only [hak, hka, Bind.bind, Except.bind, Bool.false_eq_true, if_false, Pure.pure,
          Except.pure, Except.ok.injEq] at hins
        rw [hins]

/-- After an assignment the key has the assigned value. -/
lemma find_assign (v : β) (m : List (α × β)) (hm : KeysIn S m) :
    ∃ m', assign cmp k v m = .ok m' ∧ find cmp k m' = .ok (some v) := by
  have hkk := h.irrefl k hk
  induction m with
  | nil => exact ⟨_, rfl, by simp [find, hkk, Bind.bind, Except.bind, Pure.pure, Except.pure]⟩
  | cons p m ih =>
    obtain ⟨a, b⟩ := p
    have ha : a ∈ S := hm _ List.mem_cons_self
    rw [assign]
    rcases h.total a ha k hk with hak | hak
    · obtain ⟨m', hassign, hfind⟩ := ih hm.tail
      refine ⟨(a, b) :: m', ?_, ?_⟩
      · simp [hak, hassign, Bind.bind, Except.bind, Pure.pure, Except.pure]
      · simp [find, hak, hfind, Bind.bind, Except.bind]
    · rcases h.total k hk a ha with hka | hka
      · refine ⟨(k, v) :: (a, b) :: m, ?_, ?_⟩ <;>
          simp [find, hak, hka, hkk, Bind.bind, Except.bind, Pure.pure, Except.pure]
      · refine ⟨(a, v) :: m, ?_, ?_⟩ <;>
          simp [find, hak, hka, Bind.bind, Except.bind, Pure.pure, Except.pure]

/-- Where a key is found, a new value in the place of its old one is found. -/
lemma find_replace [DecidableEq α] {v w : β} (m : List (α × β)) (hm : KeysIn S m)
    (hfind : find cmp k m = .ok (some v)) :
    find cmp k (m.map (fun p => if p.1 = k then (k, w) else p)) = .ok (some w) := by
  induction m with
  | nil => cases hfind
  | cons p m ih =>
    obtain ⟨a, b⟩ := p
    have ha : a ∈ S := hm _ List.mem_cons_self
    rw [find] at hfind
    rw [List.map_cons]
    rcases h.total a ha k hk with hak | hak
    · have hne : a ≠ k := h.ne ha hak
      have hrest := ih hm.tail (by simpa [hak, Bind.bind, Except.bind] using hfind)
      simp [find, hne, hak, hrest, Bind.bind, Except.bind]
    · rcases h.total k hk a ha with hka | hka
      · simp [hak, hka, Bind.bind, Except.bind, Pure.pure, Except.pure] at hfind
      · have heq : a = k := h.connected a ha k hk hak hka
        simp [find, heq, h.irrefl k hk, Bind.bind, Except.bind, Pure.pure, Except.pure]

/-- A new value in the place of an old one leaves the other keys alone. -/
lemma find_replace_of_ne [DecidableEq α] (hj : j ∈ S) (hne : j ≠ k) (w : β) (m : List (α × β))
    (hm : KeysIn S m) :
    find cmp j (m.map (fun p => if p.1 = k then (k, w) else p)) = find cmp j m := by
  induction m with
  | nil => rfl
  | cons p m ih =>
    obtain ⟨a, b⟩ := p
    have ha : a ∈ S := hm _ List.mem_cons_self
    have hrest := ih hm.tail
    rw [List.map_cons]
    by_cases hak : a = k
    · subst hak
      rcases h.total a ha j hj with haj | haj
      · simp [find, haj, hrest, Bind.bind, Except.bind]
      · have hja := h.of_ne ha hj haj hne.symm
        simp [find, haj, hja, Bind.bind, Except.bind, Pure.pure, Except.pure]
    · rw [if_neg hak, find, find, hrest]

end Changes

lemma place_returns {γ : Type} {a k : α} {after before on : Except ε γ}
    (hcmp : ∃ b c, cmp a k = .ok b ∧ cmp k a = .ok c) (hafter : ∃ c, after = .ok c)
    (hbefore : ∃ c, before = .ok c) (hon : ∃ c, on = .ok c) :
    ∃ c, (do if ← cmp a k then after else if ← cmp k a then before else on) = .ok c := by
  obtain ⟨b, c, hak, hka⟩ := hcmp
  rw [hak]
  cases b with
  | true => exact hafter
  | false =>
    simp only [Bind.bind, Except.bind, hka]
    cases c with
    | true => exact hbefore
    | false => exact hon

lemma find_returns {k : α} {m : List (α × β)}
    (h : ∀ p ∈ m, ∃ b c, cmp p.1 k = .ok b ∧ cmp k p.1 = .ok c) : ∃ found, find cmp k m = .ok found := by
  induction m with
  | nil => exact ⟨_, rfl⟩
  | cons p m ih =>
    exact place_returns (h p List.mem_cons_self) (ih (fun q hq => h q (List.mem_cons_of_mem p hq)))
      ⟨_, rfl⟩ ⟨_, rfl⟩

lemma find_of_error {k : α} {e : ε} {p : α × β} (m : List (α × β)) (h : cmp p.1 k = .error e) :
    find cmp k (p :: m) = .error e := by
  rw [find, h]
  rfl

end OrderedMap

end Dibibase.Library
