import Mathlib.Algebra.Divisibility.Basic
import Mathlib.Control.Monad.Basic
import Mathlib.Data.Finmap
import Mathlib.Data.Finset.Card
import Mathlib.Order.Lattice.Nat

/-!
# Memory and ownership

Programs that allocate, load, store and free blocks of a memory, and a logic for them in which an
assertion is about a part of the memory. The product of two assertions holds of a part that splits
into one for each. With it assertions are a commutative monoid, and a program that is right for its
own part leaves the rest of any memory alone. A program that goes wrong satisfies no triple.
-/

namespace Memory

/-- The allocated blocks, at their addresses. -/
abbrev Store (β : Type) := Finmap fun _ : Nat => β

/-- How a program goes wrong: it loads, stores or frees at an address that has no block, it uses a
value that is not there, nothing catches what it throws, or it does not end. -/
inductive Wrong where
  | access (address : Nat)
  | undefined
  | uncaught
  | endless
  deriving DecidableEq, Repr

abbrev Program (β : Type) := StateT (Store β) (Except Wrong)

/-- A way to choose the address of a new block, which is none that is in use and not the null
address. -/
structure Allocator (β : Type) where
  address : Store β → Nat
  fresh : ∀ m, address m ∉ m
  pos : ∀ m, 0 < address m

/-- The address after the last one in use. -/
def Allocator.next (β : Type) : Allocator β where
  address m := m.keys.sup id + 1
  fresh m hmem := by
    have hle : id (m.keys.sup id + 1) ≤ m.keys.sup id := Finset.le_sup (Finmap.mem_keys.mpr hmem)
    exact Nat.not_succ_le_self _ hle
  pos _ := Nat.succ_pos _

variable {β α γ : Type}

/-- The rest of a program runs in what its beginning leaves. -/
theorem bind_of_ok {c : Program β α} {f : α → Program β γ} {m m' : Store β} {x : α}
    (h : c m = .ok (x, m')) : (c >>= f) m = f x m' := by
  show (c m).bind _ = _
  rw [h]
  rfl

/-- A memory with one block. -/
def single (a : Nat) (b : β) : Store β := Finmap.singleton a b

theorem mem_single {a x : Nat} {b : β} : x ∈ single a b ↔ x = a := Finmap.mem_singleton x a b

theorem lookup_single_union (a : Nat) (b : β) (m : Store β) :
    (single a b ∪ m).lookup a = some b := by
  rw [Finmap.lookup_union_left (mem_single.mpr rfl)]
  exact Finmap.lookup_singleton_eq

theorem lookup_single_union_of_ne {a x : Nat} (h : x ≠ a) (b : β) (m : Store β) :
    (single a b ∪ m).lookup x = m.lookup x :=
  Finmap.lookup_union_right fun hmem => h (mem_single.mp hmem)

theorem card_union {m₁ m₂ : Store β} (h : m₁.Disjoint m₂) :
    (m₁ ∪ m₂).keys.card = m₁.keys.card + m₂.keys.card := by
  rw [Finmap.keys_union]
  apply Finset.card_union_of_disjoint
  rw [Finset.disjoint_left]
  exact fun a ha ha' => h a (Finmap.mem_keys.mp ha) (Finmap.mem_keys.mp ha')

theorem union_eq_right_iff {m₁ m₂ : Store β} (h : m₁.Disjoint m₂) :
    m₁ ∪ m₂ = m₂ ↔ m₁.keys.card = 0 := by
  constructor
  · intro heq
    have hcard := card_union h
    rw [heq] at hcard
    omega
  · intro hcard
    have hempty : m₁ = ∅ := by
      apply Finmap.ext_lookup
      intro a
      have ha : a ∉ m₁.keys := by simp [Finset.card_eq_zero.mp hcard]
      rw [Finmap.lookup_empty, Finmap.lookup_eq_none]
      exact fun hmem => ha (Finmap.mem_keys.mpr hmem)
    rw [hempty, Finmap.empty_union]

def alloc (A : Allocator β) (b : β) : Program β Nat :=
  fun m => .ok (A.address m, m.insert (A.address m) b)

def load (a : Nat) : Program β β := fun m =>
  match m.lookup a with
  | none => .error (.access a)
  | some b => .ok (b, m)

def store (a : Nat) (b : β) : Program β Unit := fun m =>
  match m.lookup a with
  | none => .error (.access a)
  | some _ => .ok ((), m.insert a b)

/-- To free the null address does nothing. -/
def free (a : Nat) : Program β Unit := fun m =>
  if a = 0 then .ok ((), m)
  else
    match m.lookup a with
    | none => .error (.access a)
    | some _ => .ok ((), m.erase a)

def wrong (w : Wrong) : Program β α := fun _ => .error w

/-! ### Assertions -/

def Assertion (β : Type) := Store β → Prop

namespace Assertion

instance : PartialOrder (Assertion β) := inferInstanceAs (PartialOrder (Store β → Prop))

@[ext] theorem ext {P Q : Assertion β} (h : ∀ m, P m ↔ Q m) : P = Q :=
  funext fun m => propext (h m)

instance : Mul (Assertion β) where
  mul P Q m := ∃ m₁ m₂, m₁.Disjoint m₂ ∧ m = m₁ ∪ m₂ ∧ P m₁ ∧ Q m₂

instance : One (Assertion β) where
  one m := m = ∅

theorem one_apply {m : Store β} : (1 : Assertion β) m ↔ m = ∅ := Iff.rfl

theorem mul_comm' (P Q : Assertion β) : P * Q = Q * P := by
  ext m
  constructor
  · rintro ⟨m₁, m₂, hdisjoint, rfl, hP, hQ⟩
    exact ⟨m₂, m₁, hdisjoint.symm, Finmap.union_comm_of_disjoint hdisjoint, hQ, hP⟩
  · rintro ⟨m₁, m₂, hdisjoint, rfl, hQ, hP⟩
    exact ⟨m₂, m₁, hdisjoint.symm, Finmap.union_comm_of_disjoint hdisjoint, hP, hQ⟩

theorem mul_assoc_le (P Q R : Assertion β) : P * Q * R ≤ P * (Q * R) := by
  rintro m ⟨m₁₂, m₃, hdisjoint, rfl, ⟨m₁, m₂, hdisjoint', rfl, hP, hQ⟩, hR⟩
  obtain ⟨h₁₃, h₂₃⟩ := (Finmap.disjoint_union_left m₁ m₂ m₃).mp hdisjoint
  exact ⟨m₁, m₂ ∪ m₃, (Finmap.disjoint_union_right m₁ m₂ m₃).mpr ⟨hdisjoint', h₁₃⟩,
    Finmap.union_assoc, hP, m₂, m₃, h₂₃, rfl, hQ, hR⟩

instance : CommMonoid (Assertion β) where
  mul_comm := mul_comm'
  mul_assoc P Q R := by
    apply le_antisymm (mul_assoc_le P Q R)
    calc P * (Q * R) = R * Q * P := by rw [mul_comm' P, mul_comm' Q]
      _ ≤ R * (Q * P) := mul_assoc_le R Q P
      _ = P * Q * R := by rw [mul_comm' R, mul_comm' Q]
  one_mul P := by
    ext m
    constructor
    · rintro ⟨m₁, m₂, -, rfl, hone, hP⟩
      rwa [one_apply.mp hone, Finmap.empty_union]
    · exact fun hP => ⟨∅, m, Finmap.disjoint_empty m, Finmap.empty_union.symm, rfl, hP⟩
  mul_one P := by
    rw [mul_comm']
    ext m
    constructor
    · rintro ⟨m₁, m₂, -, rfl, hone, hP⟩
      rwa [one_apply.mp hone, Finmap.empty_union]
    · exact fun hP => ⟨∅, m, Finmap.disjoint_empty m, Finmap.empty_union.symm, rfl, hP⟩

theorem mul_mono {P P' Q Q' : Assertion β} (hP : P ≤ P') (hQ : Q ≤ Q') : P * Q ≤ P' * Q' := by
  rintro m ⟨m₁, m₂, hdisjoint, rfl, h₁, h₂⟩
  exact ⟨m₁, m₂, hdisjoint, rfl, hP m₁ h₁, hQ m₂ h₂⟩

/-- A block at an address that is not null, and nothing else. -/
def cell (a : Nat) (b : β) : Assertion β := fun m => 0 < a ∧ m = single a b

/-- This very memory. -/
def exactly (m : Store β) : Assertion β := fun m' => m' = m

/-- Nothing, and a fact. -/
def fact (φ : Prop) : Assertion β := fun m => φ ∧ m = ∅

def exist {ι : Sort*} (P : ι → Assertion β) : Assertion β := fun m => ∃ i, P i m

theorem fact_mul_apply {φ : Prop} {P : Assertion β} {m : Store β} :
    ((fact φ : Assertion β) * P) m ↔ φ ∧ P m := by
  constructor
  · rintro ⟨m₁, m₂, -, rfl, ⟨hφ, rfl⟩, hP⟩
    exact ⟨hφ, by rwa [Finmap.empty_union]⟩
  · rintro ⟨hφ, hP⟩
    exact ⟨∅, m, Finmap.disjoint_empty m, Finmap.empty_union.symm, ⟨hφ, rfl⟩, hP⟩

theorem fact_of {φ : Prop} (h : φ) : (fact φ : Assertion β) = 1 := by
  ext m
  exact and_iff_right h

theorem fact_mul_of {φ : Prop} (h : φ) (P : Assertion β) : fact φ * P = P := by
  rw [fact_of h, one_mul]

theorem exist_mul {ι : Sort*} (P : ι → Assertion β) (Q : Assertion β) :
    exist P * Q = exist fun i => P i * Q := by
  ext m
  constructor
  · rintro ⟨m₁, m₂, hdisjoint, rfl, ⟨i, hP⟩, hQ⟩
    exact ⟨i, m₁, m₂, hdisjoint, rfl, hP, hQ⟩
  · rintro ⟨i, m₁, m₂, hdisjoint, rfl, hP, hQ⟩
    exact ⟨m₁, m₂, hdisjoint, rfl, ⟨i, hP⟩, hQ⟩

theorem le_exist {ι : Sort*} (P : ι → Assertion β) (i : ι) : P i ≤ exist P := fun _ h => ⟨i, h⟩

theorem mul_exactly {P : Assertion β} {m m' : Store β} :
    (P * exactly m) m' ↔ ∃ m₁, m₁.Disjoint m ∧ m' = m₁ ∪ m ∧ P m₁ := by
  constructor
  · rintro ⟨m₁, m₂, hdisjoint, rfl, hP, rfl⟩
    exact ⟨m₁, hdisjoint, rfl, hP⟩
  · rintro ⟨m₁, hdisjoint, rfl, hP⟩
    exact ⟨m₁, m, hdisjoint, rfl, hP, rfl⟩

theorem cell_mul_lookup {a : Nat} {b : β} {P : Assertion β} {m : Store β} (h : (cell a b * P) m) :
    m.lookup a = some b := by
  obtain ⟨m₁, m₂, -, rfl, ⟨-, rfl⟩, -⟩ := h
  exact lookup_single_union a b _

/-- A block that a program has made is a new one. -/
theorem notMem_of_cell_mul {a : Nat} {b : β} {P : Assertion β} {m m' : Store β}
    (h : (cell a b * P * exactly m) m') : a ∉ m := by
  obtain ⟨m₁, hdisjoint, -, hm₁⟩ := mul_exactly.mp h
  exact hdisjoint a (Finmap.mem_of_lookup_eq_some (cell_mul_lookup hm₁))

/-- Two blocks have two addresses. -/
theorem ne_of_cell_mul_cell {a a' : Nat} {b b' : β} {P : Assertion β} {m : Store β}
    (h : (cell a b * (cell a' b' * P)) m) : a ≠ a' := by
  obtain ⟨_, m₂, hdisjoint, -, ⟨-, rfl⟩, hm₂⟩ := h
  intro heq
  have hmem : a ∈ m₂ := heq ▸ Finmap.mem_of_lookup_eq_some (cell_mul_lookup hm₂)
  exact hdisjoint a (mem_single.mpr rfl) hmem

theorem cell_mul_pos {a : Nat} {b : β} {P : Assertion β} {m : Store β} (h : (cell a b * P) m) :
    0 < a := by
  obtain ⟨_, _, -, -, ⟨hpos, -⟩, -⟩ := h
  exact hpos

theorem cell_mul_insert {a : Nat} {b b' : β} {P : Assertion β} {m : Store β}
    (h : (cell a b * P) m) : (cell a b' * P) (m.insert a b') := by
  obtain ⟨m₁, m₂, hdisjoint, rfl, ⟨hpos, rfl⟩, hP⟩ := h
  refine ⟨single a b', m₂, fun x hx => ?_, ?_, ⟨hpos, rfl⟩, hP⟩
  · exact hdisjoint x (mem_single.mpr (mem_single.mp hx))
  · rw [Finmap.insert_union]
    exact congrArg (· ∪ m₂) Finmap.insert_singleton_eq

theorem cell_mul_erase {a : Nat} {b : β} {P : Assertion β} {m : Store β} (h : (cell a b * P) m) :
    P (m.erase a) := by
  obtain ⟨m₁, m₂, hdisjoint, rfl, ⟨-, rfl⟩, hP⟩ := h
  have ha : a ∉ m₂ := hdisjoint a (mem_single.mpr rfl)
  have heq : (single a b ∪ m₂).erase a = m₂ := by
    apply Finmap.ext_lookup
    intro x
    by_cases hx : x = a
    · subst hx
      rw [Finmap.lookup_erase, Finmap.lookup_eq_none.mpr ha]
    · rw [Finmap.lookup_erase_ne hx, lookup_single_union_of_ne hx]
  rwa [heq]

theorem cell_mul_insert_fresh {a : Nat} {b : β} {P : Assertion β} {m : Store β} (hpos : 0 < a)
    (hfresh : a ∉ m) (hP : P m) : (cell a b * P) (m.insert a b) := by
  refine ⟨single a b, m, fun x hx => ?_, ?_, ⟨hpos, rfl⟩, hP⟩
  · rwa [mem_single.mp hx]
  · apply Finmap.ext_lookup
    intro x
    by_cases hx : x = a
    · subst hx
      rw [Finmap.lookup_insert, lookup_single_union]
    · rw [Finmap.lookup_insert_of_ne _ hx, lookup_single_union_of_ne hx]

end Assertion

open Assertion

/-! ### Triples -/

/-- From a part of the memory for which the first assertion holds the program ends without going
wrong, with a part for which the second does, and whatever held of the rest still holds. -/
def Triple (P : Assertion β) (c : Program β α) (Q : α → Assertion β) : Prop :=
  ∀ (R : Assertion β) (m : Store β), (P * R) m → ∃ x m', c m = .ok (x, m') ∧ (Q x * R) m'

namespace Triple

variable {P P' R : Assertion β} {c : Program β α} {Q Q' : α → Assertion β}

theorem pure (x : α) : Triple (Q x) (Pure.pure x) Q := fun _ m h => ⟨x, m, rfl, h⟩

theorem weaken (h : Triple P c Q) (hP : P' ≤ P) (hQ : ∀ x, Q x ≤ Q' x) : Triple P' c Q' := by
  intro R m hm
  obtain ⟨x, m', hrun, hm'⟩ := h R m (mul_mono hP le_rfl m hm)
  exact ⟨x, m', hrun, mul_mono (hQ x) le_rfl m' hm'⟩

theorem reorder (P' : Assertion β) (hP : P = P') (h : Triple P' c Q) : Triple P c Q := hP ▸ h

theorem pre (h : Triple P c Q) (hP : P' ≤ P) : Triple P' c Q := h.weaken hP fun _ => le_rfl

theorem post (h : Triple P c Q) (hQ : ∀ x, Q x ≤ Q' x) : Triple P c Q' := h.weaken le_rfl hQ

theorem value (P : Assertion β) (v : α) : Triple P (Pure.pure v) fun x => fact (x = v) * P :=
  (Triple.pure (Q := fun x => fact (x = v) * P) v).pre (fact_mul_of rfl P).ge

/-- **The frame rule.** -/
theorem frame (h : Triple P c Q) (R : Assertion β) : Triple (P * R) c fun x => Q x * R := by
  intro R' m hm
  rw [mul_assoc] at hm
  obtain ⟨x, m', hrun, hm'⟩ := h (R * R') m hm
  exact ⟨x, m', hrun, by rwa [mul_assoc]⟩

theorem bind {f : α → Program β γ} {S : γ → Assertion β} (h : Triple P c Q)
    (hf : ∀ x, Triple (Q x) (f x) S) : Triple P (c >>= f) S := by
  intro R m hm
  obtain ⟨x, m', hrun, hm'⟩ := h R m hm
  obtain ⟨y, m'', hrun', hm''⟩ := hf x R m' hm'
  refine ⟨y, m'', ?_, hm''⟩
  calc (c >>= f) m = (c m >>= fun p => f p.1 p.2) := rfl
    _ = .ok (y, m'') := by rw [hrun]; exact hrun'

/-- One step of a program that owns more than the step needs. -/
theorem step {f : α → Program β γ} {S : γ → Assertion β} (h : Triple P c Q)
    (hf : ∀ x, Triple (Q x * R) (f x) S) : Triple (P * R) (c >>= f) S :=
  (h.frame R).bind hf

theorem of_fact {φ : Prop} (h : φ → Triple P c Q) : Triple (fact φ * P) c Q := by
  intro R m hm
  rw [mul_assoc, fact_mul_apply] at hm
  exact h hm.1 R m hm.2

/-- What every part that an assertion holds of satisfies can be assumed. -/
theorem of_all {φ : Prop} (hP : ∀ m, P m → φ) (h : φ → Triple P c Q) : Triple P c Q := by
  intro R m hm
  obtain ⟨m₁, _, -, -, hm₁, -⟩ := id hm
  exact h (hP m₁ hm₁) R m hm

theorem of_exist {ι : Sort*} {P : ι → Assertion β} (h : ∀ i, Triple (P i) c Q) :
    Triple (exist P) c Q := by
  intro R m hm
  rw [exist_mul] at hm
  obtain ⟨i, hm⟩ := hm
  exact h i R m hm

/-- A step that needs nothing. -/
theorem call {f : α → Program β γ} {S : γ → Assertion β} (h : Triple 1 c Q)
    (hf : ∀ x, Triple (Q x * P) (f x) S) : Triple P (c >>= f) S := by
  rw [← one_mul P]
  exact h.step hf

/-- One step of which the result is known. -/
theorem step_value {v : α} {P' : Assertion β} {f : α → Program β γ} {S : γ → Assertion β}
    (h : Triple P c fun x => fact (x = v) * P') (hf : Triple (P' * R) (f v) S) :
    Triple (P * R) (c >>= f) S := by
  refine h.step fun x => ?_
  rw [mul_assoc]
  refine of_fact fun hx => ?_
  rwa [hx]

/-- One step that looks at a factor of what the program owns. -/
theorem look {v : α} {P' : Assertion β} {f : α → Program β γ} {S : γ → Assertion β} (hP : P' ∣ P)
    (h : Triple P' c fun x => fact (x = v) * P') (hf : Triple P (f v) S) :
    Triple P (c >>= f) S := by
  obtain ⟨R, rfl⟩ := hP
  exact h.step_value hf

/-- What a program that needs nothing does to a whole memory. -/
theorem run (h : Triple 1 c Q) (m : Store β) :
    ∃ x m', c m = .ok (x, m') ∧ (Q x * exactly m) m' := by
  refine h (exactly m) m ?_
  rw [one_mul]
  rfl

theorem result (h : Triple 1 c Q) {m m' : Store β} {x : α} (hrun : c m = .ok (x, m')) :
    (Q x * exactly m) m' := by
  obtain ⟨y, _, hrun', hQ⟩ := h.run m
  obtain ⟨rfl, rfl⟩ := Prod.mk.inj (Except.ok.inj (hrun'.symm.trans hrun))
  exact hQ

end Triple

/-! ### Going wrong -/

/-- From any memory with a part for which the assertion holds the program goes wrong. -/
def Fails (P : Assertion β) (c : Program β α) : Prop :=
  ∀ (R : Assertion β) (m : Store β), (P * R) m → ∃ w, c m = .error w

namespace Fails

variable {P P' R : Assertion β} {c : Program β α} {Q : α → Assertion β}

theorem wrong (P : Assertion β) (w : Wrong) : Fails P (wrong w : Program β α) :=
  fun _ _ _ => ⟨w, rfl⟩

theorem pre (h : Fails P c) (hP : P' ≤ P) : Fails P' c :=
  fun R m hm => h R m (mul_mono hP le_rfl m hm)

theorem frame (h : Fails P c) (R : Assertion β) : Fails (P * R) c := by
  intro R' m hm
  rw [mul_assoc] at hm
  exact h (R * R') m hm

theorem of_exist {ι : Sort*} {P : ι → Assertion β} (h : ∀ i, Fails (P i) c) :
    Fails (exist P) c := by
  intro R m hm
  rw [exist_mul] at hm
  obtain ⟨i, hm⟩ := hm
  exact h i R m hm

theorem of_fact {φ : Prop} (h : φ → Fails P c) : Fails (fact φ * P) c := by
  intro R m hm
  rw [mul_assoc, fact_mul_apply] at hm
  exact h hm.1 R m hm.2

theorem of_all {φ : Prop} (hP : ∀ m, P m → φ) (h : φ → Fails P c) : Fails P c := by
  intro R m hm
  obtain ⟨m₁, _, -, -, hm₁, -⟩ := id hm
  exact h (hP m₁ hm₁) R m hm

/-- The first step goes wrong. -/
theorem first (h : Fails P c) (f : α → Program β γ) : Fails P (c >>= f) := by
  intro R m hm
  obtain ⟨w, hw⟩ := h R m hm
  refine ⟨w, ?_⟩
  calc (c >>= f) m = (c m >>= fun p => f p.1 p.2) := rfl
    _ = .error w := by rw [hw]; rfl

/-- The first step does not go wrong, and a later one does. -/
theorem later {f : α → Program β γ} (h : Triple P c Q) (hf : ∀ x, Fails (Q x) (f x)) :
    Fails P (c >>= f) := by
  intro R m hm
  obtain ⟨x, m', hrun, hm'⟩ := h R m hm
  obtain ⟨w, hw⟩ := hf x R m' hm'
  refine ⟨w, ?_⟩
  calc (c >>= f) m = (c m >>= fun p => f p.1 p.2) := rfl
    _ = .error w := by rw [hrun]; exact hw

theorem step_value {v : α} {P' : Assertion β} {f : α → Program β γ}
    (h : Triple P c fun x => fact (x = v) * P') (hf : Fails (P' * R) (f v)) :
    Fails (P * R) (c >>= f) := by
  refine later (h.frame R) fun x => ?_
  rw [mul_assoc]
  refine of_fact fun hx => ?_
  rwa [hx]

/-- A step that looks at a factor does not go wrong, and a later one does. -/
theorem look {v : α} {P' : Assertion β} {f : α → Program β γ} (hP : P' ∣ P)
    (h : Triple P' c fun x => fact (x = v) * P') (hf : Fails P (f v)) : Fails P (c >>= f) := by
  obtain ⟨R, rfl⟩ := hP
  exact step_value h hf

theorem of_dvd (hP : P' ∣ P) (h : Fails P' c) : Fails P c := by
  obtain ⟨R, rfl⟩ := hP
  exact h.frame R

theorem run (h : Fails 1 c) (m : Store β) : ∃ w, c m = .error w := by
  refine h (exactly m) m ?_
  rw [one_mul]
  rfl

end Fails

/-- When a program ends without going wrong. -/
theorem defined_iff {φ : Prop} {c : Program β α} {Q : α → Assertion β} (h : φ → Triple 1 c Q)
    (h' : ¬ φ → Fails 1 c) (m : Store β) : (∃ r, c m = .ok r) ↔ φ := by
  constructor
  · rintro ⟨r, hr⟩
    by_contra hφ
    obtain ⟨w, hw⟩ := (h' hφ).run m
    exact nomatch hr.symm.trans hw
  · intro hφ
    obtain ⟨x, m', hrun, -⟩ := (h hφ).run m
    exact ⟨(x, m'), hrun⟩

/-! ### Computing -/

/-- From the first assertion the program comes to the value and to the second assertion, or goes wrong
if there is no value. -/
def Computes (P : Assertion β) (c : Program β α) (o : Option α) (R : Assertion β) : Prop :=
  (∀ x, o = some x → Triple P c fun y => fact (y = x) * R) ∧ (o = none → Fails P c)

namespace Computes

variable {P R R' : Assertion β} {c : Program β α} {o : Option α} {S : Assertion β}

theorem of_triple {x : α} (h : Triple P c fun y => fact (y = x) * R) : Computes P c (some x) R :=
  ⟨fun _ hx => Option.some.inj hx ▸ h, nofun⟩

theorem of_fails (h : Fails P c) : Computes P c none R := ⟨nofun, fun _ => h⟩

theorem pure (P : Assertion β) (x : α) : Computes P (Pure.pure x) (some x) P :=
  of_triple (Triple.value P x)

theorem reorder (P' R' : Assertion β) (hP : P = P') (hR : R' = R) (h : Computes P' c o R') :
    Computes P c o R := hP ▸ hR ▸ h

theorem frame (h : Computes P c o R) (F : Assertion β) : Computes (P * F) c o (R * F) := by
  constructor
  · intro x hx
    refine ((h.1 x hx).frame F).post fun y => ?_
    rw [mul_assoc]
  · exact fun ho => (h.2 ho).frame F

theorem bind {f : α → Program β γ} {g : α → Option γ} (h : Computes P c o R)
    (hf : ∀ x, o = some x → Computes R (f x) (g x) S) : Computes P (c >>= f) (o.bind g) S := by
  cases o with
  | none => exact of_fails ((h.2 rfl).first f)
  | some x =>
      have hc : Triple P c fun y => fact (y = x) * R := h.1 x rfl
      constructor
      · intro z hz
        refine hc.bind fun y => Triple.of_fact fun hy => ?_
        rw [hy]
        exact (hf x rfl).1 z hz
      · intro hz
        refine Fails.later hc fun y => Fails.of_fact fun hy => ?_
        rw [hy]
        exact (hf x rfl).2 hz

/-- A step that needs nothing. -/
theorem call {F : Assertion β} {f : α → Program β γ} {g : α → Option γ} (h : Computes 1 c o R)
    (hf : ∀ x, o = some x → Computes (R * F) (f x) (g x) S) : Computes F (c >>= f) (o.bind g) S :=
  bind (reorder (1 * F) (R * F) (one_mul F).symm rfl (h.frame F)) hf

/-- A step of which the value is not told. -/
theorem after {f : α → Program β γ} {o : Option γ} {Q : α → Assertion β} (h : Triple P c Q)
    (hf : ∀ x, Computes (Q x) (f x) o S) : Computes P (c >>= f) o S :=
  ⟨fun z hz => h.bind fun x => (hf x).1 z hz, fun hz => Fails.later h fun x => (hf x).2 hz⟩

theorem of_fact {φ : Prop} (h : φ → Computes P c o R) : Computes (fact φ * P) c o R :=
  ⟨fun x hx => Triple.of_fact fun hφ => (h hφ).1 x hx, fun ho => Fails.of_fact fun hφ => (h hφ).2 ho⟩

theorem of_all {φ : Prop} (hP : ∀ m, P m → φ) (h : φ → Computes P c o R) : Computes P c o R :=
  ⟨fun x hx => Triple.of_all hP fun hφ => (h hφ).1 x hx,
    fun ho => Fails.of_all hP fun hφ => (h hφ).2 ho⟩

theorem of_exist {ι : Sort*} {P : ι → Assertion β} (h : ∀ i, Computes (P i) c o R) :
    Computes (exist P) c o R :=
  ⟨fun x hx => Triple.of_exist fun i => (h i).1 x hx, fun ho => Fails.of_exist fun i => (h i).2 ho⟩

/-- A step that looks at a factor of what the program owns. -/
theorem look {P' : Assertion β} (hP : P' ∣ P) (h : Computes P' c o P') : Computes P c o P := by
  obtain ⟨F, rfl⟩ := hP
  exact h.frame F

/-- One step of which the value is known. -/
theorem value {v : α} {P' : Assertion β} {f : α → Program β γ} {o : Option γ} (hP : P' ∣ P)
    (h : Triple P' c fun x => fact (x = v) * P') (hf : Computes P (f v) o S) :
    Computes P (c >>= f) o S :=
  ⟨fun z hz => Triple.look hP h (hf.1 z hz), fun hz => Fails.look hP h (hf.2 hz)⟩

/-- What a program that needs nothing does to a whole memory. -/
theorem run (h : Computes 1 c o R) (m : Store β) :
    ((∃ r, c m = .ok r) ↔ o.isSome) ∧
      ∀ x m', c m = .ok (x, m') → o = some x ∧ (R * exactly m) m' := by
  cases o with
  | none =>
      obtain ⟨w, hw⟩ := (h.2 rfl).run m
      exact ⟨⟨fun hr => absurd (hw.symm.trans hr.choose_spec) nofun, nofun⟩,
        fun x m' hrun => absurd (hw.symm.trans hrun) nofun⟩
  | some y =>
      have hc : Triple 1 c fun x => fact (x = y) * R := h.1 y rfl
      obtain ⟨x, m', hrun, -⟩ := hc.run m
      refine ⟨⟨fun _ => rfl, fun _ => ⟨_, hrun⟩⟩, fun x m' hrun => ?_⟩
      have hresult := hc.result hrun
      rw [mul_assoc, fact_mul_apply] at hresult
      exact ⟨congrArg some hresult.1.symm, hresult.2⟩

end Computes

/-! ### The rules of the operations -/

theorem triple_alloc (A : Allocator β) (b : β) : Triple 1 (alloc A b) fun a => cell a b := by
  intro R m hm
  rw [one_mul] at hm
  exact ⟨A.address m, _, rfl, cell_mul_insert_fresh (A.pos m) (A.fresh m) hm⟩

theorem triple_load (a : Nat) (b : β) :
    Triple (cell a b) (load a) fun x => fact (x = b) * cell a b := by
  intro R m hm
  have hrun : load a m = .ok (b, m) := by rw [load, cell_mul_lookup hm]
  obtain ⟨x, m', hvalue, hm'⟩ := Triple.value (cell a b) b R m hm
  exact ⟨x, m', hrun.trans hvalue, hm'⟩

theorem triple_store (a : Nat) (b b' : β) : Triple (cell a b) (store a b') fun _ => cell a b' := by
  intro R m hm
  refine ⟨(), m.insert a b', ?_, cell_mul_insert hm⟩
  rw [store, cell_mul_lookup hm]

theorem triple_free (a : Nat) (b : β) : Triple (cell a b) (free a) fun _ => 1 := by
  intro R m hm
  refine ⟨(), m.erase a, ?_, ?_⟩
  · rw [free, if_neg (cell_mul_pos hm).ne', cell_mul_lookup hm]
  · rw [one_mul]
    exact cell_mul_erase hm

theorem triple_free_null : Triple (1 : Assertion β) (free 0) fun _ => 1 :=
  fun _ m hm => ⟨(), m, rfl, hm⟩

end Memory
