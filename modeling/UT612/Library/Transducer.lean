import Mathlib.Data.List.Basic
import Mathlib.Data.List.ReduceOption

/-!
# Transducers

A machine that reads its input one symbol at a time and gives at most one output for each. A run is
looked at in three ways: the state it ends in, its trace, which has one entry per input symbol and
so says where each output was given, and the list of its outputs. The rules are how each of them
composes over a concatenated input, what holds of every reachable state, and when two machines give
the same trace.
-/

/-- A deterministic machine with at most one output per input symbol. -/
structure Transducer (σ α ω : Type*) where
  step : σ → α → σ × Option ω

namespace Transducer

variable {σ τ α ω υ γ : Type*} (T : Transducer σ α ω)

/-- The state after an input. -/
def finish (s : σ) (xs : List α) : σ := xs.foldl (fun s x => (T.step s x).1) s

/-- What is given at each symbol of an input. -/
def trace : σ → List α → List (Option ω)
  | _, [] => []
  | s, x :: xs => (T.step s x).2 :: trace (T.step s x).1 xs

/-- The outputs of a run, in order. -/
def outputs (s : σ) (xs : List α) : List ω := (T.trace s xs).reduceOption

@[simp] theorem finish_nil (s : σ) : T.finish s [] = s := rfl

@[simp] theorem finish_cons (s : σ) (x : α) (xs : List α) :
    T.finish s (x :: xs) = T.finish (T.step s x).1 xs := rfl

@[simp] theorem trace_nil (s : σ) : T.trace s [] = [] := rfl

@[simp] theorem trace_cons (s : σ) (x : α) (xs : List α) :
    T.trace s (x :: xs) = (T.step s x).2 :: T.trace (T.step s x).1 xs := rfl

@[simp] theorem outputs_nil (s : σ) : T.outputs s [] = [] := rfl

theorem outputs_cons (s : σ) (x : α) (xs : List α) :
    T.outputs s (x :: xs) = (T.step s x).2.toList ++ T.outputs (T.step s x).1 xs := by
  cases h : (T.step s x).2 <;> simp [outputs, h]

theorem finish_append (s : σ) (xs ys : List α) :
    T.finish s (xs ++ ys) = T.finish (T.finish s xs) ys := List.foldl_append

theorem trace_append (s : σ) (xs ys : List α) :
    T.trace s (xs ++ ys) = T.trace s xs ++ T.trace (T.finish s xs) ys := by
  induction xs generalizing s with
  | nil => rfl
  | cons x xs ih => simp [ih]

theorem outputs_append (s : σ) (xs ys : List α) :
    T.outputs s (xs ++ ys) = T.outputs s xs ++ T.outputs (T.finish s xs) ys := by
  simp [outputs, trace_append, List.reduceOption_append]

@[simp] theorem length_trace (s : σ) (xs : List α) : (T.trace s xs).length = xs.length := by
  induction xs generalizing s with
  | nil => rfl
  | cons x xs ih => simp [ih]

/-- An entry of the trace is what the machine gives in the state the input before it leads to. -/
theorem getElem?_trace (s : σ) (xs : List α) (i : Nat) :
    (T.trace s xs)[i]? = xs[i]?.map fun x => (T.step (T.finish s (xs.take i)) x).2 := by
  induction xs generalizing s i with
  | nil => simp
  | cons x xs ih => cases i <;> simp [ih]

theorem drop_trace (s : σ) (xs : List α) (n : Nat) :
    (T.trace s xs).drop n = T.trace (T.finish s (xs.take n)) (xs.drop n) := by
  induction xs generalizing s n with
  | nil => simp
  | cons x xs ih => cases n <;> simp [ih]

/-- **Invariants.** What one step preserves holds after any input. -/
theorem finish_induction {I : σ → Prop} (hstep : ∀ s x, I s → I (T.step s x).1) {s : σ} (hs : I s)
    (xs : List α) : I (T.finish s xs) := by
  induction xs generalizing s with
  | nil => exact hs
  | cons x xs ih => exact ih (hstep s x hs)

/-! ### Simulation -/

section Simulation

variable {T} {S : Transducer τ α υ} {R : σ → τ → Prop}

/-- Related states stay related. -/
theorem finish_related (hstep : ∀ s t x, R s t → R (T.step s x).1 (S.step t x).1) {s : σ} {t : τ}
    (hst : R s t) (xs : List α) : R (T.finish s xs) (S.finish t xs) := by
  induction xs generalizing s t with
  | nil => exact hst
  | cons x xs ih => exact ih (hstep s t x hst)

/-- Machines whose steps show the same from related states have traces that show the same. -/
theorem trace_related (hstep : ∀ s t x, R s t → R (T.step s x).1 (S.step t x).1)
    {show₁ : ω → γ} {show₂ : υ → γ}
    (hout : ∀ s t x, R s t → (T.step s x).2.map show₁ = (S.step t x).2.map show₂)
    {s : σ} {t : τ} (hst : R s t) (xs : List α) :
    (T.trace s xs).map (Option.map show₁) = (S.trace t xs).map (Option.map show₂) := by
  induction xs generalizing s t with
  | nil => rfl
  | cons x xs ih =>
      simp only [trace_cons, List.map_cons, hout s t x hst, ih (hstep s t x hst)]

end Simulation

end Transducer
