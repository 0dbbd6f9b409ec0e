import UT612.Library.Memory

/-!
# Linked lists

A part of the memory that is a list of nodes, each with a link to the next one, and the loop that
follows the links up to the null address. What a node is made of is a parameter. The loop ends,
because the nodes of a list are blocks of their own, and there are only so many in a memory.
-/

namespace LinkedList

open Memory Assertion

variable {β δ σ : Type}

/-! ### Loops -/

/-- Follow the links for at most so many rounds. The body tells the next address, or none to leave
the loop. -/
def walkFrom (body : Nat → σ → Program β (Option Nat × σ)) : Nat → Nat → σ → Program β σ
  | 0, _, _ => wrong .endless
  | rounds + 1, a, s =>
      if a = 0 then pure s
      else do
        let (next, s) ← body a s
        match next with
        | none => pure s
        | some a => walkFrom body rounds a s

/-- Follow the links. A loop that takes more rounds than there are blocks has come to one of them
twice. -/
def walk (body : Nat → σ → Program β (Option Nat × σ)) (a : Nat) (s : σ) : Program β σ :=
  fun m => walkFrom body (m.keys.card + 1) a s m

/-- A loop over the contents of the nodes, which says of each whether to go on. -/
def scan (step : σ → δ → Bool × σ) : σ → List δ → σ
  | s, [] => s
  | s, x :: xs => if (step s x).1 then scan step (step s x).2 xs else (step s x).2

/-- A loop that looks for a node. -/
theorem scan_find (p : δ → Bool) (f : δ → σ) (s : σ) (xs : List δ) :
    scan (fun s x => if p x then (false, f x) else (true, s)) s xs =
      ((xs.find? p).map f).getD s := by
  induction xs with
  | nil => rfl
  | cons x xs ih =>
      rw [scan, List.find?_cons]
      cases p x with
      | false => exact ih
      | true => rfl

/-- A loop that goes to the end. -/
theorem scan_all (f : σ → δ → σ) (s : σ) (xs : List δ) :
    scan (fun s x => (true, f s x)) s xs = xs.foldl f s := by
  induction xs generalizing s with
  | nil => rfl
  | cons x xs ih => exact ih (f s x)

/-! ### Segments -/

/-- The nodes from one address up to a link to another. `node a next x` owns a node at `a` that has
the contents `x` and a link to `next`. -/
def segment (node : Nat → Nat → δ → Assertion β) : List δ → Nat → Nat → Assertion β
  | [], a, b => fact (a = b)
  | x :: xs, a, b => exist fun next => node a next x * segment node xs next b

variable {node : Nat → Nat → δ → Assertion β}

theorem segment_nil (a : Nat) : segment node [] a a = 1 := fact_of rfl

theorem segment_cons_le (x : δ) (xs : List δ) (a next b : Nat) :
    node a next x * segment node xs next b ≤ segment node (x :: xs) a b :=
  le_exist (fun next => node a next x * segment node xs next b) next

theorem segment_append_le (xs ys : List δ) (a b c : Nat) :
    segment node xs a b * segment node ys b c ≤ segment node (xs ++ ys) a c := by
  induction xs generalizing a with
  | nil =>
      rintro m hm
      obtain ⟨rfl, hm⟩ := fact_mul_apply.mp hm
      exact hm
  | cons x xs ih =>
      intro m hm
      rw [segment, exist_mul] at hm
      obtain ⟨next, hm⟩ := hm
      rw [mul_assoc] at hm
      exact ⟨next, mul_mono le_rfl (ih next) m hm⟩

theorem segment_concat_le (xs : List δ) (x : δ) (a b c : Nat) :
    segment node xs a b * node b c x ≤ segment node (xs ++ [x]) a c := by
  refine le_trans (mul_mono le_rfl ?_) (segment_append_le xs [x] a b c)
  calc node b c x = node b c x * segment node [] c c := by rw [segment_nil, mul_one]
    _ ≤ segment node [x] b c := segment_cons_le x [] b c c

theorem le_segment_append (xs ys : List δ) (a c : Nat) :
    segment node (xs ++ ys) a c ≤ exist fun b => segment node xs a b * segment node ys b c := by
  induction xs generalizing a with
  | nil =>
      calc segment node ([] ++ ys) a c
          = segment node [] a a * segment node ys a c := by rw [segment_nil, one_mul, List.nil_append]
        _ ≤ _ := le_exist (fun b => segment node [] a b * segment node ys b c) a
  | cons x xs ih =>
      rintro m ⟨next, hm⟩
      have hm' := mul_mono le_rfl (ih next) m hm
      rw [mul_comm, exist_mul] at hm'
      obtain ⟨b, hm'⟩ := hm'
      refine ⟨b, mul_mono (segment_cons_le x xs a next b) le_rfl m ?_⟩
      rwa [mul_comm, ← mul_assoc] at hm'

/-- A segment around one of its nodes. -/
theorem segment_around (xs : List δ) (x : δ) (ys : List δ) (a d : Nat) :
    segment node (xs ++ x :: ys) a d =
      exist fun p : Nat × Nat => node p.1 p.2 x * (segment node xs a p.1 * segment node ys p.2 d) := by
  apply le_antisymm
  · intro m hm
    obtain ⟨b, hm⟩ := le_segment_append xs (x :: ys) a d m hm
    rw [mul_comm, segment, exist_mul] at hm
    obtain ⟨c, hm⟩ := hm
    refine ⟨(b, c), ?_⟩
    rwa [mul_assoc, mul_comm (segment node ys c d)] at hm
  · rintro m ⟨⟨b, c⟩, hm⟩
    refine segment_append_le xs (x :: ys) a b d m ?_
    refine mul_mono le_rfl (segment_cons_le x ys b c d) m ?_
    rwa [mul_left_comm]

/-- Nodes with something that is not told, told. -/
theorem segment_exist {ι : Type} {node : Nat → Nat → ι × δ → Assertion β} (xs : List δ)
    (a b : Nat) :
    segment (fun a next x => exist fun i => node a next (i, x)) xs a b =
      exist fun ys : {ys : List (ι × δ) // ys.map Prod.snd = xs} => segment node ys.1 a b := by
  apply le_antisymm
  · induction xs generalizing a with
    | nil => exact fun m hm => ⟨⟨[], rfl⟩, hm⟩
    | cons x xs ih =>
        rintro m ⟨next, hm⟩
        rw [exist_mul] at hm
        obtain ⟨i, hm⟩ := hm
        have hm' := mul_mono le_rfl (ih next) m hm
        rw [mul_comm, exist_mul] at hm'
        obtain ⟨⟨ys, hys⟩, hm'⟩ := hm'
        exact ⟨⟨(i, x) :: ys, congrArg (List.cons x) hys⟩, next,
          (mul_comm (segment node ys next b) (node a next (i, x))).le m hm'⟩
  · rintro m ⟨⟨ys, rfl⟩, hm⟩
    induction ys generalizing a m with
    | nil => exact hm
    | cons y ys ih =>
        obtain ⟨next, m₁, m₂, hdisjoint, rfl, hm₁, hm₂⟩ := hm
        exact ⟨next, m₁, m₂, hdisjoint, rfl, ⟨y.1, hm₁⟩, ih next m₂ hm₂⟩

section Walk

variable (hnode : ∀ a next x m, node a next x m → a ≠ 0 ∧ a ∈ m)
include hnode

/-- A list has no more nodes than the memory has blocks. -/
theorem length_le_card {xs : List δ} {a b : Nat} {R : Assertion β} {m : Store β}
    (h : (segment node xs a b * R) m) : xs.length ≤ m.keys.card := by
  induction xs generalizing a m with
  | nil => exact Nat.zero_le _
  | cons x xs ih =>
      rw [segment, exist_mul] at h
      obtain ⟨next, h⟩ := h
      rw [mul_assoc] at h
      obtain ⟨m₁, m₂, hdisjoint, rfl, hm₁, hm₂⟩ := h
      obtain ⟨-, ha⟩ := hnode a next x m₁ hm₁
      have hsub : insert a m₂.keys ⊆ (m₁ ∪ m₂).keys := by
        rw [Finmap.keys_union]
        exact Finset.insert_subset (Finset.mem_union_left _ (Finmap.mem_keys.mpr ha))
          Finset.subset_union_right
      have hcard := Finset.card_le_card hsub
      rw [Finset.card_insert_of_notMem fun hmem => hdisjoint a ha (Finmap.mem_keys.mp hmem)] at hcard
      exact (Nat.succ_le_succ (ih hm₂)).trans hcard

theorem ne_zero_of_node {a next : Nat} {x : δ} {P : Assertion β} (m : Store β)
    (h : (node a next x * P) m) : a ≠ 0 := by
  obtain ⟨m₁, _, -, -, hm₁, -⟩ := h
  exact (hnode a next x m₁ hm₁).1

theorem walk_of_walkFrom {body : Nat → σ → Program β (Option Nat × σ)} {xs : List δ} {a b : Nat}
    {s : σ} {Q : σ → Assertion β}
    (h : ∀ rounds, xs.length < rounds → Triple (segment node xs a b) (walkFrom body rounds a s) Q) :
    Triple (segment node xs a b) (walk body a s) Q :=
  fun R m hm => h _ (Nat.lt_succ_of_le (length_le_card hnode hm)) R m hm

/-- A loop that reads a list. -/
theorem triple_walk_scan {body : Nat → σ → Program β (Option Nat × σ)} {step : σ → δ → Bool × σ}
    {xs : List δ} (hbody : ∀ x ∈ xs, ∀ a next s, Triple (node a next x) (body a s) fun r =>
      fact (r = (if (step s x).1 then some next else none, (step s x).2)) * node a next x)
    (a : Nat) (s : σ) :
    Triple (segment node xs a 0) (walk body a s) fun r =>
      fact (r = scan step s xs) * segment node xs a 0 := by
  refine walk_of_walkFrom hnode fun rounds hrounds => ?_
  induction xs generalizing a s rounds with
  | nil =>
      obtain ⟨rounds, rfl⟩ := Nat.exists_eq_add_one_of_ne_zero (Nat.ne_zero_of_lt hrounds)
      refine Triple.of_all (fun m hm => hm.1) fun ha => ?_
      rw [walkFrom, if_pos ha]
      exact Triple.value _ s
  | cons x xs ih =>
      obtain ⟨hx, hxs⟩ := List.forall_mem_cons.mp hbody
      obtain ⟨rounds, rfl⟩ := Nat.exists_eq_add_one_of_ne_zero (Nat.ne_zero_of_lt hrounds)
      rw [segment]
      refine Triple.of_exist fun next => ?_
      refine Triple.of_all (ne_zero_of_node hnode) fun ha => ?_
      rw [walkFrom, if_neg ha]
      refine (hx a next s).step_value ?_
      rw [scan]
      cases hgo : (step s x).1 with
      | false =>
          refine (Triple.value _ (step s x).2).post fun r => mul_mono le_rfl ?_
          exact segment_cons_le x xs a next 0
      | true =>
          rw [mul_comm]
          refine ((ih hxs next _ rounds (Nat.lt_of_succ_lt_succ hrounds)).frame _).post fun r => ?_
          rw [mul_assoc, mul_comm (segment node xs next 0)]
          exact mul_mono le_rfl (segment_cons_le x xs a next 0)

/-- A loop that reads a list up to a node that it goes wrong at. -/
theorem fails_walk {good : δ → Prop} {body : Nat → σ → Program β (Option Nat × σ)}
    {step : σ → δ → σ} (hgood : ∀ x, good x → ∀ a next s, Triple (node a next x) (body a s) fun r =>
      fact (r = (some next, step s x)) * node a next x)
    (hbad : ∀ x, ¬ good x → ∀ a next s, Fails (node a next x) (body a s))
    {xs : List δ} (h : ¬ ∀ x ∈ xs, good x) (a : Nat) (s : σ) :
    Fails (segment node xs a 0) (walk body a s) := by
  suffices hfrom : ∀ rounds, Fails (segment node xs a 0) (walkFrom body rounds a s) from
    fun R m hm => hfrom _ R m hm
  intro rounds
  induction xs generalizing a s rounds with
  | nil => exact absurd (fun x hx => nomatch hx) h
  | cons x xs ih =>
      cases rounds with
      | zero => exact Fails.wrong _ _
      | succ rounds =>
          rw [segment]
          refine Fails.of_exist fun next => ?_
          refine Fails.of_all (ne_zero_of_node hnode) fun ha => ?_
          rw [walkFrom, if_neg ha]
          by_cases hx : good x
          · have hxs : ¬ ∀ x ∈ xs, good x := fun hxs => h (List.forall_mem_cons.mpr ⟨hx, hxs⟩)
            refine Fails.step_value (hgood x hx a next s) ?_
            rw [mul_comm]
            exact (ih hxs next _ rounds).frame _
          · exact ((hbad x hx a next s).frame _).first _

/-- A loop that frees a list. -/
theorem triple_walk_free {body : Nat → σ → Program β (Option Nat × σ)} {step : σ → δ → σ}
    (hbody : ∀ a next x s, Triple (node a next x) (body a s) fun r =>
      fact (r = (some next, step s x)) * 1)
    (xs : List δ) (a : Nat) (s : σ) :
    Triple (segment node xs a 0) (walk body a s) fun r => fact (r = xs.foldl step s) * 1 := by
  refine walk_of_walkFrom hnode fun rounds hrounds => ?_
  induction xs generalizing a s rounds with
  | nil =>
      obtain ⟨rounds, rfl⟩ := Nat.exists_eq_add_one_of_ne_zero (Nat.ne_zero_of_lt hrounds)
      refine Triple.of_all (fun m hm => hm.1) fun ha => ?_
      rw [walkFrom, if_pos ha, segment, fact_of ha]
      exact Triple.value _ s
  | cons x xs ih =>
      obtain ⟨rounds, rfl⟩ := Nat.exists_eq_add_one_of_ne_zero (Nat.ne_zero_of_lt hrounds)
      rw [segment]
      refine Triple.of_exist fun next => ?_
      refine Triple.of_all (ne_zero_of_node hnode) fun ha => ?_
      rw [walkFrom, if_neg ha]
      refine (hbody a next x s).step_value ?_
      rw [one_mul]
      exact ih next _ rounds (Nat.lt_of_succ_lt_succ hrounds)

end Walk

end LinkedList
