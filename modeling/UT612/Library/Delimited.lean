import UT612.Library.Segmentation
import Mathlib.Algebra.Order.BigOperators.Group.List
import Mathlib.Algebra.Order.Ring.Nat
import Mathlib.Order.Lattice.Nat

/-!
# Words closed by a delimiter

Words of one length `n` that end with two different symbols, and a stream of them that is cut
wherever the two symbols stand with at least `n` symbols since the last cut. The delimiter may also
occur inside a word, so a reader that starts in the middle of a word may cut in the wrong place.
Where it cuts a word is a function of where it cut the word before, `nextEnd`: the place only moves
towards the end of the words, and stays there once it has reached it.
-/

namespace Delimited

variable {α : Type*} {n : Nat} {a b : α}

/-- At least `n` symbols, of which `a` and `b` are the last two. -/
def Closed (n : Nat) (a b : α) (s : List α) : Prop := n ≤ s.length ∧ [a, b] <:+ s

instance [DecidableEq α] : DecidablePred (Closed n a b) :=
  fun _ => inferInstanceAs (Decidable (_ ∧ _))

structure IsWord (n : Nat) (a b : α) (f : List α) : Prop where
  length_eq : f.length = n
  closes : [a, b] <:+ f

/-! ### The delimiter -/

theorem suffix_concat_iff {xs : List α} {x : α} :
    [a, b] <:+ xs ++ [x] ↔ xs.getLast? = some a ∧ x = b := by
  constructor
  · intro h
    obtain ⟨front, hfront⟩ := h
    have hsplit : (front ++ [a]) ++ [b] = xs ++ [x] := by simpa using hfront
    obtain ⟨rfl, hb⟩ := List.append_inj' hsplit rfl
    exact ⟨List.getLast?_concat, by simpa using hb.symm⟩
  · intro h
    obtain ⟨hlast, rfl⟩ := h
    obtain ⟨front, rfl⟩ := List.getLast?_eq_some_iff.mp hlast
    exact ⟨front, by simp⟩

theorem two_le_of_suffix {xs : List α} (h : [a, b] <:+ xs) : 2 ≤ xs.length := h.length_le

/-- A delimiter at the end of a concatenation is in its second part, unless it is split. -/
theorem suffix_append_iff {xs ys : List α} (hxs : xs.getLast? ≠ some a) (hys : ys ≠ []) :
    [a, b] <:+ xs ++ ys ↔ [a, b] <:+ ys := by
  obtain ⟨front, y, rfl⟩ := (List.eq_nil_or_concat' ys).resolve_left hys
  rw [← List.append_assoc, suffix_concat_iff, suffix_concat_iff, List.getLast?_append]
  cases hfront : front.getLast? with
  | none => simp [hxs]
  | some z => simp

theorem not_closed_nil (hn : 0 < n) : ¬ Closed n a b [] := by
  intro h
  exact absurd h.1 (Nat.not_le.mpr hn)

/-! ### Counting -/

theorem leftClosed_closed : Segmentation.LeftClosed (Closed n a b) :=
  fun _ _ hsuffix h => ⟨h.1.trans hsuffix.length_le, h.2.trans hsuffix⟩

/-- Every segment takes `n` symbols at least. -/
theorem mul_length_outputs_le [DecidableEq α] (pending xs : List α) :
    n * ((Segmentation.segmenter (Closed n a b)).outputs pending xs).length ≤
      pending.length + xs.length := by
  have hjoin := congrArg List.length
    (@Segmentation.flatten_outputs_append_finish _ (Closed n a b) _ pending xs)
  rw [List.length_append, List.length_append, List.length_flatten] at hjoin
  have hsum := List.card_nsmul_le_sum
    (((Segmentation.segmenter (Closed n a b)).outputs pending xs).map List.length) n (by
      intro length hlength
      obtain ⟨s, hs, rfl⟩ := List.mem_map.mp hlength
      exact (Segmentation.stop_of_mem_outputs hs).1)
  rw [List.length_map, Nat.nsmul_eq_mul, Nat.mul_comm] at hsum
  omega

section Words

variable {f prev : List α} {fs : List (List α)} {s : Nat}

/-- What is left of a word does not end with the first symbol of the delimiter. -/
theorem IsWord.getLast?_drop_ne (hprev : IsWord n a b prev) (hab : a ≠ b) (s : Nat) :
    (prev.drop s).getLast? ≠ some a := by
  obtain ⟨front, rfl⟩ := hprev.closes
  intro h
  rw [List.getLast?_drop] at h
  split at h
  · exact nomatch h
  · rw [List.getLast?_append] at h
    exact hab (by simpa using h.symm)

/-- A word is a segment. -/
theorem IsWord.isSegment (hf : IsWord n a b f) : Segmentation.IsSegment (Closed n a b) f where
  stops := ⟨hf.length_eq.ge, hf.closes⟩
  minimal _ hp hne hclosed :=
    hne (hp.eq_of_length (le_antisymm hp.length_le (hf.length_eq.trans_le hclosed.1)))

/-! ### Where a word is cut -/

/-- The first place in a word, from `s` on, at which the delimiter ends. -/
noncomputable def nextEnd (a b : α) (f : List α) (s : Nat) : Nat :=
  sInf {e | s ≤ e ∧ [a, b] <:+ f.take e}

theorem IsWord.nextEnd_mem (hf : IsWord n a b f) (hs : s ≤ n) :
    s ≤ nextEnd a b f s ∧ [a, b] <:+ f.take (nextEnd a b f s) := by
  have hnonempty : Set.Nonempty {e | s ≤ e ∧ [a, b] <:+ f.take e} := by
    refine ⟨n, hs, ?_⟩
    rw [List.take_of_length_le hf.length_eq.le]
    exact hf.closes
  exact Nat.sInf_mem hnonempty

theorem nextEnd_le {e : Nat} (hs : s ≤ e) (he : [a, b] <:+ f.take e) : nextEnd a b f s ≤ e :=
  Nat.sInf_le ⟨hs, he⟩

theorem not_suffix_of_lt_nextEnd {e : Nat} (hs : s ≤ e) (he : e < nextEnd a b f s) :
    ¬ [a, b] <:+ f.take e := fun h => absurd (nextEnd_le hs h) (Nat.not_le.mpr he)

theorem IsWord.nextEnd_le_length (hf : IsWord n a b f) (hs : s ≤ n) : nextEnd a b f s ≤ n := by
  apply nextEnd_le hs
  rw [List.take_of_length_le hf.length_eq.le]
  exact hf.closes

theorem IsWord.nextEnd_self (hf : IsWord n a b f) : nextEnd a b f n = n :=
  le_antisymm (hf.nextEnd_le_length le_rfl) (hf.nextEnd_mem le_rfl).1

/-- A word is cut before its end if the delimiter ends in it at or after the place where the word
before was cut. -/
theorem IsWord.nextEnd_lt_iff (hf : IsWord n a b f) (hs : s ≤ n) :
    nextEnd a b f s < n ↔ ∃ e, s ≤ e ∧ e < n ∧ [a, b] <:+ f.take e := by
  constructor
  · intro h
    obtain ⟨hle, hends⟩ := hf.nextEnd_mem hs
    exact ⟨_, hle, h, hends⟩
  · intro h
    obtain ⟨e, hle, hlt, hends⟩ := h
    exact (nextEnd_le hle hends).trans_lt hlt

/-- Where the last of some words is cut, for a reader that cut the word before them at `s`. -/
noncomputable def phase (a b : α) (s : Nat) (fs : List (List α)) : Nat :=
  fs.foldl (fun s f => nextEnd a b f s) s

theorem phase_cons (f : List α) : phase a b s (f :: fs) = phase a b (nextEnd a b f s) fs := rfl

theorem phase_append (gs : List (List α)) :
    phase a b s (fs ++ gs) = phase a b (phase a b s fs) gs := List.foldl_append

theorem phase_le (hfs : ∀ f ∈ fs, IsWord n a b f) (hs : s ≤ n) : phase a b s fs ≤ n := by
  induction fs generalizing s with
  | nil => exact hs
  | cons f fs ih =>
      apply ih fun g hg => hfs g (List.mem_cons_of_mem f hg)
      exact (hfs f List.mem_cons_self).nextEnd_le_length hs

/-- A reader that has reached the end of a word cuts every word at its end. -/
theorem phase_self (hfs : ∀ f ∈ fs, IsWord n a b f) : phase a b n fs = n := by
  induction fs with
  | nil => rfl
  | cons f fs ih =>
      rw [phase_cons, (hfs f List.mem_cons_self).nextEnd_self]
      exact ih fun g hg => hfs g (List.mem_cons_of_mem f hg)

/-- Two words in a row are cut before their ends if the delimiter ends in both, in the second no
earlier than in the first. -/
theorem phase_pair_lt_iff {g : List α} (hf : IsWord n a b f) (hg : IsWord n a b g) (hs : s ≤ n) :
    phase a b s [f, g] < n ↔
      ∃ e e', s ≤ e ∧ e ≤ e' ∧ e' < n ∧ [a, b] <:+ f.take e ∧ [a, b] <:+ g.take e' := by
  have hfn := hf.nextEnd_le_length hs
  have hpair : phase a b s [f, g] = nextEnd a b g (nextEnd a b f s) := rfl
  rw [hpair, hg.nextEnd_lt_iff hfn]
  constructor
  · intro h
    obtain ⟨e', hle, hlt, hends⟩ := h
    obtain ⟨hle', hends'⟩ := hf.nextEnd_mem hs
    exact ⟨_, e', hle', hle, hlt, hends', hends⟩
  · intro h
    obtain ⟨e, e', hse, hee', hlt, hends, hends'⟩ := h
    exact ⟨e', (nextEnd_le hse hends).trans hee', hlt, hends'⟩

theorem phase_pair_eq_iff {g : List α} (hf : IsWord n a b f) (hg : IsWord n a b g) (hs : s ≤ n) :
    phase a b s [f, g] = n ↔
      ¬ ∃ e e', s ≤ e ∧ e ≤ e' ∧ e' < n ∧ [a, b] <:+ f.take e ∧ [a, b] <:+ g.take e' := by
  have hwords : ∀ w ∈ [f, g], IsWord n a b w :=
    List.forall_mem_cons.mpr ⟨hf, List.forall_mem_singleton.mpr hg⟩
  rw [← phase_pair_lt_iff hf hg hs, not_lt]
  exact ⟨fun h => h.ge, fun h => (phase_le hwords hs).antisymm h⟩

end Words

/-! ### A stream of words -/

section Stream

variable {f prev : List α} {fs : List (List α)} {s : Nat}

/-- The rest of a word and a part of the next one are not closed before the next end. -/
theorem IsWord.not_closed_of_prefix (hprev : IsWord n a b prev) (hab : a ≠ b) (hs : s ≤ n)
    {p : List α} (hp : p <+: f.take (nextEnd a b f s)) (hne : p ≠ [])
    (hpart : p ≠ f.take (nextEnd a b f s)) : ¬ Closed n a b (prev.drop s ++ p) := by
  intro hclosed
  have hlt : p.length < nextEnd a b f s := by
    have hle := hp.length_le
    rw [List.length_take] at hle
    apply (hle.trans (min_le_left _ _)).lt_of_ne
    intro heq
    apply hpart
    apply hp.eq_of_length_le
    rw [heq, List.length_take]
    exact min_le_left _ _
  have hsp : s ≤ p.length := by
    have hlength := hclosed.1
    rw [List.length_append, List.length_drop, hprev.length_eq] at hlength
    have := List.length_pos_iff.mpr hne
    omega
  have hpf : p = f.take p.length := List.prefix_iff_eq_take.mp (hp.trans (List.take_prefix _ _))
  apply not_suffix_of_lt_nextEnd hsp hlt
  rw [← hpf]
  exact (suffix_append_iff (hprev.getLast?_drop_ne hab s) hne).mp hclosed.2

theorem IsWord.closed_nextEnd (hprev : IsWord n a b prev) (hf : IsWord n a b f) (hab : a ≠ b)
    (hs : s ≤ n) : Closed n a b (prev.drop s ++ f.take (nextEnd a b f s)) := by
  obtain ⟨hle, hends⟩ := hf.nextEnd_mem hs
  have hne : f.take (nextEnd a b f s) ≠ [] := List.ne_nil_of_length_pos (by
    have := two_le_of_suffix hends
    omega)
  refine ⟨?_, (suffix_append_iff (hprev.getLast?_drop_ne hab s) hne).mpr hends⟩
  have hlen := hf.nextEnd_le_length hs
  rw [List.length_append, List.length_drop, List.length_take, hprev.length_eq, hf.length_eq]
  omega

variable [DecidableEq α]

open Segmentation

/-- **One word.** After the rest of a word, the next word is cut once, at its next end, and leaves
its own rest. -/
theorem run_word (hab : a ≠ b) (hprev : IsWord n a b prev) (hf : IsWord n a b f) (hs : s ≤ n) :
    (segmenter (Closed n a b)).trace (prev.drop s) f =
        List.replicate (nextEnd a b f s - 1) none ++
          some (prev.drop s ++ f.take (nextEnd a b f s)) ::
            List.replicate (n - nextEnd a b f s) none ∧
      (segmenter (Closed n a b)).finish (prev.drop s) f = f.drop (nextEnd a b f s) := by
  have hends := (hf.nextEnd_mem hs).2
  have htwo := two_le_of_suffix hends
  have htake : (f.take (nextEnd a b f s)).length = nextEnd a b f s := by
    rw [List.length_take, hf.length_eq, min_eq_left (hf.nextEnd_le_length hs)]
  have hne : f.take (nextEnd a b f s) ≠ [] := List.ne_nil_of_length_pos (by omega)
  have hrest : ∀ p, p <+: f.drop (nextEnd a b f s) → p ≠ [] → ¬ Closed n a b ([] ++ p) := by
    intro p hp _ hclosed
    have hle := hclosed.1.trans hp.length_le
    rw [List.length_drop, hf.length_eq] at hle
    have hend := hf.nextEnd_le_length hs
    rw [List.length_take] at htwo
    omega
  obtain ⟨htrace, hfinish⟩ := run_of_first_stop hne
    (fun p hp hpne hpart => hprev.not_closed_of_prefix hab hs hp hpne hpart)
    (hprev.closed_nextEnd hf hab hs)
  obtain ⟨htrace', hfinish'⟩ := run_of_quiet hrest
  have hsplit := List.take_append_drop (nextEnd a b f s) f
  constructor
  · calc (segmenter (Closed n a b)).trace (prev.drop s) f
        = (segmenter (Closed n a b)).trace (prev.drop s)
            (f.take (nextEnd a b f s) ++ f.drop (nextEnd a b f s)) := by rw [hsplit]
      _ = _ := by
        rw [Transducer.trace_append, hfinish, htrace, htrace', htake, List.length_drop,
          hf.length_eq, List.append_assoc, List.singleton_append]
  · calc (segmenter (Closed n a b)).finish (prev.drop s) f
        = (segmenter (Closed n a b)).finish (prev.drop s)
            (f.take (nextEnd a b f s) ++ f.drop (nextEnd a b f s)) := by rw [hsplit]
      _ = _ := by rw [Transducer.finish_append, hfinish, hfinish', List.nil_append]

/-- What is given out at the places of one word. -/
theorem getElem?_trace_word (hab : a ≠ b) (hprev : IsWord n a b prev) (hf : IsWord n a b f)
    (hs : s ≤ n) {i : Nat} (hi : i < n) :
    ((segmenter (Closed n a b)).trace (prev.drop s) f)[i]? =
      some (if i + 1 = nextEnd a b f s then some (prev.drop s ++ f.take (nextEnd a b f s))
        else none) := by
  have htwo := two_le_of_suffix (hf.nextEnd_mem hs).2
  rw [List.length_take] at htwo
  rw [(run_word hab hprev hf hs).1, List.getElem?_append, List.length_replicate]
  split
  · rw [List.getElem?_replicate_of_lt ‹_›, if_neg (by omega)]
  · rw [List.getElem?_cons]
    split
    · rw [if_pos (by omega)]
    · rw [List.getElem?_replicate_of_lt (by omega), if_neg (by omega)]

/-- The next word is read after the rest of the one before it. -/
theorem trace_stream_cons (hab : a ≠ b) (hprev : IsWord n a b prev) (hf : IsWord n a b f)
    (hs : s ≤ n) :
    (segmenter (Closed n a b)).trace (prev.drop s) (f :: fs).flatten =
      (segmenter (Closed n a b)).trace (prev.drop s) f ++
        (segmenter (Closed n a b)).trace (f.drop (nextEnd a b f s)) fs.flatten := by
  rw [List.flatten_cons, Transducer.trace_append, (run_word hab hprev hf hs).2]

/-- What is given out at a place of a stream is what the word of that place gives out, after the
word before it has been cut. -/
theorem getElem?_trace_stream (hab : a ≠ b) (hprev : IsWord n a b prev)
    (hfs : ∀ f ∈ fs, IsWord n a b f) (hs : s ≤ n) {i j : Nat} (hi : i < n) (hf : fs[j]? = some f) :
    ∃ before, (prev :: fs)[j]? = some before ∧
      ((segmenter (Closed n a b)).trace (prev.drop s) fs.flatten)[n * j + i]? =
        some (if i + 1 = nextEnd a b f (phase a b s (fs.take j)) then
            some (before.drop (phase a b s (fs.take j)) ++ f.take (i + 1))
          else none) := by
  induction fs generalizing prev s j with
  | nil => simp at hf
  | cons g fs ih =>
      have hg := hfs g List.mem_cons_self
      have hlength : ((segmenter (Closed n a b)).trace (prev.drop s) g).length = n := by
        rw [Transducer.length_trace, hg.length_eq]
      rw [trace_stream_cons hab hprev hg hs]
      cases j with
      | zero =>
          obtain rfl : g = f := by simpa using hf
          refine ⟨prev, rfl, ?_⟩
          have hphase : phase a b s (List.take 0 (g :: fs)) = s := rfl
          rw [Nat.mul_zero, Nat.zero_add, List.getElem?_append_left (hlength.symm ▸ hi), hphase,
            getElem?_trace_word hab hprev hg hs hi]
          congr 1
          split
          · rw [‹i + 1 = _›]
          · rfl
      | succ j =>
          obtain ⟨before, hbefore, htrace⟩ :=
            ih hg (fun f hf => hfs f (List.mem_cons_of_mem g hf)) (hg.nextEnd_le_length hs)
              (by simpa using hf)
          refine ⟨before, by simpa using hbefore, ?_⟩
          have hplace : n * (j + 1) + i = n + (n * j + i) := by
            rw [Nat.mul_succ]
            omega
          rw [hplace, List.getElem?_append_right (by omega), hlength, Nat.add_sub_cancel_left, htrace]
          rfl

end Stream

end Delimited
